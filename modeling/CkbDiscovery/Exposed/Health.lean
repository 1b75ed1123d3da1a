import CkbDiscovery.Exposed.Listing
import CkbDiscovery.Marci.Traces

/-! The `/health` endpoint: the time stamp that Marci leaves when it has dealt
with a report or has asked for dials. -/

namespace CkbDiscovery.Exposed

open Effect Redis Marci Program

/-- `get::<_, u64>`: neither nil nor other texts convert. -/
def getU64 {Call : Type} {Reply : Call → Type} [Client Reply] {F64 : Type} (formats : Formats F64)
    (key : String) : Program Reply (Except RedisError UInt64) := do
  match ← Client.send (.get key) with
  | .ok (some content) =>
    match formats.u64Value content with
    | some value => pure (.ok value)
    | none => pure (.error .typeConversion)
  | .ok none => pure (.error .typeConversion)
  | .error error => pure (.error error)

structure ServiceStatus where
  lastUpdate : UInt64
  deriving DecidableEq

def lastUpdate {Call : Type} {Reply : Call → Type} [Client Reply] {F64 : Type} (formats : Formats F64) :
    Program Reply (Except RedisError ServiceStatus) := do
  match ← getU64 formats serviceLastUpdateKey with
  | .ok timestamp => pure (.ok ⟨timestamp⟩)
  | .error error => pure (.error error)

variable {F64 : Type} {formats : Formats F64} {config : Config} {serde : Serde}
  {before after : State} {trace : HandlerTrace} {turns : List MarciTurn}

/-- `last_update` on a store that stands still. -/
def lastUpdateOn (formats : Formats F64) (order : Enumeration) (store : Store) :
    Option (Except RedisError ServiceStatus) :=
  (lastUpdate formats : Program ReadReply _).evaluate (snapshot order store)

/-- What a call reads off the clock, if that is what it does. -/
def reading? : Event State MarciCall.Reply → Option UInt64
  | ⟨_, .systemTime, now⟩ => some now
  | _ => none

/-- The last time that a turn read the clock. -/
def lastReading (trace : HandlerTrace) : Option UInt64 := (trace.filterMap reading?).getLast?

/-- The time stamp of a turn that leaves one for the service. -/
def heartbeat (turn : MarciTurn) : Option UInt64 :=
  match turn.message with
  | .reachable _ | .tick => lastReading turn.trace
  | .online _ | .unknown _ => none

def stampEntry (now : UInt64) : Entry := ⟨.text (toString now.toNat), none⟩

/-- The handler ends with a reading of the clock that it leaves for the service. -/
def Stamps (handler : Handler Unit) : Prop :=
  ∀ ⦃before trace after⦄, HandlerCompletes before handler trace after () →
    ∃ now, lastReading trace = some now ∧
      after.redis.find? serviceLastUpdateKey = some (stampEntry now)

theorem stamps_setLastUpdate : Stamps setLastUpdate := by
  intro before trace after completes
  obtain ⟨_, _, now, _, reads, writes, rfl⟩ := Completes.split completes
  obtain ⟨_, _, rfl, _⟩ := Completes.of_perform reads
  obtain ⟨reply, sends, _⟩ := HandlerCompletes.unwrapOr writes
  obtain ⟨asked, _, rfl, rfl, served⟩ := HandlerCompletes.send sends
  exact ⟨now, rfl, served.set⟩

/-- Whatever is done before, the last reading of the clock is that of the rest. -/
theorem stamps_andThen {first : Handler α} {rest : α → Handler Unit} (stamps : ∀ value, Stamps (rest value)) :
    Stamps (first >>= rest) := by
  intro before trace after completes
  obtain ⟨_, _, value, _, _, remaining, rfl⟩ := Completes.split completes
  obtain ⟨now, read, stamped⟩ := stamps value remaining
  refine ⟨now, ?_, stamped⟩
  rw [lastReading, List.filterMap_append, List.getLast?_append, ← lastReading, read]
  rfl

theorem stamps_handleReachable (peer : ReachableInfo) : Stamps (handleReachable serde peer) :=
  stamps_andThen fun _ => stamps_andThen fun _ => stamps_andThen fun _ => stamps_setLastUpdate

theorem stamps_handleTick : Stamps (handleTick serde) :=
  stamps_andThen fun _ => stamps_andThen fun _ => stamps_setLastUpdate

/-- A turn that only touches records of a peer leaves the stamp alone. -/
theorem stamp_kept {handler : Handler Unit} {locates : Bool} {known : List KeyFormat} {peerId : String}
    (touches : Touches locates known peerId handler)
    (completes : HandlerCompletes before handler trace after ()) {stamp : Option UInt64}
    (stamped : before.redis.find? serviceLastUpdateKey = stamp.map stampEntry) :
    after.redis.find? serviceLastUpdateKey = stamp.map stampEntry := by
  have unwritten : ∀ event ∈ trace, event.question.writes ≠ some serviceLastUpdateKey := by
    rintro ⟨_, question, _⟩ member written
    have about := Reaches.permitted touches completes.reaches _ member
    cases question with
    | redis command =>
      obtain ⟨format, _, touched⟩ := about
      have same := touched.symm.trans (Command.touches_of_writes written)
      exact key_ne_serviceLastUpdate format peerId (Option.some.inj same)
    | _ => cases written
  have frame := frame_along completes.reaches.path unwritten
  cases stamp with
  | none => exact frame.absent (fun other => other rfl) stamped
  | some now => exact frame.kept _ (fun other => other rfl) _ stamped rfl

theorem touches_handleOnline (peer : PeerInfo) : Touches true
    ([.onlinePeer, .online2Peer, .onlineIp, .peerFull, .peerSeen, .unknownPeer] ++ locationFormats)
    peer.info.peerId (handleOnline config serde peer) :=
  ((touches_markOnline peer).mono (by simp)).andThen fun _ =>
  ((touches_locateOnline peer).mono (by simp [locationFormats])).andThen fun _ => (touches_settleOnline peer).mono (by simp)

theorem touches_handleUnknown (peer : NodeMetaInfo) : Touches false
    [.onlinePeer, .unknownPeer, .reachablePeer, .peerSeen] peer.peerId (handleUnknown config peer) :=
  ((touches_markUnknown peer.peerId).mono (by decide)).andThen fun _ => (touches_setLastSeen _).mono (by decide)

/-- The stamp in the store is that of the latest turn that left one. -/
theorem run_stamped (run : MarciRun config serde (.initial now) turns after) :
    after.redis.find? serviceLastUpdateKey = (turns.findSome? heartbeat).map stampEntry := by
  induction run with
  | start => rfl
  | @turn turns before message trace after earlier completes inductionHypothesis =>
    cases message with
    | online peer => exact stamp_kept (touches_handleOnline peer) completes inductionHypothesis
    | unknown peer => exact stamp_kept (touches_handleUnknown peer) completes inductionHypothesis
    | reachable peer =>
      obtain ⟨now, read, stamped⟩ := stamps_handleReachable peer completes
      have beat : heartbeat ⟨.reachable peer, trace⟩ = some now := read
      rw [stamped, List.findSome?_cons, beat]
      rfl
    | tick =>
      obtain ⟨now, read, stamped⟩ := stamps_handleTick completes
      have beat : heartbeat ⟨.tick, trace⟩ = some now := read
      rw [stamped, List.findSome?_cons, beat]
      rfl

/-- After every run the service reports when Marci last dealt with a report or
asked for dials, as its own clock said, and an error if it never has. -/
theorem health_reports (run : MarciRun config serde (.initial now) turns after)
    (readsBack : ∀ value : UInt64, formats.u64Value (toString value.toNat) = some value)
    (order : Enumeration) :
    lastUpdateOn formats order after.redis = some (match turns.findSome? heartbeat with
      | some timestamp => .ok ⟨timestamp⟩
      | none => .error .typeConversion) := by
  have sent : (Client.send (.get serviceLastUpdateKey) : Program ReadReply _).evaluate (snapshot order after.redis) =
      some (snapshot order after.redis (.get serviceLastUpdateKey)) := rfl
  rw [lastUpdateOn, lastUpdate, getU64, evaluate_bind, evaluate_bind, sent, snapshot_get, run_stamped run]
  cases turns.findSome? heartbeat with
  | none => rfl
  | some timestamp =>
    simp only [Option.map_some, stampEntry, Option.bind_some, readsBack]
    rfl

/-- Texts of numbers are read in decimal. -/
def decimalFormats : Formats Unit :=
  { sampleFormats with u64Value := fun text => some (.ofNat (Nat.ofDigitChars 10 text.toList 0)) }

theorem decimalFormats_readsBack (value : UInt64) :
    decimalFormats.u64Value (toString value.toNat) = some value := by
  simp [decimalFormats]

/-- A tick stamps the service; the report that comes online later does not. -/
def stampedScript : List (Nat × Message) :=
  [(0, .tick), (5, .online ⟨⟨"Qm", [], .mirana⟩, "0.1", true, false⟩)]

theorem health_reports_stamped : ∃ turns after,
    MarciRun sampleConfig .unary (.initial 0) turns after ∧
      lastUpdateOn decimalFormats .sorted after.redis = some (.ok ⟨1700000000⟩) := by
  have played : (play sampleConfig .unary { sampleSurroundings with clock := 1700000000 } stampedScript
      (.initial 0)).any fun result => decide (result.1.findSome? heartbeat = some 1700000000) := by
    decide
  obtain ⟨turns, after, run, beat⟩ := play_reaches played
  refine ⟨turns, after, run, ?_⟩
  rw [health_reports run decimalFormats_readsBack, beat]

end CkbDiscovery.Exposed
