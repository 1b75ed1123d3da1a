import CkbDiscovery.Exposed.Interleaved
import CkbDiscovery.Marci.Served

/-! The query service beside Marci on a Redis server that may refuse commands
of either. It refuses none, so requests fail for no other reason than those the
service brings about itself. -/

namespace CkbDiscovery.Exposed

open Effect Redis Marci Program
open Relation (ReflTransGen)

/-- What may happen between two commands of the reader, refusals included. -/
inductive MeanwhileServed (config : Config) (serde : Serde) : Concurrent → Concurrent → Prop where
  | lapse (drifts : StateDrifts state later) :
      MeanwhileServed config serde ⟨state, pending⟩ ⟨later, pending⟩
  | takeUp : MeanwhileServed config serde ⟨state, .done ()⟩ ⟨state, handle config serde message⟩
  | call (served : Serves state question reply later) :
      MeanwhileServed config serde ⟨state, .ask question next⟩ ⟨later, next reply⟩
  | restart : MeanwhileServed config serde ⟨state, pending⟩ ⟨state.restart, .done ()⟩

inductive ServerServes : Concurrent → (command : Command) → ReadReply command → Concurrent → Prop where
  | answered (answers : ServerAnswers moment command reply later) :
      ServerServes moment command reply later
  | refused (failed : execute order moment.state.redis command = .error error) :
      ServerServes moment command (.error error) moment

def besideServing (config : Config) (serde : Serde) : World Concurrent ReadReply :=
  ⟨ServerServes, MeanwhileServed config serde⟩

/-- The command reads what its key holds. -/
def Reads (command : Command) : Prop :=
  command.Typed setKeys ∧ ∀ now, command.Timely now

/-- The keys hold what they should, and the handler at work treats them so. -/
structure Wellkept (config : Config) (moment : Concurrent) : Prop where
  typed : moment.state.redis.Typed setKeys
  pending : moment.pending.Respects (MarciCall.Fits config) (Comes world)

variable {config : Config} {serde : Serde}

theorem besideServing_narrows (serde : Serde) (small : config.ckbNodeDefaultTimeout.toNat < 2 ^ 63) :
    Narrows (besideServing config serde) (besideMarci config serde) Reads (Wellkept config)
      fun moment => config.Timely moment.state.redis.now where
  drifts sound timely meanwhile := by
    cases meanwhile with
    | lapse drifts => exact .lapse drifts
    | takeUp => exact .takeUp
    | call served =>
      exact .call ((serving_narrows config).answers sound.typed timely sound.pending.1 served)
    | restart => exact .restart
  answers sound timely reads served := by
    cases served with
    | answered answers => exact answers
    | refused failed =>
      obtain ⟨reply, after, executed⟩ := execute_progress _ sound.typed reads.1 (reads.2 _)
      cases executed.symm.trans failed
  drifted sound meanwhile := by
    cases meanwhile with
    | lapse drifts => exact ⟨(serving_narrows config).drifted sound.typed drifts, sound.pending⟩
    | takeUp => exact ⟨sound.typed, (safe_handle small _).respects⟩
    | call answered =>
      exact ⟨(serving_narrows config).answered sound.typed sound.pending.1 answered,
        sound.pending.2 _ ⟨_, _, answered⟩⟩
    | restart => exact ⟨sound.typed, trivial⟩
  answered sound reads answers := by
    cases answers with
    | answer executed => exact ⟨execute_typed sound.typed reads.1 executed, sound.pending⟩
  driftLimit meanwhile timely := by
    cases meanwhile with
    | lapse drifts => exact (serving_narrows config).driftLimit drifts timely
    | takeUp | restart => exact timely
    | call served => exact (serving_narrows config).answerLimit served timely
  answerLimit served timely := by
    cases served with
    | refused failed => exact timely
    | answered answers =>
      cases answers with
      | answer executed => exact timely.earlier (execute_exact executed).1.ge

theorem reads_get {format : KeyFormat} {peerId : String} (plain : format ∉ setFormats) :
    Reads (.get (format.key peerId)) :=
  ⟨fun member => plain (mem_setKeys.mp member), fun _ => trivial⟩

theorem reads_keys (pattern : String) : Reads (.keys pattern) := ⟨trivial, fun _ => trivial⟩

variable {F64 : Type} {formats : Formats F64}

/-- The second that a reply names is one of the calendar. -/
def InCalendar (formats : Formats F64) : (command : Command) → ReadReply command → Prop
  | .get key, .ok (some content) => (∃ peerId, key = KeyFormat.peerSeen.key peerId) →
      ((formats.u64Value content).getD 0).toNat ≤ formats.lastSecond
  | _, _ => True

/-- Unrefused, the request is answered unless it meets a second past the calendar. -/
def Endures (config : Config) (serde : Serde) (formats : Formats F64) (program : Program ReadReply α) : Prop :=
  program.Assured Reads (Comes (besideMarci config serde)) (InCalendar formats)

theorem Endures.andThen {program : Program ReadReply α} {next : α → Program ReadReply β}
    (first : Endures config serde formats program) (rest : ∀ value, Endures config serde formats (next value)) :
    Endures config serde formats (program >>= next) :=
  Program.Assured.andThen first rest

theorem endures_get {format : KeyFormat} {peerId : String} (plain : format ∉ setFormats)
    (other : format ≠ .peerSeen) :
    Endures config serde formats (Client.send (.get (format.key peerId))) := by
  refine Program.Assured.perform (reads_get plain) fun reply _ => ?_
  cases reply with
  | error error => trivial
  | ok found =>
    cases found with
    | none => trivial
    | some content =>
      rintro ⟨seen, same⟩
      exact absurd (KeyFormat.key_eq_key.mp same).1 other

theorem endures_keys (pattern : String) :
    Endures config serde formats (unwrapOr [] (Client.keys pattern)) := by
  refine Endures.andThen (Program.Assured.perform (reads_keys pattern) fun _ _ => trivial) fun reply => ?_
  cases reply <;> trivial

theorem endures_getOptional {γ : Type} (convert : String → Option γ) {format : KeyFormat} {peerId : String}
    (plain : format ∉ setFormats) (other : format ≠ .peerSeen) :
    Endures config serde formats (getOptional convert (format.key peerId)) :=
  (endures_get plain other).andThen fun reply => by rcases reply with _ | _ | _ <;> trivial

/-- The time stamp is read last, and turned into a date at once. -/
theorem endures_lastSeen (peerId : String) (build : Nat → Peer F64) :
    Endures config serde formats (do
      let timestamp ← getOptional formats.u64Value (KeyFormat.peerSeen.key peerId)
      let lastSeen ← dateTime formats (timestamp.getD 0)
      pure (build lastSeen)) := by
  refine ⟨reads_get (by decide), fun reply comes => ?_⟩
  rcases reply with refused | found
  · obtain ⟨before, after, answered⟩ := comes
    cases answered
  · cases found with
    | none =>
      have early : ((none : Option UInt64).getD 0).toNat ≤ formats.lastSecond := Nat.zero_le _
      refine .inl ⟨trivial, ?_⟩
      change Endures config serde formats (dateTime formats _ >>= _)
      rw [dateTime, if_pos early]
      trivial
    | some content =>
      by_cases inCalendar : ((formats.u64Value content).getD 0).toNat ≤ formats.lastSecond
      · refine .inl ⟨fun _ => inCalendar, ?_⟩
        change Endures config serde formats (dateTime formats _ >>= _)
        rw [dateTime, if_pos inCalendar]
        trivial
      · refine .inr ⟨fun fine => inCalendar (fine ⟨peerId, rfl⟩), ?_⟩
        change dateTime formats _ >>= _ = _
        rw [dateTime, if_neg inCalendar]
        rfl

theorem endures_makePeer (id : Int32) (version versionShort peerId : String) :
    Endures config serde formats (makePeer formats id version versionShort peerId) := by
  simp only [makePeer, getPeerInfo, LawfulMonad.bind_assoc, pure_bind]
  exact (endures_getOptional _ (by decide) (by decide)).andThen fun country =>
    (endures_getOptional _ (by decide) (by decide)).andThen fun city =>
    (endures_getOptional _ (by decide) (by decide)).andThen fun loc =>
    (endures_getOptional _ (by decide) (by decide)).andThen fun full =>
    endures_lastSeen peerId _

theorem endures_onlineInMap {format : KeyFormat} (peerId : String) (plain : format ∉ setFormats)
    (other : format ≠ .peerSeen) :
    Endures config serde formats (onlineInMap formats format peerId) := by
  refine Endures.andThen (Endures.andThen ?_ fun reply => ?_) fun version =>
    (endures_makePeer _ _ _ _).andThen fun _ => trivial
  · refine (endures_get plain other).andThen fun reply => ?_
    rcases reply with _ | _ | _ <;> trivial
  · cases reply <;> trivial

theorem endures_peerInMap (peerId : String) : Endures config serde formats (peerInMap formats peerId) := by
  refine (endures_keys _).andThen fun onlineKeys => ?_
  split
  · exact endures_onlineInMap peerId (by decide) (by decide)
  · refine (endures_keys _).andThen fun online2Keys => ?_
    split
    · exact endures_onlineInMap peerId (by decide) (by decide)
    · refine (endures_keys _).andThen fun unknownKeys => ?_
      split
      · exact (endures_makePeer _ _ _ _).andThen fun _ => trivial
      · trivial

/-- The commands of the reader suit the keys, as long as none of them is refused. -/
def ReadsOnly (config : Config) (serde : Serde) (program : Program ReadReply α) : Prop :=
  program.Respects Reads (Comes (besideMarci config serde))

theorem Endures.readsOnly {program : Program ReadReply α} (endures : Endures config serde formats program) :
    ReadsOnly config serde program :=
  Program.Assured.respects endures

theorem listedVersion_readsOnly (statuses : Statuses) (peerId : String) :
    ReadsOnly config serde (listedVersion statuses peerId).run := by
  have read {format : KeyFormat} (plain : format ∉ setFormats) :
      ReadsOnly config serde (ExceptT.mk (Client.getString (format.key peerId)) : Query ReadReply _).run := by
    refine ⟨reads_get plain, fun reply _ => ?_⟩
    rcases reply with _ | _ | _ <;> trivial
  unfold listedVersion
  split
  · exact read (by decide)
  · split
    · exact read (by decide)
    · trivial

theorem listPeers_readsOnly (formats : Formats F64) (statuses : Statuses) (index : Nat)
    (peerIds : List String) : ReadsOnly config serde (listPeers formats statuses index peerIds).run := by
  induction peerIds generalizing index with
  | nil => trivial
  | cons peerId rest inductionHypothesis =>
    rw [listPeers]
    split
    · exact inductionHypothesis (index + 1)
    · exact .run_bind (listedVersion_readsOnly statuses peerId) fun version =>
        .run_bind (.run_lift (Endures.readsOnly (endures_makePeer _ _ _ _))) fun peer =>
          .run_bind (inductionHypothesis (index + 1)) fun peers => trivial

theorem getLabelledPeers_readsOnly (formats : Formats F64) (network : CKBNetworkType) :
    ReadsOnly config serde (getLabelledPeers formats network).run := by
  have scan (pattern : String) :
      ReadsOnly config serde (ExceptT.mk (Client.keys pattern) : Query ReadReply _).run :=
    ⟨reads_keys pattern, fun _ _ => trivial⟩
  unfold getLabelledPeers
  split
  · trivial
  · refine .run_bind (scan _) fun keys => ?_
    split
    · trivial
    · exact .run_bind (.run_bind (scan _) fun _ => .run_bind (scan _) fun _ =>
        .run_bind (scan _) fun _ => trivial) fun statuses => listPeers_readsOnly formats statuses 0 _

variable {start before : State} {turns : List MarciTurn} {program : Program ReadReply α}

/-- Nothing that the service reads beside Marci's runs is refused. -/
theorem reading_served (typed : start.redis.Typed setKeys)
    (run : Run serving (handle config serde) start turns before)
    (ended : Ended (besideServing config serde) ⟨before, .done ()⟩ program states trace outcome)
    (reads : ReadsOnly config serde program)
    (timely : ∀ moment ∈ states, config.Timely moment.state.redis.now) :
    Ended (besideMarci config serde) ⟨before, .done ()⟩ program states trace outcome := by
  have starting : config.Timely before.redis.now := timely _ ended.visits_start
  have small : config.ckbNodeDefaultTimeout.toNat < 2 ^ 63 := by
    have := starting.onlineDeadline
    omega
  obtain ⟨_, typedBefore⟩ := run.narrowed (serving_narrows config)
    (fun message => (safe_handle small message).respects) typed starting
  exact ended.narrowed (besideServing_narrows serde small) reads ⟨typedBefore, trivial⟩ timely

/-- What happens without refusals may happen beside a server that could refuse. -/
theorem ended_besideServing
    (ended : Ended (besideMarci config serde) moment program states trace outcome) :
    Ended (besideServing config serde) moment program states trace outcome := by
  refine ended.mono _ (besideServing config serde) (fun meanwhile => ?_) fun answers => .answered answers
  cases meanwhile with
  | lapse drifts => exact .lapse drifts
  | takeUp => exact .takeUp
  | call answered => exact .call (.answered answered)
  | restart => exact .restart

/-- A server that may refuse commands of the listing and of Marci beside it: the
listing still succeeds exactly if each record it goes on to read is still there,
and each date is one of the calendar. -/
theorem listing_served (typed : start.redis.Typed setKeys) {network : CKBNetworkType}
    (supported : network ≠ .dev) (run : Run serving (handle config serde) start turns before)
    {outcome : Option (Except RedisError (List (String × Peer F64)))}
    (ended : Ended (besideServing config serde) ⟨before, .done ()⟩
      (getLabelledPeers formats network : Query ReadReply _).run states trace outcome)
    (timely : ∀ moment ∈ states, config.Timely moment.state.redis.now) :
    (∃ peers, outcome = some (.ok peers)) ↔ ∀ event ∈ trace, Answerable formats event := by
  obtain ⟨pattern, indexed⟩ := indexPattern_of_ne_dev supported
  have narrowly := reading_served typed run ended (getLabelledPeers_readsOnly formats network) timely
  exact getLabelledPeers_succeeds indexed _ _ _ ⟨_, narrowly⟩

/-- One record lapses between its scan and its reading: no refusal, but an error. -/
theorem listing_served_lapse : ∃ turns before states trace,
    Run serving (handle sampleConfig .unary) (.initial 0) turns before ∧
      Ended (besideServing sampleConfig .unary) ⟨before, .done ()⟩
        (getLabelledPeers sampleFormats .mirana : Query ReadReply _).run states trace
        (some (.error .typeConversion)) ∧
      ¬ ∀ event ∈ trace, Answerable sampleFormats event := by
  obtain ⟨turns, before, states, trace, outcome, run, ended, checked⟩ :=
    play_neighbours [0, 0, 0, 0, 2000] (fun states outcome => decide
      (outcome = some (.error .typeConversion) ∧ ∀ moment ∈ states, moment.state.redis.now ≤ 200000))
      (by decide +kernel)
  obtain ⟨rfl, early⟩ := of_decide_eq_true checked
  have serves : Run serving (handle sampleConfig .unary) (.initial 0) turns before :=
    run.mono world _ id fun answers => .answered answers
  have timely : ∀ moment ∈ states, sampleConfig.Timely moment.state.redis.now :=
    fun moment member => sampleConfig_timely (early moment member)
  refine ⟨turns, before, states, trace, serves, ended_besideServing ended, fun answerable => ?_⟩
  obtain ⟨peers, listed⟩ := (listing_served (typed_empty 0) (by decide) serves
    (ended_besideServing ended) timely).mpr answerable
  cases listed

/-- A status request is answered, whatever Marci and the server do meanwhile,
unless it reads a last second past the calendar. -/
theorem status_served (typed : start.redis.Typed setKeys)
    (run : Run serving (handle config serde) start turns before) {peerId : String}
    (ended : Ended (besideServing config serde) ⟨before, .done ()⟩
      (peerInMap formats peerId : Program ReadReply _) states trace outcome)
    (timely : ∀ moment ∈ states, config.Timely moment.state.redis.now) :
    outcome.isSome ↔ ∀ event ∈ trace, InCalendar formats event.question event.reply := by
  have endures : Endures config serde formats (peerInMap formats peerId) := endures_peerInMap peerId
  have narrowly := reading_served typed run ended endures.readsOnly timely
  exact narrowly.finishes endures

/-- The status of a peer while its record lapses: answered all the same. -/
theorem status_served_lapse : ∃ turns before states trace status,
    Run serving (handle sampleConfig .unary) (.initial 0) turns before ∧
      Ended (besideServing sampleConfig .unary) ⟨before, .done ()⟩
        (peerInMap sampleFormats "Qm" : Program ReadReply _) states trace (some status) ∧
      status.inMap = true ∧
      ∀ event ∈ trace, InCalendar sampleFormats event.question event.reply := by
  have checked : (play sampleConfig .unary sampleSurroundings neighboursScript (.initial 0)).any
      fun result => ((peerInMap sampleFormats "Qm" : Program ReadReply _).rehearse
        (serve .sorted) Concurrent.wait [0, 2000] ⟨result.2, .done ()⟩).any fun answer =>
          decide ((∀ moment ∈ answer.1, moment.state.redis.now ≤ 200000) ∧
            answer.2.2.any PeerStatus.inMap = true) := by
    decide +kernel
  obtain ⟨⟨turns, before⟩, played, asking⟩ := (Option.any_eq_true _ _).mp checked
  obtain ⟨⟨states, trace, outcome⟩, rehearsed, holds⟩ := (Option.any_eq_true _ _).mp asking
  obtain ⟨early, inMap⟩ := of_decide_eq_true holds
  obtain ⟨status, rfl, shown⟩ := (Option.any_eq_true _ _).mp inMap
  have serves : Run serving (handle sampleConfig .unary) (.initial 0) turns before :=
    (play_run played).mono world _ id fun answers => .answered answers
  have ended : Ended (besideMarci sampleConfig .unary) ⟨before, .done ()⟩
      (peerInMap sampleFormats "Qm" : Program ReadReply _) states trace (some status) :=
    .of_rehearse (serve_faithful .sorted)
      (fun pause moment => .lapse (.redis (.elapse moment.state.redis pause))) rehearsed
  have timely : ∀ moment ∈ states, sampleConfig.Timely moment.state.redis.now :=
    fun moment member => sampleConfig_timely (early moment member)
  exact ⟨turns, before, states, trace, status, serves, ended_besideServing ended, shown,
    (status_served (typed_empty 0) serves (ended_besideServing ended) timely).mp rfl⟩

end CkbDiscovery.Exposed
