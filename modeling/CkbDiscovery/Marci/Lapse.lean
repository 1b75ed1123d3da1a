import CkbDiscovery.Marci.Records

/-! How long an online record outlives the last report. -/

namespace CkbDiscovery.Marci

open Effect Redis
open Relation (ReflTransGen)

variable {config : Config} {serde : Serde} {before after : State} {trace : HandlerTrace}
  {peerId : String} {turns : List MarciTurn}

/-- The turn processes an online message about the peer, of either kind. -/
def ReportsOnline (peerId : String) (turn : MarciTurn) : Prop :=
  match turn.message with
  | .online peer => peer.info.peerId = peerId
  | _ => False

instance (peerId : String) : DecidablePred (ReportsOnline peerId) := fun turn => by
  unfold ReportsOnline; split <;> infer_instance

/-- The turn processes a failed dial of the peer and finds its online record live. -/
def FindsOnline (peerId : String) (turn : MarciTurn) : Prop :=
  match turn.message with
  | .unknown peer => peer.peerId = peerId ∧ ∃ event ∈ turn.trace,
      event.question = .redis (.get (KeyFormat.onlinePeer.key peerId)) ∧
        event.before.redis.Live (KeyFormat.onlinePeer.key peerId)
  | _ => False

instance (peerId : String) : DecidablePred (FindsOnline peerId) := fun turn => by
  unfold FindsOnline; split <;> infer_instance

/-- Nothing under the key is newer than the earlier store. -/
def NothingNew (key : String) (earlier later : Store) : Prop :=
  ∀ entry, later.find? key = some entry → earlier.find? key = some entry

/-- The external record is written by online messages about its peer only. -/
theorem online2_nothingNew {message : Message}
    (reaches : Reaches world before (handle config serde message) trace after)
    (unreported : ¬ ReportsOnline peerId ⟨message, trace⟩) :
    NothingNew (KeyFormat.online2Peer.key peerId) before.redis after.redis := by
  have frame := (onlyWrites_handle message).frame_reached reaches
  intro entry found
  refine frame.older _ (fun inside => ?_) entry found
  obtain ⟨member, same⟩ := mem_recordKeys.mp inside
  cases message with
  | online peer => exact unreported same.symm
  | _ => simp [Message.formats] at member

/-- A failed dial that finds no online record does not write it either. -/
theorem markUnknown_nothingNew
    (reaches : Reaches world before (markUnknown config peerId) trace after)
    (offline : ∀ event ∈ trace,
      event.question = .redis (.get (KeyFormat.onlinePeer.key peerId)) →
      ¬ event.before.redis.Live (KeyFormat.onlinePeer.key peerId)) :
    NothingNew (KeyFormat.onlinePeer.key peerId) before.redis after.redis := by
  rcases Reaches.split reaches with reading | ⟨_, middle, reply, _, asked, branch, rfl⟩
  · have reads : OnlyWrites false [] peerId (Client.getString (KeyFormat.onlinePeer.key peerId) : Handler _) :=
      onlyWrites_getString _
    exact (reads.frame_reached reading).older _ (by simp)
  · obtain ⟨met, _, rfl, earlier, later, read⟩ := HandlerCompletes.getString asked
    cases reply with
    | ok version =>
      obtain ⟨entry, found⟩ := Store.found_of_text? read
      exact absurd (Store.live_iff.mpr ⟨entry, found⟩) (offline _ List.mem_cons_self rfl)
    | error _ =>
      have frame := (onlyWrites_verifyWitnesses peerId).frame_reached branch
      intro entry found
      exact (earlier.trans later).older _ (Set.notMem_empty _) entry
        (frame.older _ (by simp) entry found)

theorem online_nothingNew {message : Message}
    (reaches : Reaches world before (handle config serde message) trace after)
    (unreported : ¬ ReportsOnline peerId ⟨message, trace⟩)
    (unfound : ¬ FindsOnline peerId ⟨message, trace⟩) :
    NothingNew (KeyFormat.onlinePeer.key peerId) before.redis after.redis := by
  have frame := (onlyWrites_handle message).frame_reached reaches
  by_cases subject : peerId = message.subject
  · cases message with
    | online peer => exact absurd subject.symm unreported
    | unknown peer =>
      subst subject
      have offline : ∀ event ∈ trace,
          event.question = .redis (.get (KeyFormat.onlinePeer.key peer.peerId)) →
          ¬ event.before.redis.Live (KeyFormat.onlinePeer.key peer.peerId) :=
        fun event member asked live => unfound ⟨rfl, event, member, asked, live⟩
      rcases Reaches.split reaches with marking | ⟨first, marked, _, rest, marking, seeing, rfl⟩
      · exact markUnknown_nothingNew marking offline
      · have earlier := markUnknown_nothingNew marking.reaches
          fun event member => offline event (List.mem_append_left _ member)
        have later := (onlyWrites_setLastSeen peer.peerId).frame_reached seeing
        intro entry found
        exact earlier entry (later.older _ (by simp) entry found)
    | _ => exact frame.older _ (by simp [Message.formats])
  · exact frame.older _ fun inside => subject (mem_recordKeys.mp inside).2

/-- What no turn of a run renews is left from its start. -/
theorem run_nothingNew {start : State} (key : String)
    (renews : MarciTurn → Prop)
    (step : ∀ {before message trace after},
      HandlerCompletes before (handle config serde message) trace after () →
      ¬ renews ⟨message, trace⟩ → NothingNew key before.redis after.redis)
    (run : MarciRun config serde start turns after) (quiet : ∀ turn ∈ turns, ¬ renews turn) :
    NothingNew key start.redis after.redis := by
  revert quiet
  refine run.keeps (fun turns state => (∀ turn ∈ turns, ¬ renews turn) →
    NothingNew key start.redis state.redis) ?_ ?_
  · intro _ entry found
    exact found
  · intro turns before message trace after _ inductionHypothesis completes quiet entry found
    have earlier := inductionHypothesis fun turn member => quiet turn (List.mem_cons_of_mem _ member)
    exact earlier entry (step completes (quiet _ List.mem_cons_self) entry found)

/-- A record that was there at a time is gone once its timeout has passed. -/
theorem VersionRecord.lapses {earlier later : Store} {key : String} {time : Nat}
    (record : VersionRecord config earlier key) (nothingNew : NothingNew key earlier later)
    (early : earlier.now ≤ time)
    (late : time + 1000 * config.ckbNodeDefaultTimeout.toNat < later.now) : ¬ later.Live key := by
  intro live
  obtain ⟨entry, found⟩ := Store.live_iff.mp live
  obtain ⟨version, deadline, rfl, _, limit⟩ := record entry (nothingNew entry found)
  have alive : later.now ≤ deadline := by
    simpa [Entry.aliveAt] using Store.aliveAt_of_find? found
  omega

/-- Without online messages about a peer after a time, at every later moment
past the timeout its external record is gone, and so is its own record unless
a failed dial found it live in between. -/
theorem run_lapses {earlier later : List MarciTurn} {middle : State} {time : Nat} {message : Message}
    (upTo : MarciRun config serde (.initial now) earlier middle) (early : middle.redis.now ≤ time)
    (run : MarciRun config serde middle later before)
    (reaches : Reaches world before (handle config serde message) trace after)
    (unreported : ∀ turn ∈ ⟨message, trace⟩ :: later, ¬ ReportsOnline peerId turn)
    (late : time + 1000 * config.ckbNodeDefaultTimeout.toNat < after.redis.now) :
    ¬ after.redis.Live (KeyFormat.online2Peer.key peerId) ∧
      ((∀ turn ∈ ⟨message, trace⟩ :: later, ¬ FindsOnline peerId turn) →
        ¬ after.redis.Live (KeyFormat.onlinePeer.key peerId)) := by
  have records := run_statusRecords upTo peerId
  constructor
  · have sofar := run_nothingNew (KeyFormat.online2Peer.key peerId) (ReportsOnline peerId)
      (fun completes quiet => online2_nothingNew completes.reaches quiet) run
      fun turn member => unreported turn (List.mem_cons_of_mem _ member)
    have last := online2_nothingNew reaches (unreported _ List.mem_cons_self)
    exact records.online2.lapses (fun entry found => sofar entry (last entry found)) early late
  · intro unfound
    have sofar := run_nothingNew (KeyFormat.onlinePeer.key peerId)
      (fun turn => ReportsOnline peerId turn ∨ FindsOnline peerId turn)
      (fun completes quiet => online_nothingNew completes.reaches (quiet ∘ .inl) (quiet ∘ .inr)) run
      fun turn member renews => renews.elim (unreported turn (List.mem_cons_of_mem _ member))
        (unfound turn (List.mem_cons_of_mem _ member))
    have last := online_nothingNew reaches (unreported _ List.mem_cons_self)
      (unfound _ List.mem_cons_self)
    exact records.online.lapses (fun entry found => sofar entry (last entry found)) early late

def foundOnlineScript : List (Nat × Message) :=
  [(0, .online ⟨⟨"Qm", [], .mirana⟩, "0.1", true, false⟩)]

/-- A dial of the peer fails after a minute. -/
def failedDialScript : List (Nat × Message) := [(60000, .unknown ⟨"Qm", [], .mirana⟩), (90000, .tick)]

/-- Its record is live half a minute after it should have lapsed. -/
theorem failed_dial_refreshes : ∃ earlier middle later after,
    MarciRun sampleConfig .unary (.initial 0) earlier middle ∧ middle.redis.now ≤ 0 ∧
      MarciRun sampleConfig .unary middle later after ∧
      (∀ turn ∈ later, ¬ ReportsOnline "Qm" turn) ∧
      0 + 1000 * sampleConfig.ckbNodeDefaultTimeout.toNat < after.redis.now ∧
      after.redis.Live (KeyFormat.onlinePeer.key "Qm") := by
  have played : (play sampleConfig .unary sampleSurroundings foundOnlineScript (.initial 0)).any
      fun first => decide (first.2.redis.now ≤ 0 ∧
        (play sampleConfig .unary sampleSurroundings failedDialScript first.2).any fun last => decide (
          (∀ turn ∈ last.1, ¬ ReportsOnline "Qm" turn) ∧
          0 + 1000 * sampleConfig.ckbNodeDefaultTimeout.toNat < last.2.redis.now ∧
          last.2.redis.Live (KeyFormat.onlinePeer.key "Qm"))) := by
    decide
  obtain ⟨earlier, middle, upTo, early, playedLast⟩ := play_reaches played
  obtain ⟨later, after, run, rest⟩ := play_reaches playedLast
  exact ⟨earlier, middle, later, after, upTo, early, run, rest⟩

/-- The peer is only reported by others from then on. -/
def reportedOnlyScript : List (Nat × Message) :=
  [(30000, .reachable ⟨⟨"Qm", [], .mirana⟩, ⟨"Qr", [], .mirana⟩⟩)]

theorem run_lapses_reported : ∃ earlier middle later before,
    MarciRun sampleConfig .unary (.initial 0) earlier middle ∧
      middle.redis.Live (KeyFormat.onlinePeer.key "Qm") ∧
      MarciRun sampleConfig .unary middle later before ∧
      ¬ (before.wait 200000).redis.Live (KeyFormat.onlinePeer.key "Qm") := by
  have played : (play sampleConfig .unary sampleSurroundings foundOnlineScript (.initial 0)).any
      fun first => decide (first.2.redis.now ≤ 0 ∧
        first.2.redis.Live (KeyFormat.onlinePeer.key "Qm") ∧
        (play sampleConfig .unary sampleSurroundings reportedOnlyScript first.2).any
          fun (last : List MarciTurn × State) => decide (
          (∀ turn ∈ (⟨.tick, []⟩ : MarciTurn) :: last.1, ¬ ReportsOnline "Qm" turn) ∧
          (∀ turn ∈ (⟨.tick, []⟩ : MarciTurn) :: last.1, ¬ FindsOnline "Qm" turn) ∧
          0 + 1000 * sampleConfig.ckbNodeDefaultTimeout.toNat < (last.2.wait 200000).redis.now)) := by
    decide
  obtain ⟨earlier, middle, upTo, early, live, playedLast⟩ := play_reaches played
  obtain ⟨later, before, run, unreported, unfound, late⟩ := play_reaches playedLast
  have reaches : Reaches world before (handle sampleConfig .unary .tick) [] (before.wait 200000) :=
    .here (wait_drifts 200000 before)
  exact ⟨earlier, middle, later, before, upTo, live, run,
    (run_lapses upTo early run reaches unreported late).2 unfound⟩

end CkbDiscovery.Marci
