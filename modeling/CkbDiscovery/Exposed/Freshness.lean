import CkbDiscovery.Exposed.Listing
import CkbDiscovery.Marci.Lapse
import CkbDiscovery.Marci.Punctual

/-! The version the readers report against the versions that were reported. -/

namespace CkbDiscovery.Exposed

open Effect Redis Marci

variable {config : Config} {serde : Serde} {before after : State} {trace : HandlerTrace}
  {peerId : String} {turns : List MarciTurn}

/-- The online message about the peer that the turn processed. -/
def onlineReport? (peerId : String) (turn : MarciTurn) : Option PeerInfo :=
  match turn.message with
  | .online peer => if peer.info.peerId = peerId then some peer else none
  | _ => none

/-- The version in the latest online message about the peer. -/
def latestVersion (peerId : String) (turns : List MarciTurn) : Option String :=
  (turns.filterMap (onlineReport? peerId)).head?.map PeerInfo.version

/-- An online message that finds a live record of its peer carries the version
of the record. -/
def CarriesStored (peerId : String) (turn : MarciTurn) : Prop :=
  match onlineReport? peerId turn with
  | some peer => ∀ event ∈ turn.trace,
      event.question = .redis (.get (KeyFormat.onlinePeer.key peerId)) →
      event.before.redis.text? (KeyFormat.onlinePeer.key peerId) ∈ [none, some peer.version]
  | none => True

instance (peerId : String) : DecidablePred (CarriesStored peerId) := fun turn => by
  unfold CarriesStored; split <;> infer_instance

/-- The entry holds the latest version. -/
def Latest (peerId : String) (turns : List MarciTurn) (entry : Entry) : Prop :=
  ∃ version, latestVersion peerId turns = some version ∧ entry.value = .text version

/-- The first-hand record is up to date; the external one is, or the first-hand
record is going to outlive it. -/
structure Fresh (peerId : String) (turns : List MarciTurn) (store : Store) : Prop where
  online : ∀ entry, store.find? (KeyFormat.onlinePeer.key peerId) = some entry →
    Latest peerId turns entry
  online2 : ∀ entry, store.find? (KeyFormat.online2Peer.key peerId) = some entry →
    Latest peerId turns entry ∨ ∃ deadline, entry.deadline = some deadline ∧
      Held store (KeyFormat.onlinePeer.key peerId) deadline

/-- What is known of an external record that is still there after a turn. -/
theorem external_limits {store later : Store} {entry : Entry}
    (records : StatusRecords config peerId store)
    (found : store.find? (KeyFormat.online2Peer.key peerId) = some entry)
    (still : later.find? (KeyFormat.online2Peer.key peerId) = some entry) :
    0 < config.ckbNodeDefaultTimeout.toNat ∧ ∃ deadline, entry.deadline = some deadline ∧
      deadline ≤ store.now + 1000 * config.ckbNodeDefaultTimeout.toNat ∧ later.now ≤ deadline := by
  obtain ⟨version, deadline, rfl, positive, limit⟩ := records.online2 entry found
  have alive : later.now ≤ deadline := by
    simpa [Entry.aliveAt] using Store.aliveAt_of_find? still
  exact ⟨positive, deadline, rfl, limit, alive⟩

/-- A turn that changes no version keeps the records fresh. -/
theorem Fresh.keep {message : Message} (fresh : Fresh peerId turns before.redis)
    (records : StatusRecords config peerId before.redis)
    (completes : Completes punctualWorld before (handle config serde message) trace after ())
    (same : latestVersion peerId (⟨message, trace⟩ :: turns) = latestVersion peerId turns)
    (values : ∀ entry, after.redis.find? (KeyFormat.onlinePeer.key peerId) = some entry →
      ∃ previous, before.redis.find? (KeyFormat.onlinePeer.key peerId) = some previous ∧
        entry.value = previous.value)
    (older : NothingNew (KeyFormat.online2Peer.key peerId) before.redis after.redis) :
    Fresh peerId (⟨message, trace⟩ :: turns) after.redis := by
  constructor
  · intro entry found
    obtain ⟨previous, met, value⟩ := values entry found
    obtain ⟨version, latest, stored⟩ := fresh.online previous met
    exact ⟨version, same.trans latest, value.trans stored⟩
  · intro entry still
    have found := older entry still
    rcases fresh.online2 entry found with ⟨version, latest, stored⟩ | ⟨deadline, timed, held⟩
    · exact .inl ⟨version, same.trans latest, stored⟩
    · obtain ⟨positive, limit, timedToo, near, inTime⟩ := external_limits records found still
      obtain rfl := Option.some.inj (timed.symm.trans timedToo)
      have lasts : Lasts (KeyFormat.onlinePeer.key peerId) config.ckbNodeDefaultTimeout.toNat deadline
          before.redis after.redis := lasts_of_completes positive (renews_handle message) completes
      exact .inr ⟨deadline, timed, lasts.held near held inTime⟩

theorem latestVersion_online {peer : PeerInfo} :
    latestVersion peer.info.peerId (⟨.online peer, trace⟩ :: turns) = some peer.version := by
  simp [latestVersion, onlineReport?]

theorem latestVersion_other {turn : MarciTurn} (other : ¬ ReportsOnline peerId turn) :
    latestVersion peerId (turn :: turns) = latestVersion peerId turns := by
  have none : onlineReport? peerId turn = none := by
    obtain ⟨message, trace⟩ := turn
    cases message with
    | online peer => exact if_neg other
    | _ => rfl
  rw [latestVersion, List.filterMap_cons_none none, latestVersion]

/-- An online message about the peer keeps its records fresh. -/
theorem Fresh.online_turn {peer : PeerInfo} (fresh : Fresh peer.info.peerId turns before.redis)
    (records : StatusRecords config peer.info.peerId before.redis)
    (completes : Completes punctualWorld before (handle config serde (.online peer)) trace after ())
    (carries : CarriesStored peer.info.peerId ⟨.online peer, trace⟩) :
    Fresh peer.info.peerId (⟨.online peer, trace⟩ :: turns) after.redis := by
  cases (handleOnline_turn (punctual_completes completes)).1 with
  | refreshed found read moved other =>
    rename_i entry
    obtain ⟨event, member, asked, met⟩ := read
    obtain ⟨version, latest, stored⟩ := fresh.online entry found
    have readBack : event.before.redis.text? (KeyFormat.onlinePeer.key peer.info.peerId) =
        some version := by
      obtain ⟨value, deadline⟩ := entry
      obtain rfl := stored
      rw [Store.text?, met]
    have allowed : ∀ event ∈ trace,
        event.question = .redis (.get (KeyFormat.onlinePeer.key peer.info.peerId)) →
        event.before.redis.text? (KeyFormat.onlinePeer.key peer.info.peerId) ∈
          [none, some peer.version] := by
      simpa [CarriesStored, onlineReport?] using carries
    have carried := allowed event member asked
    obtain rfl : version = peer.version := by simpa [readBack] using carried
    refine fresh.keep records completes (latestVersion_online.trans latest.symm) ?_ other
    intro kept located
    obtain ⟨_, _, same⟩ := moved kept located
    exact ⟨entry, found, by rw [same]⟩
  | external isEx missing placed =>
    constructor
    · intro entry found
      rw [missing] at found
      cases found
    · intro entry found
      obtain ⟨_, _, rfl⟩ := placed entry found
      exact .inl ⟨peer.version, latestVersion_online, rfl⟩
  | direct isEx stored placed other =>
    constructor
    · intro entry found
      obtain ⟨_, _, rfl⟩ := placed entry found
      exact ⟨peer.version, latestVersion_online, rfl⟩
    · intro entry still
      obtain ⟨positive, deadline, timed, near, inTime⟩ :=
        external_limits records (other entry still) still
      obtain ⟨event, member, stores⟩ := stored
      exact .inr ⟨deadline, timed,
        held_of_stored (renews_handle (.online peer)) completes ⟨event, member, stores⟩ near inTime⟩

theorem Fresh.turn {message : Message} (fresh : Fresh peerId turns before.redis)
    (records : StatusRecords config peerId before.redis)
    (completes : Completes punctualWorld before (handle config serde message) trace after ())
    (carries : CarriesStored peerId ⟨message, trace⟩) :
    Fresh peerId (⟨message, trace⟩ :: turns) after.redis := by
  have free := punctual_completes completes
  by_cases reports : ReportsOnline peerId ⟨message, trace⟩
  · cases message with
    | online peer =>
      obtain rfl : peer.info.peerId = peerId := reports
      exact fresh.online_turn records completes carries
    | _ => exact absurd reports id
  · refine fresh.keep records completes (latestVersion_other reports) ?_
      (online2_nothingNew free.reaches reports)
    have frame := (onlyWrites_handle message).frame free
    intro entry found
    by_cases subject : peerId = message.subject
    · cases message with
      | online peer => exact absurd subject.symm reports
      | unknown peer =>
        subst subject
        cases handleUnknown_turn free with
        | kept met moved _ _ =>
          obtain ⟨_, _, same⟩ := moved entry found
          exact ⟨_, met, by rw [same]⟩
        | ignored missing _ _ =>
          rw [Message.subject, missing] at found
          cases found
        | promoted missing _ _ _ _ =>
          rw [Message.subject, missing] at found
          cases found
      | _ => exact ⟨entry, frame.older _ (by simp [Message.formats]) entry found, rfl⟩
    · exact ⟨entry, frame.older _ (fun inside => subject (mem_recordKeys.mp inside).2) entry found, rfl⟩

theorem run_fresh (run : PunctualRun config serde (.initial now) turns after)
    (carries : ∀ turn ∈ turns, CarriesStored peerId turn) : Fresh peerId turns after.redis := by
  revert carries
  refine run.keeps (fun turns state => (∀ turn ∈ turns, CarriesStored peerId turn) →
    Fresh peerId turns state.redis) ?_ ?_
  · intro _
    constructor <;>
    · intro entry found
      simp [State.initial] at found
  · intro turns before message trace after earlier inductionHypothesis completes carries
    have fresh := inductionHypothesis fun turn member => carries turn (List.mem_cons_of_mem _ member)
    exact fresh.turn (run_statusRecords (punctual_run earlier) peerId) completes
      (carries _ List.mem_cons_self)

/-- When every online message that finds a live record carries its version and
keys lapse by the clock, the version reported for an online peer is that of the
latest online message about it. -/
theorem run_reports_latest (run : PunctualRun config serde (.initial now) turns after)
    (carries : ∀ turn ∈ turns, CarriesStored peerId turn)
    (live : after.redis.Live (KeyFormat.onlinePeer.key peerId) ∨
      after.redis.Live (KeyFormat.online2Peer.key peerId)) :
    latestVersion peerId turns = some (reportedVersion after.redis peerId) := by
  have fresh := run_fresh run carries
  by_cases online : after.redis.Live (KeyFormat.onlinePeer.key peerId)
  · obtain ⟨⟨value, deadline⟩, found⟩ := Store.live_iff.mp online
    obtain ⟨version, latest, rfl⟩ := fresh.online _ found
    simp [reportedVersion, online, latest, Store.text?, found]
  · have online2 := live.resolve_left online
    obtain ⟨⟨value, deadline⟩, found⟩ := Store.live_iff.mp online2
    rcases fresh.online2 _ found with ⟨version, latest, rfl⟩ | ⟨_, _, entry, held, _⟩
    · rw [reportedVersion, if_neg online, if_pos online2, latest]
      simp [Store.text?, found]
    · exact absurd (Store.live_iff.mpr ⟨entry, held⟩) online

/-- A node upgrades between two probes. -/
def upgradeScript : List (Nat × Message) :=
  [(0, .reachable ⟨⟨"Qm", [], .mirana⟩, ⟨"Qr", [], .mirana⟩⟩),
    (0, .online ⟨⟨"Qm", [], .mirana⟩, "0.1", true, false⟩),
    (10000, .online ⟨⟨"Qm", [], .mirana⟩, "0.2", true, false⟩)]

/-- It is listed with the version of the first probe. -/
theorem upgrade_unseen : ∃ turns after,
    MarciRun sampleConfig .unary (.initial 0) turns after ∧
      after.redis.Live (KeyFormat.onlinePeer.key "Qm") ∧
      latestVersion "Qm" turns = some "0.2" ∧ reportedVersion after.redis "Qm" = "0.1" ∧
      (getPeersOn sampleFormats .sorted after.redis .mirana).map
        (Except.map (List.map fun entry => (entry.1, entry.2.version))) = some (.ok [("Qm", "0.1")]) ∧
      (peerInMapOn sampleFormats .sorted after.redis "Qm").map
        (fun status => status.info.map Peer.version) = some (some "0.1") := by
  have played : (play sampleConfig .unary sampleSurroundings upgradeScript (.initial 0)).any
      fun result => decide (
        result.2.redis.Live (KeyFormat.onlinePeer.key "Qm") ∧
        latestVersion "Qm" result.1 = some "0.2" ∧ reportedVersion result.2.redis "Qm" = "0.1" ∧
        (getPeersOn sampleFormats .sorted result.2.redis .mirana).map
          (Except.map (List.map fun entry => (entry.1, entry.2.version))) = some (.ok [("Qm", "0.1")]) ∧
        (peerInMapOn sampleFormats .sorted result.2.redis "Qm").map
          (fun status => status.info.map Peer.version) = some (some "0.1")) := by
    decide
  exact play_reaches played

/-- The peer is known from outside, found with a newer version and found again. -/
def confirmedScript : List (Nat × Message) :=
  [(0, .online ⟨⟨"Qm", [], .mirana⟩, "0.1", true, true⟩),
    (10000, .online ⟨⟨"Qm", [], .mirana⟩, "0.2", true, false⟩),
    (10000, .online ⟨⟨"Qm", [], .mirana⟩, "0.2", true, false⟩)]

theorem run_reports_latest_confirmed : ∃ turns after,
    PunctualRun sampleConfig .unary (.initial 0) turns after ∧
      after.redis.Live (KeyFormat.online2Peer.key "Qm") ∧
      latestVersion "Qm" turns = some (reportedVersion after.redis "Qm") := by
  have played : (play sampleConfig .unary sampleSurroundings confirmedScript (.initial 0)).any
      fun result => decide ((∀ turn ∈ result.1, CarriesStored "Qm" turn) ∧
        result.2.redis.Live (KeyFormat.online2Peer.key "Qm")) := by
    decide
  obtain ⟨⟨turns, after⟩, same, holds⟩ := (Option.any_eq_true _ _).mp played
  obtain ⟨carries, live⟩ := of_decide_eq_true holds
  exact ⟨turns, after, play_punctual same, live,
    run_reports_latest (play_punctual same) carries (.inr live)⟩

end CkbDiscovery.Exposed
