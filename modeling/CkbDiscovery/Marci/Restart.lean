import CkbDiscovery.Effect.Restart
import CkbDiscovery.Marci.Exclusivity
import CkbDiscovery.Marci.Location

/-! Marci stopped by a failing command and started again on the same store: which
interrupted turns leave the records of a peer at odds with one another. -/

namespace CkbDiscovery.Marci

open Effect Redis

variable {config : Config} {serde : Serde} {before after : State} {trace : HandlerTrace}
  {peerId : String} {message : Message}

abbrev MarciAttempt := Attempt State MarciCall.Reply Message

/-- A new process finds the store as it is and its cache empty. -/
def State.restart (state : State) : State := { state with ipinfoCache := ∅ }

abbrev MarciRestartRun (config : Config) (serde : Serde) : State → List MarciAttempt → State → Prop :=
  RestartRun world State.restart (handle config serde)

variable {attempts : List MarciAttempt} {attempt : MarciAttempt}

/-- The attempt did not stop between storing the online record and deleting an
unknown mark that was there. -/
def UnmarksWhole (peerId : String) (attempt : MarciAttempt) : Prop :=
  (∃ event ∈ attempt.trace, event.question.stores = some (KeyFormat.onlinePeer.key peerId)) →
    (∃ event ∈ attempt.trace, event.question = .redis (.del (KeyFormat.unknownPeer.key peerId))) ∨
      ¬ attempt.before.redis.Live (KeyFormat.unknownPeer.key peerId)

/-- The attempt did not stop within the four place records, unless those it
wrote already said the same. -/
def LocatesWhole (peerId : String) (attempt : MarciAttempt) : Prop :=
  (∃ event ∈ attempt.trace, event.question.writes = some (KeyFormat.peerPos.key peerId)) ∨
    ∀ event ∈ attempt.trace, ∀ format ∈ locationFormats, ∀ value,
      event.question = .redis (.set (format.key peerId) value) →
        attempt.before.redis.text? (format.key peerId) = some value

/-- The attempt did not stop between the first witness of a peer and its network. -/
def NetworksWhole (peerId : String) (attempt : MarciAttempt) : Prop :=
  (∃ event ∈ attempt.trace, event.question.stores = some (KeyFormat.reachablePeer.key peerId)) →
    (∃ event ∈ attempt.trace, event.question.stores = some (KeyFormat.peerNetwork.key peerId)) ∨
      attempt.before.redis.Live (KeyFormat.peerNetwork.key peerId)

/-- ipinfo gave this answer at some time. -/
def Answered (attempts : List MarciAttempt) (details : IpDetails) : Prop :=
  ∃ attempt ∈ attempts, ∃ event ∈ attempt.trace,
    answeredIp event.question event.reply = some details

/-- The place records are all absent or hold one known ipinfo answer. -/
def Located (known : IpDetails → Prop) (peerId : String) (store : Store) : Prop :=
  (∀ format ∈ locationFormats, store.find? (format.key peerId) = none) ∨
    ∃ details, known details ∧ ∀ record ∈ ipRecords peerId details,
      store.find? record.1 = some ⟨.text record.2, none⟩

def Networked (peerId : String) (store : Store) : Prop :=
  store.Live (KeyFormat.reachablePeer.key peerId) → store.Live (KeyFormat.peerNetwork.key peerId)

theorem Answered.cons {details : IpDetails} (answered : Answered attempts details) :
    Answered (attempt :: attempts) details := by
  obtain ⟨other, member, rest⟩ := answered
  exact ⟨other, List.mem_cons_of_mem _ member, rest⟩

/-- An online turn cut short leaves both records only where it deleted nothing. -/
theorem handleOnline_exclusive_reached {peer : PeerInfo}
    (exclusive : Exclusive before.redis peer.info.peerId)
    (whole : UnmarksWhole peer.info.peerId ⟨.online peer, before, trace, aborted⟩)
    (reaches : Reaches world before (handleOnline config serde peer) trace after) :
    Exclusive after.redis peer.info.peerId := by
  have unmarked := Reaches.permitted (handleOnline_never_marks peer peer.info.peerId) reaches
  intro both
  obtain ⟨online, unknown⟩ := both
  by_cases stored : ∃ event ∈ trace,
      event.question.stores = some (KeyFormat.onlinePeer.key peer.info.peerId)
  · rcases whole stored with deleted | missing
    · exact deleted_along reaches.path unmarked deleted unknown
    · exact missing (live_along reaches.path unmarked unknown)
  · have unstored : ∀ event ∈ trace,
        event.question.stores ≠ some (KeyFormat.onlinePeer.key peer.info.peerId) :=
      fun event member same => stored ⟨event, member, same⟩
    exact exclusive ⟨live_along reaches.path unstored online, live_along reaches.path unmarked unknown⟩

/-- A failed dial stores the mark only after the online record was found missing. -/
theorem handleUnknown_exclusive_reached {peer : NodeMetaInfo}
    (exclusive : Exclusive before.redis peer.peerId)
    (reaches : Reaches world before (handleUnknown config peer) trace after) :
    Exclusive after.redis peer.peerId := by
  have unstored : ∀ event ∈ trace, event.question.stores ≠ some (KeyFormat.onlinePeer.key peer.peerId) := by
    intro event member stored
    rcases Reaches.permitted (handleUnknown_stores peer) reaches event member _ stored with same | same
    · simp at same
    · simp at same
  intro both
  obtain ⟨online, unknown⟩ := both
  refine exclusive ⟨live_along reaches.path unstored online, ?_⟩
  rw [handleUnknown, markUnknown, bind_assoc] at reaches
  have asks : OnlyWrites false [] peer.peerId
      (Client.getString (KeyFormat.onlinePeer.key peer.peerId) : Handler _) := onlyWrites_getString _
  rcases Reaches.split reaches with inside | ⟨first, read, reply, rest, asked, later, rfl⟩
  · exact (asks.frame_reached inside).live_before (by simp) unknown
  refine (asks.frame asked).live_before (by simp) ?_
  cases reply with
  | ok version =>
    have only : OnlyWrites false [.onlinePeer, .peerSeen] peer.peerId (do
        expireOnline config (KeyFormat.onlinePeer.key peer.peerId)
        setLastSeen peer.peerId) :=
      ((onlyWrites_expireOnline _).mono (by decide)).andThen fun _ =>
        (onlyWrites_setLastSeen _).mono (by decide)
    exact (only.frame_reached later).live_before (by simp) unknown
  | error _ =>
    obtain ⟨_, _, _, _, quiet, missing⟩ := HandlerCompletes.getString asked
    have offline := Store.not_live_iff.mpr (quiet.absent (Set.notMem_empty _) missing)
    have back := live_along later.path
      (fun event member => unstored event (List.mem_append_right _ member)) online
    exact absurd back offline

/-- An attempt of any kind that is whole in this respect keeps the peer exclusive. -/
theorem exclusive_reached (exclusive : Exclusive before.redis peerId)
    (whole : UnmarksWhole peerId ⟨message, before, trace, aborted⟩)
    (reaches : Reaches world before (handle config serde message) trace after) :
    Exclusive after.redis peerId := by
  have frame := (onlyWrites_handle message).frame_reached reaches
  by_cases subject : peerId = message.subject
  · cases message with
    | online peer =>
      subst subject
      exact handleOnline_exclusive_reached exclusive whole reaches
    | unknown peer =>
      subst subject
      exact handleUnknown_exclusive_reached exclusive reaches
    | reachable peer => exact exclusive.fade frame (.inr (by simp [Message.formats]))
    | tick => exact exclusive.fade frame (.inr (by simp [Message.formats]))
  · exact exclusive.fade frame (.inl subject)

theorem fixed_events (peerId : String)
    (reaches : Reaches world before (handle config serde message) trace after)
    {format : KeyFormat} (member : format ∈ fixedFormats) :
    ∀ event ∈ trace, event.question.Fixes (format.key peerId) :=
  Reaches.permitted (fixes_handle message format member) reaches

theorem networked_reached (networked : Networked peerId before.redis)
    (timeless : Timeless before.redis (KeyFormat.peerNetwork.key peerId))
    (whole : NetworksWhole peerId ⟨message, before, trace, aborted⟩)
    (reaches : Reaches world before (handle config serde message) trace after) :
    Networked peerId after.redis := by
  intro witnessed
  have fixed := fixed_along reaches.path timeless
    (fixed_events peerId reaches (by decide : KeyFormat.peerNetwork ∈ fixedFormats))
  rcases fixed with ⟨unwritten, same⟩ | ⟨_, _, _, _, placed⟩
  · rw [Store.Live, same]
    by_cases stored : ∃ event ∈ trace,
        event.question.stores = some (KeyFormat.reachablePeer.key peerId)
    · rcases whole stored with ⟨event, member, named⟩ | there
      · exact absurd (MarciCall.writes_of_stores named) (unwritten event member)
      · exact there
    · exact networked (live_along reaches.path (fun event member same => stored ⟨event, member, same⟩)
        witnessed)
  · exact Store.live_iff.mpr ⟨_, placed⟩

theorem handleReachable_networks {peer : ReachableInfo}
    (completes : HandlerCompletes before (handleReachable serde peer) trace after ()) :
    ∃ event ∈ trace, event.question.stores = some (KeyFormat.peerNetwork.key peer.peer.peerId) := by
  obtain ⟨_, _, _, _, recording, _, rfl⟩ := Completes.split completes
  obtain ⟨_, _, _, _, _, indexing, rfl⟩ := Completes.split recording
  obtain ⟨_, _, _, _, _, addressing, rfl⟩ := Completes.split indexing
  obtain ⟨_, _, _, _, _, networking, rfl⟩ := Completes.split addressing
  obtain ⟨asked, rfl, _⟩ := HandlerCompletes.command networking
  refine ⟨_, List.mem_append_left _ (List.mem_append_right _ (List.mem_append_right _
    (List.mem_append_right _ List.mem_cons_self))), rfl⟩

/-- A finished attempt has always named the network of the peers it witnessed. -/
theorem finished_networks
    (completes : HandlerCompletes before (handle config serde message) trace after ()) :
    NetworksWhole peerId ⟨message, before, trace, false⟩ := by
  intro stored
  obtain ⟨event, member, witnessed⟩ := stored
  have written := MarciCall.writes_of_stores witnessed
  have unwritten := (onlyWrites_handle message).unwritten completes .reachablePeer peerId
  by_cases subject : peerId = message.subject
  · subst subject
    cases message with
    | online peer => exact absurd written (unwritten (.inl (by simp [Message.formats])) event member)
    | unknown peer =>
      rcases Reaches.permitted (handleUnknown_stores peer) completes.reaches event member _ witnessed
        with same | same
      · simp at same
      · simp at same
    | reachable peer => exact .inl (handleReachable_networks completes)
    | tick => exact absurd written (unwritten (.inl (by simp [Message.formats])) event member)
  · exact absurd written (unwritten (.inr subject) event member)

def CacheAnswered (attempts : List MarciAttempt) (state : State) : Prop :=
  ∀ ip details, state.ipinfoCache.lookup ip = some details → Answered attempts details

theorem answered_here {details : IpDetails}
    (answer : ∃ event ∈ trace, answeredIp event.question event.reply = some details) :
    Answered (⟨message, before, trace, aborted⟩ :: attempts) details :=
  ⟨_, List.mem_cons_self, answer⟩

theorem cache_reached (cached : CacheAnswered attempts before)
    (reaches : Reaches world before (handle config serde message) trace after) :
    CacheAnswered (⟨message, before, trace, aborted⟩ :: attempts) after := by
  intro ip details found
  rcases cache_along reaches.path (handle_caches reaches) ip details found with earlier | fresh
  · exact (cached ip details earlier).cons
  · exact answered_here fresh

/-- What a turn finds out about an address, ipinfo has answered in this run. -/
theorem found_answered (cached : CacheAnswered attempts before)
    (reaches : Reaches world before (handle config serde message) trace after) {details : IpDetails}
    (found : ∃ event ∈ trace, foundIp event.question event.reply = some details) :
    Answered (⟨message, before, trace, aborted⟩ :: attempts) details := by
  obtain ⟨⟨asked, question, reply⟩, member, hit⟩ := found
  cases question with
  | cachedIpinfo ip =>
    obtain ⟨first, last, replied, split, upTo, answered, _⟩ := reaches.path.through member
    change Answers asked (.cachedIpinfo ip) reply replied at answered
    cases answered with
    | cachedIpinfo =>
      have caches : ∀ event ∈ first, ∀ ip details, event.question = .cacheIpinfo ip details →
          ∃ other ∈ trace, answeredIp other.question other.reply = some details :=
        fun event early => handle_caches reaches event (by simp [split, early])
      rcases cache_along upTo caches ip details hit with earlier | fresh
      · exact (cached ip details earlier).cons
      · exact answered_here fresh
  | lookupIpinfo ip => exact answered_here ⟨_, member, hit⟩
  | redis _ | systemTime | cacheIpinfo _ _ | publish _ _ => cases hit

theorem Located.of_same {known wider : IpDetails → Prop} {earlier later : Store}
    (located : Located known peerId earlier) (widens : ∀ {details}, known details → wider details)
    (same : ∀ format ∈ locationFormats, later.find? (format.key peerId) = earlier.find? (format.key peerId)) :
    Located wider peerId later := by
  rcases located with absent | ⟨details, answered, holds⟩
  · exact .inl fun format member => (same format member).trans (absent format member)
  · refine .inr ⟨details, widens answered, fun record member => ?_⟩
    obtain ⟨format, place, key⟩ := ipRecords_key member
    rw [key, same format place, ← key]
    exact holds record member

theorem Located.timeless {known : IpDetails → Prop} {store : Store} {format : KeyFormat}
    (located : Located known peerId store) (member : format ∈ locationFormats) :
    Timeless store (format.key peerId) := by
  rcases located with absent | ⟨details, _, holds⟩
  · exact timeless_of_missing (absent format member)
  · obtain ⟨record, listed, key⟩ := ipRecords_listed details member
    exact timeless_of_found (key ▸ holds record listed)

/-- All four records are filled from one answer. -/
theorem located_whole {known : IpDetails → Prop} {details : IpDetails}
    (timeless : ∀ format ∈ locationFormats, Timeless before.redis (format.key peerId))
    (path : Path world before trace after) (answered : known details)
    (written : ∀ event ∈ trace, ∀ format ∈ locationFormats,
      event.question.writes = some (format.key peerId) → event.question ∈ ipCalls peerId details)
    (whole : ∀ call ∈ ipCalls peerId details, ∃ event ∈ trace, event.question = call) :
    Located known peerId after.redis := by
  refine .inr ⟨details, answered, fun record listed => ?_⟩
  obtain ⟨format, place, key⟩ := ipRecords_key listed
  refine set_along path (key ▸ timeless format place) (fun event member writes => ?_)
    (whole _ (List.mem_map_of_mem listed))
  obtain ⟨other, among, same⟩ := List.mem_map.mp (written event member format place (key ▸ writes))
  rw [← same] at writes
  obtain rfl := ipRecords_single among listed (Option.some.inj writes)
  exact same.symm

theorem located_reached (located : Located (Answered attempts) peerId before.redis)
    (cached : CacheAnswered attempts before) (relocates : Relocates finished peerId trace)
    (whole : finished = true ∨ LocatesWhole peerId ⟨message, before, trace, aborted⟩)
    (reaches : Reaches world before (handle config serde message) trace after) :
    Located (Answered (⟨message, before, trace, aborted⟩ :: attempts)) peerId after.redis := by
  have timeless : ∀ format ∈ locationFormats, Timeless before.redis (format.key peerId) :=
    fun _ member => located.timeless member
  rcases relocates with unlocated | ⟨details, filled⟩
  · refine located.of_same Answered.cons fun format member => ?_
    exact (timeless format member).unchanged
      (frame_along reaches.path fun event present => unlocated event present format member) (by simp)
  · have answered : Answered (⟨message, before, trace, aborted⟩ :: attempts) details :=
      found_answered cached reaches filled.found
    rcases whole with finished | reached | repeated
    · exact located_whole timeless reaches.path answered filled.written (filled.whole (.inl finished))
    · exact located_whole timeless reaches.path answered filled.written (filled.whole (.inr reached))
    · -- the records written so far say what they said before
      refine located.of_same Answered.cons fun format member => ?_
      have fixes := fixed_events peerId reaches (List.mem_cons_of_mem .peerNetwork member)
      rcases fixed_along reaches.path (timeless format member) fixes with
        ⟨_, same⟩ | ⟨event, present, value, same, placed⟩
      · exact same
      · have said := repeated event present format member value same
        obtain ⟨entry, found⟩ := Store.found_of_text? said
        have limit := timeless format member entry found
        obtain ⟨content, deadline⟩ := entry
        subst limit
        rw [placed, found]
        cases content with
        | text text => simpa [Store.text?, found, eq_comm] using said
        | set members => simp [Store.text?, found] at said

/-- Everything that has to hold of a peer between two messages, each part as
long as no attempt was interrupted at its own expense. -/
structure Consistent (peerId : String) (attempts : List MarciAttempt) (state : State) : Prop where
  exclusive : (∀ attempt ∈ attempts, attempt.aborted = true → UnmarksWhole peerId attempt) →
    Exclusive state.redis peerId
  located : (∀ attempt ∈ attempts, attempt.aborted = true → LocatesWhole peerId attempt) →
    Located (Answered attempts) peerId state.redis
  networked : (∀ attempt ∈ attempts, attempt.aborted = true → NetworksWhole peerId attempt) →
    Networked peerId state.redis

/-- What every attempt keeps, whole or not. -/
structure Steady (peerId : String) (attempts : List MarciAttempt) (state : State) : Prop where
  cached : CacheAnswered attempts state
  timeless : Timeless state.redis (KeyFormat.peerNetwork.key peerId)

theorem Steady.reached (steady : Steady peerId attempts before)
    (reaches : Reaches world before (handle config serde message) trace after) :
    Steady peerId (⟨message, before, trace, aborted⟩ :: attempts) after where
  cached := cache_reached steady.cached reaches
  timeless := timeless_along reaches.path steady.timeless (fixed_events peerId reaches (by decide))

theorem Steady.restart (steady : Steady peerId attempts after) :
    Steady peerId attempts after.restart where
  cached ip details found := by simp [State.restart] at found
  timeless := steady.timeless

theorem Consistent.finish (consistent : Consistent peerId attempts before)
    (steady : Steady peerId attempts before)
    (completes : HandlerCompletes before (handle config serde message) trace after ()) :
    Consistent peerId (⟨message, before, trace, false⟩ :: attempts) after where
  exclusive whole := turn_exclusive completes
    (consistent.exclusive fun attempt member => whole attempt (List.mem_cons_of_mem _ member))
  located whole := by
    have before := consistent.located fun attempt member => whole attempt (List.mem_cons_of_mem _ member)
    exact located_reached before steady.cached (handle_relocates completes.proceeds) (.inl rfl) completes.reaches
  networked whole := by
    have before := consistent.networked fun attempt member => whole attempt (List.mem_cons_of_mem _ member)
    exact networked_reached before steady.timeless (finished_networks completes) completes.reaches

theorem Consistent.abort (consistent : Consistent peerId attempts before)
    (steady : Steady peerId attempts before)
    (reaches : Reaches world before (handle config serde message) trace after) :
    Consistent peerId (⟨message, before, trace, true⟩ :: attempts) after where
  exclusive whole := by
    have before := consistent.exclusive fun attempt member => whole attempt (List.mem_cons_of_mem _ member)
    exact exclusive_reached before (whole _ List.mem_cons_self rfl) reaches
  located whole := by
    have before := consistent.located fun attempt member => whole attempt (List.mem_cons_of_mem _ member)
    exact located_reached before steady.cached (handle_relocates reaches.proceeds)
      (.inr (whole _ List.mem_cons_self rfl)) reaches
  networked whole := by
    have before := consistent.networked fun attempt member => whole attempt (List.mem_cons_of_mem _ member)
    exact networked_reached before steady.timeless (whole _ List.mem_cons_self rfl) reaches

/-- In every run with any number of interruptions at any points: a peer is not
online and unknown at once, its place records stem from one ipinfo answer, and
a witnessed peer has a network, each unless an attempt stopped within the
commands that establish it. -/
theorem restart_consistent (run : MarciRestartRun config serde (.initial now) attempts after)
    (peerId : String) : Consistent peerId attempts after := by
  have initially : Consistent peerId [] (.initial now) := {
    exclusive := fun _ => exclusive_of_offline rfl
    located := fun _ => .inl fun _ _ => rfl
    networked := fun _ live => by simp [Store.Live, State.initial] at live }
  have steadily : Steady peerId [] (.initial now) :=
    ⟨fun ip details found => by simp [State.initial] at found, timeless_of_missing rfl⟩
  refine (run.keeps (fun attempts state => Steady peerId attempts state ∧
    Consistent peerId attempts state) ⟨steadily, initially⟩ ?_ ?_).2
  · intro attempts before message trace after kept completes
    obtain ⟨steady, consistent⟩ := kept
    exact ⟨steady.reached completes.reaches, consistent.finish steady completes⟩
  · intro attempts before message trace stopped kept reaches
    obtain ⟨steady, consistent⟩ := kept
    obtain ⟨exclusive, located, networked⟩ := consistent.abort steady reaches
    exact ⟨(steady.reached reaches).restart, exclusive, located, networked⟩

/-- Without interruptions all of it holds. -/
theorem run_consistent (run : MarciRun config serde (.initial now) turns after) (peerId : String) :
    ∃ attempts : List MarciAttempt,
      (attempts.map fun attempt => (⟨attempt.message, attempt.trace⟩ : MarciTurn)) = turns ∧
      Exclusive after.redis peerId ∧ Located (Answered attempts) peerId after.redis ∧
      Networked peerId after.redis := by
  obtain ⟨attempts, same, turns, unaborted⟩ := Run.unaborted run
  obtain ⟨exclusive, located, networked⟩ := restart_consistent same peerId
  have none : ∀ attempt ∈ attempts, ∀ property : Prop, attempt.aborted = true → property :=
    fun attempt member property aborted => absurd aborted (by simp [unaborted attempt member])
  exact ⟨attempts, turns, exclusive fun attempt member => none attempt member _,
    located fun attempt member => none attempt member _,
    networked fun attempt member => none attempt member _⟩

/-- Pauses, messages and where an interrupted one stops, replayed from the empty store. -/
def playRestarts (config : Config) (serde : Serde) (surroundings : Surroundings)
    (script : List (Nat × Message × Option Nat)) : Option (List MarciAttempt × State) :=
  replayRestarts (respond surroundings) State.wait State.restart (handle config serde) script []
    (.initial 0)

theorem playRestarts_reaches {surroundings : Surroundings} {script : List (Nat × Message × Option Nat)}
    {property : List MarciAttempt × State → Prop} [DecidablePred property]
    (played : (playRestarts config serde surroundings script).any fun result =>
      decide (property result)) :
    ∃ attempts after, MarciRestartRun config serde (.initial 0) attempts after ∧
      property (attempts, after) := by
  obtain ⟨⟨attempts, after⟩, same, holds⟩ := (Option.any_eq_true _ _).mp played
  exact ⟨attempts, after, .of_replay (respond_faithful surroundings) wait_drifts .start same,
    of_decide_eq_true holds⟩

instance (peerId : String) : DecidablePred (NetworksWhole peerId) := fun attempt => by
  unfold NetworksWhole; infer_instance

/-- A report is interrupted right after the network of its peer. -/
def lateStopScript : List (Nat × Message × Option Nat) :=
  [(0, .reachable ⟨⟨"Qm", [], .mirana⟩, ⟨"Qr", [], .mirana⟩⟩, some 3), (5, .tick, none)]

theorem restart_consistent_late : ∃ attempts after,
    MarciRestartRun sampleConfig .unary (.initial 0) attempts after ∧
      after.redis.Live (KeyFormat.reachablePeer.key "Qm") ∧
      Consistent "Qm" attempts after ∧ Networked "Qm" after.redis := by
  have played : ∃ attempts after, MarciRestartRun sampleConfig .unary (.initial 0) attempts after ∧
      after.redis.Live (KeyFormat.reachablePeer.key "Qm") ∧
      ∀ attempt ∈ attempts, attempt.aborted = true → NetworksWhole "Qm" attempt := by
    have reached : (playRestarts sampleConfig .unary sampleSurroundings lateStopScript).any fun result =>
        decide (result.2.redis.Live (KeyFormat.reachablePeer.key "Qm") ∧
          ∀ attempt ∈ result.1, attempt.aborted = true → NetworksWhole "Qm" attempt) := by
      decide
    exact playRestarts_reaches reached
  obtain ⟨attempts, after, run, live, whole⟩ := played
  have consistent := restart_consistent run "Qm"
  exact ⟨attempts, after, run, live, consistent, consistent.networked whole⟩

def lookedUpSurroundings : Surroundings :=
  ⟨.sorted, 0, fun _ => some ⟨"DE", "Berlin", "BE", "52,13"⟩⟩

/-- A peer marked unknown comes online and Marci stops after its country; another
report stops after the witness. -/
def tornScript : List (Nat × Message × Option Nat) :=
  [(0, .reachable ⟨⟨"Qm", [], .mirana⟩, ⟨"Qr", [], .mirana⟩⟩, none),
    (5, .unknown ⟨"Qm", [], .mirana⟩, none),
    (7, .online ⟨⟨"Qm", [sampleEndpoint], .mirana⟩, "0.1", true, false⟩, some 7),
    (5, .reachable ⟨⟨"Qn", [], .mirana⟩, ⟨"Qr", [], .mirana⟩⟩, some 1)]

theorem interrupted_inconsistent : ∃ attempts after,
    MarciRestartRun sampleConfig sampleSerde (.initial 0) attempts after ∧
      ¬ Exclusive after.redis "Qm" ∧ ¬ Located (Answered attempts) "Qm" after.redis ∧
      ¬ Networked "Qn" after.redis := by
  have reached : (playRestarts sampleConfig sampleSerde lookedUpSurroundings tornScript).any fun result =>
      decide ((result.2.redis.Live (KeyFormat.onlinePeer.key "Qm") ∧
        result.2.redis.Live (KeyFormat.unknownPeer.key "Qm")) ∧
        (result.2.redis.Live (KeyFormat.peerCountry.key "Qm") ∧
          ¬ result.2.redis.Live (KeyFormat.peerCity.key "Qm")) ∧
        result.2.redis.Live (KeyFormat.reachablePeer.key "Qn") ∧
        ¬ result.2.redis.Live (KeyFormat.peerNetwork.key "Qn")) := by
    decide
  obtain ⟨attempts, after, run, both, torn, witnessed, unnamed⟩ := playRestarts_reaches reached
  refine ⟨attempts, after, run, fun exclusive => exclusive both, fun located => ?_,
    fun networked => unnamed (networked witnessed)⟩
  obtain ⟨country, noCity⟩ := torn
  rcases located with absent | ⟨details, _, holds⟩
  · exact Store.not_live_iff.mpr (absent .peerCountry (by decide)) country
  · exact noCity (Store.live_iff.mpr ⟨_, holds (KeyFormat.peerCity.key "Qm", details.city)
      (by simp [ipRecords])⟩)

end CkbDiscovery.Marci
