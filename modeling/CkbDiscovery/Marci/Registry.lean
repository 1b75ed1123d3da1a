import CkbDiscovery.Marci.Demotion
import CkbDiscovery.Marci.Records

/-! What Marci is for, without a store: a register of peers. Each message changes
the entry of one peer, and what is registered for a while may lapse at any time.
Marci's runs are runs of this register. -/

namespace CkbDiscovery.Marci

open Effect Redis

/-- Versions the peer is online with, first hand or by others, and what was
reported about it. -/
structure PeerEntry where
  online : Option String
  online2 : Option String
  unknown : Bool
  witnesses : Finset String
  addresses : Finset String
  networks : Finset CKBNetworkType
  network : Option String

namespace PeerEntry

def absent : PeerEntry := ⟨none, none, false, ∅, ∅, ∅, none⟩

/-- A peer that is online first hand keeps its version. -/
def announce (peer : PeerInfo) (entry : PeerEntry) : PeerEntry :=
  match entry.online with
  | some _ => { entry with unknown := false }
  | none =>
    if peer.isEx then { entry with online2 := some peer.version, unknown := false }
    else { entry with online := some peer.version, unknown := false }

theorem announce_held {peer : PeerInfo} {entry : PeerEntry} {version : String}
    (held : entry.online = some version) : entry.announce peer = { entry with unknown := false } := by
  rw [announce]
  split
  · rfl
  · rename_i missing
    cases held.symm.trans missing

/-- A peer that is not online first hand becomes unknown, if enough others have
told of it, and they are not counted again. -/
def failDial (threshold : Nat) (entry : PeerEntry) : PeerEntry :=
  if entry.online.isSome then entry
  else if threshold ≤ entry.witnesses.card then { entry with unknown := true, witnesses := ∅ }
  else entry

theorem failDial_held {threshold : Nat} {entry : PeerEntry} {version : String}
    (held : entry.online = some version) : entry.failDial threshold = entry := by
  rw [failDial, held]
  rfl

theorem failDial_few {threshold : Nat} {entry : PeerEntry} (few : entry.witnesses.card < threshold) :
    entry.failDial threshold = entry := by
  unfold failDial
  rw [if_neg (Nat.not_le_of_lt few)]
  split <;> rfl

theorem failDial_enough {threshold : Nat} {entry : PeerEntry} (offline : entry.online = none)
    (enough : threshold ≤ entry.witnesses.card) :
    entry.failDial threshold = { entry with unknown := true, witnesses := ∅ } := by
  unfold failDial
  rw [if_neg (by simp [offline]), if_pos enough]

def report (serde : Serde) (report : ReachableInfo) (entry : PeerEntry) : PeerEntry :=
  { entry with
    witnesses := insert report.from.peerId entry.witnesses
    addresses := entry.addresses ∪ addressTexts serde report.peer.addresses
    networks := insert report.peer.network entry.networks
    network := some report.peer.network.intoStr }

/-- The part of an entry that never lapses. -/
structure Keeps (earlier later : PeerEntry) : Prop where
  witnesses : later.witnesses = earlier.witnesses
  addresses : later.addresses = earlier.addresses
  networks : later.networks = earlier.networks
  network : later.network = earlier.network

structure Lapses (earlier later : PeerEntry) : Prop where
  online : ∀ version, later.online = some version → earlier.online = some version
  online2 : ∀ version, later.online2 = some version → earlier.online2 = some version
  unknown : later.unknown = true → earlier.unknown = true
  keeps : earlier.Keeps later

theorem Lapses.refl (entry : PeerEntry) : entry.Lapses entry :=
  ⟨fun _ => id, fun _ => id, id, rfl, rfl, rfl, rfl⟩

theorem Lapses.offline (entry : PeerEntry) : entry.Lapses { entry with online := none } :=
  ⟨fun _ same => by (cases same), fun _ => id, id, rfl, rfl, rfl, rfl⟩

end PeerEntry

/-- The version that the entry is shown with, if it is shown at all. -/
def PeerEntry.shown (entry : PeerEntry) : Option String :=
  match entry.online, entry.online2 with
  | some version, _ => some version
  | none, some version => some version
  | none, none => if entry.unknown then some "" else none

abbrev Registry := String → PeerEntry

/-- The entry of the peer that the message is about. -/
def Registry.take (config : Config) (serde : Serde) (message : Message) (registry : Registry) : Registry :=
  match message with
  | .online peer =>
    Function.update registry peer.info.peerId ((registry peer.info.peerId).announce peer)
  | .unknown peer =>
    Function.update registry peer.peerId
      ((registry peer.peerId).failDial config.ckbNodeDefaultWitnesses.toNat)
  | .reachable report =>
    Function.update registry report.peer.peerId ((registry report.peer.peerId).report serde report)
  | .tick => registry

/-- Messages taken up since the start, latest first, with lapses before and after each. -/
inductive RegistryRun (config : Config) (serde : Serde) : List Message → Registry → Prop where
  | start : RegistryRun config serde [] fun _ => .absent
  | take (earlier : RegistryRun config serde messages registry)
      (before : ∀ peerId, (registry peerId).Lapses (faded peerId))
      (after : ∀ peerId, (Registry.take config serde message faded peerId).Lapses (next peerId)) :
      RegistryRun config serde (message :: messages) next

/-- The entry that the records of a peer make up. -/
def entryOf (store : Store) (peerId : String) : PeerEntry where
  online := store.text? (KeyFormat.onlinePeer.key peerId)
  online2 := store.text? (KeyFormat.online2Peer.key peerId)
  unknown := decide (store.Live (KeyFormat.unknownPeer.key peerId))
  witnesses := store.members (KeyFormat.reachablePeer.key peerId)
  addresses := store.members (KeyFormat.peerIp.key peerId)
  networks := ({.mirana, .pudge, .dev} : Finset CKBNetworkType).filter fun network =>
    store.Live ((KeyFormat.peerNetworkQuick network).key peerId)
  network := store.text? (KeyFormat.peerNetwork.key peerId)

/-- The text that a value holds, if it is one. -/
def valueText : Value → Option String
  | .text content => some content
  | .set _ => none

variable {config : Config} {serde : Serde} {before after : State} {trace : HandlerTrace}
  {peerId : String} {turns : List MarciTurn} {earlier later : Store}

theorem mem_networks {store : Store} {network : CKBNetworkType} :
    network ∈ (entryOf store peerId).networks ↔
      store.Live ((KeyFormat.peerNetworkQuick network).key peerId) := by
  cases network <;> simp [entryOf]

/-- A text that is still found was there before. -/
theorem text?_of_older {key : String}
    (older : ∀ entry, later.find? key = some entry → earlier.find? key = some entry) :
    ∀ text, later.text? key = some text → earlier.text? key = some text := by
  intro text read
  obtain ⟨entry, found⟩ := Store.found_of_text? read
  rw [Store.text?, older entry found]
  rwa [Store.text?, found] at read

theorem text?_of_found {key : String} {entry : Entry} (found : earlier.find? key = some entry) :
    earlier.text? key = valueText entry.value := by
  obtain ⟨value, deadline⟩ := entry
  rw [Store.text?, found]
  cases value <;> rfl

/-- The record of a peer keeps its text when its deadline moves. -/
theorem text?_of_moved {key : String} {entry : Entry} (found : earlier.find? key = some entry)
    (moved : ∀ kept, later.find? key = some kept → kept.value = entry.value) :
    ∀ text, later.text? key = some text → earlier.text? key = some text := by
  intro text read
  obtain ⟨kept, still⟩ := Store.found_of_text? read
  rw [text?_of_found found, ← read, text?_of_found still, moved kept still]

theorem text?_of_placed {key version : String}
    (placed : ∀ kept, later.find? key = some kept → kept.value = .text version) :
    ∀ text, later.text? key = some text → some version = some text := by
  intro text read
  obtain ⟨kept, still⟩ := Store.found_of_text? read
  rw [← read, text?_of_found still, placed kept still]
  rfl

theorem text?_missing {key : String} (missing : later.find? key = none) : later.text? key = none := by
  rw [Store.text?, missing]

theorem not_live_of_missing {key : String} (missing : later.find? key = none) : ¬ later.Live key := by
  rw [Store.not_live_iff]
  exact missing

/-- The permanent records are as they were. -/
theorem keeps_of_same
    (same : ∀ format ∈ ledgerFormats, later.find? (format.key peerId) = earlier.find? (format.key peerId)) :
    (entryOf earlier peerId).Keeps (entryOf later peerId) where
  witnesses := members_of_same (same _ (by decide))
  addresses := members_of_same (same _ (by decide))
  networks := by
    ext network
    rw [mem_networks, mem_networks, live_of_same (same _ (quick_mem_ledgerFormats network))]
  network := text?_of_same (same _ (by decide))

/-- What a turn does not write can only lapse. -/
theorem lapses_outside {formats : List KeyFormat} {subject : String}
    (ledger : Ledger serde peerId turns earlier)
    (fades : earlier.FadesOutside (recordKeys formats subject) later)
    (outside : ∀ format : KeyFormat, format.key peerId ∉ recordKeys formats subject) :
    (entryOf earlier peerId).Lapses (entryOf later peerId) where
  online := text?_of_older (fades.older _ (outside _))
  online2 := text?_of_older (fades.older _ (outside _))
  unknown marked := decide_eq_true (fades.live_before (outside _) (of_decide_eq_true marked))
  keeps := keeps_of_same fun format member => (ledger.timeless format member).unchanged fades (outside format)

/-- An online report, seen from the register. -/
theorem announce_refines {peer : PeerInfo} (ledger : Ledger serde peer.info.peerId turns before.redis)
    (status : StatusRecords config peer.info.peerId before.redis)
    (completes : HandlerCompletes before (handleOnline config serde peer) trace after ()) :
    ∃ faded, (entryOf before.redis peer.info.peerId).Lapses faded ∧
      (faded.announce peer).Lapses (entryOf after.redis peer.info.peerId) := by
  have frame : before.redis.FadesOutside (recordKeys (Message.online peer).formats peer.info.peerId)
      after.redis := (onlyWrites_handle (.online peer)).frame completes
  have free : ∀ format ∈ ledgerFormats, format ∉ (Message.online peer).formats := by
    simp [ledgerFormats, Message.formats]
  have keeps := keeps_of_same fun format member => ledger.same frame format member (.inr (free format member))
  obtain ⟨marks, unmarked⟩ := handleOnline_turn completes
  have known : ∀ {value : Bool}, (entryOf after.redis peer.info.peerId).unknown = true → value = true :=
    fun marked => absurd (of_decide_eq_true marked) (not_live_of_missing unmarked)
  cases marks with
  | refreshed found read moved other =>
    refine ⟨_, .refl _, ?_⟩
    obtain ⟨version, deadline, rfl, _⟩ := status.online _ found
    have shown : (entryOf before.redis peer.info.peerId).online = some version := text?_of_found found
    have online := text?_of_moved found fun kept located => by
      obtain ⟨_, _, same⟩ := moved kept located
      rw [same]
    rw [PeerEntry.announce_held shown]
    exact ⟨online, text?_of_older other, known, keeps.witnesses, keeps.addresses, keeps.networks, keeps.network⟩
  | external isEx missing placed =>
    refine ⟨_, .offline _, ?_⟩
    have online2 := text?_of_placed fun kept located => by
      obtain ⟨_, _, same⟩ := placed kept located
      rw [same]
    rw [PeerEntry.announce, if_pos isEx]
    refine ⟨fun text read => ?_, online2, known, keeps.witnesses, keeps.addresses, keeps.networks, keeps.network⟩
    cases (text?_missing missing).symm.trans read
  | direct isEx stored placed other =>
    refine ⟨_, .offline _, ?_⟩
    have online := text?_of_placed fun kept located => by
      obtain ⟨_, _, same⟩ := placed kept located
      rw [same]
    rw [PeerEntry.announce, if_neg (Bool.eq_false_iff.mp isEx)]
    exact ⟨online, text?_of_older other, known, keeps.witnesses, keeps.addresses, keeps.networks, keeps.network⟩

/-- A failed dial, seen from the register. -/
theorem failDial_refines {peer : NodeMetaInfo} (ledger : Ledger serde peer.peerId turns before.redis)
    (status : StatusRecords config peer.peerId before.redis)
    (completes : HandlerCompletes before (handleUnknown config peer) trace after ()) :
    ∃ faded, (entryOf before.redis peer.peerId).Lapses faded ∧
      (faded.failDial config.ckbNodeDefaultWitnesses.toNat).Lapses (entryOf after.redis peer.peerId) := by
  have timeless := ledger.timeless .reachablePeer (by decide)
  have older {formats : List KeyFormat} (format : KeyFormat) (free : format ∉ formats)
      (frame : before.redis.FadesOutside (recordKeys formats peer.peerId) after.redis) :=
    frame.older (format.key peer.peerId) fun inside => free (mem_recordKeys.mp inside).1
  have unmarked {formats : List KeyFormat} (free : .unknownPeer ∉ formats)
      (frame : before.redis.FadesOutside (recordKeys formats peer.peerId) after.redis) :
      (entryOf after.redis peer.peerId).unknown = true → (entryOf before.redis peer.peerId).unknown = true :=
    fun marked => decide_eq_true <| frame.live_before (fun inside => free (mem_recordKeys.mp inside).1)
      (of_decide_eq_true marked)
  cases handleUnknown_turn completes with
  | kept found moved frame unstored =>
    refine ⟨_, .refl _, ?_⟩
    obtain ⟨version, deadline, rfl, _⟩ := status.online _ found
    have shown : (entryOf before.redis peer.peerId).online = some version := text?_of_found found
    have online := text?_of_moved found fun kept located => by
      obtain ⟨_, _, same⟩ := moved kept located
      rw [same]
    have free : ∀ format ∈ ledgerFormats, format ∉ [KeyFormat.onlinePeer, .peerSeen] := by decide
    rw [PeerEntry.failDial_held shown]
    exact ⟨online, text?_of_older (older .online2Peer (by decide) frame), unmarked (by decide) frame,
      keeps_of_same fun format member => ledger.same frame format member (.inr (free format member))⟩
  | ignored missing frame unstored =>
    have free : ∀ format ∈ ledgerFormats, format ∉ [KeyFormat.peerSeen] := by decide
    have keeps := keeps_of_same fun format member => ledger.same frame format member (.inr (free format member))
    have gone : ∀ {claim : Prop} (text : String),
        (entryOf after.redis peer.peerId).online = some text → claim := fun text read => by
      cases (text?_missing missing).symm.trans read
    have online2 := text?_of_older (older .online2Peer (by decide) frame)
    obtain ⟨asked, reply, rest, _, quiet, decided⟩ := handleUnknown_decides timeless completes
    rcases decided with ⟨live | few, _⟩ | ⟨_, _, event, member, stored⟩
    · obtain ⟨entry, found⟩ := Store.live_iff.mp (quiet.live_before (Set.notMem_empty _) live)
      obtain ⟨version, deadline, rfl, _⟩ := status.online _ found
      have shown : (entryOf before.redis peer.peerId).online = some version := text?_of_found found
      refine ⟨_, .refl _, ?_⟩
      rw [PeerEntry.failDial_held shown]
      exact ⟨fun text read => gone text read, online2, unmarked (by decide) frame, keeps⟩
    · refine ⟨_, .offline _, ?_⟩
      have same := (timeless.members_of_fades quiet (Set.notMem_empty _)).1
      rw [same] at few
      rw [PeerEntry.failDial_few few]
      exact ⟨fun text read => gone text read, online2, unmarked (by decide) frame,
        keeps.witnesses, keeps.addresses, keeps.networks, keeps.network⟩
    · exact absurd stored (unstored event member)
  | promoted missing cleared frame stored justified =>
    obtain ⟨event, member, stores⟩ := stored
    obtain ⟨_, counted, quiet, _, enough⟩ := justified event member stores
    rw [(timeless.members_of_fades quiet (Set.notMem_empty _)).1] at enough
    have free : ∀ format ∈ ledgerFormats, format ≠ .reachablePeer →
        format ∉ [KeyFormat.unknownPeer, .reachablePeer, .peerSeen] := by decide
    have same (format : KeyFormat) (member : format ∈ ledgerFormats) (other : format ≠ .reachablePeer) :=
      ledger.same frame format member (.inr (free format member other))
    refine ⟨_, .offline _, ?_⟩
    rw [PeerEntry.failDial_enough rfl enough]
    refine ⟨fun text read => ?_, text?_of_older (older .online2Peer (by decide) frame), fun _ => rfl, ?_, ?_, ?_, ?_⟩
    · cases (text?_missing missing).symm.trans read
    · simp [entryOf, Store.members, cleared]
    · exact members_of_same (same _ (by decide) (by decide))
    · ext network
      rw [mem_networks, live_of_same (same _ (quick_mem_ledgerFormats network) (by simp))]
      exact mem_networks.symm
    · exact text?_of_same (same _ (by decide) (by decide))

/-- A report by another peer, seen from the register. -/
theorem report_refines {report : ReachableInfo} (ledger : Ledger serde report.peer.peerId turns before.redis)
    (completes : HandlerCompletes before (handle config serde (.reachable report)) trace after ()) :
    ((entryOf before.redis report.peer.peerId).report serde report).Lapses
      (entryOf after.redis report.peer.peerId) := by
  have frame := (onlyWrites_handle (.reachable report)).frame completes
  have records := handleReachable_turn (ledger.timeless _ (by decide)) (ledger.timeless _ (by decide)) completes
  have outside (format : KeyFormat) (free : format ∉ (Message.reachable report).formats) :
      format.key report.peer.peerId ∉ recordKeys (Message.reachable report).formats report.peer.peerId :=
    fun inside => free (mem_recordKeys.mp inside).1
  have online := outside .onlinePeer (by simp [Message.formats])
  have online2 := outside .online2Peer (by simp [Message.formats])
  have unknown := outside .unknownPeer (by simp [Message.formats])
  refine ⟨text?_of_older (frame.older _ online), text?_of_older (frame.older _ online2),
    fun marked => decide_eq_true (frame.live_before unknown (of_decide_eq_true marked)), ?_, records.addresses, ?_, ?_⟩
  · simp [entryOf, PeerEntry.report, Store.members, records.witness]
  · ext network
    rw [mem_networks, PeerEntry.report, Finset.mem_insert, mem_networks]
    by_cases same : network = report.peer.network
    · subst same
      simp [Store.Live, records.indexed]
    · have other := outside (.peerNetworkQuick network) (by simp [Message.formats, same])
      rw [live_of_same ((ledger.timeless _ (quick_mem_ledgerFormats network)).unchanged frame other)]
      simp [same]
  · simp [entryOf, PeerEntry.report, Store.text?, records.network]

/-- One turn of the loop is one step of the register, with lapses around it. -/
theorem turn_refines {message : Message}
    (ledger : ∀ peerId, Ledger serde peerId turns before.redis)
    (status : ∀ peerId, StatusRecords config peerId before.redis)
    (completes : HandlerCompletes before (handle config serde message) trace after ()) :
    ∃ faded : Registry, (∀ peerId, (entryOf before.redis peerId).Lapses (faded peerId)) ∧
      ∀ peerId, (Registry.take config serde message faded peerId).Lapses (entryOf after.redis peerId) := by
  have frame := (onlyWrites_handle message).frame completes
  have elsewhere : ∀ other, other ≠ message.subject →
      (entryOf before.redis other).Lapses (entryOf after.redis other) := fun other different =>
    lapses_outside (ledger other) frame fun format inside => different (mem_recordKeys.mp inside).2
  have assembled : ∀ {change : PeerEntry → PeerEntry},
      (∃ faded, (entryOf before.redis message.subject).Lapses faded ∧
        (change faded).Lapses (entryOf after.redis message.subject)) →
      ∃ faded : Registry, (∀ peerId, (entryOf before.redis peerId).Lapses (faded peerId)) ∧
        ∀ peerId, (Function.update faded message.subject (change (faded message.subject)) peerId).Lapses
          (entryOf after.redis peerId) := by
    intro change given
    obtain ⟨faded, sooner, later⟩ := given
    refine ⟨Function.update (entryOf before.redis) message.subject faded, fun peerId => ?_, fun peerId => ?_⟩
    · by_cases same : peerId = message.subject
      · subst same
        rwa [Function.update_self]
      · rw [Function.update_of_ne same]
        exact .refl _
    · by_cases same : peerId = message.subject
      · subst same
        rwa [Function.update_self, Function.update_self]
      · rw [Function.update_of_ne same, Function.update_of_ne same]
        exact elsewhere peerId same
  cases message with
  | online peer => exact assembled (announce_refines (ledger _) (status _) completes)
  | unknown peer => exact assembled (failDial_refines (ledger _) (status _) completes)
  | reachable report => exact assembled ⟨_, .refl _, report_refines (ledger _) completes⟩
  | tick =>
    refine ⟨entryOf before.redis, fun _ => .refl _, fun peerId => ?_⟩
    refine lapses_outside (ledger peerId) frame fun format inside => ?_
    cases (mem_recordKeys.mp inside).1

/-- Marci's store goes through the states of the register, whatever expires when. -/
theorem run_refines (run : MarciRun config serde (.initial now) turns after) :
    RegistryRun config serde (turns.map Turn.message) (entryOf after.redis) := by
  induction run with
  | start => exact .start
  | turn earlier completes inductionHypothesis =>
    obtain ⟨faded, sooner, later⟩ :=
      turn_refines (run_ledger earlier) (run_statusRecords earlier) completes
    exact .take inductionHypothesis sooner later

/-- A peer comes online and is reported by another. -/
def registeredScript : List (Nat × Message) :=
  [(0, .online ⟨⟨"Qm", [], .mirana⟩, "0.1", true, false⟩),
    (3, .reachable ⟨⟨"Qm", [], .mirana⟩, ⟨"Qr", [], .mirana⟩⟩)]

theorem run_refines_registered : ∃ messages registry,
    RegistryRun sampleConfig .unary messages registry ∧ messages.length = 2 ∧
      (registry "Qm").online = some "0.1" ∧ (registry "Qm").witnesses = {"Qr"} := by
  have played : (play sampleConfig .unary sampleSurroundings registeredScript (.initial 0)).any
      fun result => decide (
        result.1.length = 2 ∧
        result.2.redis.text? (KeyFormat.onlinePeer.key "Qm") = some "0.1" ∧
        result.2.redis.members (KeyFormat.reachablePeer.key "Qm") = {"Qr"}) := by
    decide
  obtain ⟨turns, after, run, two, online, witnesses⟩ := play_reaches played
  exact ⟨_, _, run_refines run, by rw [List.length_map, two], online, witnesses⟩

end CkbDiscovery.Marci
