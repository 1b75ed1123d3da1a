import CkbDiscovery.Exposed.Listing
import CkbDiscovery.Marci.Ledger
import CkbDiscovery.Marci.Records

/-! The network index against the network record, and who is listed by it. -/

namespace CkbDiscovery.Exposed

open Effect Redis Marci

variable {config : Config} {serde : Serde} {after : State} {peerId : String}
  {turns : List MarciTurn} {F64 : Type} {formats : Formats F64}

def Dotless (turns : List MarciTurn) : Prop :=
  ∀ turn ∈ turns, '.' ∉ turn.message.subject.toList

/-- All reports of the peer so far name one network. -/
def Unanimous (peerId : String) (turns : List MarciTurn) : Prop :=
  ∀ first ∈ reports peerId turns, ∀ second ∈ reports peerId turns,
    first.peer.network = second.peer.network

/-- No report is about an id that the last dot leaves this one of. -/
def Unshared (peerId : String) (turns : List MarciTurn) : Prop :=
  ∀ stem, reports (stem ++ "." ++ peerId) turns = []

def IndexAgrees (store : Store) (peerId : String) : Prop :=
  ∀ network, store.Live ((KeyFormat.peerNetworkQuick network).key peerId) ↔
    store.text? (KeyFormat.peerNetwork.key peerId) = some network.intoStr

/-- Listings show the peer under no network but the one it is dialed on. -/
def ListedWhereDialed (store : Store) (peerId : String) : Prop :=
  ∀ {F64 : Type} (formats : Formats F64) (order : Enumeration) network peers,
    getPeersOn formats order store network = some (.ok peers) → peerId ∈ peers.map Prod.fst →
      CKBNetworkType.ofString ((store.text? (KeyFormat.peerNetwork.key peerId)).getD "") = network

theorem unshared_of_dotless (dotless : Dotless turns) (peerId : String) : Unshared peerId turns := by
  intro stem
  by_contra reported
  obtain ⟨report, member⟩ := List.exists_mem_of_ne_nil _ reported
  obtain ⟨turn, present, found⟩ := List.mem_filterMap.mp member
  obtain ⟨taken, named⟩ := report?_eq_some found
  have free := dotless turn present
  rw [taken, Message.subject, named] at free
  simp at free

theorem live_dotless (run : MarciRun config serde (.initial now) turns after)
    (dotless : Dotless turns) (format : KeyFormat) (peerId : String)
    (live : after.redis.Live (format.key peerId)) : '.' ∉ peerId.toList := by
  obtain ⟨turn, member, rfl⟩ := run_recorded run format peerId live
  exact dotless turn member

/-- The index of a peer agrees with its record as long as its reports do with
each other: a report overwrites the record and only adds to the index. -/
theorem Ledger.index_agrees {store : Store} (ledger : Ledger serde peerId turns store) :
    IndexAgrees store peerId ↔ Unanimous peerId turns := by
  constructor
  · intro agrees first firstMember second secondMember
    have recorded : ∀ report ∈ reports peerId turns,
        store.text? (KeyFormat.peerNetwork.key peerId) = some report.peer.network.intoStr := by
      intro report member
      apply (agrees _).mp
      exact (ledger.indexed _).mpr ⟨report, member, rfl⟩
    apply CKBNetworkType.intoStr_injective
    exact Option.some.inj ((recorded first firstMember).symm.trans (recorded second secondMember))
  · intro unanimous network
    rw [ledger.indexed, ledger.network]
    cases history : reports peerId turns with
    | nil => simp
    | cons latest earlier =>
      rw [List.head?_cons, Option.map_some, Option.some_inj]
      constructor
      · intro given
        obtain ⟨report, member, rfl⟩ := given
        rw [unanimous latest (by simp [history]) report (by simp [history, List.mem_cons.mp member])]
      · intro same
        exact ⟨latest, List.mem_cons_self, CKBNetworkType.intoStr_injective same⟩

/-- After every run the index agrees with the record exactly if all reports of
the peer named one network; the peer is then listed under no network but the
one it is dialed on, unless it shares the end of its id with another one. -/
theorem run_index_agrees (run : MarciRun config serde (.initial now) turns after)
    (peerId : String) :
    (IndexAgrees after.redis peerId ↔ Unanimous peerId turns) ∧
      (Unanimous peerId turns → Unshared peerId turns → ListedWhereDialed after.redis peerId) := by
  have agreement := Ledger.index_agrees (run_ledger run peerId)
  refine ⟨agreement, fun unanimous unshared => ?_⟩
  intro F64 formats order network peers listed member
  obtain ⟨subject, live, rfl | ⟨stem, rfl⟩⟩ := getPeersOn_named listed member
  · rw [(agreement.mpr unanimous network).mp live, Option.getD_some, CKBNetworkType.ofString_intoStr]
  · obtain ⟨report, reported, _⟩ := ((run_ledger run _).indexed network).mp live
    rw [unshared stem] at reported
    cases reported

-- a namesake on the test network brings the peer of the main network into both listings
example : (play sampleConfig .unary sampleSurroundings
    [(0, .reachable ⟨⟨"b", [], .mirana⟩, ⟨"Qr", [], .mirana⟩⟩),
      (3, .reachable ⟨⟨"a.b", [], .pudge⟩, ⟨"Qr", [], .pudge⟩⟩),
      (2, .online ⟨⟨"b", [], .mirana⟩, "0.1", true, false⟩)] (.initial 0)).any fun result => decide
        (listedIds sampleFormats .sorted result.2.redis .mirana = some (.ok ["b"]) ∧
          listedIds sampleFormats .sorted result.2.redis .pudge = some (.ok ["b"])) := by
  decide

/-- The peer is reported on the main network and then on the test network. -/
def turncoatScript : List (Nat × Message) :=
  [(0, .reachable ⟨⟨"Qm", [], .mirana⟩, ⟨"Qr", [], .mirana⟩⟩),
    (3, .reachable ⟨⟨"Qm", [], .pudge⟩, ⟨"Qr", [], .pudge⟩⟩),
    (2, .online ⟨⟨"Qm", [], .pudge⟩, "0.1", true, false⟩)]

/-- The old index entry stays beside the new record, and both networks list the peer. -/
theorem index_keeps_both : ∃ turns after,
    MarciRun sampleConfig .unary (.initial 0) turns after ∧
      ¬ IndexAgrees after.redis "Qm" ∧
      listedIds sampleFormats .sorted after.redis .mirana = some (.ok ["Qm"]) ∧
      listedIds sampleFormats .sorted after.redis .pudge = some (.ok ["Qm"]) := by
  have played : (play sampleConfig .unary sampleSurroundings turncoatScript (.initial 0)).any
      fun result => decide (
        (result.2.redis.Live ((KeyFormat.peerNetworkQuick .mirana).key "Qm") ∧
          result.2.redis.text? (KeyFormat.peerNetwork.key "Qm") ≠ some "mirana") ∧
        listedIds sampleFormats .sorted result.2.redis .mirana = some (.ok ["Qm"]) ∧
        listedIds sampleFormats .sorted result.2.redis .pudge = some (.ok ["Qm"])) := by
    decide
  obtain ⟨turns, after, run, ⟨live, other⟩, listed⟩ := play_reaches played
  exact ⟨turns, after, run, fun agrees => other ((agrees .mirana).mp live), listed⟩

/-- The peer is reported twice, by two reporters, on one network, and then online. -/
def steadyScript : List (Nat × Message) :=
  [(0, .reachable ⟨⟨"Qm", [], .pudge⟩, ⟨"Qr", [], .pudge⟩⟩),
    (3, .reachable ⟨⟨"Qm", [], .pudge⟩, ⟨"Qs", [], .pudge⟩⟩),
    (2, .online ⟨⟨"Qm", [], .pudge⟩, "0.1", true, false⟩)]

theorem run_index_agrees_steady : ∃ turns after,
    MarciRun sampleConfig .unary (.initial 0) turns after ∧ (reports "Qm" turns).length = 2 ∧
      IndexAgrees after.redis "Qm" ∧ listedIds sampleFormats .sorted after.redis .pudge = some (.ok ["Qm"]) ∧
      ListedWhereDialed after.redis "Qm" := by
  have played : (play sampleConfig .unary sampleSurroundings steadyScript (.initial 0)).any
      fun result => decide ((reports "Qm" result.1).length = 2 ∧
        (∀ first ∈ reports "Qm" result.1, ∀ second ∈ reports "Qm" result.1,
          first.peer.network = second.peer.network) ∧
        (∀ turn ∈ result.1, '.' ∉ turn.message.subject.toList) ∧
        listedIds sampleFormats .sorted result.2.redis .pudge = some (.ok ["Qm"])) := by
    decide
  obtain ⟨turns, after, run, twice, unanimous, dotless, listed⟩ := play_reaches played
  obtain ⟨agreement, alone⟩ := run_index_agrees run "Qm"
  exact ⟨turns, after, run, twice, agreement.mpr unanimous, listed,
    alone unanimous (unshared_of_dotless dotless "Qm")⟩

/-- After every run status records are texts, and what was reported under dotless
ids stays so. -/
theorem run_legible (run : MarciRun config serde (.initial now) turns after)
    (dotless : Dotless turns) : Legible after.redis where
  online peerId live := by
    obtain ⟨entry, found⟩ := Store.live_iff.mp live
    obtain ⟨version, _, rfl, _⟩ := (run_statusRecords run peerId).online entry found
    exact ⟨version, by rw [Store.text?, found]⟩
  online2 peerId live := by
    obtain ⟨entry, found⟩ := Store.live_iff.mp live
    obtain ⟨version, _, rfl, _⟩ := (run_statusRecords run peerId).online2 entry found
    exact ⟨version, by rw [Store.text?, found]⟩
  dotless := live_dotless run dotless

/-- A store reached with plain ids and dates the calendar knows is readable. -/
theorem run_readable (run : MarciRun config serde (.initial now) turns after)
    (dotless : Dotless turns)
    (dated : ∀ peerId, (seenTimestamp formats after.redis peerId).toNat ≤ formats.lastSecond) :
    Readable formats after.redis :=
  have legible := run_legible run dotless
  ⟨legible.online, legible.online2, dated, legible.dotless⟩

/-- After every run a peer with a live online record is listed on a network
exactly if some reachable message reported it there. -/
theorem run_lists (run : MarciRun config serde (.initial now) turns after)
    (dotless : Dotless turns)
    (dated : ∀ peerId, (seenTimestamp formats after.redis peerId).toNat ≤ formats.lastSecond)
    (order : Enumeration) {network : CKBNetworkType} (supported : network ≠ .dev)
    (online : after.redis.Live (KeyFormat.onlinePeer.key peerId) ∨
      after.redis.Live (KeyFormat.online2Peer.key peerId)) :
    ∃ peers, getPeersOn formats order after.redis network = some (.ok peers) ∧
      (peerId ∈ peers.map Prod.fst ↔
        ∃ report ∈ reports peerId turns, report.peer.network = network) := by
  obtain ⟨peers, listed, _, complete, _⟩ :=
    getPeersOn_readable order (run_readable run dotless dated) supported
  refine ⟨peers, listed, ?_⟩
  have shown : Shown after.redis peerId := by
    rcases online with first | second
    · exact .inl first
    · exact .inr (.inl second)
  rw [complete, and_iff_left shown, (run_ledger run peerId).indexed]

/-- A node that is dialed without being advertised by anyone, as the bootnodes are. -/
def bootnodeScript : List (Nat × Message) :=
  [(0, .online ⟨⟨"QmPHzhEzekyjB14eQsnsVRxmymtYmAyntcfJgVYRiUq4Lb", [], .mirana⟩, "0.1", true, false⟩)]

/-- It is online and counted as on the map, but no listing shows it. -/
theorem bootnode_unlisted : ∃ turns after,
    MarciRun sampleConfig .unary (.initial 0) turns after ∧
      after.redis.Live (KeyFormat.onlinePeer.key "QmPHzhEzekyjB14eQsnsVRxmymtYmAyntcfJgVYRiUq4Lb") ∧
      (peerInMapOn sampleFormats .sorted after.redis
        "QmPHzhEzekyjB14eQsnsVRxmymtYmAyntcfJgVYRiUq4Lb").map PeerStatus.inMap = some true ∧
      getPeersOn sampleFormats .sorted after.redis .mirana = some (.ok []) := by
  have played : (play sampleConfig .unary sampleSurroundings bootnodeScript (.initial 0)).any
      fun result => decide (
        result.2.redis.Live
          (KeyFormat.onlinePeer.key "QmPHzhEzekyjB14eQsnsVRxmymtYmAyntcfJgVYRiUq4Lb") ∧
        (peerInMapOn sampleFormats .sorted result.2.redis
          "QmPHzhEzekyjB14eQsnsVRxmymtYmAyntcfJgVYRiUq4Lb").map PeerStatus.inMap = some true ∧
        getPeersOn sampleFormats .sorted result.2.redis .mirana = some (.ok [])) := by
    decide
  exact play_reaches played

theorem sampleFormats_dated (store : Store) (peerId : String) :
    (seenTimestamp sampleFormats store peerId).toNat ≤ sampleFormats.lastSecond := by
  have epoch : seenTimestamp sampleFormats store peerId = 0 := by
    unfold seenTimestamp sampleFormats
    cases store.text? (KeyFormat.peerSeen.key peerId) with
    | none => rfl
    | some text => by_cases zero : text = "0" <;> simp [zero]
  rw [epoch]
  decide

/-- A peer is advertised and then found online. -/
def advertisedScript : List (Nat × Message) :=
  [(0, .reachable ⟨⟨"Qm", [], .pudge⟩, ⟨"Qr", [], .pudge⟩⟩),
    (3, .online ⟨⟨"Qm", [], .pudge⟩, "0.1", true, false⟩)]

theorem run_lists_advertised : ∃ turns after peers,
    MarciRun sampleConfig .unary (.initial 0) turns after ∧
      getPeersOn sampleFormats .sorted after.redis .pudge = some (.ok peers) ∧
      "Qm" ∈ peers.map Prod.fst := by
  have played : (play sampleConfig .unary sampleSurroundings advertisedScript (.initial 0)).any
      fun result => decide (
        (∀ turn ∈ result.1, '.' ∉ turn.message.subject.toList) ∧
        result.2.redis.Live (KeyFormat.onlinePeer.key "Qm") ∧
        ∃ report ∈ reports "Qm" result.1, report.peer.network = .pudge) := by
    decide
  obtain ⟨turns, after, run, dotless, online, reported⟩ := play_reaches played
  have supported : CKBNetworkType.pudge ≠ .dev := by decide
  obtain ⟨peers, listed, member⟩ :=
    run_lists run dotless (sampleFormats_dated after.redis) .sorted supported (.inl online)
  exact ⟨turns, after, peers, run, listed, member.mpr reported⟩

end CkbDiscovery.Exposed
