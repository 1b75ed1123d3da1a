import CkbDiscovery.Marci.Reachable
import CkbDiscovery.Marci.Status

/-! The permanent records of a peer against the history of the turns: who
reported it since its last promotion, under which addresses and networks. -/

namespace CkbDiscovery.Marci

open Effect Redis

variable {config : Config} {serde : Serde} {before after : State} {trace : HandlerTrace}
  {peerId : String} {turns : List MarciTurn}

/-- The turn stored an unknown mark for the peer. -/
def Promotes (peerId : String) (turn : MarciTurn) : Prop :=
  ∃ event ∈ turn.trace, event.question.stores = some (KeyFormat.unknownPeer.key peerId)

instance (peerId : String) : DecidablePred (Promotes peerId) := fun turn => by
  unfold Promotes; infer_instance

/-- The reachable message about the peer that the turn processed. -/
def report? (peerId : String) (turn : MarciTurn) : Option ReachableInfo :=
  match turn.message with
  | .reachable peer => if peer.peer.peerId = peerId then some peer else none
  | _ => none

/-- All reachable messages about the peer, latest first as the turns are. -/
def reports (peerId : String) (turns : List MarciTurn) : List ReachableInfo :=
  turns.filterMap (report? peerId)

/-- The turns after the last promotion. -/
def sincePromotion (peerId : String) (turns : List MarciTurn) : List MarciTurn :=
  turns.takeWhile fun turn => decide (¬ Promotes peerId turn)

def distinctReporters (peerId : String) (turns : List MarciTurn) : Finset String :=
  ((reports peerId turns).map fun report => report.from.peerId).toFinset

/-- The stored texts of all addresses ever reported for the peer. -/
def reportedTexts (serde : Serde) (peerId : String) (turns : List MarciTurn) : Finset String :=
  addressTexts serde ((reports peerId turns).flatMap fun report => report.peer.addresses)

theorem report?_eq_some {turn : MarciTurn} {report : ReachableInfo}
    (reported : report? peerId turn = some report) :
    turn.message = .reachable report ∧ report.peer.peerId = peerId := by
  unfold report? at reported
  split at reported
  · rename_i peer message
    split at reported
    · rename_i same
      obtain rfl := Option.some.inj reported
      exact ⟨message, same⟩
    · cases reported
  · cases reported

/-- The records that only the reachable branch fills; none has a deadline. -/
def ledgerFormats : List KeyFormat :=
  [.reachablePeer, .peerIp, .peerNetwork, .peerNetworkQuick .mirana, .peerNetworkQuick .pudge,
    .peerNetworkQuick .dev]

theorem quick_mem_ledgerFormats (network : CKBNetworkType) :
    .peerNetworkQuick network ∈ ledgerFormats := by
  cases network <;> decide

structure Ledger (serde : Serde) (peerId : String) (turns : List MarciTurn) (store : Store) :
    Prop where
  witnesses : store.members (KeyFormat.reachablePeer.key peerId) =
    distinctReporters peerId (sincePromotion peerId turns)
  witnessed : store.Live (KeyFormat.reachablePeer.key peerId) ↔
    reports peerId (sincePromotion peerId turns) ≠ []
  addresses : store.members (KeyFormat.peerIp.key peerId) = reportedTexts serde peerId turns
  network : store.text? (KeyFormat.peerNetwork.key peerId) =
    (reports peerId turns).head?.map fun report => report.peer.network.intoStr
  indexed : ∀ network, store.Live ((KeyFormat.peerNetworkQuick network).key peerId) ↔
    ∃ report ∈ reports peerId turns, report.peer.network = network
  timeless : ∀ format ∈ ledgerFormats, Timeless store (format.key peerId)

theorem ledger_initial (serde : Serde) (peerId : String) (now : Nat) :
    Ledger serde peerId [] (State.initial now).redis where
  witnesses := rfl
  witnessed := by simp [reports, sincePromotion, Store.Live, State.initial]
  addresses := rfl
  network := rfl
  indexed network := by simp [reports, Store.Live, State.initial]
  timeless format _ := timeless_of_missing rfl

theorem text?_of_same {earlier later : Store} {key : String}
    (same : later.find? key = earlier.find? key) : later.text? key = earlier.text? key := by
  rw [Store.text?, same, ← Store.text?]

theorem live_of_same {earlier later : Store} {key : String}
    (same : later.find? key = earlier.find? key) : later.Live key ↔ earlier.Live key := by
  rw [Store.Live, same, ← Store.Live]

/-- A turn that neither promotes nor reports the peer leaves its ledger alone. -/
theorem Ledger.quiet {turn : MarciTurn} {earlier later : Store}
    (ledger : Ledger serde peerId turns earlier) (unpromoted : ¬ Promotes peerId turn)
    (unreported : report? peerId turn = none)
    (same : ∀ format ∈ ledgerFormats, later.find? (format.key peerId) = earlier.find? (format.key peerId)) :
    Ledger serde peerId (turn :: turns) later := by
  have history : reports peerId (turn :: turns) = reports peerId turns := by
    simp [reports, unreported]
  have window : reports peerId (sincePromotion peerId (turn :: turns)) =
      reports peerId (sincePromotion peerId turns) := by
    simp [sincePromotion, unpromoted, reports, unreported]
  constructor
  · rw [members_of_same (same _ (by decide)), ledger.witnesses, distinctReporters, distinctReporters,
      window]
  · rw [live_of_same (same _ (by decide)), ledger.witnessed, window]
  · rw [members_of_same (same _ (by decide)), ledger.addresses, reportedTexts, reportedTexts, history]
  · rw [text?_of_same (same _ (by decide)), ledger.network, history]
  · intro network
    rw [live_of_same (same _ (quick_mem_ledgerFormats network)), ledger.indexed, history]
  · intro format member
    exact (ledger.timeless format member).of_same (same format member)

/-- A report of the peer is entered into its ledger. -/
theorem Ledger.report {turn : MarciTurn} {report : ReachableInfo} {earlier later : Store}
    (ledger : Ledger serde peerId turns earlier) (unpromoted : ¬ Promotes peerId turn)
    (reported : report? peerId turn = some report)
    (records : RecordsReachable serde report earlier later)
    (others : ∀ network, network ≠ report.peer.network →
      later.find? ((KeyFormat.peerNetworkQuick network).key peerId) =
        earlier.find? ((KeyFormat.peerNetworkQuick network).key peerId)) :
    Ledger serde peerId (turn :: turns) later := by
  obtain ⟨_, rfl⟩ := report?_eq_some reported
  have history : reports report.peer.peerId (turn :: turns) =
      report :: reports report.peer.peerId turns := by
    simp [reports, reported]
  have window : reports report.peer.peerId (sincePromotion report.peer.peerId (turn :: turns)) =
      report :: reports report.peer.peerId (sincePromotion report.peer.peerId turns) := by
    simp [sincePromotion, unpromoted, reports, reported]
  have indexed : ∀ network,
      later.Live ((KeyFormat.peerNetworkQuick network).key report.peer.peerId) ↔
        network = report.peer.network ∨
          earlier.Live ((KeyFormat.peerNetworkQuick network).key report.peer.peerId) := by
    intro network
    by_cases same : network = report.peer.network
    · subst same
      simp [Store.Live, records.indexed]
    · simp [live_of_same (others network same), same]
  constructor
  · rw [Store.members, records.witness, ledger.witnesses, distinctReporters, distinctReporters, window]
    simp
  · simp [Store.Live, records.witness, window]
  · rw [records.addresses, ledger.addresses, reportedTexts, reportedTexts, history]
    ext text
    simp [addressTexts, or_comm]
  · simp [Store.text?, records.network, history]
  · intro network
    rw [indexed, ledger.indexed, history]
    simp [eq_comm]
  · intro format member
    cases format with
    | reachablePeer => exact timeless_of_found records.witness
    | peerIp => exact records.timeless
    | peerNetwork => exact timeless_of_found records.network
    | peerNetworkQuick network =>
      by_cases same : network = report.peer.network
      · subst same
        exact timeless_of_found records.indexed
      · exact (ledger.timeless _ member).of_same (others network same)
    | _ => simp [ledgerFormats] at member

/-- A promotion spends the witnesses and keeps everything else. -/
theorem Ledger.promote {turn : MarciTurn} {earlier later : Store}
    (ledger : Ledger serde peerId turns earlier) (promoted : Promotes peerId turn)
    (unreported : report? peerId turn = none)
    (cleared : later.find? (KeyFormat.reachablePeer.key peerId) = none)
    (same : ∀ format ∈ ledgerFormats, format ≠ .reachablePeer →
      later.find? (format.key peerId) = earlier.find? (format.key peerId)) :
    Ledger serde peerId (turn :: turns) later := by
  have history : reports peerId (turn :: turns) = reports peerId turns := by
    simp [reports, unreported]
  constructor
  · simp [Store.members, cleared, sincePromotion, promoted, distinctReporters, reports]
  · simp [Store.Live, cleared, sincePromotion, promoted, reports]
  · rw [members_of_same (same _ (by decide) (by decide)), ledger.addresses, reportedTexts,
      reportedTexts, history]
  · rw [text?_of_same (same _ (by decide) (by decide)), ledger.network, history]
  · intro network
    rw [live_of_same (same _ (quick_mem_ledgerFormats network) (by simp)), ledger.indexed, history]
  · intro format member
    by_cases reachable : format = .reachablePeer
    · subst reachable
      exact timeless_of_missing cleared
    · exact (ledger.timeless format member).of_same (same format member reachable)

/-- Only a failed dial of the peer itself promotes it. -/
theorem promotes_unknown {message : Message}
    (completes : HandlerCompletes before (handle config serde message) trace after ())
    (promoted : Promotes peerId ⟨message, trace⟩) :
    ∃ peer, message = .unknown peer ∧ peer.peerId = peerId := by
  obtain ⟨event, member, stored⟩ := promoted
  cases message with
  | online peer => exact absurd stored (handleOnline_unstored peerId completes event member)
  | unknown peer =>
    by_cases same : peer.peerId = peerId
    · exact ⟨peer, rfl, same⟩
    · exact absurd stored
        ((onlyWrites_handle (.unknown peer)).unstored completes _ _ (.inr (Ne.symm same)) event member)
  | reachable peer =>
    exact absurd stored ((onlyWrites_handle (.reachable peer)).unstored completes _ _
      (.inl (by simp [Message.formats])) event member)
  | tick =>
    exact absurd stored ((onlyWrites_handle .tick).unstored completes _ _
      (.inl (by simp [Message.formats])) event member)

/-- Records outside a handler's footprint are found again as they were. -/
theorem Ledger.same {earlier later : Store} {formats : List KeyFormat} {subject : String}
    (ledger : Ledger serde peerId turns earlier)
    (fades : earlier.FadesOutside (recordKeys formats subject) later) (format : KeyFormat)
    (member : format ∈ ledgerFormats) (outside : peerId ≠ subject ∨ format ∉ formats) :
    later.find? (format.key peerId) = earlier.find? (format.key peerId) := by
  refine (ledger.timeless format member).unchanged fades fun inside => ?_
  obtain ⟨written, same⟩ := mem_recordKeys.mp inside
  rcases outside with different | unwritten
  · exact different same
  · exact unwritten written

/-- Without a promotion and without a report, the turn writes nothing in the ledger. -/
theorem ledger_untouched {message : Message}
    (completes : HandlerCompletes before (handle config serde message) trace after ())
    (unpromoted : ¬ Promotes peerId ⟨message, trace⟩)
    (unreported : report? peerId ⟨message, trace⟩ = none) :
    ∃ formats, before.redis.FadesOutside (recordKeys formats message.subject) after.redis ∧
      (peerId ≠ message.subject ∨ ∀ format ∈ ledgerFormats, format ∉ formats) := by
  have frame := (onlyWrites_handle message).frame completes
  by_cases subject : peerId = message.subject
  · cases message with
    | online peer => exact ⟨_, frame, .inr (by simp [ledgerFormats, Message.formats])⟩
    | unknown peer =>
      subst subject
      cases handleUnknown_turn completes with
      | kept found moved narrow unstored => exact ⟨_, narrow, .inr (by decide)⟩
      | ignored missing narrow unstored => exact ⟨_, narrow, .inr (by decide)⟩
      | promoted missing cleared narrow stored justified => exact absurd stored unpromoted
    | reachable peer =>
      subst subject
      simp [report?, Message.subject] at unreported
    | tick => exact ⟨_, frame, .inr (by simp [Message.formats])⟩
  · exact ⟨_, frame, .inl subject⟩

/-- One turn keeps the ledger of every peer. -/
theorem Ledger.turn {message : Message} (ledger : Ledger serde peerId turns before.redis)
    (completes : HandlerCompletes before (handle config serde message) trace after ()) :
    Ledger serde peerId (⟨message, trace⟩ :: turns) after.redis := by
  have frame := (onlyWrites_handle message).frame completes
  by_cases promoted : Promotes peerId ⟨message, trace⟩
  · obtain ⟨peer, rfl, rfl⟩ := promotes_unknown completes promoted
    have cleared : after.redis.find? (KeyFormat.reachablePeer.key peer.peerId) = none := by
      obtain ⟨event, member, stored⟩ := promoted
      cases handleUnknown_turn completes with
      | kept found moved narrow unstored => exact absurd stored (unstored event member)
      | ignored missing narrow unstored => exact absurd stored (unstored event member)
      | promoted missing cleared narrow stored justified => exact cleared
    refine ledger.promote promoted rfl cleared fun format member different => ?_
    apply ledger.same frame format member
    right
    have checked : ∀ format ∈ ledgerFormats, format ≠ .reachablePeer →
        format ∉ (Message.unknown peer).formats := by
      simp [ledgerFormats, Message.formats]
    exact checked format member different
  · cases reported : report? peerId ⟨message, trace⟩ with
    | none =>
      obtain ⟨formats, narrow, outside⟩ := ledger_untouched completes promoted reported
      refine ledger.quiet promoted reported fun format member => ?_
      exact ledger.same narrow format member (outside.imp_right fun free => free format member)
    | some report =>
      obtain ⟨rfl, rfl⟩ := report?_eq_some reported
      have records := handleReachable_turn (ledger.timeless _ (by decide))
        (ledger.timeless _ (by decide)) completes
      refine ledger.report promoted reported records fun network different => ?_
      apply ledger.same frame _ (quick_mem_ledgerFormats network)
      right
      simp [Message.formats, different]

/-- The ledger of every peer is kept in every run from an empty store. -/
theorem run_ledger (run : MarciRun config serde (.initial now) turns after) (peerId : String) :
    Ledger serde peerId turns after.redis :=
  run.keeps (fun turns state => Ledger serde peerId turns state.redis)
    (ledger_initial serde peerId now) fun _ ledger completes => ledger.turn completes

end CkbDiscovery.Marci
