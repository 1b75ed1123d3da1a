import CkbDiscovery.Marci.Broadcast

/-! Marci is heard by the dialers through the requests of its ticks alone, also
when a tick is given up on the way. -/

namespace CkbDiscovery.Marci

open Effect Redis

variable {config : Config} {serde : Serde} {before after : State} {trace : HandlerTrace}
  {peerId : String} {turns : List MarciTurn}

theorem mem_published {topic payload : String} :
    (topic, payload) ∈ published trace ↔ ∃ event ∈ trace, event.question = .publish topic payload := by
  rw [published, List.mem_filterMap]
  constructor
  · intro given
    obtain ⟨event, member, same⟩ := given
    split at same
    · rename_i question
      cases same
      exact ⟨event, member, question⟩
    · cases same
  · intro given
    obtain ⟨event, member, question⟩ := given
    exact ⟨event, member, by rw [question]⟩

/-- A request to dial a peer that has been reported. -/
structure Requested (serde : Serde) (turns : List MarciTurn) (topic payload : String) : Prop where
  channel : topic = "peer/needs_dial"
  target : ∃ metaInfo, payload = serde.nodeMetaInfo.toString metaInfo ∧
    reports metaInfo.peerId turns ≠ [] ∧ Describes turns metaInfo

theorem requestDial_requests (roundTrips : serde.endpointInfo.RoundTrips)
    (ledger : Ledger serde peerId turns before.redis) (reported : reports peerId turns ≠ [])
    (reaches : Reaches world before (requestDial serde peerId) trace after) {topic payload : String}
    (sent : (topic, payload) ∈ published trace) : Requested serde turns topic payload := by
  rcases Reaches.split reaches with gathering | ⟨_, _, metaInfo, _, gathering, publishing, rfl⟩
  · rw [gatherDial_silent gathering] at sent
    cases sent
  · obtain ⟨rfl, describes⟩ := gatherDial_describes roundTrips ledger gathering
    rw [published_append, gatherDial_silent gathering.reaches, List.nil_append] at sent
    obtain ⟨event, member, question⟩ := mem_published.mp sent
    have within : (orReturn (ask (.publish "peer/needs_dial"
        (serde.nodeMetaInfo.toString metaInfo))) : Handler Unit).Within fun question =>
        question = .publish "peer/needs_dial" (serde.nodeMetaInfo.toString metaInfo) :=
      ⟨rfl, fun reply => by cases reply <;> trivial⟩
    rw [Reaches.permitted within publishing event member] at question
    cases question
    exact ⟨rfl, metaInfo, rfl, reported, describes⟩

/-- The loop over the listed peers, as far as it has come. -/
theorem requestDials_request (roundTrips : serde.endpointInfo.RoundTrips) {ids : List String}
    (ledger : ∀ peerId, Ledger serde peerId turns before.redis)
    (reported : ∀ peerId ∈ ids, reports peerId turns ≠ [])
    (reaches : Reaches world before (Program.forEach (requestDial serde) ids) trace after)
    {topic payload : String} (sent : (topic, payload) ∈ published trace) :
    Requested serde turns topic payload := by
  obtain ⟨event, member, question⟩ := mem_published.mp sent
  refine Reaches.forEach (fun state => ∀ peerId, Ledger serde peerId turns state.redis)
    (fun event => ∀ topic payload, event.question = .publish topic payload →
      Requested serde turns topic payload) ?_ ?_ ledger reaches event member topic payload question
  · intro id earlier trace later ledgers completes peerId
    have reads : OnlyWrites true [] "" (requestDial serde id) := onlyWrites_requestDial id
    exact (ledgers peerId).later "" (reads.frame completes)
  · intro id listed earlier trace later ledgers requesting event present topic payload question
    exact requestDial_requests roundTrips (ledgers id) (reported id listed) requesting
      (mem_published.mpr ⟨event, present, question⟩)

theorem handleTick_requests (roundTrips : serde.endpointInfo.RoundTrips)
    (ledger : ∀ peerId, Ledger serde peerId turns before.redis)
    (dotless : ∀ peerId, reports peerId turns ≠ [] → '.' ∉ peerId.toList)
    (reaches : Reaches world before (handleTick serde) trace after) {topic payload : String}
    (sent : (topic, payload) ∈ published trace) : Requested serde turns topic payload := by
  have scans : OnlyWrites false [] "" (orReturn (Client.keys "peer.reachable.*") : Handler _) :=
    (onlyWrites_read rfl).orReturn
  rcases Reaches.split reaches with scanning | ⟨_, listed, scanned, _, scanning, rest, rfl⟩
  · rw [scans.silent scanning] at sent
    cases sent
  · rw [published_append, scans.silent scanning.reaches, List.nil_append] at sent
    obtain ⟨asked, _, served⟩ := HandlerCompletes.command scanning
    obtain ⟨_, subjects⟩ := scanned_ids (fun peerId => (ledger peerId).fade served.earlier) dotless served
    have scannedLedger := fun peerId =>
      (ledger peerId).later "" (served.frame.mono (by simp [Command.writes]))
    have reported : ∀ peerId ∈ scanned.map reachablePeerId, reports peerId turns ≠ [] :=
      fun peerId member => reported_of_window ((subjects peerId).mp member)
    rcases Reaches.split rest with requesting | ⟨_, _, _, _, requesting, updating, rfl⟩
    · exact requestDials_request roundTrips scannedLedger reported requesting sent
    · rw [published_append, setLastUpdate_silent updating, List.append_nil] at sent
      exact requestDials_request roundTrips scannedLedger reported requesting.reaches sent

/-- Whatever a turn hands to the broker, completed or not, is a request to dial
a peer with a report in the turns before. -/
theorem handle_requests {message : Message} (roundTrips : serde.endpointInfo.RoundTrips)
    (run : MarciRun config serde (.initial now) turns before)
    (dotless : ∀ peerId, reports peerId turns ≠ [] → '.' ∉ peerId.toList)
    (reaches : Reaches world before (handle config serde message) trace after) {topic payload : String}
    (sent : (topic, payload) ∈ published trace) : Requested serde turns topic payload := by
  have only : OnlyWrites message.broadcasts _ _ (handle config serde message) :=
    onlyWrites_handle message
  cases message with
  | tick => exact handleTick_requests roundTrips (run_ledger run) dotless reaches sent
  | _ =>
    rw [OnlyWrites.silent only reaches] at sent
    cases sent

end CkbDiscovery.Marci
