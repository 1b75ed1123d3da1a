import CkbDiscovery.Marci.Footprint

/-! What a reachable turn leaves in the records of the peer it reports. -/

namespace CkbDiscovery.Marci

open Effect Redis

variable {config : Config} {serde : Serde} {before after : State} {trace : HandlerTrace}

/-- The texts under which the reported addresses are stored. -/
def addressTexts (serde : Serde) (addresses : List EndpointInfo) : Finset String :=
  (addresses.map serde.endpointInfo.toString).toFinset

structure RecordsReachable (serde : Serde) (peer : ReachableInfo) (before after : Store) :
    Prop where
  witness : after.find? (KeyFormat.reachablePeer.key peer.peer.peerId) = some
    ⟨.set (insert peer.from.peerId
      (before.members (KeyFormat.reachablePeer.key peer.peer.peerId))), none⟩
  indexed : after.find? ((KeyFormat.peerNetworkQuick peer.peer.network).key peer.peer.peerId) =
    some ⟨.text "0", none⟩
  addresses : after.members (KeyFormat.peerIp.key peer.peer.peerId) =
    before.members (KeyFormat.peerIp.key peer.peer.peerId) ∪ addressTexts serde peer.peer.addresses
  timeless : Timeless after (KeyFormat.peerIp.key peer.peer.peerId)
  network : after.find? (KeyFormat.peerNetwork.key peer.peer.peerId) =
    some ⟨.text peer.peer.network.intoStr, none⟩

/-- The loop over the addresses, from any set of earlier addresses. -/
theorem addAddresses_members {peerId : String} {addresses : List EndpointInfo}
    (timeless : Timeless before.redis (KeyFormat.peerIp.key peerId))
    (completes : HandlerCompletes before (Program.forEach (fun ip => do
      let _ ← orReturn (Client.sadd (KeyFormat.peerIp.key peerId) (serde.endpointInfo.toString ip)))
      addresses) trace after ()) :
    after.redis.members (KeyFormat.peerIp.key peerId) =
        before.redis.members (KeyFormat.peerIp.key peerId) ∪ addressTexts serde addresses ∧
      Timeless after.redis (KeyFormat.peerIp.key peerId) := by
  induction addresses generalizing before trace with
  | nil =>
    obtain ⟨quiet, _⟩ := HandlerCompletes.done completes
    have faded := timeless.members_of_fades quiet (Set.notMem_empty _)
    simpa [addressTexts] using faded
  | cons ip rest inductionHypothesis =>
    obtain ⟨_, middle, _, _, adding, others, _⟩ := Completes.split completes
    obtain ⟨_, added, _, _, command, finished, _⟩ := Completes.split adding
    obtain ⟨_, _, served⟩ := HandlerCompletes.command command
    obtain ⟨quiet, _⟩ := HandlerCompletes.done finished
    have grown := served.sadd timeless
    obtain ⟨same, still⟩ :=
      (timeless_of_found grown).members_of_fades quiet (Set.notMem_empty _)
    obtain ⟨union, last⟩ := inductionHypothesis still others
    refine ⟨?_, last⟩
    rw [union, same]
    simp [Store.members, grown, addressTexts, Finset.insert_union, Finset.union_insert]

theorem recordReachable_records {peer : ReachableInfo}
    (reachableTimeless : Timeless before.redis (KeyFormat.reachablePeer.key peer.peer.peerId))
    (ipTimeless : Timeless before.redis (KeyFormat.peerIp.key peer.peer.peerId))
    (completes : HandlerCompletes before (recordReachable serde peer) trace after ()) :
    RecordsReachable serde peer before.redis after.redis := by
  obtain ⟨_, witnessed, _, _, witnessing, rest, _⟩ := Completes.split completes
  obtain ⟨_, _, servedWitness⟩ := HandlerCompletes.command witnessing
  obtain ⟨_, indexed, _, _, indexing, rest, _⟩ := Completes.split rest
  obtain ⟨_, _, servedIndex⟩ := HandlerCompletes.command indexing
  obtain ⟨_, addressed, _, _, addressing, networking, _⟩ := Completes.split rest
  obtain ⟨_, _, servedNetwork⟩ := HandlerCompletes.command networking
  have witnessFrame := servedWitness.frame_record .reachablePeer peer.peer.peerId rfl
  have indexFrame :=
    servedIndex.frame_record (.peerNetworkQuick peer.peer.network) peer.peer.peerId rfl
  have addressFrame : indexed.redis.FadesOutside (recordKeys [.peerIp] peer.peer.peerId)
      addressed.redis := by
    have adds : OnlyWrites false [.peerIp] peer.peer.peerId (Program.forEach (fun ip => do
        let _ ← orReturn (Client.sadd (KeyFormat.peerIp.key peer.peer.peerId)
          (serde.endpointInfo.toString ip))) peer.peer.addresses) := by
      apply Program.Within.forEach
      intro ip _
      exact (onlyWrites_record .peerIp rfl (by decide)).andThen fun _ => trivial
    exact adds.frame addressing
  have networkFrame := servedNetwork.frame_record .peerNetwork peer.peer.peerId rfl
  obtain ⟨metSame, metTimeless⟩ := ipTimeless.members_of_fades witnessFrame (by simp)
  obtain ⟨indexSame, indexTimeless⟩ := metTimeless.members_of_fades indexFrame (by simp)
  obtain ⟨union, addedTimeless⟩ := addAddresses_members indexTimeless addressing
  obtain ⟨lastSame, lastTimeless⟩ := addedTimeless.members_of_fades networkFrame (by simp)
  constructor
  · have witnessed := indexFrame.kept _ (by simp) _ (servedWitness.sadd reachableTimeless) rfl
    exact networkFrame.kept _ (by simp) _ (addressFrame.kept _ (by simp) _ witnessed rfl) rfl
  · exact networkFrame.kept _ (by simp) _ (addressFrame.kept _ (by simp) _ servedIndex.set rfl) rfl
  · rw [lastSame, union, indexSame, metSame]
  · exact lastTimeless
  · exact servedNetwork.set

/-- A whole reachable turn; its later parts do not touch these records. -/
theorem handleReachable_turn {peer : ReachableInfo}
    (reachableTimeless : Timeless before.redis (KeyFormat.reachablePeer.key peer.peer.peerId))
    (ipTimeless : Timeless before.redis (KeyFormat.peerIp.key peer.peer.peerId))
    (completes : HandlerCompletes before (handleReachable serde peer) trace after ()) :
    RecordsReachable serde peer before.redis after.redis := by
  obtain ⟨_, recorded, _, _, recording, rest, _⟩ := Completes.split completes
  have remainder : OnlyWrites false (.peerSeen :: locationFormats) peer.peer.peerId (do
      setLastSeen peer.peer.peerId
      locateReachable peer
      setLastUpdate) :=
    ((onlyWrites_setLastSeen _).mono (by decide)).andThen fun _ =>
      ((onlyWrites_locateReachable peer).mono (by decide)).andThen fun _ => onlyWrites_setLastUpdate
  have later := remainder.frame rest
  have records := recordReachable_records reachableTimeless ipTimeless recording
  obtain ⟨same, still⟩ := records.timeless.members_of_fades later (by simp [locationFormats])
  exact {
    witness := later.kept _ (by simp [locationFormats]) _ records.witness rfl
    indexed := later.kept _ (by simp [locationFormats]) _ records.indexed rfl
    addresses := same.trans records.addresses
    timeless := still
    network := later.kept _ (by simp [locationFormats]) _ records.network rfl }

end CkbDiscovery.Marci
