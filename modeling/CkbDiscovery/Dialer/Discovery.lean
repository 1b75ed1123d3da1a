import CkbDiscovery.Dialer.Components
import CkbDiscovery.Dialer.Session

/-! The answer to a discovery request: a list of nodes, of any shape, that the
remote peer has chosen and that the handler relays node by node. -/

namespace CkbDiscovery.Dialer

open Effect

/-- The loop over the components of an address, with the variables it sets. -/
structure Scanned where
  peerId : String
  address : IpAddr
  port : UInt16

namespace Scanned

def start : Scanned := ⟨"", localhost, 0⟩

def scan (codings : Codings) (scanned : Scanned) : Protocol → Scanned
  | .ip4 address => { scanned with address := .v4 address }
  | .ip6 address => { scanned with address := .v6 address }
  | .p2p id => { scanned with peerId := codings.bs58Encode id }
  | .tcp port => { scanned with port }
  | .other => scanned

variable {codings : Codings}

theorem peerId_foldl (addr : Multiaddr) :
    (addr.foldl (scan codings) start).peerId = addrToPeerId codings addr := by
  rw [addrToPeerId_eq, Multiaddr.lastId, ← List.getLast?_map, List.map_filterMap]
  apply foldl_last Scanned.peerId _ fun protocol : Protocol => protocol.p2p?.map codings.bs58Encode
  intro sofar protocol
  cases protocol <;> rfl

theorem address_foldl (addr : Multiaddr) :
    (addr.foldl (scan codings) start).address = (addrToEndpoint addr).address := by
  rw [addrToEndpoint_address]
  apply foldl_last Scanned.address _ Protocol.ip?
  intro sofar protocol
  cases protocol <;> rfl

theorem port_foldl (addr : Multiaddr) :
    (addr.foldl (scan codings) start).port = (addrToEndpoint addr).port := by
  rw [addrToEndpoint_port]
  apply foldl_last Scanned.port _ Protocol.tcp?
  intro sofar protocol
  cases protocol <;> rfl

end Scanned

/-- The one loop that sets all three fields describes an address like the two
loops that set the peer id and the endpoint. -/
theorem addrToNodeMeta_scanned (codings : Codings) (addr : Multiaddr) (network : CKBNetworkType) :
    let scanned := addr.foldl (Scanned.scan codings) .start
    addrToNodeMeta codings addr network =
      ⟨scanned.peerId, [⟨scanned.address, scanned.port⟩], network⟩ := by
  intro scanned
  rw [Scanned.peerId_foldl, Scanned.address_foldl, Scanned.port_foldl]
  rfl

namespace Handler

variable (handler : Handler)

/-- All addresses of a node are multiaddresses. -/
def Legible (node : Node) : Prop :=
  ∀ bytes ∈ node.addresses, (handler.codings.multiaddrOfBytes bytes).isSome

/-- What there is to relay of a node with valid addresses: nothing if it has
none, else the peer of the first address at the remote endpoints of them all. -/
def relayed (node : Node) : Option NodeMetaInfo :=
  match node.addresses.filterMap handler.codings.multiaddrOfBytes with
  | [] => none
  | first :: rest => some {
      peerId := (first.lastId.map handler.codings.bs58Encode).getD ""
      addresses := ((first :: rest).map addrToEndpoint).filter fun endpoint =>
        !endpoint.address.isLoopback
      network := handler.networkType }

/-- The report of a relayed node by the peer of the session. -/
def relay (address : Multiaddr) (peer : NodeMetaInfo) : ProbeAction :=
  .publish "peer/reachable" (handler.serde.reachableInfo.toString ⟨peer, handler.describePeer address⟩)

end Handler

variable {handler : Handler} {address : Multiaddr} {data : List UInt8} {node : Node}
  {nodes : List Node}

theorem mapM_eq_filterMap {f : α → Option β} {items : List α} (defined : ∀ item ∈ items, (f item).isSome) :
    items.mapM f = some (items.filterMap f) := by
  induction items with
  | nil => rfl
  | cons item rest inductionHypothesis =>
    obtain ⟨first, others⟩ := List.forall_mem_cons.mp defined
    obtain ⟨value, found⟩ := Option.isSome_iff_exists.mp first
    rw [List.mapM_cons, found, inductionHypothesis others, List.filterMap_cons_some found]
    rfl

/-- The two loops over a node's addresses amount to one map over them all. -/
theorem describeNode_relayed {first : List UInt8} {rest : List (List UInt8)}
    (addresses : node.addresses = first :: rest) (legible : handler.Legible node) :
    handler.describeNode first rest = handler.relayed node := by
  rw [Handler.Legible, addresses] at legible
  obtain ⟨here, others⟩ := List.forall_mem_cons.mp legible
  obtain ⟨addr, found⟩ := Option.isSome_iff_exists.mp here
  rw [Handler.describeNode, found, mapM_eq_filterMap others, Handler.relayed, addresses,
    List.filterMap_cons_some found]
  simp only [← addrToPeerId_eq]
  rfl

theorem relayed_isSome (legible : handler.Legible node) :
    (handler.relayed node).isSome ↔ node.addresses ≠ [] := by
  cases addresses : node.addresses with
  | nil =>
    rw [Handler.relayed, addresses]
    simp
  | cons first rest =>
    rw [← describeNode_relayed addresses legible, describeNode_isSome, ← addresses]
    exact ⟨fun _ => by simp [addresses], fun _ => legible⟩

/-- A turn of the loop over a node with valid addresses. -/
theorem actions_reportNode (legible : handler.Legible node) :
    actions (handler.reportNode address node) =
      (handler.relayed node).toList.flatMap fun peer => [handler.relay address peer, .disconnect] := by
  cases addresses : node.addresses with
  | nil =>
    rw [Handler.reportNode, Handler.relayed, addresses]
    rfl
  | cons first rest =>
    have advertised : node.addresses ≠ [] := by simp [addresses]
    obtain ⟨peer, same⟩ := Option.isSome_iff_exists.mp ((relayed_isSome legible).mpr advertised)
    have described : handler.describeNode first rest = some peer :=
      (describeNode_relayed addresses legible).trans same
    rw [reportNode_some addresses described, same]
    rfl

/-- A turn of the loop goes through exactly on valid addresses. -/
theorem reportNode_finishes : finishes (handler.reportNode address node) = true ↔ handler.Legible node := by
  cases addresses : node.addresses with
  | nil =>
    rw [Handler.reportNode, Handler.Legible, addresses]
    simp [finishes]
  | cons first rest =>
    rw [Handler.Legible, addresses, ← describeNode_isSome, Handler.reportNode, addresses]
    cases described : handler.describeNode first rest with
    | none => simp [finishes, described, Program.evaluate]
    | some peer =>
      simp only [described, Option.isSome_some, iff_true]
      rfl

/-- Whatever the bytes, the discovery branch panics on nothing but an address of
a well-formed `Nodes` message that is no multiaddress. -/
theorem receivedDiscovery_finishes_iff (handler : Handler) (address : Multiaddr) (data : List UInt8) :
    finishes (handler.receivedDiscovery address data) = true ↔
      ∀ nodes, handler.decoders.discovery data = some (.nodes nodes) →
        ∀ node ∈ nodes, ∀ bytes ∈ node.addresses, (handler.codings.multiaddrOfBytes bytes).isSome := by
  cases decoded : handler.decoders.discovery data with
  | none =>
    rw [Handler.receivedDiscovery, decoded]
    simp [finishes]
  | some payload =>
    cases payload with
    | getNodes =>
      rw [Handler.receivedDiscovery, decoded]
      simp [finishes]
    | nodes items =>
      constructor
      · intro finished nodes same node member
        cases same
        rw [finishes, Handler.receivedDiscovery, decoded] at finished
        exact reportNode_finishes.mp ((Program.forEach_finishes _).mp finished node member)
      · intro legible
        exact receivedDiscovery_finishes decoded (legible items rfl)

/-- The loop over valid nodes relays each that has addresses and hangs up. -/
theorem actions_receivedDiscovery (decoded : handler.decoders.discovery data = some (.nodes nodes))
    (legible : ∀ node ∈ nodes, handler.Legible node) :
    actions (handler.receivedDiscovery address data) =
      (nodes.filterMap handler.relayed).flatMap fun peer => [handler.relay address peer, .disconnect] := by
  rw [Handler.receivedDiscovery, decoded]
  change actions (Program.forEach (handler.reportNode address) nodes) = _
  clear decoded
  induction nodes with
  | nil => rfl
  | cons node rest inductionHypothesis =>
    obtain ⟨here, others⟩ := List.forall_mem_cons.mp legible
    have through : finishes (handler.reportNode address node) = true := reportNode_finishes.mpr here
    obtain ⟨_, finished⟩ := Option.isSome_iff_exists.mp through
    have first : actions (handler.reportNode address node) = _ := actions_reportNode here
    rw [actions] at first ⊢
    rw [Program.calls_forEach_cons, first, finished, Option.map_some, Option.getD_some]
    change _ ++ actions _ = _
    rw [inductionHypothesis others]
    cases peer : handler.relayed node with
    | none => rw [List.filterMap_cons_none peer]; rfl
    | some value => rw [List.filterMap_cons_some peer]; rfl

/-! A peer of the own choosing: the message that carries a given list of nodes,
and a handler that decodes just this message. -/

def nodesMessage (items : List Node) : List UInt8 :=
  moleculeTable [littleEndian32 1 ++ moleculeTable [[0], moleculeTable (items.map fun node =>
    moleculeTable [moleculeTable (node.addresses.map moleculeBytes)])]]

def answered (items : List Node) : Handler where
  codings := sampleCodings
  decoders := { sampleDecoders with
    discovery data := if data = nodesMessage items then some (.nodes items) else none }
  serde := sampleSerde
  networkType := .mirana

theorem answered_decodes (items : List Node) :
    (answered items).decoders.discovery (nodesMessage items) = some (.nodes items) :=
  if_pos rfl

example : nodesMessage [sampleNode] = sampleDiscoveryMessage := by decide

example : nodesMessage [] =
    [29, 0, 0, 0, 8, 0, 0, 0, 1, 0, 0, 0, 17, 0, 0, 0, 12, 0, 0, 0, 13, 0, 0, 0, 0, 4, 0, 0, 0] := by
  decide

/-- One address of a single byte that is no protocol code ends the service. -/
theorem unreadable_address_panics :
    finishes ((answered [⟨[[0xff]]⟩]).receivedDiscovery sampleAddress (nodesMessage [⟨[[0xff]]⟩])) =
      false := by
  have illegible : ¬ (answered [⟨[[0xff]]⟩]).Legible ⟨[[0xff]]⟩ := by
    intro legible
    exact absurd (legible [0xff] List.mem_cons_self) (by decide)
  rw [finishes, Handler.receivedDiscovery, answered_decodes, ← Bool.not_eq_true]
  intro finished
  exact illegible (reportNode_finishes.mp
    ((Program.forEach_finishes _).mp finished _ List.mem_cons_self))

/-- Every advertised node is relayed, in order, and nothing else is published. -/
theorem receivedDiscovery_relays (decoded : handler.decoders.discovery data = some (.nodes nodes))
    (legible : ∀ node ∈ nodes, ∀ bytes ∈ node.addresses,
      (handler.codings.multiaddrOfBytes bytes).isSome) :
    publishedBy (actions (handler.receivedDiscovery address data)) =
      (nodes.filterMap handler.relayed).map fun peer =>
        ("peer/reachable", handler.serde.reachableInfo.toString
          ⟨peer, addrToNodeMeta handler.codings address handler.networkType⟩) := by
  rw [actions_receivedDiscovery decoded legible]
  induction nodes.filterMap handler.relayed with
  | nil => rfl
  | cons peer rest inductionHypothesis => exact congrArg (_ :: ·) inductionHypothesis

def sampleNodes : List Node := [⟨[]⟩, sampleNode, ⟨[sampleAddressBytes, sampleAddressBytes]⟩]

theorem sampleNodes_legible : ∀ node ∈ sampleNodes, ∀ bytes ∈ node.addresses,
    ((answered sampleNodes).codings.multiaddrOfBytes bytes).isSome := by
  have known (items : List Node) :
      ((answered items).codings.multiaddrOfBytes sampleAddressBytes).isSome := by
    simp [answered, sampleCodings]
  simp [sampleNodes, sampleNode, known]

theorem receivedDiscovery_relays_sample :
    publishedBy (actions ((answered sampleNodes).receivedDiscovery sampleAddress
      (nodesMessage sampleNodes))) =
      (sampleNodes.filterMap (answered sampleNodes).relayed).map fun peer =>
        ("peer/reachable", sampleSerde.reachableInfo.toString
          ⟨peer, addrToNodeMeta sampleCodings sampleAddress .mirana⟩) :=
  receivedDiscovery_relays (answered_decodes sampleNodes) sampleNodes_legible

/-- A valid answer ends its session exactly if it advertises some address. -/
theorem receivedDiscovery_disconnects_iff
    (decoded : handler.decoders.discovery data = some (.nodes nodes))
    (legible : ∀ node ∈ nodes, ∀ bytes ∈ node.addresses,
      (handler.codings.multiaddrOfBytes bytes).isSome) :
    finishes (handler.receivedDiscovery address data) = true ∧
        .disconnect ∈ actions (handler.receivedDiscovery address data) ↔
      ∃ node ∈ nodes, node.addresses ≠ [] := by
  have finished : finishes (handler.receivedDiscovery address data) = true :=
    receivedDiscovery_finishes decoded legible
  rw [actions_receivedDiscovery decoded legible]
  constructor
  · rintro ⟨_, requested⟩
    obtain ⟨peer, present, _⟩ := List.mem_flatMap.mp requested
    obtain ⟨node, member, same⟩ := List.mem_filterMap.mp present
    exact ⟨node, member, (relayed_isSome (legible node member)).mp (by rw [same]; rfl)⟩
  · rintro ⟨node, member, advertised⟩
    obtain ⟨peer, same⟩ :=
      Option.isSome_iff_exists.mp ((relayed_isSome (legible node member)).mpr advertised)
    have present : peer ∈ nodes.filterMap handler.relayed :=
      List.mem_filterMap.mpr ⟨node, member, same⟩
    exact ⟨finished, List.mem_flatMap.mpr ⟨peer, present, by simp⟩⟩

theorem receivedDiscovery_disconnects_sample :
    finishes ((answered sampleNodes).receivedDiscovery sampleAddress (nodesMessage sampleNodes)) = true ∧
      .disconnect ∈ actions ((answered sampleNodes).receivedDiscovery sampleAddress
        (nodesMessage sampleNodes)) :=
  (receivedDiscovery_disconnects_iff (answered_decodes sampleNodes) sampleNodes_legible).mpr
    ⟨sampleNode, by simp [sampleNodes], by decide⟩

/-- An empty list, and a list of nodes without addresses, leave the session open. -/
theorem empty_answer_stays :
    .disconnect ∉ actions ((answered []).receivedDiscovery sampleAddress (nodesMessage [])) ∧
      .disconnect ∉ actions ((answered [⟨[]⟩]).receivedDiscovery sampleAddress (nodesMessage [⟨[]⟩])) := by
  rw [Handler.receivedDiscovery, Handler.receivedDiscovery, answered_decodes, answered_decodes]
  decide

end CkbDiscovery.Dialer
