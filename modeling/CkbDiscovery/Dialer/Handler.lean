import CkbDiscovery.Dialer.Network
import CkbDiscovery.Dialer.Utf8
import CkbDiscovery.Effect.Evaluate

/-! The protocol handler of the dialer: what it publishes about a remote peer
and when it hangs up. -/

namespace CkbDiscovery.Dialer

open Effect

structure IdentifyPayload where
  clientVersion : List UInt8
  flag : UInt64

/-- A node advertised by a peer: its addresses, as bytes. -/
structure Node where
  addresses : List (List UInt8)

inductive DiscoveryPayload where
  | nodes (items : List Node)
  | getNodes

/-- The molecule decoders of the two protocols. -/
structure Decoders where
  identifyMessage : List UInt8 → Option (List UInt8)
  identify : List UInt8 → Option IdentifyPayload
  discovery : List UInt8 → Option DiscoveryPayload

/-- Publishing is a task of its own whose failure is only logged. -/
inductive ProbeAction where
  | publish (topic payload : String)
  | disconnect
  deriving DecidableEq

abbrev ProbeReply (_ : ProbeAction) := Unit

abbrev Probe := Program ProbeReply

def act (action : ProbeAction) : Probe Unit := .perform action

/-- The actions of a handler, also of one that panics on the way. -/
def actions (probe : Probe α) : List ProbeAction := probe.calls fun _ => ()

def finishes (probe : Probe α) : Bool := (probe.evaluate fun _ => ()).isSome

structure Handler where
  codings : Codings
  decoders : Decoders
  serde : Serde
  networkType : CKBNetworkType

namespace Handler

variable (handler : Handler)

/-- The bit map of the node's services, read as the source reads it. -/
def isFull (clientFlag : UInt64) : Bool :=
  clientFlag ||| 0b1 == 0b1 || clientFlag &&& 0b11110 == 0b11110

def supportsDiscovery (clientFlag : UInt64) : Bool := clientFlag &&& 0b10 == 0b10

def describePeer (address : Multiaddr) : NodeMetaInfo :=
  addrToNodeMeta handler.codings address handler.networkType

def onlineMessage (address : Multiaddr) (payload : IdentifyPayload) : PeerInfo where
  info := handler.describePeer address
  version := fromUtf8Lossy payload.clientVersion
  full := isFull payload.flag
  isEx := false

def receivedIdentify (address : Multiaddr) (data : List UInt8) : Probe Unit :=
  match (handler.decoders.identifyMessage data).bind handler.decoders.identify with
  | none => act .disconnect
  | some payload => do
    act (.publish "peer/online" (handler.serde.peerInfo.toString (handler.onlineMessage address payload)))
    if !(isFull payload.flag || supportsDiscovery payload.flag) then
      act .disconnect

/-- The description of an advertised node; bytes that are no multiaddress panic. -/
def describeNode (first : List UInt8) (rest : List (List UInt8)) : Option NodeMetaInfo := do
  let addr ← handler.codings.multiaddrOfBytes first
  let others ← rest.mapM handler.codings.multiaddrOfBytes
  let metaInfo := handler.describePeer addr
  pure { metaInfo with
    addresses := (metaInfo.addresses ++ others.map addrToEndpoint).filter fun endpoint =>
      !endpoint.address.isLoopback }

def reachableMessage (address : Multiaddr) (metaInfo : NodeMetaInfo) : ReachableInfo where
  peer := metaInfo
  «from» := handler.describePeer address

/-- One turn of the loop over the nodes; one without addresses is skipped. -/
def reportNode (address : Multiaddr) (node : Node) : Probe Unit :=
  match node.addresses with
  | [] => pure ()
  | first :: rest =>
    match handler.describeNode first rest with
    | none => .stop
    | some metaInfo => do
      act (.publish "peer/reachable"
        (handler.serde.reachableInfo.toString (handler.reachableMessage address metaInfo)))
      act .disconnect

def receivedDiscovery (address : Multiaddr) (data : List UInt8) : Probe Unit :=
  match handler.decoders.discovery data with
  | some (.nodes items) => Program.forEach (handler.reportNode address) items
  | some .getNodes => pure ()
  | none => pure ()

end Handler

/-- The protocols opened on a session. -/
inductive SupportProtocol where
  | discovery
  | identify
  | sync
  deriving DecidableEq

def Handler.received (handler : Handler) (address : Multiaddr) (data : List UInt8) :
    SupportProtocol → Probe Unit
  | .discovery => handler.receivedDiscovery address data
  | .identify => handler.receivedIdentify address data
  | .sync => pure ()

theorem mem_of_mapM {read : α → Option β} {items : List α} {results : List β} {result : β}
    (mapped : items.mapM read = some results) (member : result ∈ results) :
    ∃ item ∈ items, read item = some result := by
  induction items generalizing results with
  | nil =>
    cases mapped
    cases member
  | cons item rest inductionHypothesis =>
    rw [List.mapM_cons] at mapped
    obtain ⟨value, found, mapped⟩ := Option.bind_eq_some_iff.mp mapped
    obtain ⟨others, listed, mapped⟩ := Option.bind_eq_some_iff.mp mapped
    cases mapped
    rcases List.mem_cons.mp member with rfl | deeper
    · exact ⟨item, List.mem_cons_self, found⟩
    · obtain ⟨origin, present, same⟩ := inductionHypothesis listed deeper
      exact ⟨origin, List.mem_cons_of_mem _ present, same⟩

variable {handler : Handler} {address : Multiaddr} {data : List UInt8}

/-- What the handler hands to the broker. -/
def publishedBy (actions : List ProbeAction) : List (String × String) :=
  actions.filterMap fun action => match action with
    | .publish topic payload => some (topic, payload)
    | .disconnect => none

theorem mem_publishedBy {actions : List ProbeAction} {topic payload : String} :
    (topic, payload) ∈ publishedBy actions ↔ .publish topic payload ∈ actions := by
  rw [publishedBy, List.mem_filterMap]
  constructor
  · intro given
    obtain ⟨action, member, same⟩ := given
    cases action with
    | publish otherTopic otherPayload =>
      cases same
      exact member
    | disconnect => cases same
  · intro member
    exact ⟨_, member, rfl⟩

@[simp] theorem actions_act (action : ProbeAction) : actions (act action) = [action] := rfl

/-- What an Identify message that decodes makes the handler do. -/
theorem receivedIdentify_actions {raw : List UInt8} {payload : IdentifyPayload}
    (framed : handler.decoders.identifyMessage data = some raw)
    (decoded : handler.decoders.identify raw = some payload) :
    actions (handler.receivedIdentify address data) =
      .publish "peer/online" (handler.serde.peerInfo.toString (handler.onlineMessage address payload)) ::
        (if Handler.isFull payload.flag || Handler.supportsDiscovery payload.flag then []
          else [.disconnect]) := by
  rw [Handler.receivedIdentify, framed, Option.bind_some, decoded]
  cases stays : Handler.isFull payload.flag || Handler.supportsDiscovery payload.flag <;>
    simp only [stays] <;> rfl

/-- What one advertised node with addresses makes the handler do. -/
theorem reportNode_some {node : Node} {first : List UInt8} {rest : List (List UInt8)}
    {metaInfo : NodeMetaInfo} (addresses : node.addresses = first :: rest)
    (described : handler.describeNode first rest = some metaInfo) :
    handler.reportNode address node = (do
      act (.publish "peer/reachable"
        (handler.serde.reachableInfo.toString (handler.reachableMessage address metaInfo)))
      act .disconnect) := by
  rw [Handler.reportNode, addresses]
  simp only [described]

/-- The Identify branch publishes online reports only. -/
theorem receivedIdentify_publishes {topic payload : String}
    (published : .publish topic payload ∈ actions (handler.receivedIdentify address data)) :
    topic = "peer/online" := by
  unfold Handler.receivedIdentify at published
  split at published
  · simp at published
  · rename_i identifyPayload _
    cases stays : Handler.isFull identifyPayload.flag || Handler.supportsDiscovery identifyPayload.flag <;>
    · simp only [stays] at published
      simp [actions, act, Program.calls, Program.perform] at published
      exact published.1

/-- Everything the discovery branch publishes is a report of some node. -/
theorem receivedDiscovery_publishes {topic payload : String}
    (published : .publish topic payload ∈ actions (handler.receivedDiscovery address data)) :
    ∃ items, handler.decoders.discovery data = some (.nodes items) ∧ ∃ node ∈ items,
      ∃ first rest metaInfo, node.addresses = first :: rest ∧
        handler.describeNode first rest = some metaInfo ∧ topic = "peer/reachable" ∧
        payload = handler.serde.reachableInfo.toString (handler.reachableMessage address metaInfo) := by
  unfold Handler.receivedDiscovery at published
  split at published
  · rename_i items decoded
    obtain ⟨node, member, asked⟩ := Program.mem_calls_forEach _ published
    refine ⟨items, decoded, node, member, ?_⟩
    cases addresses : node.addresses with
    | nil =>
      rw [Handler.reportNode, addresses] at asked
      cases asked
    | cons first rest =>
      cases described : handler.describeNode first rest with
      | none =>
        rw [Handler.reportNode, addresses] at asked
        simp only [described] at asked
        cases asked
      | some metaInfo =>
        rw [reportNode_some addresses described] at asked
        refine ⟨first, rest, metaInfo, rfl, described, ?_⟩
        have calls : ProbeAction.publish topic payload ∈ [.publish "peer/reachable"
            (handler.serde.reachableInfo.toString (handler.reachableMessage address metaInfo)),
            .disconnect] := asked
        simpa using calls
  · cases published
  · cases published

/-! A peer with real messages, in the molecule layout of the two protocols. -/

def littleEndian32 (value : Nat) : List UInt8 :=
  [.ofNat value, .ofNat (value / 256), .ofNat (value / 65536), .ofNat (value / 16777216)]

def moleculeBytes (content : List UInt8) : List UInt8 := littleEndian32 content.length ++ content

/-- A table, or a vector of items of different sizes. -/
def moleculeTable (fields : List (List UInt8)) : List UInt8 :=
  let header := 4 * (fields.length + 1)
  let offsets := (fields.scanl (fun offset field => offset + field.length) header).take fields.length
  littleEndian32 (header + fields.flatten.length) ++ offsets.flatMap littleEndian32 ++ fields.flatten

def samplePeerId : List UInt8 :=
  [0x12, 0x20, 0x0e, 0x2d, 0x8a, 0xad, 0xf6, 0x3d, 0x99, 0x22, 0x80, 0x15, 0x66, 0x9c, 0x2a, 0x10, 0x5f,
    0x69, 0xac, 0xc3, 0x62, 0xa4, 0xdf, 0xd8, 0xbb, 0xda, 0x5d, 0xbb, 0x90, 0xc4, 0x01, 0xbf, 0x7c, 0x2c]

def sampleAddress : Multiaddr := [.ip4 ⟨1, 2, 3, 4⟩, .tcp 8114, .p2p samplePeerId]

def sampleAddressBytes : List UInt8 :=
  [0x04, 1, 2, 3, 4, 0x06, 0x1f, 0xb2, 0xa5, 0x03, 0x22] ++ samplePeerId

def sampleCodings : Codings where
  bs58Encode id := if id = samplePeerId then "QmPHzhEzekyjB14eQsnsVRxmymtYmAyntcfJgVYRiUq4Lb" else ""
  multiaddrOfBytes bytes := if bytes = sampleAddressBytes then some sampleAddress else none
  multiaddrOfText text :=
    if text = "/ip4/1.2.3.4/tcp/8114/p2p/QmPHzhEzekyjB14eQsnsVRxmymtYmAyntcfJgVYRiUq4Lb" then
      some sampleAddress else none

/-- A peer that supports discovery only, with client version `0.1`. -/
def sampleIdentify : List UInt8 :=
  moleculeTable [[0b10, 0, 0, 0, 0, 0, 0, 0], moleculeBytes [0x63, 0x6b, 0x62],
    moleculeBytes [0x30, 0x2e, 0x31]]

def sampleIdentifyMessage : List UInt8 :=
  moleculeTable [moleculeTable [], moleculeTable [moleculeBytes sampleAddressBytes],
    moleculeBytes sampleIdentify]

/-- It advertises itself; the union tag of a `Nodes` payload is one. -/
def sampleDiscoveryMessage : List UInt8 :=
  moleculeTable [littleEndian32 1 ++ moleculeTable [[0],
    moleculeTable [moleculeTable [moleculeTable [moleculeBytes sampleAddressBytes]]]]]

def sampleNode : Node := ⟨[sampleAddressBytes]⟩

def sampleDecoders : Decoders where
  identifyMessage data := if data = sampleIdentifyMessage then some sampleIdentify else none
  identify data := if data = sampleIdentify then some ⟨[0x30, 0x2e, 0x31], 0b10⟩ else none
  discovery data := if data = sampleDiscoveryMessage then some (.nodes [sampleNode]) else none

example : sampleDiscoveryMessage.take 16 =
    [98, 0, 0, 0, 8, 0, 0, 0, 1, 0, 0, 0, 86, 0, 0, 0] := by decide

end CkbDiscovery.Dialer
