import CkbDiscovery.Types

/-! Multiaddresses and the peer descriptions made from them. -/

namespace CkbDiscovery.Dialer

/-- The components the dialer looks at. -/
inductive Protocol where
  | ip4 (address : Ipv4Addr)
  | ip6 (address : Ipv6Addr)
  | tcp (port : UInt16)
  | p2p (id : List UInt8)
  | other
  deriving DecidableEq

abbrev Multiaddr := List Protocol

/-- The multiaddr parsers and the base58 alphabet of other libraries. -/
structure Codings where
  bs58Encode : List UInt8 → String
  multiaddrOfBytes : List UInt8 → Option Multiaddr
  multiaddrOfText : String → Option Multiaddr

def localhost : IpAddr := .v4 ⟨127, 0, 0, 1⟩

def addrToEndpoint (addr : Multiaddr) : EndpointInfo :=
  addr.foldl (fun (info : EndpointInfo) protocol => match protocol with
    | .ip4 address => { info with address := .v4 address }
    | .ip6 address => { info with address := .v6 address }
    | .tcp port => { info with port }
    | _ => info) ⟨localhost, 0⟩

variable (codings : Codings)

/-- The text of the last peer id component, empty without one. -/
def addrToPeerId (addr : Multiaddr) : String :=
  addr.foldl (fun peerId protocol => match protocol with
    | .p2p id => codings.bs58Encode id
    | _ => peerId) ""

/-- The loop sets the peer id independently of the address and the port. -/
def addrToNodeMeta (addr : Multiaddr) (network : CKBNetworkType) : NodeMetaInfo where
  peerId := addrToPeerId codings addr
  addresses := [addrToEndpoint addr]
  network

/-- `/ip4/../tcp/../p2p/..` or its IPv6 form. -/
def endpointText (endpoint : EndpointInfo) (peerId : String) : String :=
  match endpoint.address with
  | .v4 addr => s!"/ip4/{addr.toString}/tcp/{endpoint.port.toNat}/p2p/{peerId}"
  | .v6 addr => s!"/ip6/{addr.toString}/tcp/{endpoint.port.toNat}/p2p/{peerId}"

def metaInfoToAddr (metaInfo : NodeMetaInfo) : List (Option Multiaddr) :=
  metaInfo.addresses.filterMap fun endpoint =>
    if endpoint.address.isLoopback then none
    else some (codings.multiaddrOfText (endpointText endpoint metaInfo.peerId))

/-- A peer id that is not empty is that of a component. -/
theorem addrToPeerId_mem {addr : Multiaddr} (present : addrToPeerId codings addr ≠ "") :
    ∃ id, .p2p id ∈ addr ∧ codings.bs58Encode id = addrToPeerId codings addr := by
  have scanned : ∀ (rest : Multiaddr) (sofar : String),
      rest.foldl (fun peerId protocol => match protocol with
        | .p2p id => codings.bs58Encode id
        | _ => peerId) sofar = sofar ∨
      ∃ id, .p2p id ∈ rest ∧ codings.bs58Encode id =
        rest.foldl (fun peerId protocol => match protocol with
          | .p2p id => codings.bs58Encode id
          | _ => peerId) sofar := by
    intro rest
    induction rest with
    | nil => exact fun sofar => .inl rfl
    | cons protocol rest inductionHypothesis =>
      intro sofar
      cases protocol with
      | p2p id =>
        rcases inductionHypothesis (codings.bs58Encode id) with same | ⟨later, member, found⟩
        · exact .inr ⟨id, List.mem_cons_self, same.symm⟩
        · exact .inr ⟨later, List.mem_cons_of_mem _ member, found⟩
      | _ =>
        rcases inductionHypothesis sofar with same | ⟨later, member, found⟩
        · exact .inl same
        · exact .inr ⟨later, List.mem_cons_of_mem _ member, found⟩
  exact (scanned addr "").resolve_left present

theorem addrToPeerId_dotless (alphabet : ∀ id, '.' ∉ (codings.bs58Encode id).toList)
    (addr : Multiaddr) : '.' ∉ (addrToPeerId codings addr).toList := by
  by_cases present : addrToPeerId codings addr = ""
  · rw [present]
    decide
  · obtain ⟨id, _, same⟩ := addrToPeerId_mem codings present
    rw [← same]
    exact alphabet id

end CkbDiscovery.Dialer
