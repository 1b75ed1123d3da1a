import CkbDiscovery.Dialer.Network

/-! Which components of a multiaddress end up in a description, and which hosts
they denote. -/

namespace CkbDiscovery

namespace IpAddr

/-- The IPv6 form of an IPv4 address of the own host. -/
def mappedLoopback : IpAddr → Bool
  | v4 _ => false
  | v6 address => address.toIpv4Mapped.any Ipv4Addr.isLoopback

/-- An address of the own host: `127.0.0.0/8`, `::1`, or an IPv6 form of the former. -/
def hostsLoopback : IpAddr → Bool
  | v4 address => address.a == 127
  | v6 address => address == .localhost || address.toIpv4Mapped.any fun mapped => mapped.a == 127

/-- The filters of the dialer see all of them but the IPv6 forms. -/
theorem hostsLoopback_eq (address : IpAddr) :
    address.hostsLoopback = (address.isLoopback || address.mappedLoopback) := by
  cases address with
  | v4 address => exact (Bool.or_false _).symm
  | v6 address => rfl

def component : IpAddr → Dialer.Protocol
  | v4 address => .ip4 address
  | v6 address => .ip6 address

end IpAddr

namespace Dialer

namespace Protocol

def ip? : Protocol → Option IpAddr
  | ip4 address => some (.v4 address)
  | ip6 address => some (.v6 address)
  | _ => none

def tcp? : Protocol → Option UInt16
  | tcp port => some port
  | _ => none

def p2p? : Protocol → Option (List UInt8)
  | p2p id => some id
  | _ => none

@[simp] theorem ip?_component (address : IpAddr) : ip? address.component = some address := by
  cases address <;> rfl

end Protocol

namespace Multiaddr

def lastIp (addr : Multiaddr) : Option IpAddr := (addr.filterMap Protocol.ip?).getLast?

def lastPort (addr : Multiaddr) : Option UInt16 := (addr.filterMap Protocol.tcp?).getLast?

def lastId (addr : Multiaddr) : Option (List UInt8) := (addr.filterMap Protocol.p2p?).getLast?

variable {addr : Multiaddr}

theorem mem_of_lastId {id : List UInt8} (last : addr.lastId = some id) : .p2p id ∈ addr := by
  obtain ⟨protocol, member, found⟩ := List.mem_filterMap.mp (List.mem_of_getLast? last)
  cases protocol with
  | p2p _ => cases found; exact member
  | _ => cases found

end Multiaddr

/-- What a scan keeps of the items it reads is the last of them. -/
theorem foldl_last (kept : γ → β) (step : γ → α → γ) (read : α → Option β)
    (agrees : ∀ sofar item, kept (step sofar item) = (read item).getD (kept sofar))
    (scanned : List α) (start : γ) :
    kept (scanned.foldl step start) = ((scanned.filterMap read).getLast?).getD (kept start) := by
  induction scanned generalizing start with
  | nil => rfl
  | cons item rest inductionHypothesis =>
    rw [List.foldl_cons, inductionHypothesis, agrees]
    cases found : read item with
    | none => rw [List.filterMap_cons_none found, Option.getD_none]
    | some value =>
      rw [List.filterMap_cons_some found, List.getLast?_cons, Option.getD_some, Option.getD_some]

theorem addrToEndpoint_address (addr : Multiaddr) :
    (addrToEndpoint addr).address = addr.lastIp.getD localhost := by
  apply foldl_last EndpointInfo.address _ Protocol.ip?
  intro info protocol
  cases protocol <;> rfl

theorem addrToEndpoint_port (addr : Multiaddr) :
    (addrToEndpoint addr).port = addr.lastPort.getD 0 := by
  apply foldl_last EndpointInfo.port _ Protocol.tcp?
  intro info protocol
  cases protocol <;> rfl

theorem addrToPeerId_eq (codings : Codings) (addr : Multiaddr) :
    addrToPeerId codings addr = (addr.lastId.map codings.bs58Encode).getD "" := by
  rw [Multiaddr.lastId, ← List.getLast?_map, List.map_filterMap]
  apply foldl_last id _ fun protocol : Protocol => protocol.p2p?.map codings.bs58Encode
  intro sofar protocol
  cases protocol <;> rfl

/-- A description that survives the filter has its address from a component. -/
theorem lastIp_of_remote {addr : Multiaddr} (remote : (addrToEndpoint addr).address.isLoopback = false) :
    addr.lastIp = some (addrToEndpoint addr).address := by
  rw [addrToEndpoint_address] at remote ⊢
  cases last : addr.lastIp with
  | none =>
    rw [last] at remote
    cases remote
  | some address => rfl

/-- The text of a host, a port and a peer id that valid multiaddresses carry is
parsed back to these three. -/
def Reassembles (codings : Codings) : Prop :=
  ∀ {own other : List UInt8} {named addr : Multiaddr} {id : List UInt8},
    codings.multiaddrOfBytes own = some named → .p2p id ∈ named →
    codings.multiaddrOfBytes other = some addr →
      codings.multiaddrOfText (endpointText (addrToEndpoint addr) (codings.bs58Encode id)) =
        some [(addrToEndpoint addr).address.component, .tcp (addrToEndpoint addr).port, .p2p id]

def DenotesLoopback (addr : Multiaddr) : Prop :=
  ∃ protocol ∈ addr, ∃ address, protocol.ip? = some address ∧ address.hostsLoopback = true

theorem denotesLoopback_endpoint {address : IpAddr} {port : UInt16} {id : List UInt8} :
    DenotesLoopback [address.component, .tcp port, .p2p id] ↔ address.hostsLoopback = true := by
  constructor
  · intro given
    obtain ⟨protocol, member, found, read, hosted⟩ := given
    rcases List.mem_cons.mp member with rfl | other
    · rw [Protocol.ip?_component] at read
      cases read
      exact hosted
    · rcases List.mem_pair.mp other with rfl | rfl <;> cases read
  · intro hosted
    exact ⟨address.component, List.mem_cons_self, address, Protocol.ip?_component address, hosted⟩

end Dialer

end CkbDiscovery
