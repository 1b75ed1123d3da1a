import CkbDiscovery.Codec

/-! The types shared by the dialer, Marci and the query service, with the
parts of `std::net` they rest on. -/

namespace CkbDiscovery

structure Ipv4Addr where
  a : UInt8
  b : UInt8
  c : UInt8
  d : UInt8
  deriving DecidableEq, Repr, Encodable

structure Ipv6Addr where
  s0 : UInt16
  s1 : UInt16
  s2 : UInt16
  s3 : UInt16
  s4 : UInt16
  s5 : UInt16
  s6 : UInt16
  s7 : UInt16
  deriving DecidableEq, Repr, Encodable

inductive IpAddr where
  | v4 (address : Ipv4Addr)
  | v6 (address : Ipv6Addr)
  deriving DecidableEq, Repr, Encodable

namespace Ipv4Addr

def isLoopback (address : Ipv4Addr) : Bool := address.a == 127

def toString (address : Ipv4Addr) : String :=
  s!"{address.a.toNat}.{address.b.toNat}.{address.c.toNat}.{address.d.toNat}"

end Ipv4Addr

namespace Ipv6Addr

def localhost : Ipv6Addr := ⟨0, 0, 0, 0, 0, 0, 0, 1⟩

def isLoopback (address : Ipv6Addr) : Bool := address == localhost

def segments (address : Ipv6Addr) : List UInt16 :=
  [address.s0, address.s1, address.s2, address.s3, address.s4, address.s5, address.s6, address.s7]

/-- The IPv4 address behind `::ffff:a.b.c.d`. -/
def toIpv4Mapped (address : Ipv6Addr) : Option Ipv4Addr :=
  match address with
  | ⟨0, 0, 0, 0, 0, 0xffff, high, low⟩ =>
    some ⟨(high >>> 8).toUInt8, high.toUInt8, (low >>> 8).toUInt8, low.toUInt8⟩
  | _ => none

structure Span where
  start : Nat
  len : Nat

/-- The first longest run of zero segments. -/
def longestZeroes : Nat → Span → Span → List UInt16 → Span
  | _, longest, _, [] => longest
  | index, longest, current, segment :: rest =>
    if segment = 0 then
      let grown : Span := ⟨if current.len = 0 then index else current.start, current.len + 1⟩
      longestZeroes (index + 1) (if longest.len < grown.len then grown else longest) grown rest
    else longestZeroes (index + 1) longest ⟨0, 0⟩ rest

def fmtSubslice (chunk : List UInt16) : String :=
  ":".intercalate (chunk.map fun segment => String.ofList (Nat.toDigits 16 segment.toNat))

def toString (address : Ipv6Addr) : String :=
  match address.toIpv4Mapped with
  | some ipv4 => "::ffff:" ++ ipv4.toString
  | none =>
    let zeroes := longestZeroes 0 ⟨0, 0⟩ ⟨0, 0⟩ address.segments
    if 1 < zeroes.len then
      fmtSubslice (address.segments.take zeroes.start) ++ "::" ++
        fmtSubslice (address.segments.drop (zeroes.start + zeroes.len))
    else fmtSubslice address.segments

end Ipv6Addr

namespace IpAddr

def isLoopback : IpAddr → Bool
  | v4 address => address.isLoopback
  | v6 address => address.isLoopback

def toString : IpAddr → String
  | v4 address => address.toString
  | v6 address => address.toString

end IpAddr

inductive CKBNetworkType where
  | mirana
  | pudge
  | dev
  deriving DecidableEq, Repr, Encodable

namespace CKBNetworkType

/-- Any name that is not known counts as the main network. -/
def ofString : String → CKBNetworkType
  | "mirana" | "ckb" | "main" | "mainnet" => mirana
  | "pudge" | "ckb_testnet" | "test" | "testnet" => pudge
  | "dev" | "ckb_dev" => dev
  | _ => mirana

def intoStr : CKBNetworkType → String
  | mirana => "mirana"
  | pudge => "pudge"
  | dev => "dev"

@[simp] theorem ofString_intoStr (network : CKBNetworkType) :
    ofString network.intoStr = network := by
  cases network <;> rfl

theorem intoStr_injective {first second : CKBNetworkType}
    (same : first.intoStr = second.intoStr) : first = second := by
  rw [← ofString_intoStr first, same, ofString_intoStr]

end CKBNetworkType

structure EndpointInfo where
  address : IpAddr
  port : UInt16
  deriving DecidableEq, Repr, Encodable

structure NodeMetaInfo where
  peerId : String
  addresses : List EndpointInfo
  network : CKBNetworkType
  deriving DecidableEq, Repr, Encodable

structure ReachableInfo where
  peer : NodeMetaInfo
  «from» : NodeMetaInfo
  deriving DecidableEq, Repr, Encodable

structure PeerInfo where
  info : NodeMetaInfo
  version : String
  full : Bool
  isEx : Bool
  deriving DecidableEq, Repr, Encodable

/-- The JSON texts of the messages on the wire and of the stored endpoints. -/
structure Serde where
  endpointInfo : Codec EndpointInfo
  nodeMetaInfo : Codec NodeMetaInfo
  reachableInfo : Codec ReachableInfo
  peerInfo : Codec PeerInfo

/-- Codecs for concrete runs whose texts do not matter. -/
def Serde.unary : Serde := ⟨.unary _, .unary _, .unary _, .unary _⟩

def sampleEndpoint : EndpointInfo := ⟨.v4 ⟨1, 2, 3, 4⟩, 8114⟩

/-- The same with the JSON text of one endpoint in place. -/
def sampleSerde : Serde :=
  { Serde.unary with
    endpointInfo := Codec.patch (.unary _) sampleEndpoint
      "\x7b\"address\":\"1.2.3.4\",\"port\":8114\x7d" }

theorem sampleSerde_roundTrips : sampleSerde.endpointInfo.RoundTrips :=
  Codec.unary_roundTrips.patch (Codec.unary_ne ⟨'p', by decide, by decide⟩)

example : (IpAddr.v6 ⟨0x2001, 0xdb8, 0, 0, 1, 0, 0, 1⟩).toString = "2001:db8::1:0:0:1" := by decide

end CkbDiscovery
