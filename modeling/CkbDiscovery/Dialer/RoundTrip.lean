import CkbDiscovery.Addresses
import CkbDiscovery.Dialer.Components
import CkbDiscovery.Dialer.Dials
import CkbDiscovery.Dialer.Discovery

/-! A peer description that is printed as multiaddresses to be dialed, and read
back from them when a dial fails. -/

namespace CkbDiscovery.Dialer

open Effect

/-- The errors of a service that its handler tells apart. -/
inductive ServiceError where
  | dialerError (address : Multiaddr)
  | protocolSelectError
  | other

def Handler.handleError (handler : Handler) : ServiceError → Probe Unit
  | .dialerError address =>
    act (.publish "peer/unknown" (handler.serde.nodeMetaInfo.toString (handler.describePeer address)))
  | .protocolSelectError => act .disconnect
  | .other => pure ()

/-- `u16::from_str`: decimal digits, after a plus sign or not. -/
def portFromStr (text : String) : Option UInt16 :=
  let digits := if text.toList.head? = some '+' then text.toList.tail else text.toList
  let value := Nat.ofDigitChars 10 digits 0
  if digits ≠ [] ∧ digits.all Char.isDigit ∧ value < 65536 then some (.ofNat value) else none

/-- The parsers of the other values that a multiaddress text names. -/
structure TextParsers where
  ipv4 : String → Option Ipv4Addr
  ipv6 : String → Option Ipv6Addr
  p2pHash : String → Option (List UInt8)

/-- The printed form of a host is parsed back to it. -/
def TextParsers.ReadsBack (parsers : TextParsers) : IpAddr → Prop
  | .v4 address => parsers.ipv4 address.toString = some address
  | .v6 address => parsers.ipv6 address.toString = some address

/-- The parsers of the standard library do so for every host. -/
theorem readsBack_fromStr (p2pHash : String → Option (List UInt8)) (host : IpAddr) :
    TextParsers.ReadsBack ⟨Ipv4Addr.fromStr, Ipv6Addr.fromStr, p2pHash⟩ host := by
  cases host with
  | v4 address => exact address.fromStr_toString
  | v6 address => exact address.fromStr_toString

/-- The multiaddr parser reads the three components of a text with these parsers,
and encoding undoes decoding on a text that encodes something. -/
structure Codings.Reads (codings : Codings) (parsers : TextParsers) : Prop where
  ip4 : ∀ {host port hash : String} {address number id}, parsers.ipv4 host = some address →
    portFromStr port = some number → parsers.p2pHash hash = some id →
      codings.multiaddrOfText s!"/ip4/{host}/tcp/{port}/p2p/{hash}" =
        some [.ip4 address, .tcp number, .p2p id]
  ip6 : ∀ {host port hash : String} {address number id}, parsers.ipv6 host = some address →
    portFromStr port = some number → parsers.p2pHash hash = some id →
      codings.multiaddrOfText s!"/ip6/{host}/tcp/{port}/p2p/{hash}" =
        some [.ip6 address, .tcp number, .p2p id]
  canonical : ∀ {id hash}, parsers.p2pHash (codings.bs58Encode id) = some hash →
    codings.bs58Encode hash = codings.bs58Encode id

/-- The peer id is the text of a hash that the multiaddr parser accepts. -/
structure Named (codings : Codings) (parsers : TextParsers) (metaInfo : NodeMetaInfo) : Prop where
  encoded : ∃ id, metaInfo.peerId = codings.bs58Encode id
  accepted : (parsers.p2pHash metaInfo.peerId).isSome

variable {codings : Codings} {parsers : TextParsers} {metaInfo : NodeMetaInfo}
  {endpoint : EndpointInfo}

theorem portFromStr_repr (port : UInt16) : portFromStr (toString port.toNat) = some port := by
  have digits : (toString port.toNat).toList = Nat.toDigits 10 port.toNat := by
    simp [toString, Nat.repr]
  have numeric : ∀ char ∈ Nat.toDigits 10 port.toNat, char.isDigit = true := fun _ member =>
    Nat.isDigit_of_mem_toDigits (by decide) (by decide) member
  have unsigned : (Nat.toDigits 10 port.toNat).head? ≠ some '+' := by
    intro signed
    exact absurd (numeric '+' (List.mem_of_mem_head? signed)) (by decide)
  rw [portFromStr, digits, if_neg unsigned, Nat.ofDigitChars_ten_toDigits,
    if_pos ⟨Nat.toDigits_ne_nil, List.all_eq_true.mpr numeric, port.toNat_lt⟩, UInt16.ofNat_toNat]

/-- The text of an endpoint is read as its host, its port and a peer id of the same text. -/
theorem multiaddrOfText_endpointText (reads : codings.Reads parsers) (named : Named codings parsers metaInfo)
    (readsBack : parsers.ReadsBack endpoint.address) :
    ∃ id, codings.bs58Encode id = metaInfo.peerId ∧
      codings.multiaddrOfText (endpointText endpoint metaInfo.peerId) =
        some [endpoint.address.component, .tcp endpoint.port, .p2p id] := by
  obtain ⟨id, encoded⟩ := named.encoded
  obtain ⟨hash, accepted⟩ := Option.isSome_iff_exists.mp named.accepted
  have same : codings.bs58Encode hash = metaInfo.peerId := by
    rw [encoded]
    exact reads.canonical (encoded ▸ accepted)
  refine ⟨hash, same, ?_⟩
  obtain ⟨host, port⟩ := endpoint
  cases host with
  | v4 address => exact reads.ip4 readsBack (portFromStr_repr port) accepted
  | v6 address => exact reads.ip6 readsBack (portFromStr_repr port) accepted

/-- Three components are described as the endpoint and the peer they name. -/
theorem addrToNodeMeta_components (endpoint : EndpointInfo) (id : List UInt8) (network : CKBNetworkType) :
    addrToNodeMeta codings [endpoint.address.component, .tcp endpoint.port, .p2p id] network =
      ⟨codings.bs58Encode id, [endpoint], network⟩ := by
  obtain ⟨host, port⟩ := endpoint
  cases host <;> rfl

/-- The address made for an endpoint is parsed, and described as this endpoint alone. -/
theorem endpointText_described (reads : codings.Reads parsers) (named : Named codings parsers metaInfo)
    (readsBack : parsers.ReadsBack endpoint.address) :
    (codings.multiaddrOfText (endpointText endpoint metaInfo.peerId)).map
        (addrToNodeMeta codings · metaInfo.network) =
      some { metaInfo with addresses := [endpoint] } := by
  obtain ⟨id, same, parsed⟩ := multiaddrOfText_endpointText reads named readsBack
  rw [parsed, Option.map_some, addrToNodeMeta_components, same]

theorem metaInfoToAddr_eq :
    metaInfoToAddr codings metaInfo =
      (metaInfo.addresses.filter fun endpoint => !endpoint.address.isLoopback).map fun endpoint =>
        codings.multiaddrOfText (endpointText endpoint metaInfo.peerId) := by
  rw [metaInfoToAddr]
  induction metaInfo.addresses with
  | nil => rfl
  | cons endpoint rest inductionHypothesis =>
    rw [List.filterMap_cons, List.filter_cons]
    cases endpoint.address.isLoopback with
    | true => exact inductionHypothesis
    | false => exact congrArg (_ :: ·) inductionHypothesis

/-- A dial is made for some endpoint of the request that is not of the own host. -/
theorem dialed_for {serde : Serde} {payload : String} {dial : Dial}
    (read : serde.nodeMetaInfo.fromStr payload = some metaInfo)
    (dialed : dial ∈ dials codings serde payload) :
    dial.controller = metaInfo.network ∧ ∃ endpoint ∈ metaInfo.addresses,
      endpoint.address.isLoopback = false ∧
        codings.multiaddrOfText (endpointText endpoint metaInfo.peerId) = some dial.address := by
  have built : metaInfo.network ∈ builtNetworks := by
    by_contra unbuilt
    rw [dials, needsDial, read] at dialed
    obtain ⟨addr, _, asked⟩ := Program.mem_calls_forEach _ dialed
    cases network : metaInfo.network with
    | dev =>
      rw [dialAddress, network] at asked
      cases asked
    | _ => simp [network, builtNetworks] at unbuilt
  obtain ⟨controller, listed⟩ := mem_dials read built dialed
  rw [metaInfoToAddr_eq] at listed
  obtain ⟨endpoint, kept, parsed⟩ := List.mem_map.mp listed
  obtain ⟨member, remote⟩ := List.mem_filter.mp kept
  exact ⟨controller, endpoint, member, by simpa using remote, parsed⟩

/-- A description becomes one address for each endpoint that is not of the own
host, and each of them is described as this endpoint of the same peer. So a
failed dial is reported for the peer and the endpoint that it was made for. -/
theorem metaInfoToAddr_round_trip (reads : codings.Reads parsers)
    (named : Named codings parsers metaInfo)
    (readsBack : ∀ endpoint ∈ metaInfo.addresses, parsers.ReadsBack endpoint.address) :
    ((metaInfoToAddr codings metaInfo).map (Option.map (addrToNodeMeta codings · metaInfo.network)) =
      (metaInfo.addresses.filter fun endpoint => !endpoint.address.isLoopback).map fun endpoint =>
        some { metaInfo with addresses := [endpoint] }) ∧
    ∀ decoders serde payload, serde.nodeMetaInfo.fromStr payload = some metaInfo →
      ∀ dial ∈ dials codings serde payload, ∃ endpoint ∈ metaInfo.addresses,
        codings.multiaddrOfText (endpointText endpoint metaInfo.peerId) = some dial.address ∧
        publishedBy (actions (Handler.handleError ⟨codings, decoders, serde, dial.controller⟩
            (.dialerError dial.address))) =
          [("peer/unknown",
            serde.nodeMetaInfo.toString { metaInfo with addresses := [endpoint] })] := by
  constructor
  · rw [metaInfoToAddr_eq, List.map_map]
    apply List.map_congr_left
    intro endpoint kept
    exact endpointText_described reads named (readsBack endpoint (List.mem_filter.mp kept).1)
  · intro decoders serde payload read dial dialed
    obtain ⟨controller, endpoint, member, _, parsed⟩ := dialed_for read dialed
    refine ⟨endpoint, member, parsed, ?_⟩
    have described := endpointText_described reads named (readsBack endpoint member)
    rw [parsed, Option.map_some, Option.some.injEq] at described
    rw [controller, ← described]
    rfl

/-! The multiaddr parser segment by segment: a name, then its value. -/

def protocolFromText (parsers : TextParsers) (name value : String) : Option Protocol :=
  if name = "ip4" then (parsers.ipv4 value).map .ip4
  else if name = "ip6" then (parsers.ipv6 value).map .ip6
  else if name = "tcp" then (portFromStr value).map .tcp
  else if name = "p2p" then (parsers.p2pHash value).map .p2p
  else none

def protocolsFromText (parsers : TextParsers) : List (List Char) → Option Multiaddr
  | [] => some []
  | [_] => none
  | name :: value :: rest => do
    let protocol ← protocolFromText parsers (.ofList name) (.ofList value)
    let others ← protocolsFromText parsers rest
    pure (protocol :: others)

/-- The text starts with a slash, so its first segment is empty. -/
def multiaddrFromText (parsers : TextParsers) (text : String) : Option Multiaddr :=
  let segments := text.toList.splitOn '/'
  if segments.head? = some [] then protocolsFromText parsers segments.tail else none

/-- No value that is accepted contains the separator. -/
structure TextParsers.Slashless (parsers : TextParsers) : Prop where
  ipv4 : ∀ {text}, (parsers.ipv4 text).isSome → '/' ∉ text.toList
  ipv6 : ∀ {text}, (parsers.ipv6 text).isSome → '/' ∉ text.toList
  p2pHash : ∀ {text}, (parsers.p2pHash text).isSome → '/' ∉ text.toList

theorem portFromStr_slashless {text : String} (accepted : (portFromStr text).isSome) :
    '/' ∉ text.toList := by
  intro member
  simp only [portFromStr, Option.isSome_ite] at accepted
  have digit := List.all_eq_true.mp accepted.2.1
  cases chars : text.toList with
  | nil => simp [chars] at member
  | cons first rest =>
    rw [chars] at member digit
    by_cases signed : first = '+'
    · simp only [List.head?_cons, signed, if_true, List.tail_cons] at digit
      rcases List.mem_cons.mp member with same | later
      · exact absurd (same.trans signed) (by decide)
      · exact absurd (digit _ later) (by decide)
    · simp only [List.head?_cons, Option.some.injEq, signed, if_false] at digit
      exact absurd (digit _ member) (by decide)

theorem multiaddrFromText_segments {text : String} {kind host port hash : List Char}
    (spelled : text.toList = [] ++ '/' :: (kind ++ '/' :: (host ++ '/' :: (['t', 'c', 'p'] ++ '/' ::
      (port ++ '/' :: (['p', '2', 'p'] ++ '/' :: hash))))))
    (kindless : '/' ∉ kind) (hostless : '/' ∉ host) (portless : '/' ∉ port) (hashless : '/' ∉ hash) :
    multiaddrFromText parsers text =
      protocolsFromText parsers [kind, host, ['t', 'c', 'p'], port, ['p', '2', 'p'], hash] := by
  have segments : text.toList.splitOn '/' =
      [[], kind, host, ['t', 'c', 'p'], port, ['p', '2', 'p'], hash] := by
    rw [spelled, List.splitOn_append_cons_self_of_not_mem (by decide),
      List.splitOn_append_cons_self_of_not_mem kindless,
      List.splitOn_append_cons_self_of_not_mem hostless,
      List.splitOn_append_cons_self_of_not_mem (by decide),
      List.splitOn_append_cons_self_of_not_mem portless,
      List.splitOn_append_cons_self_of_not_mem (by decide), List.splitOn_eq_singleton hashless]
  rw [multiaddrFromText, segments]
  rfl

/-- A parser by segments reads the texts that the dialer prints. -/
theorem multiaddrFromText_reads (slashless : parsers.Slashless)
    (parses : codings.multiaddrOfText = multiaddrFromText parsers)
    (canonical : ∀ {id hash}, parsers.p2pHash (codings.bs58Encode id) = some hash →
      codings.bs58Encode hash = codings.bs58Encode id) : codings.Reads parsers where
  ip4 := by
    intro host port hash address number id readHost readPort readHash
    have spelled : (s!"/ip4/{host}/tcp/{port}/p2p/{hash}").toList =
        [] ++ '/' :: (['i', 'p', '4'] ++ '/' :: (host.toList ++ '/' :: (['t', 'c', 'p'] ++ '/' ::
          (port.toList ++ '/' :: (['p', '2', 'p'] ++ '/' :: hash.toList))))) := by
      simp [toString]
    rw [parses, multiaddrFromText_segments spelled (by decide)
      (slashless.ipv4 (by rw [readHost]; rfl)) (portFromStr_slashless (by rw [readPort]; rfl))
      (slashless.p2pHash (by rw [readHash]; rfl))]
    simp [protocolsFromText, protocolFromText, readHost, readPort, readHash]
  ip6 := by
    intro host port hash address number id readHost readPort readHash
    have spelled : (s!"/ip6/{host}/tcp/{port}/p2p/{hash}").toList =
        [] ++ '/' :: (['i', 'p', '6'] ++ '/' :: (host.toList ++ '/' :: (['t', 'c', 'p'] ++ '/' ::
          (port.toList ++ '/' :: (['p', '2', 'p'] ++ '/' :: hash.toList))))) := by
      simp [toString]
    rw [parses, multiaddrFromText_segments spelled (by decide)
      (slashless.ipv6 (by rw [readHost]; rfl)) (portFromStr_slashless (by rw [readPort]; rfl))
      (slashless.p2pHash (by rw [readHash]; rfl))]
    simp [protocolsFromText, protocolFromText, readHost, readPort, readHash]
  canonical := canonical

/-- The texts of two hosts, of the own host and of one peer. -/
def knownParsers : TextParsers where
  ipv4 text := [⟨1, 2, 3, 4⟩, ⟨127, 0, 0, 1⟩].find? fun address => address.toString = text
  ipv6 text := [⟨0x2001, 0xdb8, 0, 0, 1, 0, 0, 1⟩].find? fun address => address.toString = text
  p2pHash text := if text = "QmPHzhEzekyjB14eQsnsVRxmymtYmAyntcfJgVYRiUq4Lb" then some samplePeerId else none

def printedCodings : Codings := { sampleCodings with multiaddrOfText := multiaddrFromText knownParsers }

def printedPeer : NodeMetaInfo where
  peerId := "QmPHzhEzekyjB14eQsnsVRxmymtYmAyntcfJgVYRiUq4Lb"
  addresses := [⟨.v4 ⟨1, 2, 3, 4⟩, 8114⟩, ⟨.v4 ⟨127, 0, 0, 1⟩, 8114⟩,
    ⟨.v6 ⟨0x2001, 0xdb8, 0, 0, 1, 0, 0, 1⟩, 65535⟩]
  network := .mirana

theorem knownParsers_slashless : knownParsers.Slashless where
  ipv4 := by
    intro text accepted
    obtain ⟨address, found⟩ := Option.isSome_iff_exists.mp accepted
    simp only [knownParsers] at found
    have same : address.toString = text := by simpa using List.find?_some found
    have known : address ∈ [⟨1, 2, 3, 4⟩, ⟨127, 0, 0, 1⟩] := List.mem_of_find?_eq_some found
    rw [← same]
    rcases List.mem_pair.mp known with rfl | rfl <;> decide
  ipv6 := by
    intro text accepted
    obtain ⟨address, found⟩ := Option.isSome_iff_exists.mp accepted
    simp only [knownParsers] at found
    have same : address.toString = text := by simpa using List.find?_some found
    have known : address ∈ [⟨0x2001, 0xdb8, 0, 0, 1, 0, 0, 1⟩] := List.mem_of_find?_eq_some found
    rw [← same, List.mem_singleton.mp known]
    decide
  p2pHash := by
    intro text accepted
    simp only [knownParsers, Option.isSome_ite] at accepted
    rw [accepted]
    decide

theorem printedCodings_reads : printedCodings.Reads knownParsers := by
  apply multiaddrFromText_reads knownParsers_slashless rfl
  intro id hash accepted
  simp only [knownParsers] at accepted
  split at accepted
  · rename_i same
    cases accepted
    rw [same]
    simp [printedCodings, sampleCodings]
  · cases accepted

theorem printedPeer_named : Named printedCodings knownParsers printedPeer where
  encoded := ⟨samplePeerId, by simp [printedCodings, sampleCodings, printedPeer]⟩
  accepted := by simp [knownParsers, printedPeer]

theorem metaInfoToAddr_round_trip_printed :
    ((metaInfoToAddr printedCodings printedPeer).map
        (Option.map (addrToNodeMeta printedCodings · .mirana)) =
      [some { printedPeer with addresses := [⟨.v4 ⟨1, 2, 3, 4⟩, 8114⟩] },
        some { printedPeer with
          addresses := [⟨.v6 ⟨0x2001, 0xdb8, 0, 0, 1, 0, 0, 1⟩, 65535⟩] }]) ∧
    ∀ dial ∈ dials printedCodings sampleSerde (sampleSerde.nodeMetaInfo.toString printedPeer),
      ∃ endpoint ∈ printedPeer.addresses,
        printedCodings.multiaddrOfText (endpointText endpoint printedPeer.peerId) = some dial.address ∧
        publishedBy (actions (Handler.handleError ⟨printedCodings, sampleDecoders, sampleSerde,
            dial.controller⟩ (.dialerError dial.address))) =
          [("peer/unknown",
            sampleSerde.nodeMetaInfo.toString { printedPeer with addresses := [endpoint] })] := by
  have readsBack : ∀ endpoint ∈ printedPeer.addresses, knownParsers.ReadsBack endpoint.address := by
    intro endpoint member
    rcases List.mem_cons.mp member with rfl | other
    · rfl
    · rcases List.mem_pair.mp other with rfl | rfl <;> rfl
  have printed := metaInfoToAddr_round_trip printedCodings_reads printedPeer_named readsBack
  exact ⟨printed.1, printed.2 sampleDecoders sampleSerde _ (Codec.unary_roundTrips printedPeer)⟩

end CkbDiscovery.Dialer
