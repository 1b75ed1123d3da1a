import CkbDiscovery.Deployment.Provenance
import CkbDiscovery.Dialer.Components

/-! Which multiaddresses the dialed endpoints come from, and which hosts of the
dialer's own can be among them. -/

namespace CkbDiscovery.Deployment

open Effect Dialer Marci

variable (parties : Parties)

/-- The receipt was a list of nodes, one of which has these addresses. -/
def Receipt.Lists (receipt : Receipt) (first : List UInt8) (rest : List (List UInt8)) : Prop :=
  receipt.protocol = .discovery ∧ ∃ nodes, parties.decoders.discovery receipt.data = some (.nodes nodes) ∧
    ∃ node ∈ nodes, node.addresses = first :: rest

/-- The receipt was a list of nodes, one of which has this address. -/
def Receipt.Contains (receipt : Receipt) (addr : Multiaddr) : Prop :=
  ∃ first rest, receipt.Lists parties first rest ∧ ∃ bytes ∈ first :: rest,
    parties.codings.multiaddrOfBytes bytes = some addr

/-- One received multiaddress has all three components. -/
def Carried (system : System) (address : IpAddr) (port : UInt16) (id : List UInt8) : Prop :=
  ∃ receipt ∈ system.received, ∃ addr, receipt.Contains parties addr ∧
    address.component ∈ addr ∧ .tcp port ∈ addr ∧ .p2p id ∈ addr

/-- Each endpoint of a request was reported for its peer. -/
def Itemised (system : System) (metaInfo : NodeMetaInfo) : Prop :=
  ∀ endpoint ∈ metaInfo.addresses, ∃ report, Relayed parties system report ∧
    report.peer.peerId = metaInfo.peerId ∧ endpoint ∈ report.peer.addresses

variable {parties} {system earlier later : System} {now : Nat} {topic payload : String}

theorem Itemised.mono {metaInfo : NodeMetaInfo} (itemised : Itemised parties earlier metaInfo)
    (kept : earlier.received ⊆ later.received) : Itemised parties later metaInfo := by
  intro endpoint member
  obtain ⟨report, relayed, same, listed⟩ := itemised endpoint member
  exact ⟨report, relayed.mono kept, same, listed⟩

theorem relayed_unrequested {receipt : Receipt} (sent : (topic, payload) ∈ relayed parties receipt) :
    topic ≠ "peer/needs_dial" := by
  have asked := mem_publishedBy.mp sent
  cases protocol : receipt.protocol with
  | identify =>
    rw [protocol] at asked
    obtain rfl := receivedIdentify_publishes asked
    decide
  | sync =>
    rw [protocol] at asked
    cases asked
  | discovery =>
    rw [protocol] at asked
    obtain ⟨_, _, _, _, _, _, _, _, _, rfl, _⟩ := receivedDiscovery_publishes asked
    decide

/-- The requests of a turn list reported endpoints, also of one given up. -/
theorem Provenance.published_itemised (assumed : Assumed parties)
    (provenance : Provenance parties now system) {before after : State} {message : Marci.Message}
    {trace : HandlerTrace} (running : system.marci = some before)
    (reaches : Reaches world before (handle parties.config parties.serde message) trace after)
    (sent : (topic, payload) ∈ published trace) :
    ∃ metaInfo, payload = parties.serde.nodeMetaInfo.toString metaInfo ∧
      Itemised parties system metaInfo := by
  obtain ⟨_, metaInfo, written, _, describes⟩ := handle_requests assumed.endpoints
    (provenance.running running) (provenance.dotless assumed) reaches sent
  refine ⟨metaInfo, written, fun endpoint member => ?_⟩
  obtain ⟨report, reported, listed⟩ := (describes.addresses endpoint).mp member
  obtain ⟨relayed, same⟩ := provenance.reported reported
  exact ⟨report, relayed, same, listed⟩

theorem pending_itemised (assumed : Assumed parties) (reachable : Reachable parties now system)
    (pending : Pending system payload) :
    ∃ metaInfo, payload = parties.serde.nodeMetaInfo.toString metaInfo ∧
      Itemised parties system metaInfo := by
  induction reachable with
  | refl => cases pending
  | tail reached step inductionHypothesis =>
    have provenance := reachable_provenance assumed reached
    cases step with
    | receive built =>
      rcases List.mem_append.mp pending with fresh | old
      · exact absurd rfl (relayed_unrequested fresh)
      · obtain ⟨metaInfo, written, itemised⟩ := inductionHypothesis old
        exact ⟨metaInfo, written, itemised.mono (List.subset_cons_self _ _)⟩
    | foreign unreported unrequested =>
      rcases List.mem_cons.mp pending with fresh | old
      · cases fresh
        exact absurd rfl unrequested
      · exact inductionHypothesis old
    | turn running delivered completes =>
      rcases List.mem_append.mp pending with fresh | old
      · obtain ⟨metaInfo, written, itemised⟩ :=
          provenance.published_itemised assumed running completes.reaches fresh
        exact ⟨metaInfo, written, itemised.mono (List.Subset.refl _)⟩
      · exact inductionHypothesis old
    | abort running delivered reaches =>
      rcases List.mem_append.mp pending with fresh | old
      · obtain ⟨metaInfo, written, itemised⟩ :=
          provenance.published_itemised assumed running reaches fresh
        exact ⟨metaInfo, written, itemised.mono (List.Subset.refl _)⟩
      · exact inductionHypothesis old

/-- The endpoints of a described node, after the filter. -/
theorem describeNode_endpoints {handler : Dialer.Handler} {first : List UInt8}
    {rest : List (List UInt8)} {metaInfo : NodeMetaInfo} {endpoint : EndpointInfo}
    (described : handler.describeNode first rest = some metaInfo)
    (member : endpoint ∈ metaInfo.addresses) :
    endpoint.address.isLoopback = false ∧ ∃ bytes ∈ first :: rest, ∃ addr,
      handler.codings.multiaddrOfBytes bytes = some addr ∧ endpoint = addrToEndpoint addr := by
  unfold Handler.describeNode at described
  obtain ⟨addr, parsed, described⟩ := Option.bind_eq_some_iff.mp described
  obtain ⟨others, mapped, described⟩ := Option.bind_eq_some_iff.mp described
  cases described
  obtain ⟨listed, remote⟩ := List.mem_filter.mp member
  refine ⟨by simpa using remote, ?_⟩
  rcases List.mem_append.mp listed with own | other
  · obtain rfl := List.mem_singleton.mp own
    exact ⟨first, List.mem_cons_self, addr, parsed, rfl⟩
  · obtain ⟨another, present, rfl⟩ := List.mem_map.mp other
    obtain ⟨bytes, among, read⟩ := mem_of_mapM mapped present
    exact ⟨bytes, List.mem_cons_of_mem _ among, another, read, rfl⟩

/-- Where an endpoint of a request comes from: one multiaddress of a node gives
the address and the port, the node's first one the peer id. -/
structure Origin (parties : Parties) (system : System) (peerId : String) (endpoint : EndpointInfo) :
    Prop where
  remote : endpoint.address.isLoopback = false
  listed : ∃ receipt ∈ system.received, ∃ first rest, receipt.Lists parties first rest ∧
    ∃ own, parties.codings.multiaddrOfBytes first = some own ∧
      peerId = addrToPeerId parties.codings own ∧
    ∃ bytes ∈ first :: rest, ∃ addr, parties.codings.multiaddrOfBytes bytes = some addr ∧
      endpoint = addrToEndpoint addr

theorem pending_origins (assumed : Assumed parties) (reachable : Reachable parties now system)
    (pending : Pending system payload) :
    ∃ peer, parties.serde.nodeMetaInfo.fromStr payload = some peer ∧
      ∀ endpoint ∈ peer.addresses, Origin parties system peer.peerId endpoint := by
  obtain ⟨peer, rfl, itemised⟩ := pending_itemised assumed reachable pending
  refine ⟨peer, assumed.requests peer, fun endpoint member => ?_⟩
  obtain ⟨report, relayed, same, reported⟩ := itemised endpoint member
  obtain ⟨receipt, received, _, protocol, nodes, decoded, node, present, first, rest, addresses,
    described⟩ := relayed
  obtain ⟨own, parsed, spelled, _⟩ := describeNode_parts described
  obtain ⟨remote, source⟩ := describeNode_endpoints described reported
  exact ⟨remote, receipt, received, first, rest, ⟨protocol, nodes, decoded, node, present, addresses⟩,
    own, parsed, same.symm.trans spelled, source⟩

/-- The address built for an endpoint, if any, has the parts of its origin. -/
theorem Origin.parsed (assumed : Assumed parties) (reassembles : Reassembles parties.codings)
    {peerId : String} {endpoint : EndpointInfo} (origin : Origin parties system peerId endpoint) :
    (peerId = "" ∧ parties.codings.multiaddrOfText (endpointText endpoint peerId) = none) ∨
    ∃ receipt ∈ system.received, ∃ first rest, receipt.Lists parties first rest ∧
      ∃ own id, parties.codings.multiaddrOfBytes first = some own ∧ own.lastId = some id ∧
      ∃ bytes ∈ first :: rest, ∃ addr, parties.codings.multiaddrOfBytes bytes = some addr ∧
        addr.lastIp = some endpoint.address ∧ endpoint.port = addr.lastPort.getD 0 ∧
        parties.codings.multiaddrOfText (endpointText endpoint peerId) =
          some [endpoint.address.component, .tcp endpoint.port, .p2p id] := by
  obtain ⟨receipt, received, first, rest, listed, own, parsed, spelled, bytes, among, addr, read,
    rfl⟩ := origin.listed
  rw [addrToPeerId_eq] at spelled
  cases last : own.lastId with
  | none =>
    rw [last] at spelled
    obtain rfl : peerId = "" := spelled
    exact .inl ⟨rfl, assumed.nameless _⟩
  | some id =>
    rw [last] at spelled
    obtain rfl : peerId = parties.codings.bs58Encode id := spelled
    exact .inr ⟨receipt, received, first, rest, listed, own, id, parsed, last, bytes, among, addr, read,
      lastIp_of_remote origin.remote, addrToEndpoint_port addr,
      reassembles parsed (Multiaddr.mem_of_lastId last) read⟩

/-- Whatever `metaInfoToAddr` returns is built from an endpoint of the request. -/
theorem mem_metaInfoToAddr {codings : Codings} {node : NodeMetaInfo} {addr : Multiaddr} :
    some addr ∈ metaInfoToAddr codings node ↔ ∃ endpoint ∈ node.addresses,
      endpoint.address.isLoopback = false ∧
        codings.multiaddrOfText (endpointText endpoint node.peerId) = some addr := by
  unfold metaInfoToAddr
  rw [List.mem_filterMap]
  constructor
  · intro given
    obtain ⟨endpoint, member, kept⟩ := given
    cases loops : endpoint.address.isLoopback with
    | true =>
      rw [if_pos loops] at kept
      cases kept
    | false =>
      rw [if_neg (by simp [loops])] at kept
      exact ⟨endpoint, member, loops, Option.some.inj kept⟩
  · intro given
    obtain ⟨endpoint, member, remote, parsed⟩ := given
    refine ⟨endpoint, member, ?_⟩
    rw [if_neg (by simp [remote]), parsed]

theorem dialed_of_address {codings : Codings} {serde : Serde} {addresses : List Multiaddr}
    {addr : Multiaddr} (all : (dials codings serde payload).map Dial.address = addresses)
    (member : addr ∈ addresses) : ∃ dial ∈ dials codings serde payload, dial.address = addr := by
  rw [← all] at member
  exact List.mem_map.mp member

theorem pending_built (assumed : Assumed parties) (reachable : Reachable parties now system)
    (pending : Pending system payload) {peer : NodeMetaInfo}
    (read : parties.serde.nodeMetaInfo.fromStr payload = some peer) : peer.network ∈ builtNetworks := by
  obtain ⟨original, rfl, report, relayed, _, network⟩ :=
    ((reachable_provenance assumed reachable).sourced pending).needsDial rfl
  rw [assumed.requests original] at read
  cases read
  obtain ⟨receipt, _, built, _, _, _, _, _, _, _, _, described⟩ := relayed
  obtain ⟨_, _, _, ofHandler⟩ := describeNode_parts described
  rwa [← network, ofHandler]

/-- In every run, each dial joins one received multiaddress of a node, with the
default port if it has none, and the peer id of the node's first one. -/
theorem dials_traced (assumed : Assumed parties) (reassembles : Reassembles parties.codings)
    (reachable : Reachable parties now system) (pending : Pending system payload) {dial : Dial}
    (dialed : dial ∈ dials parties.codings parties.serde payload) :
    ∃ receipt ∈ system.received, ∃ first rest, receipt.Lists parties first rest ∧
      ∃ own id, parties.codings.multiaddrOfBytes first = some own ∧ own.lastId = some id ∧
      ∃ bytes ∈ first :: rest, ∃ addr, parties.codings.multiaddrOfBytes bytes = some addr ∧
      ∃ address, addr.lastIp = some address ∧ address.isLoopback = false ∧
        dial.address = [address.component, .tcp (addr.lastPort.getD 0), .p2p id] := by
  obtain ⟨peer, read, origins⟩ := pending_origins assumed reachable pending
  obtain ⟨_, returned⟩ := mem_dials read (pending_built assumed reachable pending read) dialed
  obtain ⟨endpoint, member, remote, parsed⟩ := mem_metaInfoToAddr.mp returned
  rcases (origins endpoint member).parsed assumed reassembles with ⟨_, failed⟩ |
    ⟨receipt, received, first, rest, listed, own, id, named, last, bytes, among, addr, given, ip, port,
      text⟩
  · rw [failed] at parsed
    cases parsed
  · rw [text] at parsed
    refine ⟨receipt, received, first, rest, listed, own, id, named, last, bytes, among, addr, given,
      endpoint.address, ip, remote, ?_⟩
    rw [← port]
    exact (Option.some.inj parsed).symm

/-- No received list of nodes has an IPv6 form of a loopback address where the
dialer reads the host. -/
def Unmapped (parties : Parties) (system : System) : Prop :=
  ∀ receipt ∈ system.received, ∀ addr, receipt.Contains parties addr →
    ∀ address, addr.lastIp = some address → address.mappedLoopback = false

/-- A request makes the dialer connect to its own host exactly if it has an
endpoint in the IPv6 form of a loopback address and names a peer. -/
theorem metaInfoToAddr_remote (assumed : Assumed parties) (reassembles : Reassembles parties.codings)
    {peer : NodeMetaInfo}
    (origins : ∀ endpoint ∈ peer.addresses, Origin parties system peer.peerId endpoint) :
    (∀ addr, some addr ∈ metaInfoToAddr parties.codings peer → ¬ DenotesLoopback addr) ↔
      peer.peerId = "" ∨ ∀ endpoint ∈ peer.addresses, endpoint.address.mappedLoopback = false := by
  constructor
  · intro remote
    by_cases nameless : peer.peerId = ""
    · exact .inl nameless
    · refine .inr fun endpoint member => ?_
      rcases (origins endpoint member).parsed assumed reassembles with ⟨same, _⟩ |
        ⟨_, _, _, _, _, _, id, _, _, _, _, _, _, _, _, text⟩
      · exact absurd same nameless
      · have hosts := remote _ (mem_metaInfoToAddr.mpr
          ⟨endpoint, member, (origins endpoint member).remote, text⟩)
        rw [denotesLoopback_endpoint, IpAddr.hostsLoopback_eq, (origins endpoint member).remote,
          Bool.false_or] at hosts
        exact Bool.eq_false_of_not_eq_true hosts
  · intro condition addr returned
    obtain ⟨endpoint, member, _, parsed⟩ := mem_metaInfoToAddr.mp returned
    have origin := origins endpoint member
    rcases origin.parsed assumed reassembles with ⟨_, failed⟩ |
      ⟨_, _, _, _, _, _, id, _, last, _, _, _, _, _, _, text⟩
    · rw [failed] at parsed
      cases parsed
    · rw [text] at parsed
      obtain rfl := Option.some.inj parsed
      rw [denotesLoopback_endpoint, IpAddr.hostsLoopback_eq, origin.remote, Bool.false_or]
      rcases condition with nameless | unmapped
      · rw [nameless, assumed.nameless] at text
        cases text
      · rw [unmapped endpoint member]
        exact Bool.false_ne_true

/-- In every run, a request leads to the own host exactly if an endpoint in it
is an IPv6 form of a loopback address, and none does as long as no received
list of nodes has one. -/
theorem dials_remote (assumed : Assumed parties) (reassembles : Reassembles parties.codings)
    (reachable : Reachable parties now system) (pending : Pending system payload) :
    ∃ peer, parties.serde.nodeMetaInfo.fromStr payload = some peer ∧
      ((∀ addr, some addr ∈ metaInfoToAddr parties.codings peer → ¬ DenotesLoopback addr) ↔
        peer.peerId = "" ∨ ∀ endpoint ∈ peer.addresses, endpoint.address.mappedLoopback = false) ∧
      (Unmapped parties system →
        (∀ addr, some addr ∈ metaInfoToAddr parties.codings peer → ¬ DenotesLoopback addr) ∧
        ∀ dial ∈ dials parties.codings parties.serde payload, ¬ DenotesLoopback dial.address) := by
  obtain ⟨peer, read, origins⟩ := pending_origins assumed reachable pending
  have equivalence := metaInfoToAddr_remote assumed reassembles origins
  refine ⟨peer, read, equivalence, fun unmapped => ?_⟩
  have remote : ∀ addr, some addr ∈ metaInfoToAddr parties.codings peer → ¬ DenotesLoopback addr := by
    apply equivalence.mpr
    right
    intro endpoint member
    obtain ⟨receipt, received, first, rest, listed, _, _, _, bytes, among, addr, given, rfl⟩ :=
      (origins endpoint member).listed
    exact unmapped receipt received addr ⟨first, rest, listed, bytes, among, given⟩ _
      (lastIp_of_remote (origins _ member).remote)
  refine ⟨remote, fun dial dialed => ?_⟩
  obtain ⟨_, returned⟩ := mem_dials read (pending_built assumed reachable pending read) dialed
  exact remote dial.address returned

/-! Deployments in which one node is advertised by the sample peer. -/

/-- The node's addresses, and the JSON texts met on the way to the request. -/
structure Advert where
  entries : List (List UInt8 × Multiaddr)
  metaInfo : NodeMetaInfo
  endpointTexts : List (EndpointInfo × String)
  metaText : String

namespace Advert

variable (advert : Advert)

def message : List UInt8 :=
  moleculeTable [littleEndian32 1 ++ moleculeTable [[0],
    moleculeTable [moleculeTable [moleculeTable (advert.entries.map fun entry => moleculeBytes entry.1)]]]]

def receipt : Receipt := ⟨.pudge, sampleAddress, .discovery, advert.message⟩

def report : ReachableInfo := ⟨advert.metaInfo, sampleMeta⟩

def codings : Codings where
  bs58Encode := sampleCodings.bs58Encode
  multiaddrOfBytes bytes := advert.entries.lookup bytes
  multiaddrOfText text :=
    (advert.metaInfo.addresses.find? fun endpoint =>
      endpointText endpoint advert.metaInfo.peerId = text).map fun endpoint =>
        [endpoint.address.component, .tcp endpoint.port, .p2p samplePeerId]

def deployment : Parties where
  codings := advert.codings
  decoders := { sampleDecoders with
    discovery := fun data =>
      if data = advert.message then some (.nodes [⟨advert.entries.map Prod.fst⟩]) else none }
  serde := { Serde.unary with
    endpointInfo := .table advert.endpointTexts
    nodeMetaInfo := Codec.patch (.unary _) advert.metaInfo advert.metaText
    reachableInfo := Codec.patch (.unary _) advert.report
      ("\x7b\"peer\":" ++ advert.metaText ++ ",\"from\":" ++ sampleMetaText ++ "\x7d") }
  config := sampleConfig

/-- The peer named by all addresses is the sample peer, and the tables fit the
node. -/
structure Fits : Prop where
  named : advert.metaInfo.peerId = sampleMeta.peerId
  own : ∀ entry ∈ advert.entries, ∀ id ∈ entry.2.filterMap Protocol.p2p?, id = samplePeerId
  texts : ∀ entry ∈ advert.entries,
    advert.codings.multiaddrOfText (endpointText (addrToEndpoint entry.2) advert.metaInfo.peerId) =
      some [(addrToEndpoint entry.2).address.component, .tcp (addrToEndpoint entry.2).port,
        .p2p samplePeerId]
  ended : ∀ endpoint ∈ advert.metaInfo.addresses,
    (endpointText endpoint advert.metaInfo.peerId).toList.getLast? ≠ some '/'
  distinct : (advert.endpointTexts.map Prod.snd).Nodup
  spelled : ∀ entry ∈ advert.endpointTexts, 'p' ∈ entry.2.toList
  written : 'p' ∈ advert.metaText.toList

variable {advert}

theorem lookup_mem {bytes : List UInt8} {addr : Multiaddr}
    (parsed : advert.deployment.codings.multiaddrOfBytes bytes = some addr) :
    (bytes, addr) ∈ advert.entries := by
  obtain ⟨front, back, same, _⟩ := List.lookup_eq_some_iff.mp parsed
  rw [same]
  exact List.mem_append_right _ List.mem_cons_self

theorem Fits.assumed (fits : advert.Fits) : Assumed advert.deployment where
  alphabet := sampleParties_assumed.alphabet
  nameless endpoint := by
    have missing : advert.metaInfo.addresses.find? (fun other =>
        endpointText other advert.metaInfo.peerId = endpointText endpoint "") = none := by
      apply List.find?_eq_none.mpr
      intro other member same
      apply fits.ended other member
      rw [of_decide_eq_true same]
      exact endpointText_nameless endpoint
    exact congrArg (Option.map _) missing
  endpoints := Codec.table_roundTrips fits.distinct fun entry member =>
    ⟨'p', fits.spelled entry member, by decide⟩
  requests := Codec.unary_roundTrips.patch (Codec.unary_ne ⟨'p', fits.written, by decide⟩)
  reports := Codec.unary_roundTrips.patch (Codec.unary_ne ⟨'p', by simp, by decide⟩)

theorem Fits.reassembles (fits : advert.Fits) : Reassembles advert.deployment.codings := by
  intro own other named addr id parsed component read
  obtain rfl : id = samplePeerId :=
    fits.own _ (lookup_mem parsed) id (List.mem_filterMap.mpr ⟨_, component, rfl⟩)
  have spelled : sampleCodings.bs58Encode samplePeerId = advert.metaInfo.peerId := by
    rw [fits.named]
    rfl
  have text := fits.texts _ (lookup_mem read)
  rw [← spelled] at text
  exact text

/-- The receipt contains the addresses of the node and no others. -/
theorem contains_mem {addr : Multiaddr} (contains : advert.receipt.Contains advert.deployment addr) :
    addr ∈ advert.entries.map Prod.snd := by
  obtain ⟨_, _, _, bytes, _, parsed⟩ := contains
  exact List.mem_map.mpr ⟨_, lookup_mem parsed, rfl⟩

/-- With one receipt, only the node's own addresses carry components. -/
theorem uncarried {system : System} {address : IpAddr} {port : UInt16} {id : List UInt8}
    (received : system.received = [advert.receipt])
    (missing : ∀ entry ∈ advert.entries,
      ¬ (address.component ∈ entry.2 ∧ .tcp port ∈ entry.2 ∧ .p2p id ∈ entry.2)) :
    ¬ Carried advert.deployment system address port id := by
  intro carried
  obtain ⟨receipt, member, addr, contains, components⟩ := carried
  rw [received] at member
  obtain rfl := List.mem_singleton.mp member
  obtain ⟨entry, listed, rfl⟩ := List.mem_map.mp (contains_mem contains)
  exact missing entry listed components

/-- The first turn took up the report and the second asked for the dial. -/
def played (advert : Advert) (result : List MarciTurn × State) : Bool :=
  match result.1 with
  | [⟨.tick, request⟩, ⟨.reachable report, _⟩] =>
    report = advert.report && (published request).contains
      ("peer/needs_dial", advert.deployment.serde.nodeMetaInfo.toString advert.metaInfo)
  | _ => false

theorem requested (fits : advert.Fits)
    (relays : relayed advert.deployment advert.receipt =
      [("peer/reachable", advert.deployment.serde.reachableInfo.toString advert.report)])
    (plays : (play sampleConfig advert.deployment.serde sampleSurroundings
      [(5, .reachable advert.report), (7, .tick)] (.initial 0)).any advert.played) :
    ∃ system, Reachable advert.deployment 0 system ∧
      Pending system (advert.deployment.serde.nodeMetaInfo.toString advert.metaInfo) ∧
      system.received = [advert.receipt] := by
  obtain ⟨⟨turns, after⟩, same, shape⟩ := (Option.any_eq_true _ _).mp plays
  have run := play_run same
  unfold played at shape
  split at shape
  · rename_i request report records turned
    obtain rfl : turns = _ := turned
    obtain ⟨reported, asked⟩ := Bool.and_eq_true_iff.mp shape
    obtain rfl := of_decide_eq_true reported
    apply advertised_requested fits.assumed.reports advert.receipt
      (List.mem_cons_of_mem _ List.mem_cons_self) _ run (List.contains_iff_mem.mp asked)
    rw [relays]
    exact List.mem_cons_self
  · cases shape

end Advert

/-- The first address has a peer id but no port, the second a port but no peer id. -/
def mixedAdvert : Advert where
  entries :=
    [([0x04, 1, 2, 3, 4, 0xa5, 0x03, 0x22] ++ samplePeerId, [.ip4 ⟨1, 2, 3, 4⟩, .p2p samplePeerId]),
      ([0x04, 5, 6, 7, 8, 0x06, 0x1f, 0xb3], [.ip4 ⟨5, 6, 7, 8⟩, .tcp 8115])]
  metaInfo := ⟨sampleMeta.peerId, [⟨.v4 ⟨1, 2, 3, 4⟩, 0⟩, ⟨.v4 ⟨5, 6, 7, 8⟩, 8115⟩], .pudge⟩
  endpointTexts :=
    [(⟨.v4 ⟨1, 2, 3, 4⟩, 0⟩, "\x7b\"address\":\"1.2.3.4\",\"port\":0\x7d"),
      (⟨.v4 ⟨5, 6, 7, 8⟩, 8115⟩, "\x7b\"address\":\"5.6.7.8\",\"port\":8115\x7d")]
  metaText :=
    "\x7b\"peer_id\":\"QmPHzhEzekyjB14eQsnsVRxmymtYmAyntcfJgVYRiUq4Lb\",\"addresses\":[" ++
      "\x7b\"address\":\"1.2.3.4\",\"port\":0\x7d,\x7b\"address\":\"5.6.7.8\",\"port\":8115\x7d]," ++
      "\"network\":\"Pudge\"\x7d"

theorem mixedAdvert_fits : mixedAdvert.Fits where
  named := rfl
  own := by decide
  texts := by decide +kernel
  ended := by decide +kernel
  distinct := by decide +kernel
  spelled := by decide +kernel
  written := by decide +kernel

theorem mixedAdvert_requested : ∃ system, Reachable mixedAdvert.deployment 0 system ∧
    Pending system (mixedAdvert.deployment.serde.nodeMetaInfo.toString mixedAdvert.metaInfo) ∧
    system.received = [mixedAdvert.receipt] :=
  Advert.requested mixedAdvert_fits (by decide +kernel) (by decide +kernel)

theorem mixedAdvert_dials :
    (dials mixedAdvert.codings mixedAdvert.deployment.serde
      (mixedAdvert.deployment.serde.nodeMetaInfo.toString mixedAdvert.metaInfo)).map Dial.address =
    [[.ip4 ⟨1, 2, 3, 4⟩, .tcp 0, .p2p samplePeerId], [.ip4 ⟨5, 6, 7, 8⟩, .tcp 8115, .p2p samplePeerId]] := by
  decide +kernel

/-- One dial goes to a port no multiaddress has, the other joins the address of
one multiaddress and the peer id of another. -/
theorem dialed_uncarried : ∃ system payload, Assumed mixedAdvert.deployment ∧
    Reassembles mixedAdvert.codings ∧ Reachable mixedAdvert.deployment 0 system ∧ Pending system payload ∧
    (∃ dial ∈ dials mixedAdvert.codings mixedAdvert.deployment.serde payload,
      dial.address = [.ip4 ⟨1, 2, 3, 4⟩, .tcp 0, .p2p samplePeerId] ∧
        ¬ Carried mixedAdvert.deployment system (.v4 ⟨1, 2, 3, 4⟩) 0 samplePeerId) ∧
    ∃ dial ∈ dials mixedAdvert.codings mixedAdvert.deployment.serde payload,
      dial.address = [.ip4 ⟨5, 6, 7, 8⟩, .tcp 8115, .p2p samplePeerId] ∧
        ¬ Carried mixedAdvert.deployment system (.v4 ⟨5, 6, 7, 8⟩) 8115 samplePeerId := by
  obtain ⟨system, reachable, pending, received⟩ := mixedAdvert_requested
  refine ⟨system, _, mixedAdvert_fits.assumed, mixedAdvert_fits.reassembles, reachable, pending, ?_, ?_⟩
  · obtain ⟨dial, dialed, address⟩ := dialed_of_address mixedAdvert_dials List.mem_cons_self
    exact ⟨dial, dialed, address, Advert.uncarried received (by decide)⟩
  · obtain ⟨dial, dialed, address⟩ := dialed_of_address mixedAdvert_dials
      (List.mem_cons_of_mem _ List.mem_cons_self)
    exact ⟨dial, dialed, address, Advert.uncarried received (by decide)⟩

/-- Its addresses lead to dials that can be traced. -/
theorem dials_traced_mixed : ∃ system payload, Reachable mixedAdvert.deployment 0 system ∧
    Pending system payload ∧ ∃ dial ∈ dials mixedAdvert.codings mixedAdvert.deployment.serde payload,
    ∃ receipt ∈ system.received, ∃ first rest, receipt.Lists mixedAdvert.deployment first rest ∧
      ∃ own id, mixedAdvert.codings.multiaddrOfBytes first = some own ∧ own.lastId = some id ∧
      ∃ bytes ∈ first :: rest, ∃ addr, mixedAdvert.codings.multiaddrOfBytes bytes = some addr ∧
      ∃ address, addr.lastIp = some address ∧ address.isLoopback = false ∧
        dial.address = [address.component, .tcp (addr.lastPort.getD 0), .p2p id] := by
  obtain ⟨system, reachable, pending, received⟩ := mixedAdvert_requested
  obtain ⟨dial, dialed, _⟩ := dialed_of_address mixedAdvert_dials List.mem_cons_self
  exact ⟨system, _, reachable, pending, dial, dialed,
    dials_traced mixedAdvert_fits.assumed mixedAdvert_fits.reassembles reachable pending dialed⟩

/-- None of them is on the own host. -/
theorem dials_remote_mixed : ∃ system payload, Reachable mixedAdvert.deployment 0 system ∧
    Pending system payload ∧ Unmapped mixedAdvert.deployment system ∧
    dials mixedAdvert.codings mixedAdvert.deployment.serde payload ≠ [] ∧
    ∀ dial ∈ dials mixedAdvert.codings mixedAdvert.deployment.serde payload,
      ¬ DenotesLoopback dial.address := by
  obtain ⟨system, reachable, pending, received⟩ := mixedAdvert_requested
  have unmapped : Unmapped mixedAdvert.deployment system := by
    intro receipt member addr contains address last
    rw [received] at member
    obtain rfl := List.mem_singleton.mp member
    have plain : ∀ addr ∈ mixedAdvert.entries.map Prod.snd,
        ∀ address ∈ addr.lastIp, address.mappedLoopback = false := by
      decide
    exact plain addr (Advert.contains_mem contains) address last
  obtain ⟨_, _, _, safe⟩ :=
    dials_remote mixedAdvert_fits.assumed mixedAdvert_fits.reassembles reachable pending
  refine ⟨system, _, reachable, pending, unmapped, ?_, (safe unmapped).2⟩
  intro none
  have dialed := mixedAdvert_dials
  rw [none] at dialed
  cases dialed

/-- The node's address is an IPv6 form of `127.0.0.1`. -/
def mappedAdvert : Advert where
  entries :=
    [([0x29, 0, 0, 0, 0, 0, 0, 0, 0, 0, 0, 0xff, 0xff, 127, 0, 0, 1, 0x06, 0x1f, 0xb2, 0xa5, 0x03, 0x22] ++
        samplePeerId,
      [.ip6 ⟨0, 0, 0, 0, 0, 0xffff, 0x7f00, 1⟩, .tcp 8114, .p2p samplePeerId])]
  metaInfo := ⟨sampleMeta.peerId, [⟨.v6 ⟨0, 0, 0, 0, 0, 0xffff, 0x7f00, 1⟩, 8114⟩], .pudge⟩
  endpointTexts :=
    [(⟨.v6 ⟨0, 0, 0, 0, 0, 0xffff, 0x7f00, 1⟩, 8114⟩,
      "\x7b\"address\":\"::ffff:127.0.0.1\",\"port\":8114\x7d")]
  metaText :=
    "\x7b\"peer_id\":\"QmPHzhEzekyjB14eQsnsVRxmymtYmAyntcfJgVYRiUq4Lb\",\"addresses\":[" ++
      "\x7b\"address\":\"::ffff:127.0.0.1\",\"port\":8114\x7d],\"network\":\"Pudge\"\x7d"

theorem mappedAdvert_fits : mappedAdvert.Fits where
  named := rfl
  own := by decide
  texts := by decide +kernel
  ended := by decide +kernel
  distinct := by decide +kernel
  spelled := by decide +kernel
  written := by decide +kernel

/-- It passes both filters and is dialed. -/
theorem loopback_dialed : ∃ system payload peer dial, Assumed mappedAdvert.deployment ∧
    Reassembles mappedAdvert.codings ∧ Reachable mappedAdvert.deployment 0 system ∧
    Pending system payload ∧ mappedAdvert.deployment.serde.nodeMetaInfo.fromStr payload = some peer ∧
    some dial.address ∈ metaInfoToAddr mappedAdvert.codings peer ∧
    dial ∈ dials mappedAdvert.codings mappedAdvert.deployment.serde payload ∧
    DenotesLoopback dial.address := by
  obtain ⟨system, reachable, pending, _⟩ :=
    Advert.requested mappedAdvert_fits (by decide +kernel) (by decide +kernel)
  have dialed : (dials mappedAdvert.codings mappedAdvert.deployment.serde
      (mappedAdvert.deployment.serde.nodeMetaInfo.toString mappedAdvert.metaInfo)).map Dial.address =
      [[IpAddr.component (.v6 ⟨0, 0, 0, 0, 0, 0xffff, 0x7f00, 1⟩), .tcp 8114, .p2p samplePeerId]] := by
    decide +kernel
  obtain ⟨dial, member, address⟩ := dialed_of_address dialed List.mem_cons_self
  have read := mappedAdvert_fits.assumed.requests mappedAdvert.metaInfo
  have built := pending_built mappedAdvert_fits.assumed reachable pending read
  refine ⟨system, _, _, dial, mappedAdvert_fits.assumed, mappedAdvert_fits.reassembles, reachable, pending,
    read, (mem_dials read built member).2, member, ?_⟩
  rw [address, denotesLoopback_endpoint]
  decide

end CkbDiscovery.Deployment
