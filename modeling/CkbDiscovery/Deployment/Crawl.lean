import CkbDiscovery.Deployment.Fleet
import CkbDiscovery.Dialer.Discovery
import CkbDiscovery.Exposed.Agreement
import CkbDiscovery.Marci.Records
import CkbDiscovery.Marci.Topics
import CkbDiscovery.Marci.Witnesses

/-! What the records of Marci say about the network, given that it is told of
peers by the dialers alone: every message it takes up stems from a session or
a dial, and so does whatever the messages leave in the store. -/

namespace CkbDiscovery.Deployment

open Effect Redis Dialer Marci
open Relation (ReflTransGen)

variable (parties : Parties)

/-- The session where a message to Marci stems from, or the failed dial. Online
reports by others are heard on a topic of their own. -/
inductive Stems (fleet : Fleet) : Marci.Message → Prop where
  | tick : Stems fleet .tick
  | identified {receipt : Receipt} {raw : List UInt8} {payload : IdentifyPayload}
      (member : receipt ∈ fleet.system.received) (protocol : receipt.protocol = .identify)
      (framed : parties.decoders.identifyMessage receipt.data = some raw)
      (decoded : parties.decoders.identify raw = some payload) :
      Stems fleet (.online ((parties.handler receipt.network).onlineMessage receipt.address payload))
  | told {receipt : Receipt} {first : List UInt8} {rest : List (List UInt8)} {metaInfo : NodeMetaInfo}
      (member : receipt ∈ fleet.system.received) (lists : receipt.Lists parties first rest)
      (described : (parties.handler receipt.network).describeNode first rest = some metaInfo) :
      Stems fleet (.reachable ((parties.handler receipt.network).reachableMessage receipt.address metaInfo))
  | failed {dial : Dial} (member : dial ∈ fleet.failed) :
      Stems fleet (.unknown ((parties.handler dial.controller).describePeer dial.address))
  | external {payload : String} {peer : PeerInfo} (sent : ("peer/online2", payload) ∈ fleet.system.broker)
      (read : parties.serde.peerInfo.fromStr payload = some peer) : Stems fleet (.online peer)

/-- Whatever Marci could take up, or has taken up, stems from somewhere. -/
structure Rooted (fleet : Fleet) : Prop where
  sent : ∀ {topic payload message}, (topic, payload) ∈ fleet.system.broker →
    subscribed parties.serde topic payload = some message → Stems parties fleet message
  taken : ∀ turn ∈ fleet.system.turns, Stems parties fleet turn.message

/-- The libraries, and the texts of the online reports. -/
structure FleetAssumed : Prop extends Assumed parties where
  reassembles : Reassembles parties.codings
  onlines : parties.serde.peerInfo.RoundTrips

variable {parties} {encoders : Encoders} {fleet next : Fleet} {now : Nat} {network : CKBNetworkType}
  {event : ServiceEvent} {replies : (action : ServiceAction) → action.Reply} {message : Marci.Message}

theorem Stems.mono (stems : Stems parties fleet message)
    (received : fleet.system.received ⊆ next.system.received) (failed : fleet.failed ⊆ next.failed)
    (broker : fleet.system.broker ⊆ next.system.broker) : Stems parties next message := by
  cases stems with
  | tick => exact .tick
  | identified member protocol framed decoded => exact .identified (received member) protocol framed decoded
  | told member lists described => exact .told (received member) lists described
  | failed member => exact .failed (failed member)
  | external sent read => exact .external (broker sent) read

/-- The Identify branch publishes what it has decoded. -/
theorem receivedIdentify_reports {handler : Dialer.Handler} {address : Multiaddr} {data : List UInt8}
    {topic payload : String}
    (published : .publish topic payload ∈ actions (handler.receivedIdentify address data)) :
    ∃ raw identified, handler.decoders.identifyMessage data = some raw ∧
      handler.decoders.identify raw = some identified ∧ topic = "peer/online" ∧
      payload = handler.serde.peerInfo.toString (handler.onlineMessage address identified) := by
  cases framed : handler.decoders.identifyMessage data with
  | none =>
    rw [Handler.receivedIdentify, framed] at published
    simp at published
  | some raw =>
    cases decoded : handler.decoders.identify raw with
    | none =>
      rw [Handler.receivedIdentify, framed, Option.bind_some, decoded] at published
      simp at published
    | some identified =>
      rw [receivedIdentify_actions framed decoded] at published
      refine ⟨raw, identified, rfl, decoded, ?_⟩
      rcases List.mem_cons.mp published with same | later
      · injection same with topics payloads
        exact ⟨topics, payloads⟩
      · split at later
        · cases later
        · cases List.mem_singleton.mp later

/-- A fresh message of a handler stems from the event it was called for. -/
theorem serve_stems (assumed : FleetAssumed parties) {topic payload : String}
    (sent : (topic, payload) ∈ publishedBy
      (probedBy (((parties.handler network).serve encoders event).calls replies)))
    (taken : subscribed parties.serde topic payload = some message) :
    Stems parties (fleet.serve parties encoders network event replies) message := by
  rw [probedBy_serve] at sent
  have asked := mem_publishedBy.mp sent
  cases event with
  | received protocol address data =>
    have member : ⟨network, address, protocol, data⟩ ∈
        (fleet.serve parties encoders network (.received protocol address data) replies).system.received :=
      List.mem_cons_self
    cases protocol with
    | identify =>
      obtain ⟨raw, identified, framed, decoded, rfl, rfl⟩ := receivedIdentify_reports asked
      change (parties.serde.peerInfo.fromStr (parties.serde.peerInfo.toString _)).map _ = _ at taken
      rw [assumed.onlines] at taken
      cases taken
      exact .identified member rfl framed decoded
    | discovery =>
      obtain ⟨nodes, decoded, node, present, first, rest, metaInfo, addresses, described, rfl, rfl⟩ :=
        receivedDiscovery_publishes asked
      change (parties.serde.reachableInfo.fromStr (parties.serde.reachableInfo.toString _)).map _ = _
        at taken
      rw [assumed.reports] at taken
      cases taken
      exact .told member ⟨rfl, nodes, decoded, node, present, addresses⟩ described
    | sync => cases asked
  | error error =>
    cases error with
    | dialerError address =>
      obtain ⟨rfl, rfl⟩ : topic = "peer/unknown" ∧ payload = parties.serde.nodeMetaInfo.toString
          ((parties.handler network).describePeer address) := by
        have same := List.mem_singleton.mp asked
        injection same with topics payloads
        exact ⟨topics, payloads⟩
      change (parties.serde.nodeMetaInfo.fromStr (parties.serde.nodeMetaInfo.toString _)).map _ = _
        at taken
      rw [assumed.requests] at taken
      cases taken
      have recorded : ⟨network, address⟩ ∈ (fleet.serve parties encoders network
          (.error (.dialerError address)) replies).failed := List.mem_cons_self
      exact .failed recorded
    | protocolSelectError => cases List.mem_singleton.mp asked
    | other => cases asked
  | _ => cases asked

/-- On other topics than the deployment's own, Marci hears online reports by others. -/
theorem foreign_external {topic payload : String} (outside : topic ∉ ownTopics)
    (sent : (topic, payload) ∈ fleet.system.broker)
    (taken : subscribed parties.serde topic payload = some message) : Stems parties fleet message := by
  unfold subscribed at taken
  split at taken
  · exact absurd (by decide) outside
  · obtain ⟨peer, read, rfl⟩ := Option.map_eq_some_iff.mp taken
    exact .external sent read
  · exact absurd (by decide) outside
  · exact absurd (by decide) outside
  · cases taken

/-- Marci takes up nothing that it publishes itself. -/
theorem published_unheard (assumed : Assumed parties) (reachable : Reachable parties now fleet.system)
    {before after : State} {trace : HandlerTrace} {current : Marci.Message}
    (running : fleet.system.marci = some before)
    (reaches : Reaches world before (handle parties.config parties.serde current) trace after)
    {topic payload : String} (sent : (topic, payload) ∈ published trace) :
    subscribed parties.serde topic payload = none := by
  have provenance := reachable_provenance assumed reachable
  obtain ⟨rfl, _⟩ := handle_requests assumed.endpoints (provenance.running running)
    (provenance.dotless assumed) reaches sent
  rfl

theorem Rooted.delivered (rooted : Rooted parties fleet)
    (delivered : Delivered parties fleet.system message) : Stems parties fleet message := by
  rcases delivered with rfl | ⟨topic, payload, sent, taken⟩
  · exact .tick
  · exact rooted.sent sent taken

/-- Histories only grow, so it is enough that what is new stems from somewhere. -/
theorem Rooted.grow (rooted : Rooted parties fleet)
    (received : fleet.system.received ⊆ next.system.received) (failed : fleet.failed ⊆ next.failed)
    (broker : fleet.system.broker ⊆ next.system.broker)
    (sent : ∀ {topic payload message}, (topic, payload) ∈ next.system.broker →
      subscribed parties.serde topic payload = some message →
      (topic, payload) ∈ fleet.system.broker ∨ Stems parties next message)
    (taken : ∀ turn ∈ next.system.turns, turn ∈ fleet.system.turns ∨ Stems parties fleet turn.message) :
    Rooted parties next := by
  constructor
  · intro topic payload message member read
    rcases sent member read with old | fresh
    · exact (rooted.sent old read).mono received failed broker
    · exact fresh
  · intro turn member
    rcases taken turn member with old | fresh
    · exact (rooted.taken turn old).mono received failed broker
    · exact fresh.mono received failed broker

theorem Rooted.move (assumed : FleetAssumed parties) (reachable : Reachable parties now fleet.system)
    (rooted : Rooted parties fleet) (move : Move parties encoders fleet next) : Rooted parties next := by
  cases move with
  | serve built occurs =>
    refine rooted.grow (List.subset_append_right _ _) (List.subset_append_right _ _)
      (List.subset_append_right _ _) (fun sent read => ?_) fun _ member => .inl member
    exact (List.mem_append.mp sent).symm.imp_right fun fresh => serve_stems assumed fresh read
  | redial pending =>
    exact rooted.grow (List.Subset.refl _) (List.Subset.refl _) (List.Subset.refl _)
      (fun sent _ => .inl sent) fun _ member => .inl member
  | foreign outside =>
    refine rooted.grow (List.Subset.refl _) (List.Subset.refl _) (List.subset_cons_self _ _)
      (fun sent read => ?_) fun _ member => .inl member
    rcases List.mem_cons.mp sent with fresh | old
    · cases fresh
      exact .inr (foreign_external outside List.mem_cons_self read)
    · exact .inl old
  | turn running delivered completes =>
    refine rooted.grow (List.Subset.refl _) (List.Subset.refl _) (List.subset_append_right _ _)
      (fun sent read => ?_) fun turn member => ?_
    · refine .inl ((List.mem_append.mp sent).resolve_left fun fresh => ?_)
      rw [published_unheard assumed.toAssumed reachable running completes.reaches fresh] at read
      cases read
    · rcases List.mem_cons.mp member with rfl | old
      · exact .inr (rooted.delivered delivered)
      · exact .inl old
  | abort running delivered reaches =>
    refine rooted.grow (List.Subset.refl _) (List.Subset.refl _) (List.subset_append_right _ _)
      (fun sent read => ?_) fun _ member => .inl member
    refine .inl ((List.mem_append.mp sent).resolve_left fun fresh => ?_)
    rw [published_unheard assumed.toAssumed reachable running reaches fresh] at read
    cases read

theorem reachable_rooted (assumed : FleetAssumed parties)
    (reachable : FleetReachable parties encoders now fleet) : Rooted parties fleet := by
  induction reachable with
  | refl =>
    constructor
    · intro topic payload message sent
      cases sent
    · intro turn member
      cases member
  | tail reached move inductionHypothesis =>
    exact inductionHypothesis.move assumed (FleetReachable.system reached) move

/-- An online report by others, from outside the deployment. -/
def ReportedElsewhere (parties : Parties) (fleet : Fleet) (peer : PeerInfo) : Prop :=
  ∃ payload, ("peer/online2", payload) ∈ fleet.system.broker ∧
    parties.serde.peerInfo.fromStr payload = some peer

/-- A known peer of a network told the deployment of this one in a session. -/
def Testified (parties : Parties) (fleet : Fleet) (teller peerId : String) : Prop :=
  ∃ receipt ∈ fleet.system.received, receipt.network ∈ builtNetworks ∧
    addrToPeerId parties.codings receipt.address = teller ∧
    Known parties fleet.system receipt.network teller ∧ receipt.Names parties peerId

/-- The peer announced this version in a session with its address. -/
def Announced (parties : Parties) (fleet : Fleet) (peerId version : String) : Prop :=
  ∃ receipt ∈ fleet.system.received, receipt.protocol = .identify ∧
    addrToPeerId parties.codings receipt.address = peerId ∧
    ∃ raw payload, parties.decoders.identifyMessage receipt.data = some raw ∧
      parties.decoders.identify raw = some payload ∧ fromUtf8Lossy payload.clientVersion = version

variable {state : State} {peerId : String}

theorem Crawled.built (crawled : Crawled parties fleet) {receipt : Receipt}
    (member : receipt ∈ fleet.system.received) : receipt.network ∈ builtNetworks :=
  (crawled.reached _ (crawled.sessions receipt member)).1

theorem names_of_described {receipt : Receipt} {first : List UInt8} {rest : List (List UInt8)}
    {metaInfo : NodeMetaInfo} (lists : receipt.Lists parties first rest)
    (described : (parties.handler receipt.network).describeNode first rest = some metaInfo) :
    receipt.Names parties metaInfo.peerId ∧ metaInfo.network = receipt.network := by
  obtain ⟨addr, parsed, spelled, network⟩ := describeNode_parts described
  exact ⟨⟨first, rest, addr, lists, parsed, spelled.symm⟩, network⟩

/-- The peer that a message is about is known, unless others have reported it. -/
theorem Stems.known (crawled : Crawled parties fleet) (stems : Stems parties fleet message)
    (about : message ≠ .tick) :
    (∃ network ∈ builtNetworks, Known parties fleet.system network message.subject) ∨
      ∃ peer, ReportedElsewhere parties fleet peer ∧ peer.info.peerId = message.subject := by
  cases stems with
  | tick => exact absurd rfl about
  | identified member protocol framed decoded =>
    exact .inl ⟨_, crawled.built member, crawled.teller member⟩
  | told member lists described =>
    exact .inl ⟨_, crawled.built member, crawled.told member (names_of_described lists described).1⟩
  | failed member => exact .inl ⟨_, crawled.reached _ (crawled.failures _ member)⟩
  | external sent read => exact .inr ⟨_, ⟨_, sent, read⟩, rfl⟩

/-- Every report that Marci has processed was made by a known peer. -/
theorem report_testified (crawled : Crawled parties fleet) (rooted : Rooted parties fleet)
    {report : ReachableInfo} (reported : report ∈ reports peerId fleet.system.turns) :
    Testified parties fleet report.from.peerId peerId ∧
      report.peer.network ∈ builtNetworks ∧ Known parties fleet.system report.peer.network peerId := by
  obtain ⟨turn, member, found⟩ := List.mem_filterMap.mp reported
  obtain ⟨taken, rfl⟩ := report?_eq_some found
  have stems := rooted.taken turn member
  rw [taken] at stems
  cases stems with
  | told received lists described =>
    obtain ⟨names, network⟩ := names_of_described lists described
    have known := crawled.told received names
    have built := crawled.built received
    refine ⟨⟨_, received, built, rfl, crawled.teller received, names⟩, ?_⟩
    rw [← network] at known built
    exact ⟨built, known⟩

/-! A crawl from a bootnode, with codings that spell and read ids and addresses
as the libraries do. -/

/-- The digits of a number, last first. -/
def digitsOf (base : Nat) : Nat → Nat → List Nat
  | 0, _ => []
  | fuel + 1, number => if number = 0 then [] else number % base :: digitsOf base fuel (number / base)

def ofDigits (base : Nat) (digits : List Nat) : Nat :=
  digits.foldl (fun number digit => number * base + digit) 0

def base58Text (bytes : List UInt8) : String :=
  let zeroes := (bytes.takeWhile (· = 0)).map fun _ => 0
  let digits := (digitsOf 58 (2 * bytes.length) (ofDigits 256 (bytes.map UInt8.toNat))).reverse
  String.ofList ((zeroes ++ digits).map fun digit => Exposed.base58Alphabet.getD digit '1')

/-- Digits first, then capital and small letters, without `I`, `O` and `l`. -/
def base58Digit (char : Char) : Option Nat :=
  let code := char.toNat
  if 49 ≤ code ∧ code ≤ 57 then some (code - 49)
  else if 65 ≤ code ∧ code ≤ 72 then some (code - 56)
  else if 74 ≤ code ∧ code ≤ 78 then some (code - 57)
  else if 80 ≤ code ∧ code ≤ 90 then some (code - 58)
  else if 97 ≤ code ∧ code ≤ 107 then some (code - 64)
  else if 109 ≤ code ∧ code ≤ 122 then some (code - 65)
  else none

def ofBase58 (text : List Char) : Option (List UInt8) := do
  let digits ← text.mapM base58Digit
  let bytes := (digitsOf 256 text.length (ofDigits 58 digits)).reverse.map UInt8.ofNat
  pure ((text.takeWhile (· = '1')).map (fun _ => 0) ++ bytes)

def ofDecimal (text : List Char) : Option Nat := do
  let digits ← text.mapM fun char =>
    if 48 ≤ char.toNat ∧ char.toNat ≤ 57 then some (char.toNat - 48) else none
  pure (ofDigits 10 digits)

/-- Addresses of the form that the bootnodes have. -/
def readAddress (text : String) : Option Multiaddr :=
  match text.toList.splitOn '/' with
  | [[], ['i', 'p', '4'], host, ['t', 'c', 'p'], port, ['p', '2', 'p'], peerId] =>
    match (host.splitOn '.').mapM ofDecimal, ofDecimal port, ofBase58 peerId with
    | some [a, b, c, d], some port, some id =>
      some [.ip4 ⟨.ofNat a, .ofNat b, .ofNat c, .ofNat d⟩, .tcp (.ofNat port), .p2p id]
    | _, _, _ => none
  | _ => none

/-- The addresses that are read on the way, all of this form. -/
def crawlTexts : List String :=
  "/ip4/1.2.3.4/tcp/8114/p2p/QmPHzhEzekyjB14eQsnsVRxmymtYmAyntcfJgVYRiUq4Lb" :: bootnodes .pudge

def crawlCodings : Codings where
  bs58Encode := base58Text
  multiaddrOfBytes := sampleCodings.multiaddrOfBytes
  multiaddrOfText text := if text ∈ crawlTexts then some ((readAddress text).getD []) else none

/-- The first bootnode of the test network. -/
def bootAddress : Multiaddr := (readAddress ((bootnodes .pudge).headD "")).getD []

def crawlReport : ReachableInfo where
  peer := sampleMeta
  «from» := ⟨"QmNQ4jky6uVqLDrPU7snqxARuNGWNLgSrTnssbRuy3ij2W", [⟨.v4 ⟨47, 111, 169, 36⟩, 8111⟩], .pudge⟩

def crawlReportText : String :=
  "\x7b\"peer\":" ++ sampleMetaText ++ ",\"from\":\x7b\"peer_id\":" ++
    "\"QmNQ4jky6uVqLDrPU7snqxARuNGWNLgSrTnssbRuy3ij2W\",\"addresses\":[" ++
    "\x7b\"address\":\"47.111.169.36\",\"port\":8111\x7d],\"network\":\"Pudge\"\x7d\x7d"

def crawlOnline : PeerInfo := ⟨sampleMeta, "0.1", false, false⟩

def crawlOnlineText : String :=
  "\x7b\"info\":" ++ sampleMetaText ++ ",\"version\":\"0.1\",\"full\":false,\"is_ex\":false\x7d"

def crawlParties : Parties where
  codings := crawlCodings
  decoders := sampleDecoders
  serde := { sampleParties.serde with
    reachableInfo := Codec.patch (.unary _) crawlReport crawlReportText
    peerInfo := Codec.patch (.unary _) crawlOnline crawlOnlineText }
  config := sampleConfig

def crawlEncoders : Encoders where
  getNodes request := moleculeTable [littleEndian32 0 ++ moleculeTable
    [littleEndian32 request.version.toNat, littleEndian32 request.count.toNat,
      request.listenPort.elim [] fun port => (littleEndian32 port.toNat).take 2]]

theorem base58Text_dotless (id : List UInt8) : '.' ∉ (base58Text id).toList := by
  rw [base58Text, String.toList_ofList]
  intro dot
  obtain ⟨digit, _, same⟩ := List.mem_map.mp dot
  rw [List.getD_eq_getElem?_getD] at same
  cases found : Exposed.base58Alphabet[digit]? with
  | none =>
    rw [found] at same
    cases same
  | some char =>
    rw [found] at same
    obtain rfl : char = '.' := same
    exact absurd (List.mem_of_getElem? found) (by decide)

theorem endpointText_lastByte (endpoint : EndpointInfo) :
    (endpointText endpoint "").toByteArray.data.toList.getLast? = some 47 := by
  have final : "/p2p/".toByteArray.data.toList = [47, 112, 50, 112, 47] := by decide
  unfold endpointText
  split <;> simp [ToString.toString, final, List.getLast?_append]

theorem crawlParties_assumed : FleetAssumed crawlParties where
  alphabet := base58Text_dotless
  nameless endpoint := by
    refine if_neg fun listed => ?_
    have named : ∀ text ∈ crawlTexts, text.toByteArray.data.toList.getLast? ≠ some 47 := by
      decide +kernel
    exact named _ listed (endpointText_lastByte endpoint)
  endpoints := sampleSerde_roundTrips
  requests := sampleParties_assumed.requests
  reports := Codec.unary_roundTrips.patch (Codec.unary_ne ⟨'p', by decide +kernel, by decide⟩)
  onlines := Codec.unary_roundTrips.patch (Codec.unary_ne ⟨'p', by decide +kernel, by decide⟩)
  reassembles := by
    intro own other named addr id parsed component read
    obtain ⟨_, same⟩ := Option.ite_none_right_eq_some.mp parsed
    cases same
    obtain ⟨_, same⟩ := Option.ite_none_right_eq_some.mp read
    cases same
    obtain rfl : id = samplePeerId := by simpa [sampleAddress] using component
    decide +kernel

/-- A bootnode is dialed and tells of a peer, which Marci has dialed in turn. -/
def crawlDeeds : List Deed :=
  [.serve .pudge (.init .identify), .serve .pudge (.connected .discovery bootAddress),
    .serve .pudge (.received .discovery bootAddress sampleDiscoveryMessage),
    .hear 5 "peer/reachable" crawlReportText, .tick 7, .redial sampleMetaText]

/-- The dial fails, and Marci is told of it. -/
def failedDeeds : List Deed :=
  crawlDeeds ++ [.serve .pudge (.error (.dialerError sampleAddress)), .hear 5 "peer/unknown" sampleMetaText]

/-- The peer answers, and Marci is told of it. -/
def answeredDeeds : List Deed :=
  crawlDeeds ++ [.serve .pudge (.received .identify sampleAddress sampleIdentifyMessage),
    .hear 5 "peer/online" crawlOnlineText]

def crawl (deeds : List Deed) : Option Fleet :=
  Fleet.replay crawlParties crawlEncoders sampleSurroundings 0 deeds

/-- A replayed crawl is reachable, and what can be checked of its end holds there. -/
theorem crawl_reaches {deeds : List Deed} (check : Fleet → State → Bool)
    (crawled : (crawl deeds).any fun fleet => fleet.system.marci.any (check fleet)) :
    ∃ fleet state, FleetReachable crawlParties crawlEncoders 0 fleet ∧
      fleet.system.marci = some state ∧ check fleet state = true := by
  obtain ⟨fleet, same, ended⟩ := (Option.any_eq_true _ _).mp crawled
  obtain ⟨state, running, holds⟩ := (Option.any_eq_true _ _).mp ended
  exact ⟨fleet, state, Fleet.replay_reachable same, running, holds⟩

/-- The peer that answered has been dialed, recorded and listed. -/
structure Answered (fleet : Fleet) (state : State) : Prop where
  dialed : ⟨.pudge, sampleAddress⟩ ∈ fleet.dialed
  indexed : state.redis.Live ((KeyFormat.peerNetworkQuick .pudge).key sampleMeta.peerId)
  witnesses : state.redis.members (KeyFormat.reachablePeer.key sampleMeta.peerId) =
    {crawlReport.from.peerId}
  version : state.redis.text? (KeyFormat.onlinePeer.key sampleMeta.peerId) = some "0.1"
  own : ∀ sent ∈ fleet.system.broker, sent.1 ≠ "peer/online2"
  listed : ((Exposed.getPeersOn Exposed.sampleFormats .sorted state.redis .pudge).bind
    Except.toOption).any fun peers => !peers.isEmpty

theorem crawl_answered : ∃ fleet state, FleetReachable crawlParties crawlEncoders 0 fleet ∧
    fleet.system.marci = some state ∧ Answered fleet state := by
  obtain ⟨fleet, state, reachable, running, checked⟩ := crawl_reaches (fun fleet state => decide
    (⟨.pudge, sampleAddress⟩ ∈ fleet.dialed ∧
      state.redis.Live ((KeyFormat.peerNetworkQuick .pudge).key sampleMeta.peerId) ∧
      state.redis.members (KeyFormat.reachablePeer.key sampleMeta.peerId) = {crawlReport.from.peerId} ∧
      state.redis.text? (KeyFormat.onlinePeer.key sampleMeta.peerId) = some "0.1" ∧
      (∀ sent ∈ fleet.system.broker, sent.1 ≠ "peer/online2") ∧
      ((Exposed.getPeersOn Exposed.sampleFormats .sorted state.redis .pudge).bind
        Except.toOption).any fun peers => !peers.isEmpty))
    (show (crawl answeredDeeds).any _ = true by decide +kernel)
  obtain ⟨dialed, indexed, witnesses, version, own, listed⟩ := of_decide_eq_true checked
  exact ⟨fleet, state, reachable, running, dialed, indexed, witnesses, version, own, listed⟩

/-- Whatever happens, in any order: the dialers only ever dial bootnodes and
peers with a chain of sessions from a bootnode of the same network to them, and
only ever hear peers that they have dialed. -/
theorem dials_known (assumed : FleetAssumed parties) (reachable : FleetReachable parties encoders now fleet) :
    (∀ dial ∈ fleet.dialed, dial.controller ∈ builtNetworks ∧
        Known parties fleet.system dial.controller (addrToPeerId parties.codings dial.address)) ∧
      ∀ receipt ∈ fleet.system.received,
        Known parties fleet.system receipt.network (addrToPeerId parties.codings receipt.address) := by
  have crawled := reachable_crawled assumed.toAssumed assumed.reassembles reachable
  exact ⟨crawled.reached, fun receipt member => crawled.teller member⟩

/-- A peer that is no bootnode is dialed, and known by a chain from one. -/
theorem dials_known_crawl : ∃ fleet, FleetReachable crawlParties crawlEncoders 0 fleet ∧
    ⟨.pudge, sampleAddress⟩ ∈ fleet.dialed ∧
    Known crawlParties fleet.system .pudge (addrToPeerId crawlParties.codings sampleAddress) := by
  obtain ⟨fleet, _, reachable, _, answered⟩ := crawl_answered
  exact ⟨fleet, reachable, answered.dialed,
    ((dials_known crawlParties_assumed reachable).1 _ answered.dialed).2⟩

/-- While Marci is running, every record in the store is about a known peer or one
that others have reported; one of the index only about a known peer of that network. -/
theorem records_known (assumed : FleetAssumed parties) (reachable : FleetReachable parties encoders now fleet)
    (running : fleet.system.marci = some state) (format : KeyFormat)
    (live : state.redis.Live (format.key peerId)) :
    ((∃ network ∈ builtNetworks, Known parties fleet.system network peerId) ∨
        ∃ peer, ReportedElsewhere parties fleet peer ∧ peer.info.peerId = peerId) ∧
      ∀ network, format = .peerNetworkQuick network →
        network ∈ builtNetworks ∧ Known parties fleet.system network peerId := by
  have crawled := reachable_crawled assumed.toAssumed assumed.reassembles reachable
  have rooted := reachable_rooted assumed reachable
  have run := (reachable_provenance assumed.toAssumed (FleetReachable.system reachable)).running running
  constructor
  · obtain ⟨turn, member, rfl, written⟩ := run_written run format peerId live
    apply (rooted.taken turn member).known crawled
    intro ticks
    rw [ticks] at written
    cases written
  · rintro network rfl
    obtain ⟨report, reported, rfl⟩ := ((run_ledger run peerId).indexed network).mp live
    exact (report_testified crawled rooted reported).2

theorem records_known_crawl : ∃ fleet state, FleetReachable crawlParties crawlEncoders 0 fleet ∧
    fleet.system.marci = some state ∧
    state.redis.Live ((KeyFormat.peerNetworkQuick .pudge).key sampleMeta.peerId) ∧
    Known crawlParties fleet.system .pudge sampleMeta.peerId := by
  obtain ⟨fleet, state, reachable, running, answered⟩ := crawl_answered
  exact ⟨fleet, state, reachable, running, answered.indexed,
    ((records_known crawlParties_assumed reachable running _ answered.indexed).2 .pudge rfl).2⟩

/-- A listing of a network, made between two turns of Marci, shows known peers of it only. -/
theorem listing_known (assumed : FleetAssumed parties) (reachable : FleetReachable parties encoders now fleet)
    (running : fleet.system.marci = some state) {F64 : Type} {formats : Exposed.Formats F64}
    {order : Enumeration} {peers : List (String × Exposed.Peer F64)}
    (listed : Exposed.getPeersOn formats order state.redis network = some (.ok peers)) :
    ∀ entry ∈ peers, Known parties fleet.system network entry.1 := by
  have provenance := reachable_provenance assumed.toAssumed (FleetReachable.system reachable)
  have run := provenance.running running
  intro entry member
  have indexed := Exposed.getPeersOn_indexed (fun peerId live => ?_) listed (List.mem_map_of_mem member)
  · exact ((records_known assumed reachable running _ indexed).2 network rfl).2
  · obtain ⟨report, reported, _⟩ := ((run_ledger run peerId).indexed network).mp live
    exact provenance.dotless assumed.toAssumed peerId (List.ne_nil_of_mem reported)

/-- The peer that answered is listed, and known. -/
theorem listing_known_crawl : ∃ fleet state peers, FleetReachable crawlParties crawlEncoders 0 fleet ∧
    fleet.system.marci = some state ∧
    Exposed.getPeersOn Exposed.sampleFormats .sorted state.redis .pudge = some (.ok peers) ∧
    peers ≠ [] ∧ ∀ entry ∈ peers, Known crawlParties fleet.system .pudge entry.1 := by
  obtain ⟨fleet, state, reachable, running, answered⟩ := crawl_answered
  obtain ⟨peers, shown, many⟩ := (Option.any_eq_true _ _).mp answered.listed
  obtain ⟨listing, listed, same⟩ := Option.bind_eq_some_iff.mp shown
  cases listing with
  | error error => cases same
  | ok entries =>
    cases same
    exact ⟨fleet, state, peers, reachable, running, listed, by simpa using many,
      listing_known crawlParties_assumed reachable running listed⟩

/-- Every witness of a peer is a known peer that told of it in a session. -/
theorem witnesses_testified (assumed : FleetAssumed parties)
    (reachable : FleetReachable parties encoders now fleet) (running : fleet.system.marci = some state) :
    ∀ witness ∈ state.redis.members (KeyFormat.reachablePeer.key peerId),
      Testified parties fleet witness peerId := by
  have crawled := reachable_crawled assumed.toAssumed assumed.reassembles reachable
  have rooted := reachable_rooted assumed reachable
  have run := (reachable_provenance assumed.toAssumed (FleetReachable.system reachable)).running running
  intro witness member
  rw [(run_ledger run peerId).witnesses, distinctReporters, List.mem_toFinset] at member
  obtain ⟨report, reported, rfl⟩ := List.mem_map.mp member
  have sooner : reports peerId (sincePromotion peerId fleet.system.turns) ⊆
      reports peerId fleet.system.turns := by
    apply List.Sublist.subset
    exact (List.takeWhile_sublist _).filterMap _
  exact (report_testified crawled rooted (sooner reported)).1

theorem witnesses_testified_crawl : ∃ fleet state, FleetReachable crawlParties crawlEncoders 0 fleet ∧
    fleet.system.marci = some state ∧
    state.redis.members (KeyFormat.reachablePeer.key sampleMeta.peerId) = {crawlReport.from.peerId} ∧
    Testified crawlParties fleet crawlReport.from.peerId sampleMeta.peerId := by
  obtain ⟨fleet, state, reachable, running, answered⟩ := crawl_answered
  refine ⟨fleet, state, reachable, running, answered.witnesses, ?_⟩
  exact witnesses_testified crawlParties_assumed reachable running _ (by simp [answered.witnesses])

/-- A peer is marked unknown only if a dial of it has failed and as many known
peers as the threshold asks for have told of it. -/
theorem unknown_testified (assumed : FleetAssumed parties)
    (reachable : FleetReachable parties encoders now fleet) (running : fleet.system.marci = some state)
    (marked : state.redis.Live (KeyFormat.unknownPeer.key peerId)) :
    (∃ dial ∈ fleet.failed, addrToPeerId parties.codings dial.address = peerId) ∧
      ∃ tellers : Finset String, parties.config.ckbNodeDefaultWitnesses.toNat ≤ tellers.card ∧
        ∀ teller ∈ tellers, Testified parties fleet teller peerId := by
  have crawled := reachable_crawled assumed.toAssumed assumed.reassembles reachable
  have rooted := reachable_rooted assumed reachable
  have run := (reachable_provenance assumed.toAssumed (FleetReachable.system reachable)).running running
  obtain ⟨later, turn, earlier, history, ⟨event, member, stored⟩, justified⟩ := run_marked run marked
  have processed : turn ∈ fleet.system.turns := by simp [history]
  have before : earlier ⊆ fleet.system.turns := by
    rw [history]
    exact fun _ member => by simp [member]
  constructor
  · obtain ⟨peer, taken, rfl⟩ := justified.message
    have stems := rooted.taken turn processed
    rw [taken] at stems
    cases stems with
    | failed failed => exact ⟨_, failed, rfl⟩
  · obtain ⟨_, counted, enough⟩ := justified.decision event member stored
    rw [counted] at enough
    refine ⟨_, enough, fun teller told => ?_⟩
    rw [distinctReporters, List.mem_toFinset] at told
    obtain ⟨report, reported, rfl⟩ := List.mem_map.mp told
    obtain ⟨reporting, among, found⟩ := List.mem_filterMap.mp reported
    have among := before ((List.takeWhile_sublist _).subset among)
    exact (report_testified crawled rooted (List.mem_filterMap.mpr ⟨reporting, among, found⟩)).1

theorem unknown_testified_crawl : ∃ fleet state, FleetReachable crawlParties crawlEncoders 0 fleet ∧
    fleet.system.marci = some state ∧
    state.redis.Live (KeyFormat.unknownPeer.key sampleMeta.peerId) ∧
    ∃ tellers : Finset String, 1 ≤ tellers.card ∧
      ∀ teller ∈ tellers, Testified crawlParties fleet teller sampleMeta.peerId := by
  obtain ⟨fleet, state, reachable, running, checked⟩ := crawl_reaches
    (fun _ state => decide (state.redis.Live (KeyFormat.unknownPeer.key sampleMeta.peerId)))
    (show (crawl failedDeeds).any _ = true by decide +kernel)
  have marked := of_decide_eq_true checked
  exact ⟨fleet, state, reachable, running, marked,
    (unknown_testified crawlParties_assumed reachable running marked).2⟩

/-- The version of a first-hand record was announced in a session with the peer,
unless others have reported it so; records by others stem from their reports. -/
theorem versions_announced (assumed : FleetAssumed parties)
    (reachable : FleetReachable parties encoders now fleet) (running : fleet.system.marci = some state)
    (version : String) :
    (state.redis.text? (KeyFormat.onlinePeer.key peerId) = some version →
        Announced parties fleet peerId version ∨
          ∃ peer, ReportedElsewhere parties fleet peer ∧ peer.info.peerId = peerId ∧
            peer.isEx = false ∧ peer.version = version) ∧
      (state.redis.text? (KeyFormat.online2Peer.key peerId) = some version →
        ∃ peer, ReportedElsewhere parties fleet peer ∧ peer.info.peerId = peerId ∧
          peer.isEx = true ∧ peer.version = version) := by
  have rooted := reachable_rooted assumed reachable
  have run := (reachable_provenance assumed.toAssumed (FleetReachable.system reachable)).running running
  have recorded : ∀ format ∈ onlineFormats, state.redis.text? (format.key peerId) = some version →
      ∃ peer, Stems parties fleet (.online peer) ∧ peer.info.peerId = peerId ∧
        reportTarget peer = format ∧ peer.version = version := by
    intro format known text
    obtain ⟨entry, found⟩ := Store.found_of_text? text
    obtain ⟨turn, member, peer, taken, about, target, value⟩ := run_online_record known run peerId entry found
    refine ⟨peer, taken ▸ rooted.taken turn member, about, target, ?_⟩
    rw [Store.text?, found] at text
    obtain ⟨content, deadline⟩ := entry
    obtain rfl : content = .text peer.version := value
    exact Option.some.inj text
  constructor
  · intro text
    obtain ⟨peer, stems, rfl, target, rfl⟩ := recorded .onlinePeer (by decide) text
    cases stems with
    | identified member protocol framed decoded =>
      exact .inl ⟨_, member, protocol, rfl, _, _, framed, decoded, rfl⟩
    | external sent read =>
      refine .inr ⟨peer, ⟨_, sent, read⟩, rfl, ?_, rfl⟩
      cases flag : peer.isEx with
      | false => rfl
      | true =>
        rw [reportTarget, if_pos flag] at target
        cases target
  · intro text
    obtain ⟨peer, stems, rfl, target, rfl⟩ := recorded .online2Peer (by decide) text
    cases stems with
    | identified member protocol framed decoded => cases target
    | external sent read =>
      refine ⟨peer, ⟨_, sent, read⟩, rfl, ?_, rfl⟩
      by_contra firstHand
      rw [reportTarget, if_neg firstHand] at target
      cases target

theorem versions_announced_crawl : ∃ fleet state, FleetReachable crawlParties crawlEncoders 0 fleet ∧
    fleet.system.marci = some state ∧
    state.redis.text? (KeyFormat.onlinePeer.key sampleMeta.peerId) = some "0.1" ∧
    Announced crawlParties fleet sampleMeta.peerId "0.1" := by
  obtain ⟨fleet, state, reachable, running, answered⟩ := crawl_answered
  refine ⟨fleet, state, reachable, running, answered.version, ?_⟩
  rcases (versions_announced crawlParties_assumed reachable running "0.1").1 answered.version with
    announced | ⟨_, ⟨payload, sent, _⟩, _⟩
  · exact announced
  · exact absurd rfl (answered.own _ sent)

end CkbDiscovery.Deployment
