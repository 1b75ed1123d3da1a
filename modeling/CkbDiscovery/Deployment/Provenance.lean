import CkbDiscovery.Deployment.System
import CkbDiscovery.Marci.Requests

/-! Where the dials come from: every message in flight and every record of
Marci is traced back to a list of nodes that a handler received. -/

namespace CkbDiscovery.Deployment

open Effect Dialer Marci

variable (parties : Parties)

/-- A handler of a built network has described the reported peer from a node it
was told of. -/
def Relayed (system : System) (report : ReachableInfo) : Prop :=
  ∃ receipt ∈ system.received, receipt.network ∈ builtNetworks ∧ receipt.protocol = .discovery ∧
    ∃ nodes, parties.decoders.discovery receipt.data = some (.nodes nodes) ∧
      ∃ node ∈ nodes, ∃ first rest, node.addresses = first :: rest ∧
        (parties.handler receipt.network).describeNode first rest = some report.peer

/-- A request names a reported peer with one of its networks. -/
def Backed (system : System) (metaInfo : NodeMetaInfo) : Prop :=
  ∃ report, Relayed parties system report ∧ report.peer.peerId = metaInfo.peerId ∧
    report.peer.network = metaInfo.network

/-- What is relied on of the libraries. -/
structure Assumed : Prop where
  alphabet : ∀ id, '.' ∉ (parties.codings.bs58Encode id).toList
  nameless : ∀ endpoint, parties.codings.multiaddrOfText (endpointText endpoint "") = none
  endpoints : parties.serde.endpointInfo.RoundTrips
  requests : parties.serde.nodeMetaInfo.RoundTrips
  reports : parties.serde.reachableInfo.RoundTrips

/-- A message in the broker that can lead to a dial has a source. -/
structure Sourced (system : System) (topic payload : String) : Prop where
  reachable : topic = "peer/reachable" →
    ∃ report, payload = parties.serde.reachableInfo.toString report ∧ Relayed parties system report
  needsDial : topic = "peer/needs_dial" →
    ∃ metaInfo, payload = parties.serde.nodeMetaInfo.toString metaInfo ∧ Backed parties system metaInfo

structure Provenance (now : Nat) (system : System) : Prop where
  sourced : ∀ {topic payload}, (topic, payload) ∈ system.broker → Sourced parties system topic payload
  processed : ∀ turn ∈ system.turns, ∀ report, turn.message = .reachable report →
    Relayed parties system report
  running : ∀ {state}, system.marci = some state →
    MarciRun parties.config parties.serde (.initial now) system.turns state

variable {parties} {system earlier later : System} {now : Nat}

theorem Relayed.mono {report : ReachableInfo} (relayed : Relayed parties earlier report)
    (kept : earlier.received ⊆ later.received) : Relayed parties later report := by
  obtain ⟨receipt, member, rest⟩ := relayed
  exact ⟨receipt, kept member, rest⟩

theorem Backed.mono {metaInfo : NodeMetaInfo} (backed : Backed parties earlier metaInfo)
    (kept : earlier.received ⊆ later.received) : Backed parties later metaInfo := by
  obtain ⟨report, relayed, same⟩ := backed
  exact ⟨report, relayed.mono kept, same⟩

theorem Sourced.mono {topic payload : String} (sourced : Sourced parties earlier topic payload)
    (kept : earlier.received ⊆ later.received) : Sourced parties later topic payload where
  reachable same := by
    obtain ⟨report, written, relayed⟩ := sourced.reachable same
    exact ⟨report, written, relayed.mono kept⟩
  needsDial same := by
    obtain ⟨metaInfo, written, backed⟩ := sourced.needsDial same
    exact ⟨metaInfo, written, backed.mono kept⟩

/-- Handlers report what they were told and never request a dial. -/
theorem relayed_sourced {receipt : Receipt} {topic payload : String}
    (built : receipt.network ∈ builtNetworks) (member : receipt ∈ system.received)
    (sent : (topic, payload) ∈ relayed parties receipt) : Sourced parties system topic payload := by
  have asked := mem_publishedBy.mp sent
  cases protocol : receipt.protocol with
  | identify =>
    rw [protocol] at asked
    obtain rfl := receivedIdentify_publishes asked
    exact ⟨nofun, nofun⟩
  | sync =>
    rw [protocol] at asked
    cases asked
  | discovery =>
    rw [protocol] at asked
    obtain ⟨nodes, decoded, node, present, first, rest, metaInfo, addresses, described, rfl, rfl⟩ :=
      receivedDiscovery_publishes asked
    exact ⟨fun _ => ⟨_, rfl, receipt, member, built, protocol, nodes, decoded, node, present, first, rest,
      addresses, described⟩, nofun⟩

/-- What the description of a node takes from its first address. -/
theorem describeNode_parts {handler : Dialer.Handler} {first : List UInt8} {rest : List (List UInt8)}
    {metaInfo : NodeMetaInfo} (described : handler.describeNode first rest = some metaInfo) :
    ∃ addr, handler.codings.multiaddrOfBytes first = some addr ∧
      metaInfo.peerId = addrToPeerId handler.codings addr ∧ metaInfo.network = handler.networkType := by
  unfold Handler.describeNode at described
  obtain ⟨addr, parsed, described⟩ := Option.bind_eq_some_iff.mp described
  obtain ⟨others, _, described⟩ := Option.bind_eq_some_iff.mp described
  cases described
  exact ⟨addr, parsed, rfl, rfl⟩

theorem Provenance.reported {peerId : String} {report : ReachableInfo}
    (provenance : Provenance parties now system) (reported : report ∈ reports peerId system.turns) :
    Relayed parties system report ∧ report.peer.peerId = peerId := by
  obtain ⟨turn, member, found⟩ := List.mem_filterMap.mp reported
  obtain ⟨message, same⟩ := report?_eq_some found
  exact ⟨provenance.processed turn member report message, same⟩

/-- Reported ids are spelled in the alphabet of the encoding. -/
theorem Provenance.dotless (assumed : Assumed parties) (provenance : Provenance parties now system)
    (peerId : String) (reported : reports peerId system.turns ≠ []) : '.' ∉ peerId.toList := by
  obtain ⟨report, member⟩ := List.exists_mem_of_ne_nil _ reported
  obtain ⟨⟨receipt, _, _, _, _, _, _, _, _, _, _, described⟩, same⟩ := provenance.reported member
  obtain ⟨addr, _, spelled, _⟩ := describeNode_parts described
  rw [← same, spelled]
  exact addrToPeerId_dotless _ assumed.alphabet addr

/-- What a turn hands to the broker is backed by a report it has processed. -/
theorem Provenance.published_sourced (assumed : Assumed parties)
    (provenance : Provenance parties now system) {before after : State} {message : Message}
    {trace : HandlerTrace} (running : system.marci = some before)
    (reaches : Reaches world before (handle parties.config parties.serde message) trace after)
    {topic payload : String} (sent : (topic, payload) ∈ published trace) :
    Sourced parties system topic payload := by
  obtain ⟨rfl, metaInfo, rfl, reported, describes⟩ := handle_requests assumed.endpoints
    (provenance.running running) (provenance.dotless assumed) reaches sent
  refine ⟨nofun, fun _ => ⟨metaInfo, rfl, ?_⟩⟩
  obtain ⟨report, earlier, latest⟩ := List.exists_cons_of_ne_nil reported
  have network := describes.network report (by rw [latest]; rfl)
  have member : report ∈ reports metaInfo.peerId system.turns := by
    rw [latest]
    exact List.mem_cons_self
  obtain ⟨relayed, same⟩ := provenance.reported member
  exact ⟨report, relayed, same, network.symm⟩

/-- What Marci takes up as a report has been relayed. -/
theorem Provenance.delivered (assumed : Assumed parties) (provenance : Provenance parties now system)
    {report : ReachableInfo} (delivered : Delivered parties system (.reachable report)) :
    Relayed parties system report := by
  rcases delivered with tick | ⟨topic, payload, sent, taken⟩
  · cases tick
  · unfold subscribed at taken
    split at taken
    · simp at taken
    · simp at taken
    · obtain ⟨original, rfl, relayed⟩ := (provenance.sourced sent).reachable rfl
      rw [assumed.reports original] at taken
      cases taken
      exact relayed
    · simp at taken
    · cases taken

theorem provenance_opened : Provenance parties now (.opened now) where
  sourced sent := by cases sent
  processed _ member := by cases member
  running same := by
    cases same
    exact .start

/-- One step keeps the provenance. -/
theorem Provenance.step (assumed : Assumed parties) (provenance : Provenance parties now earlier)
    (step : Step parties earlier later) : Provenance parties now later := by
  cases step with
  | receive built =>
    rename_i receipt
    constructor
    · intro topic payload sent
      rcases List.mem_append.mp sent with fresh | old
      · exact relayed_sourced built List.mem_cons_self fresh
      · exact (provenance.sourced old).mono (List.subset_cons_self _ _)
    · intro turn member report message
      exact (provenance.processed turn member report message).mono (List.subset_cons_self _ _)
    · exact provenance.running
  | foreign unreported unrequested =>
    constructor
    · intro topic payload sent
      rcases List.mem_cons.mp sent with fresh | old
      · cases fresh
        exact ⟨fun same => absurd same unreported, fun same => absurd same unrequested⟩
      · exact (provenance.sourced old).mono (List.Subset.refl _)
    · exact provenance.processed
    · exact provenance.running
  | turn running delivered completes =>
    constructor
    · intro topic payload sent
      rcases List.mem_append.mp sent with fresh | old
      · exact (provenance.published_sourced assumed running completes.reaches fresh).mono
          (List.Subset.refl _)
      · exact (provenance.sourced old).mono (List.Subset.refl _)
    · intro turn member report message
      rcases List.mem_cons.mp member with rfl | old
      · cases message
        exact provenance.delivered assumed delivered
      · exact provenance.processed turn old report message
    · intro state same
      cases same
      exact .turn (provenance.running running) completes
  | abort running delivered reaches =>
    constructor
    · intro topic payload sent
      rcases List.mem_append.mp sent with fresh | old
      · exact (provenance.published_sourced assumed running reaches fresh).mono (List.Subset.refl _)
      · exact (provenance.sourced old).mono (List.Subset.refl _)
    · exact provenance.processed
    · nofun

theorem reachable_provenance (assumed : Assumed parties) (reachable : Reachable parties now system) :
    Provenance parties now system := by
  induction reachable with
  | refl => exact provenance_opened
  | tail _ step inductionHypothesis => exact inductionHypothesis.step assumed step

variable (parties) in
/-- The receipt was a list of nodes, one of which carries this id in its first address. -/
def Receipt.Advertises (receipt : Receipt) (peerId : String) : Prop :=
  receipt.protocol = .discovery ∧ ∃ nodes, parties.decoders.discovery receipt.data = some (.nodes nodes) ∧
    ∃ node ∈ nodes, ∃ first rest addr id, node.addresses = first :: rest ∧
      parties.codings.multiaddrOfBytes first = some addr ∧ .p2p id ∈ addr ∧
      parties.codings.bs58Encode id = peerId

/-- In every run, a request names a built network, so that the last arm is not
executed, and every dial made for it uses the network of a handler that was
told of the peer before. -/
theorem dials_stay (assumed : Assumed parties) (reachable : Reachable parties now system)
    {payload : String} (pending : Pending system payload) :
    ¬ Unreachable parties.codings parties.serde payload ∧
      ∃ peer, parties.serde.nodeMetaInfo.fromStr payload = some peer ∧
        ∀ dial ∈ dials parties.codings parties.serde payload, ∃ receipt ∈ system.received,
          receipt.network = dial.controller ∧ receipt.Advertises parties peer.peerId := by
  obtain ⟨peer, rfl, report, relayed, same, network⟩ :=
    ((reachable_provenance assumed reachable).sourced pending).needsDial rfl
  obtain ⟨receipt, member, built, protocol, nodes, decoded, node, present, first, rest, addresses,
    described⟩ := relayed
  obtain ⟨addr, parsed, spelled, ofHandler⟩ := describeNode_parts described
  have read := assumed.requests peer
  have origin : receipt.network = peer.network := ofHandler.symm.trans network
  rw [origin] at built
  refine ⟨needsDial_reached read built, peer, read, fun dial dialed => ?_⟩
  obtain ⟨controller, parsedText⟩ := mem_dials read built dialed
  have named : addrToPeerId parties.codings addr ≠ "" := by
    intro nameless
    have empty : peer.peerId = "" := same.symm.trans (spelled.trans nameless)
    exact metaInfoToAddr_nameless assumed.nameless empty dial.address parsedText
  obtain ⟨id, component, encoded⟩ := addrToPeerId_mem parties.codings named
  refine ⟨receipt, member, origin.trans controller.symm, protocol, nodes, decoded, node, present, first,
    rest, addr, id, addresses, parsed, component, ?_⟩
  rw [encoded, ← same]
  exact spelled.symm

/-- One receipt whose report Marci takes up before it ticks. -/
theorem advertised_requested (roundTrips : parties.serde.reachableInfo.RoundTrips) (receipt : Receipt)
    {report : ReachableInfo} {payload : String} {request reporting : HandlerTrace} {after : State}
    (built : receipt.network ∈ builtNetworks)
    (relays : ("peer/reachable", parties.serde.reachableInfo.toString report) ∈ relayed parties receipt)
    (run : MarciRun parties.config parties.serde (.initial now)
      [⟨.tick, request⟩, ⟨.reachable report, reporting⟩] after)
    (asked : ("peer/needs_dial", payload) ∈ published request) :
    ∃ system, Reachable parties now system ∧ Pending system payload ∧ system.received = [receipt] := by
  cases run with
  | turn earlier ticking =>
    cases earlier with
    | turn opened recording =>
      cases opened
      have heard : Reachable parties now
          ⟨[receipt], relayed parties receipt ++ [], [], some (.initial now)⟩ :=
        .single (.receive built)
      have delivered : Delivered parties ⟨[receipt], relayed parties receipt ++ [], [],
          some (.initial now)⟩ (.reachable report) := by
        refine .inr ⟨_, _, List.mem_append_left _ relays, ?_⟩
        rw [subscribed, roundTrips report]
        rfl
      have recorded := heard.tail (.turn rfl delivered recording)
      have requested := recorded.tail (.turn rfl (.inl rfl) ticking)
      exact ⟨_, requested, List.mem_append_left _ asked, rfl⟩

def sampleMeta : NodeMetaInfo :=
  ⟨"QmPHzhEzekyjB14eQsnsVRxmymtYmAyntcfJgVYRiUq4Lb", [sampleEndpoint], .pudge⟩

def sampleReport : ReachableInfo := ⟨sampleMeta, sampleMeta⟩

def sampleMetaText : String :=
  "\x7b\"peer_id\":\"QmPHzhEzekyjB14eQsnsVRxmymtYmAyntcfJgVYRiUq4Lb\",\"addresses\":[" ++
    "\x7b\"address\":\"1.2.3.4\",\"port\":8114\x7d],\"network\":\"Pudge\"\x7d"

def sampleParties : Parties where
  codings := sampleCodings
  decoders := sampleDecoders
  serde := { sampleSerde with
    nodeMetaInfo := Codec.patch (.unary _) sampleMeta sampleMetaText
    reachableInfo := Codec.patch (.unary _) sampleReport
      ("\x7b\"peer\":" ++ sampleMetaText ++ ",\"from\":" ++ sampleMetaText ++ "\x7d") }
  config := sampleConfig

theorem endpointText_nameless (endpoint : EndpointInfo) :
    (endpointText endpoint "").toList.getLast? = some '/' := by
  unfold endpointText
  split <;> simp [ToString.toString, List.getLast?_cons, List.getLast?_append]

theorem sampleParties_assumed : Assumed sampleParties where
  alphabet id := by
    simp only [sampleParties, sampleCodings]
    split <;> decide
  nameless endpoint := by
    have slash := endpointText_nameless endpoint
    simp only [sampleParties, sampleCodings]
    split
    · rename_i same
      rw [same] at slash
      exact absurd slash (by decide)
    · rfl
  endpoints := sampleSerde_roundTrips
  requests := Codec.unary_roundTrips.patch (Codec.unary_ne ⟨'p', by decide +kernel, by decide⟩)
  reports := Codec.unary_roundTrips.patch (Codec.unary_ne ⟨'p', by decide +kernel, by decide⟩)

def sampleReceipt : Receipt := ⟨.pudge, sampleAddress, .discovery, sampleDiscoveryMessage⟩

theorem sampleReceipt_relayed : relayed sampleParties sampleReceipt =
    [("peer/reachable", sampleParties.serde.reachableInfo.toString sampleReport)] := by
  decide +kernel

def sampleTurns : List MarciTurn × State → Bool
  | ([⟨.tick, request⟩, ⟨.reachable report, _⟩], _) =>
    report = sampleReport ∧
      ("peer/needs_dial", sampleParties.serde.nodeMetaInfo.toString sampleMeta) ∈ published request
  | _ => false

theorem sample_played : (play sampleConfig sampleParties.serde sampleSurroundings
    [(5, .reachable sampleReport), (7, .tick)] (.initial 0)).any sampleTurns := by
  decide +kernel

/-- A node is advertised on the test network, Marci is told of it, and a tick
has it dialed there. -/
theorem dials_stay_sample : ∃ system payload, Reachable sampleParties 0 system ∧
    Pending system payload ∧ dials sampleCodings sampleParties.serde payload ≠ [] ∧
    ∃ peer, sampleParties.serde.nodeMetaInfo.fromStr payload = some peer ∧
      ∀ dial ∈ dials sampleCodings sampleParties.serde payload, ∃ receipt ∈ system.received,
        receipt.network = dial.controller ∧ receipt.Advertises sampleParties peer.peerId := by
  obtain ⟨⟨turns, after⟩, played, shape⟩ := (Option.any_eq_true _ _).mp sample_played
  have run := play_run played
  unfold sampleTurns at shape
  split at shape
  · rename_i request report records last same
    cases same
    obtain ⟨rfl, asked⟩ := of_decide_eq_true shape
    obtain ⟨system, requested, pending, _⟩ := advertised_requested sampleParties_assumed.reports
      sampleReceipt (by decide) (by rw [sampleReceipt_relayed]; exact List.mem_cons_self) run asked
    have dialed : (dials sampleCodings sampleParties.serde
        (sampleParties.serde.nodeMetaInfo.toString sampleMeta)).isEmpty = false := by
      decide +kernel
    exact ⟨system, _, requested, pending, List.isEmpty_eq_false_iff.mp dialed,
      (dials_stay sampleParties_assumed requested pending).2⟩
  · cases shape

end CkbDiscovery.Deployment
