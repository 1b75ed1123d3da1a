import CkbDiscovery.Marci.Ledger

/-! The broadcast tick against the history of the turns: which dials are
requested, of whom, where and on which network. -/

namespace CkbDiscovery.Marci

open Effect Redis

variable {config : Config} {serde : Serde} {before after : State} {trace : HandlerTrace}
  {peerId : String} {turns : List MarciTurn}

/-- Topics and payloads handed to the broker, in order. -/
def published (trace : HandlerTrace) : List (String × String) :=
  trace.filterMap fun event => match event.question with
    | .publish topic payload => some (topic, payload)
    | _ => none

theorem published_append (first second : HandlerTrace) :
    published (first ++ second) = published first ++ published second := List.filterMap_append

/-- A handler that does not broadcast hands nothing to the broker. -/
theorem OnlyWrites.silent {formats : List KeyFormat} {subject : String} {handler : Handler α}
    (only : OnlyWrites false formats subject handler)
    (reaches : Reaches world before handler trace after) : published trace = [] := by
  apply List.filterMap_eq_nil_iff.mpr
  intro event member
  have unpublished := (Reaches.permitted only reaches event member).2
  split
  · rename_i topic payload question
    exact nomatch unpublished topic payload question
  · rfl

theorem setLastUpdate_silent (reaches : Reaches world before setLastUpdate trace after) :
    published trace = [] :=
  have silent : OnlyWrites false [] "" setLastUpdate := onlyWrites_setLastUpdate
  silent.silent reaches

/-- The request to dial that the history calls for. -/
structure Describes (turns : List MarciTurn) (metaInfo : NodeMetaInfo) : Prop where
  distinct : metaInfo.addresses.Nodup
  addresses : ∀ endpoint, endpoint ∈ metaInfo.addresses ↔
    ∃ report ∈ reports metaInfo.peerId turns, endpoint ∈ report.peer.addresses
  network : ∀ report, (reports metaInfo.peerId turns).head? = some report →
    metaInfo.network = report.peer.network

/-- Time does not touch a ledger. -/
theorem Ledger.later {earlier later : Store} (subject : String)
    (ledger : Ledger serde peerId turns earlier)
    (fades : earlier.FadesOutside (recordKeys [] subject) later) :
    Ledger serde peerId turns later := by
  have same := fun format member => ledger.same fades format member (.inr List.not_mem_nil)
  constructor
  · rw [members_of_same (same _ (by decide)), ledger.witnesses]
  · rw [live_of_same (same _ (by decide)), ledger.witnessed]
  · rw [members_of_same (same _ (by decide)), ledger.addresses]
  · rw [text?_of_same (same _ (by decide)), ledger.network]
  · intro network
    rw [live_of_same (same _ (quick_mem_ledgerFormats network)), ledger.indexed]
  · intro format member
    exact (ledger.timeless format member).of_same (same format member)

theorem Ledger.fade {earlier later : Store} (ledger : Ledger serde peerId turns earlier)
    (fades : earlier.Fades later) : Ledger serde peerId turns later :=
  ledger.later "" (fades.mono (Set.empty_subset _))

theorem Served.smembers {key : String} {value : List String} {asked : State}
    (served : Served (.smembers key) value before after asked) :
    value.Nodup ∧ ∀ text, text ∈ value ↔ text ∈ asked.redis.members key := by
  obtain ⟨_, order, replied, executed, _⟩ := served
  exact (execute_smembers executed).2

theorem mem_addressTexts {addresses : List EndpointInfo} {text : String} :
    text ∈ addressTexts serde addresses ↔
      ∃ endpoint ∈ addresses, serde.endpointInfo.toString endpoint = text := by
  simp [addressTexts]

/-- The members of an address record, parsed, are the reported endpoints. -/
theorem parsed_endpoints (roundTrips : serde.endpointInfo.RoundTrips) {texts : List String}
    (distinct : texts.Nodup)
    (complete : ∀ text, text ∈ texts ↔ text ∈ reportedTexts serde peerId turns) :
    (texts.filterMap serde.endpointInfo.fromStr).Nodup ∧
      ∀ endpoint, endpoint ∈ texts.filterMap serde.endpointInfo.fromStr ↔
        ∃ report ∈ reports peerId turns, endpoint ∈ report.peer.addresses := by
  have written : ∀ text ∈ texts, ∃ endpoint, text = serde.endpointInfo.toString endpoint := by
    intro text member
    obtain ⟨endpoint, _, same⟩ := mem_addressTexts.mp ((complete text).mp member)
    exact ⟨endpoint, same.symm⟩
  constructor
  · apply List.Nodup.of_map serde.endpointInfo.toString
    rwa [roundTrips.map_filterMap written]
  · intro endpoint
    rw [← List.mem_flatMap]
    constructor
    · intro member
      obtain ⟨text, present, parsed⟩ := List.mem_filterMap.mp member
      obtain ⟨reported, found, rfl⟩ := mem_addressTexts.mp ((complete text).mp present)
      rw [roundTrips reported] at parsed
      obtain rfl := Option.some.inj parsed
      exact found
    · intro reported
      have present := (complete _).mpr (mem_addressTexts.mpr ⟨endpoint, reported, rfl⟩)
      exact List.mem_filterMap.mpr ⟨_, present, roundTrips endpoint⟩

/-- The description made up from the records of a peer. -/
theorem gatherDial_describes {metaInfo : NodeMetaInfo} (roundTrips : serde.endpointInfo.RoundTrips)
    (ledger : Ledger serde peerId turns before.redis)
    (completes : HandlerCompletes before (gatherDial serde peerId) trace after metaInfo) :
    metaInfo.peerId = peerId ∧ Describes turns metaInfo := by
  obtain ⟨_, listed, rawInfo, _, listing, rest, rfl⟩ := Completes.split completes
  obtain ⟨_, smembers, same⟩ := HandlerCompletes.unwrapOr listing
  obtain ⟨sent, texts, rfl, rfl, served⟩ := HandlerCompletes.send smembers
  subst same
  have listedLedger := ledger.later "" (served.frame.mono (by simp [Command.writes]))
  obtain ⟨_, read, networkString, _, reading, gathered, rfl⟩ := Completes.split rest
  obtain ⟨reply, getting, same⟩ := HandlerCompletes.unwrapOr reading
  obtain ⟨met, _, rfl, earlier, _, answered⟩ := HandlerCompletes.getString getting
  have metLedger := listedLedger.fade earlier
  obtain ⟨_, _, rfl⟩ := Completes.of_done gathered
  have askedLedger := ledger.fade served.earlier
  obtain ⟨distinct, complete⟩ := served.smembers
  rw [askedLedger.addresses] at complete
  obtain ⟨distinctEndpoints, endpoints⟩ := parsed_endpoints roundTrips distinct complete
  refine ⟨rfl, distinctEndpoints, endpoints, ?_⟩
  intro report latest
  have stored := metLedger.network
  simp only [latest, Option.map_some] at stored
  cases reply with
  | ok content =>
    obtain rfl := Option.some.inj (answered.symm.trans stored)
    simp [same]
  | error _ =>
    rw [Store.text?, answered] at stored
    cases stored

theorem gatherDial_silent (reaches : Reaches world before (gatherDial serde peerId) trace after) :
    published trace = [] :=
  have silent : OnlyWrites false [] "" (gatherDial serde peerId) := onlyWrites_gatherDial peerId
  silent.silent reaches

/-- One request to dial. -/
theorem requestDial_describes (roundTrips : serde.endpointInfo.RoundTrips)
    (ledger : Ledger serde peerId turns before.redis)
    (completes : HandlerCompletes before (requestDial serde peerId) trace after ()) :
    ∃ metaInfo, published trace = [("peer/needs_dial", serde.nodeMetaInfo.toString metaInfo)] ∧
      metaInfo.peerId = peerId ∧ Describes turns metaInfo := by
  obtain ⟨_, _, metaInfo, _, gathering, publishing, rfl⟩ := Completes.split completes
  obtain ⟨same, describes⟩ := gatherDial_describes roundTrips ledger gathering
  obtain ⟨_, _, rfl, _, _, _⟩ := Completes.of_perform (HandlerCompletes.orReturn publishing)
  refine ⟨metaInfo, ?_, same, describes⟩
  rw [published_append, gatherDial_silent gathering.reaches]
  rfl

/-- The requests of the loop over the listed peers, in the order of the list. -/
theorem requestDials_describe (roundTrips : serde.endpointInfo.RoundTrips) {ids : List String}
    (ledger : ∀ peerId, Ledger serde peerId turns before.redis)
    (completes : HandlerCompletes before (Program.forEach (requestDial serde) ids) trace after ()) :
    ∃ metas : List NodeMetaInfo,
      published trace = metas.map (fun metaInfo =>
        ("peer/needs_dial", serde.nodeMetaInfo.toString metaInfo)) ∧
      metas.map NodeMetaInfo.peerId = ids ∧ ∀ metaInfo ∈ metas, Describes turns metaInfo := by
  induction ids generalizing before trace with
  | nil =>
    obtain ⟨rfl, _, _⟩ := Completes.of_done completes
    exact ⟨[], rfl, rfl, by simp⟩
  | cons peerId rest inductionHypothesis =>
    obtain ⟨_, middle, _, _, first, others, rfl⟩ := Completes.split completes
    obtain ⟨metaInfo, sent, same, describes⟩ :=
      requestDial_describes roundTrips (ledger peerId) first
    have reads : OnlyWrites true [] "" (requestDial serde peerId) := onlyWrites_requestDial peerId
    have frame := reads.frame first
    obtain ⟨metas, sentRest, ids, described⟩ :=
      inductionHypothesis (fun other => (ledger other).later "" frame) others
    refine ⟨metaInfo :: metas, ?_, ?_, ?_⟩
    · rw [published_append, sent, sentRest]
      rfl
    · rw [List.map_cons, same, ids]
    · intro other member
      rcases List.mem_cons.mp member with first | later
      · subst first
        exact describes
      · exact described other later

theorem Served.keys {pattern : String} {value : List String} {asked : State}
    (served : Served (.keys pattern) value before after asked) :
    value.Nodup ∧ ∀ key, key ∈ value ↔ asked.redis.Live key ∧ globMatches pattern key = true := by
  obtain ⟨_, order, replied, executed, _⟩ := served
  exact (execute_keys executed).2

theorem reachable_scan (key : String) :
    globMatches "peer.reachable.*" key = true ↔
      ∃ peerId, key = KeyFormat.reachablePeer.key peerId :=
  globMatches_star "peer.reachable." "" (by decide) (by decide) key

theorem reachablePeerId_key (dotless : '.' ∉ peerId.toList) :
    reachablePeerId (KeyFormat.reachablePeer.key peerId) = peerId := by
  have spelled : KeyFormat.reachablePeer.key peerId = "peer.reachable" ++ "." ++ peerId := by
    simp [KeyFormat.key, KeyFormat.affix, Affix.key]
  rw [reachablePeerId, spelled, rsplitOnceDot_append _ dotless, Option.getD_some]

theorem reported_of_window (reported : reports peerId (sincePromotion peerId turns) ≠ []) :
    reports peerId turns ≠ [] := by
  intro none
  have window : List.Sublist (sincePromotion peerId turns) turns := List.takeWhile_sublist _
  have prefixed := window.filterMap (report? peerId)
  exact reported (List.sublist_nil.mp (none ▸ prefixed))

/-- The ids taken from the scanned keys are the peers with a report that no
promotion has spent, each once. -/
theorem scanned_ids {scanned : List String} {asked : State}
    (ledger : ∀ peerId, Ledger serde peerId turns asked.redis)
    (dotless : ∀ peerId, reports peerId turns ≠ [] → '.' ∉ peerId.toList)
    (served : Served (.keys "peer.reachable.*") scanned before after asked) :
    (scanned.map reachablePeerId).Nodup ∧
      ∀ peerId, peerId ∈ scanned.map reachablePeerId ↔
        reports peerId (sincePromotion peerId turns) ≠ [] := by
  obtain ⟨distinct, complete⟩ := served.keys
  have spelled : ∀ key ∈ scanned, ∃ peerId, key = KeyFormat.reachablePeer.key peerId ∧
      reachablePeerId key = peerId ∧ reports peerId (sincePromotion peerId turns) ≠ [] := by
    intro key member
    obtain ⟨live, selected⟩ := (complete key).mp member
    obtain ⟨peerId, rfl⟩ := (reachable_scan key).mp selected
    have witnessed := (ledger peerId).witnessed.mp live
    exact ⟨peerId, rfl, reachablePeerId_key (dotless peerId (reported_of_window witnessed)), witnessed⟩
  constructor
  · apply distinct.map_on
    intro first firstMember second secondMember same
    obtain ⟨left, rfl, leftId, _⟩ := spelled first firstMember
    obtain ⟨right, rfl, rightId, _⟩ := spelled second secondMember
    rw [leftId, rightId] at same
    rw [same]
  · intro peerId
    constructor
    · intro member
      obtain ⟨key, present, rfl⟩ := List.mem_map.mp member
      obtain ⟨peerId, _, same, witnessed⟩ := spelled key present
      rwa [same]
    · intro witnessed
      have live := (ledger peerId).witnessed.mpr witnessed
      have present := (complete _).mpr ⟨live, (reachable_scan _).mpr ⟨peerId, rfl⟩⟩
      obtain ⟨other, key, same, _⟩ := spelled _ present
      obtain ⟨_, rfl⟩ := KeyFormat.key_eq_key.mp key
      exact List.mem_map.mpr ⟨_, present, same⟩

/-- What the broadcast of one tick has to be after the given turns. -/
structure BroadcastExact (serde : Serde) (turns : List MarciTurn) (trace : HandlerTrace)
    (metas : List NodeMetaInfo) : Prop where
  requests : published trace = metas.map fun metaInfo =>
    ("peer/needs_dial", serde.nodeMetaInfo.toString metaInfo)
  distinct : (metas.map NodeMetaInfo.peerId).Nodup
  subjects : ∀ peerId, peerId ∈ metas.map NodeMetaInfo.peerId ↔
    reports peerId (sincePromotion peerId turns) ≠ []
  described : ∀ metaInfo ∈ metas, Describes turns metaInfo

theorem handleTick_broadcasts (roundTrips : serde.endpointInfo.RoundTrips)
    (ledger : ∀ peerId, Ledger serde peerId turns before.redis)
    (dotless : ∀ peerId, reports peerId turns ≠ [] → '.' ∉ peerId.toList)
    (completes : HandlerCompletes before (handleTick serde) trace after ()) :
    ∃ metas, BroadcastExact serde turns trace metas := by
  obtain ⟨_, scanned, reachablePeerKeys, _, scanning, rest, rfl⟩ := Completes.split completes
  obtain ⟨asked, rfl, served⟩ := HandlerCompletes.command scanning
  have askedLedger := fun peerId => (ledger peerId).fade served.earlier
  have scannedLedger := fun peerId =>
    (ledger peerId).later "" (served.frame.mono (by simp [Command.writes]))
  obtain ⟨distinct, subjects⟩ := scanned_ids askedLedger dotless served
  obtain ⟨_, _, _, _, requesting, updating, rfl⟩ := Completes.split rest
  obtain ⟨metas, requests, ids, described⟩ := requestDials_describe roundTrips scannedLedger requesting
  refine ⟨metas, ?_, ids ▸ distinct, ids ▸ subjects, described⟩
  rw [published_append, published_append, requests, setLastUpdate_silent updating.reaches,
    List.append_nil]
  rfl

/-- Every tick of every run requests one dial of each peer reported since its
last promotion and of no other, at all addresses ever reported for it and on
the network of its latest report. -/
theorem run_broadcasts (roundTrips : serde.endpointInfo.RoundTrips)
    (run : MarciRun config serde (.initial now) turns after)
    (dotless : ∀ turn ∈ turns, '.' ∉ turn.message.subject.toList) :
    ∀ later trace earlier, turns = later ++ ⟨.tick, trace⟩ :: earlier →
      ∃ metas, BroadcastExact serde earlier trace metas := by
  intro later trace earlier split
  subst split
  obtain ⟨_, upTo, _⟩ := Run.split run
  cases upTo with
  | turn before completes =>
    refine handleTick_broadcasts roundTrips (run_ledger before) (fun peerId reported => ?_) completes
    obtain ⟨report, member⟩ := List.exists_mem_of_ne_nil _ reported
    obtain ⟨turn, present, found⟩ := List.mem_filterMap.mp member
    obtain ⟨message, rfl⟩ := report?_eq_some found
    have clean := dotless turn (by simp [present])
    rwa [message] at clean

/-- Two peers are reported and a tick follows. -/
def relayedScript : List (Nat × Message) :=
  [(0, .reachable ⟨⟨"Qm", [sampleEndpoint], .pudge⟩, ⟨"Qr", [], .pudge⟩⟩),
    (3, .reachable ⟨⟨"Qn", [], .mirana⟩, ⟨"Qr", [], .mirana⟩⟩), (7, .tick)]

def endsInTick : List MarciTurn → Bool
  | ⟨.tick, _⟩ :: _ => true
  | _ => false

theorem run_broadcasts_relayed : ∃ trace earlier after,
    play sampleConfig sampleSerde sampleSurroundings relayedScript (.initial 0) =
        some (⟨.tick, trace⟩ :: earlier, after) ∧
      ∃ metas, BroadcastExact sampleSerde earlier trace metas := by
  have played : (play sampleConfig sampleSerde sampleSurroundings relayedScript (.initial 0)).any
      fun result => result.1.all (fun turn => !turn.message.subject.toList.contains '.') &&
        endsInTick result.1 := by
    decide
  obtain ⟨⟨turns, after⟩, same, shape⟩ := (Option.any_eq_true _ _).mp played
  obtain ⟨dotless, last⟩ := Bool.and_eq_true_iff.mp shape
  unfold endsInTick at last
  split at last
  · rename_i trace earlier head
    obtain rfl : turns = ⟨.tick, trace⟩ :: earlier := head
    have clean : ∀ turn ∈ ⟨.tick, trace⟩ :: earlier, '.' ∉ turn.message.subject.toList := by
      simpa using dotless
    exact ⟨trace, earlier, after, same,
      run_broadcasts sampleSerde_roundTrips (play_run same) clean [] trace earlier rfl⟩
  · cases last

end CkbDiscovery.Marci
