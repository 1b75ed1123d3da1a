import CkbDiscovery.Dialer.Handler

/-! One probe session: two protocols deliver to one handler, and either may
have the session closed under the other. -/

namespace CkbDiscovery.Dialer

open Effect

/-- What the remote peer has sent and not yet been heard of, and what the
handler has done. A panic ends the service, a disconnect takes effect later. -/
structure Session where
  undelivered : List SupportProtocol
  disconnecting : Bool
  closed : Bool
  crashed : Bool
  published : List (String × String)

/-- The scheduler's choices: deliver a message or let the disconnect take effect. -/
inductive SessionEvent where
  | deliver (protocol : SupportProtocol)
  | close
  deriving DecidableEq

/-- The handler, the address of the peer and the two messages it sends. -/
structure Probed where
  handler : Handler
  address : Multiaddr
  message : SupportProtocol → List UInt8

namespace Session

def opened : Session := ⟨[.identify, .discovery], false, false, false, []⟩

def Running (session : Session) : Prop := session.closed = false ∧ session.crashed = false

instance (session : Session) : Decidable session.Running := by unfold Running; infer_instance

/-- An event that is not enabled has no successor. -/
def step (probed : Probed) (session : Session) : SessionEvent → Option Session
  | .deliver protocol =>
    if session.Running ∧ protocol ∈ session.undelivered then
      let probe := probed.handler.received probed.address (probed.message protocol) protocol
      some { session with
        undelivered := session.undelivered.erase protocol
        disconnecting := session.disconnecting || (actions probe).contains .disconnect
        crashed := !finishes probe
        published := session.published ++ publishedBy (actions probe) }
    else none
  | .close =>
    if session.Running ∧ session.disconnecting = true then
      some { session with closed := true, undelivered := [] }
    else none

def run (probed : Probed) (schedule : List SessionEvent) : Option Session :=
  schedule.foldlM (step probed) opened

/-- Nothing is left to be delivered. -/
def Over (session : Session) : Prop := ¬ session.Running ∨ session.undelivered = []

instance (session : Session) : Decidable session.Over := by unfold Over; infer_instance

end Session

/-- A well-formed session: both messages decode, the Identify flag has the peer
probed further, and some node is advertised with addresses. -/
structure WellFormed (probed : Probed) (payload : IdentifyPayload) (nodes : List Node) : Prop where
  framed : ∃ raw, probed.handler.decoders.identifyMessage (probed.message .identify) = some raw ∧
    probed.handler.decoders.identify raw = some payload
  decoded : probed.handler.decoders.discovery (probed.message .discovery) = some (.nodes nodes)
  welcome : (Handler.isFull payload.flag || Handler.supportsDiscovery payload.flag) = true
  advertised : ∃ node ∈ nodes, node.addresses ≠ []

/-- The online report of the session's peer. -/
def onlineReport (probed : Probed) (payload : IdentifyPayload) : String × String :=
  ("peer/online", probed.handler.serde.peerInfo.toString
    (probed.handler.onlineMessage probed.address payload))

/-- The reachable report of a node, if its addresses are multiaddresses. -/
def nodeReport (probed : Probed) (node : Node) : Option (String × String) :=
  match node.addresses with
  | [] => none
  | first :: rest => (probed.handler.describeNode first rest).map fun metaInfo =>
    ("peer/reachable", probed.handler.serde.reachableInfo.toString
      (probed.handler.reachableMessage probed.address metaInfo))

/-- Everything the two messages call for has been published. -/
structure Reported (probed : Probed) (payload : IdentifyPayload) (nodes : List Node)
    (session : Session) : Prop where
  online : onlineReport probed payload ∈ session.published
  reachable : ∀ node ∈ nodes, node.addresses ≠ [] →
    ∃ report, nodeReport probed node = some report ∧ report ∈ session.published

/-- All advertised addresses are multiaddresses. -/
def ValidAddresses (probed : Probed) (nodes : List Node) : Prop :=
  ∀ node ∈ nodes, ∀ address ∈ node.addresses,
    (probed.handler.codings.multiaddrOfBytes address).isSome

theorem mapM_isSome {f : α → Option β} {items : List α} :
    (items.mapM f).isSome ↔ ∀ item ∈ items, (f item).isSome := by
  induction items with
  | nil => simp
  | cons item rest inductionHypothesis =>
    rw [List.mapM_cons]
    cases first : f item with
    | none => simp [first]
    | some value =>
      cases others : rest.mapM f <;> simp_all

theorem describeNode_isSome {handler : Handler} {first : List UInt8} {rest : List (List UInt8)} :
    (handler.describeNode first rest).isSome ↔
      ∀ address ∈ first :: rest, (handler.codings.multiaddrOfBytes address).isSome := by
  rw [List.forall_mem_cons, ← mapM_isSome, Handler.describeNode]
  cases handler.codings.multiaddrOfBytes first <;>
    cases rest.mapM handler.codings.multiaddrOfBytes <;> simp

variable {probed : Probed} {payload : IdentifyPayload} {nodes : List Node}
  {session : Session}

theorem nodeReport_isSome {node : Node} (advertised : node.addresses ≠ []) :
    (nodeReport probed node).isSome ↔
      ∀ address ∈ node.addresses, (probed.handler.codings.multiaddrOfBytes address).isSome := by
  unfold nodeReport
  cases addresses : node.addresses with
  | nil => exact absurd addresses advertised
  | cons first rest => rw [Option.isSome_map, describeNode_isSome]

/-- With valid addresses the discovery branch runs to its end. -/
theorem receivedDiscovery_finishes {handler : Handler} {address : Multiaddr} {data : List UInt8}
    (decoded : handler.decoders.discovery data = some (.nodes nodes))
    (valid : ∀ node ∈ nodes, ∀ address ∈ node.addresses,
      (handler.codings.multiaddrOfBytes address).isSome) :
    finishes (handler.receivedDiscovery address data) = true := by
  rw [finishes, Handler.receivedDiscovery, decoded]
  apply (Program.forEach_finishes _).mpr
  intro node member
  cases addresses : node.addresses with
  | nil =>
    rw [Handler.reportNode, addresses]
    rfl
  | cons first rest =>
    have described : (handler.describeNode first rest).isSome :=
      describeNode_isSome.mpr (addresses ▸ valid node member)
    obtain ⟨metaInfo, same⟩ := Option.isSome_iff_exists.mp described
    rw [reportNode_some addresses same]
    rfl

/-- With valid addresses every advertised node is published. -/
theorem receivedDiscovery_reports (valid : ValidAddresses probed nodes)
    (decoded : probed.handler.decoders.discovery (probed.message .discovery) = some (.nodes nodes))
    {node : Node} (member : node ∈ nodes) (advertised : node.addresses ≠ []) :
    ∃ report, nodeReport probed node = some report ∧ report ∈ publishedBy
      (actions (probed.handler.receivedDiscovery probed.address (probed.message .discovery))) := by
  have finished : finishes (probed.handler.receivedDiscovery probed.address
      (probed.message .discovery)) = true :=
    receivedDiscovery_finishes decoded valid
  obtain ⟨report, reported⟩ :=
    Option.isSome_iff_exists.mp ((nodeReport_isSome advertised).mpr (valid node member))
  refine ⟨report, reported, ?_⟩
  cases addresses : node.addresses with
  | nil => exact absurd addresses advertised
  | cons first rest =>
    rw [nodeReport, addresses] at reported
    obtain ⟨metaInfo, described, rfl⟩ := Option.map_eq_some_iff.mp reported
    apply mem_publishedBy.mpr
    rw [finishes, Handler.receivedDiscovery, decoded] at finished
    rw [actions, Handler.receivedDiscovery, decoded]
    apply Program.calls_of_finishes _ finished member
    rw [reportNode_some addresses described]
    exact List.mem_cons_self

/-- The discovery message is still to come, and nothing ends the session before it. -/
def Waiting (session : Session) : Prop :=
  session.Running ∧ session.disconnecting = false ∧ .discovery ∈ session.undelivered

/-- How far a session has come after some events. -/
structure Progress (probed : Probed) (payload : IdentifyPayload) (nodes : List Node)
    (events : List SessionEvent) (session : Session) : Prop where
  online : onlineReport probed payload ∈ session.published ↔ .deliver .identify ∈ events
  reachable : .deliver .discovery ∈ events → ValidAddresses probed nodes →
    ∀ node ∈ nodes, node.addresses ≠ [] →
      ∃ report, nodeReport probed node = some report ∧ report ∈ session.published
  waiting : .deliver .discovery ∉ events → Waiting session

theorem progress_opened : Progress probed payload nodes [] Session.opened where
  online := by simp [Session.opened]
  reachable delivered := by simp at delivered
  waiting _ := ⟨by decide, rfl, by decide⟩

theorem step_deliver {protocol : SupportProtocol} {next : Session}
    (stepped : session.step probed (.deliver protocol) = some next) :
    (session.Running ∧ protocol ∈ session.undelivered) ∧ next = { session with
      undelivered := session.undelivered.erase protocol
      disconnecting := session.disconnecting || (actions (probed.handler.received probed.address
        (probed.message protocol) protocol)).contains .disconnect
      crashed := !finishes (probed.handler.received probed.address (probed.message protocol) protocol)
      published := session.published ++ publishedBy (actions (probed.handler.received
        probed.address (probed.message protocol) protocol)) } := by
  simp only [Session.step] at stepped
  split at stepped
  · rename_i enabled
    cases stepped
    exact ⟨enabled, rfl⟩
  · cases stepped

theorem step_close {next : Session} (stepped : session.step probed .close = some next) :
    (session.Running ∧ session.disconnecting = true) ∧
      next = { session with closed := true, undelivered := [] } := by
  simp only [Session.step] at stepped
  split at stepped
  · rename_i enabled
    cases stepped
    exact ⟨enabled, rfl⟩
  · cases stepped

/-- What an event has to publish and to keep for a session to make progress. -/
theorem Progress.extend {events : List SessionEvent} {event : SessionEvent} {next : Session}
    {fresh : List (String × String)} (progress : Progress probed payload nodes events session)
    (published : next.published = session.published ++ fresh)
    (online : onlineReport probed payload ∈ fresh ↔ event = .deliver .identify)
    (reachable : event = .deliver .discovery → ValidAddresses probed nodes →
      ∀ node ∈ nodes, node.addresses ≠ [] →
        ∃ report, nodeReport probed node = some report ∧ report ∈ fresh)
    (waiting : event ≠ .deliver .discovery → Waiting session → Waiting next) :
    Progress probed payload nodes (events ++ [event]) next := by
  constructor
  · rw [published, List.mem_append, List.mem_append, progress.online, online, List.mem_singleton]
    exact or_congr_right eq_comm
  · intro delivered valid node member advertised
    rw [published]
    rcases List.mem_append.mp delivered with earlier | last
    · obtain ⟨report, described, found⟩ := progress.reachable earlier valid node member advertised
      exact ⟨report, described, List.mem_append_left _ found⟩
    · obtain ⟨report, described, found⟩ :=
        reachable (List.mem_singleton.mp last).symm valid node member advertised
      exact ⟨report, described, List.mem_append_right _ found⟩
  · intro undelivered
    have before := progress.waiting fun delivered => undelivered (List.mem_append_left _ delivered)
    apply waiting _ before
    intro same
    exact undelivered (List.mem_append_right _ (List.mem_singleton.mpr same.symm))

theorem Progress.close {events : List SessionEvent} {next : Session}
    (progress : Progress probed payload nodes events session)
    (stepped : session.step probed .close = some next) :
    Progress probed payload nodes (events ++ [.close]) next := by
  obtain ⟨⟨_, disconnecting⟩, rfl⟩ := step_close stepped
  have silent : ({ session with closed := true, undelivered := [] } : Session).published =
      session.published ++ [] :=
    (List.append_nil _).symm
  apply progress.extend silent
  · simp
  · intro same
    cases same
  · intro _ waits
    rw [waits.2.1] at disconnecting
    cases disconnecting

theorem Progress.identify (wellFormed : WellFormed probed payload nodes) {events : List SessionEvent}
    {next : Session} (progress : Progress probed payload nodes events session)
    (stepped : session.step probed (.deliver .identify) = some next) :
    Progress probed payload nodes (events ++ [.deliver .identify]) next := by
  obtain ⟨⟨running, _⟩, rfl⟩ := step_deliver stepped
  obtain ⟨raw, framed, decoded⟩ := wellFormed.framed
  have welcome := wellFormed.welcome
  have acts : actions (probed.handler.received probed.address (probed.message .identify) .identify)
      = [.publish "peer/online" (onlineReport probed payload).2] := by
    rw [Handler.received, receivedIdentify_actions framed decoded, if_pos welcome]
    rfl
  have finished : finishes
      (probed.handler.received probed.address (probed.message .identify) .identify) = true := by
    rw [Handler.received, finishes, Handler.receivedIdentify, framed, Option.bind_some, decoded]
    simp only [welcome]
    rfl
  apply progress.extend rfl
  · simp [acts, publishedBy, onlineReport]
  · intro same
    cases same
  · intro _ waits
    obtain ⟨_, staying, waiting⟩ := waits
    refine ⟨⟨running.1, by simp [finished]⟩, by simp [acts, staying], ?_⟩
    exact (List.mem_erase_of_ne (by decide)).mpr waiting

/-- The discovery branch publishes no online report. -/
theorem Progress.discovery (wellFormed : WellFormed probed payload nodes) {events : List SessionEvent}
    {next : Session} (progress : Progress probed payload nodes events session)
    (stepped : session.step probed (.deliver .discovery) = some next) :
    Progress probed payload nodes (events ++ [.deliver .discovery]) next := by
  obtain ⟨_, rfl⟩ := step_deliver stepped
  apply progress.extend rfl
  · constructor
    · intro found
      obtain ⟨_, _, _, _, _, _, _, _, _, topic, _⟩ :=
        receivedDiscovery_publishes (mem_publishedBy.mp found)
      exact absurd topic (by decide)
    · intro same
      cases same
  · intro _ valid node member advertised
    exact receivedDiscovery_reports valid wellFormed.decoded member advertised
  · intro different
    exact absurd rfl different

theorem Progress.sync {events : List SessionEvent} {next : Session}
    (progress : Progress probed payload nodes events session)
    (stepped : session.step probed (.deliver .sync) = some next) :
    Progress probed payload nodes (events ++ [.deliver .sync]) next := by
  obtain ⟨⟨running, _⟩, rfl⟩ := step_deliver stepped
  apply progress.extend rfl
  · simp [Handler.received, actions, Program.calls, publishedBy]
  · intro same
    cases same
  · intro _ waits
    obtain ⟨_, staying, waiting⟩ := waits
    refine ⟨⟨running.1, rfl⟩, ?_, (List.mem_erase_of_ne (by decide)).mpr waiting⟩
    simp [Handler.received, actions, Program.calls, staying]

/-- Progress over a whole schedule. -/
theorem progress_run (wellFormed : WellFormed probed payload nodes) {schedule : List SessionEvent}
    (ran : Session.run probed schedule = some session) :
    Progress probed payload nodes schedule session := by
  induction schedule using List.reverseRecOn generalizing session with
  | nil =>
    cases ran
    exact progress_opened
  | append_singleton events event inductionHypothesis =>
    rw [Session.run, List.foldlM_append] at ran
    obtain ⟨earlier, first, last⟩ := Option.bind_eq_some_iff.mp ran
    have stepped : earlier.step probed event = some session := by simpa using last
    have progress := inductionHypothesis first
    cases event with
    | close => exact progress.close stepped
    | deliver protocol =>
      cases protocol with
      | identify => exact progress.identify wellFormed stepped
      | discovery => exact progress.discovery wellFormed stepped
      | sync => exact progress.sync stepped

/-- A session that is over has reported everything exactly when Identify was
delivered before a disconnect took effect and every address is valid. -/
theorem session_reports (wellFormed : WellFormed probed payload nodes)
    {schedule : List SessionEvent} (ran : Session.run probed schedule = some session)
    (ended : session.Over) :
    Reported probed payload nodes session ↔
      .deliver .identify ∈ schedule ∧ ValidAddresses probed nodes := by
  have progress := progress_run wellFormed ran
  have delivered : .deliver .discovery ∈ schedule := by
    by_contra undelivered
    obtain ⟨running, _, waiting⟩ := progress.waiting undelivered
    rcases ended with stopped | nothing
    · exact stopped running
    · rw [nothing] at waiting
      cases waiting
  constructor
  · intro reported
    refine ⟨progress.online.mp reported.online, fun node member address listed => ?_⟩
    have advertised : node.addresses ≠ [] := List.ne_nil_of_mem listed
    obtain ⟨report, described, _⟩ := reported.reachable node member advertised
    have present : (nodeReport probed node).isSome := by rw [described]; rfl
    exact (nodeReport_isSome advertised).mp present address listed
  · intro ⟨identified, valid⟩
    exact ⟨progress.online.mpr identified, progress.reachable delivered valid⟩

def sampleProbed : Probed where
  handler := ⟨sampleCodings, sampleDecoders, sampleSerde, .mirana⟩
  address := sampleAddress
  message
    | .identify => sampleIdentifyMessage
    | _ => sampleDiscoveryMessage

theorem sampleProbed_wellFormed : WellFormed sampleProbed ⟨[0x30, 0x2e, 0x31], 0b10⟩ [sampleNode] where
  framed := ⟨sampleIdentify, by simp [sampleProbed, sampleDecoders], by simp [sampleProbed, sampleDecoders]⟩
  decoded := by simp [sampleProbed, sampleDecoders]
  welcome := by decide
  advertised := ⟨sampleNode, by simp, by decide⟩

/-- The discovery message comes first and the session ends before Identify is heard. -/
theorem discovery_first_unreported : WellFormed sampleProbed ⟨[0x30, 0x2e, 0x31], 0b10⟩ [sampleNode] ∧
    ∃ session, Session.run sampleProbed [.deliver .discovery, .close] = some session ∧
      session.Over ∧ onlineReport sampleProbed ⟨[0x30, 0x2e, 0x31], 0b10⟩ ∉ session.published := by
  refine ⟨sampleProbed_wellFormed, ?_⟩
  have ran : (Session.run sampleProbed [.deliver .discovery, .close]).any fun session =>
      decide session.Over := by
    decide
  obtain ⟨session, same, ended⟩ := (Option.any_eq_true _ _).mp ran
  refine ⟨session, same, of_decide_eq_true ended, fun online => ?_⟩
  have delivered := (progress_run sampleProbed_wellFormed same).online.mp online
  exact absurd delivered (by decide)

theorem session_reports_identify_first :
    ∃ session, Session.run sampleProbed [.deliver .identify, .deliver .discovery, .close] =
        some session ∧
      Reported sampleProbed ⟨[0x30, 0x2e, 0x31], 0b10⟩ [sampleNode] session := by
  have ran : (Session.run sampleProbed [.deliver .identify, .deliver .discovery, .close]).any
      fun session => decide session.Over := by
    decide +kernel
  obtain ⟨session, same, ended⟩ := (Option.any_eq_true _ _).mp ran
  have reports := session_reports sampleProbed_wellFormed same (of_decide_eq_true ended)
  have valid : ValidAddresses sampleProbed [sampleNode] := by
    intro node member address listed
    obtain rfl := List.mem_singleton.mp member
    obtain rfl : address = sampleAddressBytes := List.mem_singleton.mp listed
    simp [sampleProbed, sampleCodings]
  exact ⟨session, same, reports.mpr ⟨by decide, valid⟩⟩

end CkbDiscovery.Dialer
