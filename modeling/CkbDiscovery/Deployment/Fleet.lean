import CkbDiscovery.Deployment.Endpoints
import CkbDiscovery.Dialer.Service

/-! The deployment with the sessions of its dialers: handlers are called for
the addresses that were dialed, and what is dialed are the bootnodes and the
peers that Marci asks for. -/

namespace CkbDiscovery.Deployment

open Effect Dialer Marci
open Relation (ReflTransGen ReflGen)

/-- The dials made so far, and those that the service has reported to fail. -/
structure Fleet where
  system : System
  dialed : List Dial
  failed : List Dial

def Fleet.opened (now : Nat) : Fleet := ⟨.opened now, [], []⟩

/-- There are sessions with dialed addresses only, as the dialers never listen. -/
def Occurs (fleet : Fleet) (network : CKBNetworkType) : ServiceEvent → Prop
  | .connected _ address => ⟨network, address⟩ ∈ fleet.dialed
  | .received _ address _ => ⟨network, address⟩ ∈ fleet.dialed
  | .error (.dialerError address) => ⟨network, address⟩ ∈ fleet.dialed
  | _ => True

def receiptOf (network : CKBNetworkType) : ServiceEvent → List Receipt
  | .received protocol address data => [⟨network, address, protocol, data⟩]
  | _ => []

def failureOf (network : CKBNetworkType) : ServiceEvent → List Dial
  | .error (.dialerError address) => [⟨network, address⟩]
  | _ => []

variable (parties : Parties) (encoders : Encoders)

/-- A handler is called for an event; the service may reply to it in any way. -/
def Fleet.serve (fleet : Fleet) (network : CKBNetworkType) (event : ServiceEvent)
    (replies : (action : ServiceAction) → action.Reply) : Fleet :=
  let actions := ((parties.handler network).serve encoders event).calls replies
  { system := { fleet.system with
      received := receiptOf network event ++ fleet.system.received
      broker := publishedBy (probedBy actions) ++ fleet.system.broker }
    dialed := (dialedBy actions).map (Dial.mk network) ++ fleet.dialed
    failed := failureOf network event ++ fleet.failed }

/-- The topics that the programs of the deployment publish on. -/
def ownTopics : List String := ["peer/online", "peer/reachable", "peer/unknown", "peer/needs_dial"]

/-- Marci takes its turns as before; others are heard on other topics only. -/
inductive Move : Fleet → Fleet → Prop where
  | serve (built : network ∈ builtNetworks) (occurs : Occurs fleet network event) :
      Move fleet (fleet.serve parties encoders network event replies)
  | redial (pending : Pending fleet.system payload) :
      Move fleet { fleet with dialed := dials parties.codings parties.serde payload ++ fleet.dialed }
  | foreign (outside : topic ∉ ownTopics) :
      Move fleet { fleet with
        system := { fleet.system with broker := (topic, payload) :: fleet.system.broker } }
  | turn (running : fleet.system.marci = some before) (delivered : Delivered parties fleet.system message)
      (completes : HandlerCompletes before (handle parties.config parties.serde message) trace after ()) :
      Move fleet { fleet with
        system := { fleet.system with
          broker := published trace ++ fleet.system.broker
          turns := ⟨message, trace⟩ :: fleet.system.turns
          marci := some after } }
  | abort (running : fleet.system.marci = some before) (delivered : Delivered parties fleet.system message)
      (reaches : Reaches world before (handle parties.config parties.serde message) trace after) :
      Move fleet { fleet with
        system := { fleet.system with
          broker := published trace ++ fleet.system.broker
          marci := none } }

def FleetReachable (now : Nat) (fleet : Fleet) : Prop :=
  ReflTransGen (Move parties encoders) (.opened now) fleet

variable {parties encoders} {fleet next : Fleet} {now : Nat} {network : CKBNetworkType}
  {event : ServiceEvent} {replies : (action : ServiceAction) → action.Reply}

/-- What a handler is called for is a message received, a report of a failed
dial, or no matter for the broker. -/
theorem serve_refines (built : network ∈ builtNetworks) :
    ReflGen (Step parties) fleet.system (fleet.serve parties encoders network event replies).system := by
  dsimp only [Fleet.serve]
  rw [probedBy_serve]
  cases event with
  | received protocol address data => exact .single (.receive built)
  | error error =>
    cases error with
    | dialerError address => exact .single (.foreign (by decide) (by decide))
    | _ => exact .refl
  | _ => exact .refl

/-- Every move is at most one step of the deployment without sessions. -/
theorem Move.refines (move : Move parties encoders fleet next) :
    ReflGen (Step parties) fleet.system next.system := by
  cases move with
  | serve built occurs => exact serve_refines built
  | redial pending => exact .refl
  | foreign outside =>
    refine .single (.foreign ?_ ?_)
    · rintro rfl
      exact outside (by decide)
    · rintro rfl
      exact outside (by decide)
  | turn running delivered completes => exact .single (.turn running delivered completes)
  | abort running delivered reaches => exact .single (.abort running delivered reaches)

theorem FleetReachable.system (reachable : FleetReachable parties encoders now fleet) :
    Reachable parties now fleet.system :=
  ReflTransGen.lift' Fleet.system
    (fun _ _ (move : Move parties encoders _ _) => move.refines.to_reflTransGen) _ _ reachable

variable (parties)

/-- The receipt was a list of nodes, one of which has this id in its first address. -/
def Receipt.Names (receipt : Receipt) (peerId : String) : Prop :=
  ∃ first rest addr, receipt.Lists parties first rest ∧
    parties.codings.multiaddrOfBytes first = some addr ∧ addrToPeerId parties.codings addr = peerId

/-- One peer told the deployment of another, on the network of both. -/
def Tells (system : System) (network : CKBNetworkType) (teller peerId : String) : Prop :=
  ∃ receipt ∈ system.received, receipt.network = network ∧
    addrToPeerId parties.codings receipt.address = teller ∧ receipt.Names parties peerId

def Bootnode (network : CKBNetworkType) (peerId : String) : Prop :=
  ∃ text ∈ bootnodes network, ∃ addr, parties.codings.multiaddrOfText text = some addr ∧
    addrToPeerId parties.codings addr = peerId

/-- There is a chain of peers, each told of by the one before, from a bootnode. -/
def Known (system : System) (network : CKBNetworkType) (peerId : String) : Prop :=
  ∃ bootnode, Bootnode parties network bootnode ∧
    ReflTransGen (Tells parties system network) bootnode peerId

/-- What the crawl has touched is known. -/
structure Crawled (fleet : Fleet) : Prop where
  reached : ∀ dial ∈ fleet.dialed, dial.controller ∈ builtNetworks ∧
    Known parties fleet.system dial.controller (addrToPeerId parties.codings dial.address)
  sessions : ∀ receipt ∈ fleet.system.received, ⟨receipt.network, receipt.address⟩ ∈ fleet.dialed
  failures : ∀ dial ∈ fleet.failed, dial ∈ fleet.dialed

variable {parties}

theorem Known.mono {earlier later : System} {peerId : String} (known : Known parties earlier network peerId)
    (kept : earlier.received ⊆ later.received) : Known parties later network peerId := by
  obtain ⟨bootnode, listed, chain⟩ := known
  refine ⟨bootnode, listed, ReflTransGen.mono ?_ _ _ chain⟩
  rintro teller told ⟨receipt, member, rest⟩
  exact ⟨receipt, kept member, rest⟩

/-- Whom a known peer tells of is known. -/
theorem Known.tell {system : System} {teller peerId : String} (known : Known parties system network teller)
    (tells : Tells parties system network teller peerId) : Known parties system network peerId := by
  obtain ⟨bootnode, listed, chain⟩ := known
  exact ⟨bootnode, listed, chain.tail tells⟩

theorem Crawled.teller (crawled : Crawled parties fleet) {receipt : Receipt}
    (member : receipt ∈ fleet.system.received) :
    Known parties fleet.system receipt.network (addrToPeerId parties.codings receipt.address) :=
  (crawled.reached _ (crawled.sessions receipt member)).2

theorem Crawled.told (crawled : Crawled parties fleet) {receipt : Receipt} {peerId : String}
    (member : receipt ∈ fleet.system.received) (names : receipt.Names parties peerId) :
    Known parties fleet.system receipt.network peerId :=
  (crawled.teller member).tell ⟨receipt, member, rfl, rfl, names⟩

/-- The address built for a peer carries the peer's own id. -/
theorem Origin.identified (assumed : Assumed parties) (reassembles : Reassembles parties.codings)
    {system : System} {peerId : String} {endpoint : EndpointInfo} {addr : Multiaddr}
    (origin : Origin parties system peerId endpoint)
    (parsed : parties.codings.multiaddrOfText (endpointText endpoint peerId) = some addr) :
    addrToPeerId parties.codings addr = peerId := by
  obtain ⟨_, _, _, _, _, own, named, spelled, _, _, _, read, rfl⟩ := origin.listed
  rw [addrToPeerId_eq] at spelled
  cases last : own.lastId with
  | none =>
    rw [last] at spelled
    obtain rfl : peerId = "" := spelled
    rw [assumed.nameless] at parsed
    cases parsed
  | some id =>
    rw [last] at spelled
    obtain rfl : peerId = parties.codings.bs58Encode id := spelled
    rw [reassembles named (Multiaddr.mem_of_lastId last) read] at parsed
    obtain rfl := Option.some.inj parsed
    cases (addrToEndpoint _).address <;> rfl

/-- What Marci asks for is dialed on the network of a peer that told of it. -/
theorem Crawled.requested (assumed : Assumed parties) (reassembles : Reassembles parties.codings)
    (crawled : Crawled parties fleet) (reachable : Reachable parties now fleet.system)
    {payload : String} (pending : Pending fleet.system payload) {dial : Dial}
    (dialed : dial ∈ dials parties.codings parties.serde payload) :
    dial.controller ∈ builtNetworks ∧
      Known parties fleet.system dial.controller (addrToPeerId parties.codings dial.address) := by
  obtain ⟨peer, read, origins⟩ := pending_origins assumed reachable pending
  have built := pending_built assumed reachable pending read
  obtain ⟨controller, returned⟩ := mem_dials read built dialed
  obtain ⟨endpoint, listed, _, parsed⟩ := mem_metaInfoToAddr.mp returned
  rw [controller, (origins endpoint listed).identified assumed reassembles parsed]
  refine ⟨built, ?_⟩
  obtain ⟨original, rfl, report, relayed, same, network⟩ :=
    ((reachable_provenance assumed reachable).sourced pending).needsDial rfl
  rw [assumed.requests original] at read
  obtain rfl := Option.some.inj read
  obtain ⟨receipt, member, _, protocol, nodes, decoded, node, present, first, rest, addresses,
    described⟩ := relayed
  obtain ⟨addr, first_parsed, spelled, ofHandler⟩ := describeNode_parts described
  have origin : receipt.network = original.network := ofHandler.symm.trans network
  rw [← origin]
  exact crawled.told member ⟨first, rest, addr, ⟨protocol, nodes, decoded, node, present, addresses⟩,
    first_parsed, spelled.symm.trans same⟩

theorem crawled_opened : Crawled parties (.opened now) where
  reached _ member := by cases member
  sessions _ member := by cases member
  failures _ member := by cases member

/-- An event happens to a dialed address, and makes the handler dial bootnodes. -/
theorem Crawled.serve (crawled : Crawled parties fleet) (built : network ∈ builtNetworks)
    (occurs : Occurs fleet network event) :
    Crawled parties (fleet.serve parties encoders network event replies) := by
  have kept : fleet.system.received ⊆ receiptOf network event ++ fleet.system.received :=
    List.subset_append_right _ _
  constructor
  · intro dial member
    rcases List.mem_append.mp member with fresh | old
    · obtain ⟨address, dialed, rfl⟩ := List.mem_map.mp fresh
      obtain ⟨text, listed, parsed⟩ := dialedBy_serve dialed
      exact ⟨built, _, ⟨text, listed, address, parsed, rfl⟩, .refl⟩
    · obtain ⟨ofBuilt, known⟩ := crawled.reached dial old
      exact ⟨ofBuilt, known.mono kept⟩
  · intro receipt member
    apply List.mem_append_right
    rcases List.mem_append.mp member with fresh | old
    · cases event with
      | received protocol address data =>
        obtain rfl := List.mem_singleton.mp fresh
        exact occurs
      | _ => cases fresh
    · exact crawled.sessions receipt old
  · intro dial member
    apply List.mem_append_right
    rcases List.mem_append.mp member with fresh | old
    · cases event with
      | error error =>
        cases error with
        | dialerError address =>
          obtain rfl := List.mem_singleton.mp fresh
          exact occurs
        | _ => cases fresh
      | _ => cases fresh
    · exact crawled.failures dial old

/-- A move that neither dials nor receives. -/
theorem Crawled.same (crawled : Crawled parties fleet) (received : next.system.received = fleet.system.received)
    (dialed : next.dialed = fleet.dialed) (failed : next.failed = fleet.failed) : Crawled parties next := by
  constructor
  · intro dial member
    rw [dialed] at member
    obtain ⟨built, known⟩ := crawled.reached dial member
    exact ⟨built, known.mono (by rw [received]; exact List.Subset.refl _)⟩
  · rw [received, dialed]
    exact crawled.sessions
  · rw [failed, dialed]
    exact crawled.failures

theorem Crawled.move (assumed : Assumed parties) (reassembles : Reassembles parties.codings)
    (reachable : Reachable parties now fleet.system) (crawled : Crawled parties fleet)
    (move : Move parties encoders fleet next) : Crawled parties next := by
  cases move with
  | serve built occurs => exact crawled.serve built occurs
  | redial pending =>
    constructor
    · intro dial member
      rcases List.mem_append.mp member with fresh | old
      · exact crawled.requested assumed reassembles reachable pending fresh
      · exact crawled.reached dial old
    · exact fun receipt member => List.mem_append_right _ (crawled.sessions receipt member)
    · exact fun dial member => List.mem_append_right _ (crawled.failures dial member)
  | foreign outside => exact crawled.same rfl rfl rfl
  | turn running delivered completes => exact crawled.same rfl rfl rfl
  | abort running delivered reaches => exact crawled.same rfl rfl rfl

theorem reachable_crawled (assumed : Assumed parties) (reassembles : Reassembles parties.codings)
    (reachable : FleetReachable parties encoders now fleet) : Crawled parties fleet := by
  induction reachable with
  | refl => exact crawled_opened
  | tail reached move inductionHypothesis =>
    exact inductionHypothesis.move assumed reassembles (FleetReachable.system reached) move

/-! Moves to replay, with a service that does whatever it is asked. -/

deriving instance DecidableEq for Dial

inductive Deed where
  | serve (network : CKBNetworkType) (event : ServiceEvent)
  | redial (payload : String)
  | hear (pause : Nat) (topic payload : String)
  | tick (pause : Nat)

def obliging : (action : ServiceAction) → action.Reply
  | .dial _ => ()
  | .setServiceNotify .. => .ok ()
  | .sendMessage _ => ()
  | .probe _ => ()

instance (fleet : Fleet) (network : CKBNetworkType) (event : ServiceEvent) :
    Decidable (Occurs fleet network event) := by
  unfold Occurs
  split <;> infer_instance

namespace Fleet

variable (parties encoders) (surroundings : Surroundings)

def takeTurn (fleet : Fleet) (pause : Nat) (message : Marci.Message) : Option Fleet :=
  fleet.system.marci.bind fun before =>
    ((handle parties.config parties.serde message).replay (respond surroundings) (before.wait pause)).map
      fun turn => { fleet with
        system := { fleet.system with
          broker := published turn.1 ++ fleet.system.broker
          turns := ⟨message, turn.1⟩ :: fleet.system.turns
          marci := some turn.2.1 } }

def perform (fleet : Fleet) : Deed → Option Fleet
  | .serve network event =>
    if network ∈ builtNetworks ∧ Occurs fleet network event then
      some (fleet.serve parties encoders network event obliging)
    else none
  | .redial payload =>
    if fleet.system.broker.contains ("peer/needs_dial", payload) then
      some { fleet with dialed := dials parties.codings parties.serde payload ++ fleet.dialed }
    else none
  | .hear pause topic payload =>
    if fleet.system.broker.contains (topic, payload) then
      (subscribed parties.serde topic payload).bind (fleet.takeTurn parties surroundings pause)
    else none
  | .tick pause => fleet.takeTurn parties surroundings pause .tick

def replay (now : Nat) (deeds : List Deed) : Option Fleet :=
  deeds.foldlM (perform parties encoders surroundings) (.opened now)

variable {parties encoders surroundings}

theorem takeTurn_move {pause : Nat} {message : Marci.Message}
    (delivered : Delivered parties fleet.system message)
    (taken : fleet.takeTurn parties surroundings pause message = some next) :
    Move parties encoders fleet next := by
  obtain ⟨before, running, replayed⟩ := Option.bind_eq_some_iff.mp taken
  obtain ⟨⟨trace, after, _⟩, same, rfl⟩ := Option.map_eq_some_iff.mp replayed
  have completes := Completes.of_replay (respond_faithful surroundings) same
  exact .turn running delivered (completes.drift_left (wait_drifts pause before))

theorem perform_move {deed : Deed} (performed : fleet.perform parties encoders surroundings deed = some next) :
    Move parties encoders fleet next := by
  cases deed with
  | serve network event =>
    obtain ⟨⟨built, occurs⟩, same⟩ := Option.ite_none_right_eq_some.mp performed
    cases same
    exact .serve built occurs
  | redial payload =>
    obtain ⟨pending, same⟩ := Option.ite_none_right_eq_some.mp performed
    cases same
    exact .redial (List.contains_iff_mem.mp pending)
  | hear pause topic payload =>
    obtain ⟨sent, heard⟩ := Option.ite_none_right_eq_some.mp performed
    obtain ⟨message, read, taken⟩ := Option.bind_eq_some_iff.mp heard
    exact takeTurn_move (.inr ⟨topic, payload, List.contains_iff_mem.mp sent, read⟩) taken
  | tick pause => exact takeTurn_move (.inl rfl) performed

theorem replay_reachable {deeds : List Deed}
    (replayed : replay parties encoders surroundings now deeds = some fleet) :
    FleetReachable parties encoders now fleet := by
  induction deeds using List.reverseRecOn generalizing fleet with
  | nil =>
    cases replayed
    exact .refl
  | append_singleton deeds deed inductionHypothesis =>
    rw [replay, List.foldlM_append] at replayed
    obtain ⟨earlier, first, last⟩ := Option.bind_eq_some_iff.mp replayed
    have performed : earlier.perform parties encoders surroundings deed = some fleet := by simpa using last
    exact (inductionHypothesis first).tail (perform_move performed)

end Fleet

end CkbDiscovery.Deployment
