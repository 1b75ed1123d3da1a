import CkbDiscovery.Effect.Pipeline
import CkbDiscovery.Marci.Served

/-! From the broker's stream to the loop: one task reads the stream and feeds
three bounded channels, and the loop takes from them and from its timer. -/

namespace CkbDiscovery.Marci

open Effect Redis
open Relation (ReflTransGen)

inductive Channel where
  | online
  | reachable
  | unknown
  deriving DecidableEq

instance : Fintype Channel where
  elems := {.online, .reachable, .unknown}
  complete channel := by cases channel <;> decide

def Channel.capacity : Channel → Nat
  | .online => 100
  | .reachable => 500
  | .unknown => 100

/-- What the reading task does with a topic and a payload. -/
def receive (serde : Serde) (delivery : String × String) : Option (Channel × Message) :=
  match delivery.1 with
  | "peer/online" => (serde.peerInfo.fromStr delivery.2).map fun peer => (.online, .online peer)
  | "peer/online2" => (serde.peerInfo.fromStr delivery.2).map fun peer => (.online, .online peer)
  | "peer/reachable" =>
    (serde.reachableInfo.fromStr delivery.2).map fun peer => (.reachable, .reachable peer)
  | "peer/unknown" => (serde.nodeMetaInfo.fromStr delivery.2).map fun peer => (.unknown, .unknown peer)
  | _ => none

def intake (serde : Serde) : Routing (String × String) Channel Message where
  route := receive serde
  capacity := Channel.capacity
  timer message := message = .tick

abbrev Intake := Pipeline (String × String) Channel Message State MarciCall.Reply

abbrev Intake.Advance (config : Config) (serde : Serde) : Intake → Intake → Prop :=
  Effect.Advance (intake serde) world (handle config serde)

abbrev Intake.Internal (config : Config) (serde : Serde) : Intake → Intake → Prop :=
  Effect.Internal (intake serde) world (handle config serde)

variable {config : Config} {serde : Serde} {line : Intake} {now : Nat}

theorem receive_subscribed (topic payload : String) :
    (receive serde (topic, payload)).map Prod.snd = subscribed serde topic payload := by
  unfold receive subscribed
  split <;> simp_all <;> rfl

/-- The channel that a message comes through; ticks come through none. -/
def Message.channel? : Message → Option Channel
  | .online _ => some .online
  | .unknown _ => some .unknown
  | .reachable _ => some .reachable
  | .tick => none

theorem receive_channel {delivery : String × String} {channel : Channel} {message : Message}
    (received : receive serde delivery = some (channel, message)) : message.channel? = some channel := by
  unfold receive at received
  split at received
  case h_5 => cases received
  all_goals
    obtain ⟨peer, _, same⟩ := Option.map_eq_some_iff.mp received
    cases same
    rfl

theorem intake_kinds (serde : Serde) : (intake serde).Kinds Message.channel? where
  routed := receive_channel
  timed tick := by
    cases tick
    rfl

/-- The messages for a channel that the deliveries carry. -/
def heard (serde : Serde) (deliveries : List (String × String)) (channel : Channel) : List Message :=
  (deliveries.filterMap fun delivery => subscribed serde delivery.1 delivery.2).filter
    fun message => message.channel? = some channel

/-- The messages of a channel that the loop has handled, oldest first. -/
def handledOn (turns : List MarciTurn) (channel : Channel) : List Message :=
  (turns.map Turn.message).reverse.filter fun message => message.channel? = some channel

theorem expected_heard (serde : Serde) (deliveries : List (String × String)) (channel : Channel) :
    (intake serde).expected deliveries channel = heard serde deliveries channel := by
  induction deliveries with
  | nil => rfl
  | cons delivery rest inductionHypothesis =>
    rw [expected_cons, inductionHypothesis, heard, heard, List.filterMap_cons,
      ← receive_subscribed delivery.1 delivery.2]
    change (receive serde delivery).toList.filterMap (pick channel) ++ _ = _
    cases received : receive serde delivery with
    | none => rfl
    | some entry =>
      have kind := receive_channel received
      by_cases same : entry.1 = channel
      · simp [pick, kind, same]
      · simp [pick, kind, same]

/-- The message in hand, if it came through the channel. -/
def Intake.working (line : Intake) (channel : Channel) : List Message :=
  line.busy.toList.filter fun message => message.channel? = some channel

/-- Messages that are in the process and not yet handled. -/
def Intake.pending (line : Intake) (channel : Channel) : List Message :=
  Intake.working line channel ++ line.queue channel ++ line.heldFor channel

theorem pending_total (conserved : Conserved (intake serde) world (handle config serde) start line) :
    (Intake.pending line .online).length + (Intake.pending line .reachable).length +
      (Intake.pending line .unknown).length ≤ 702 := by
  have online : (line.queue .online).length ≤ 100 := conserved.bounded .online
  have reachable : (line.queue .reachable).length ≤ 500 := conserved.bounded .reachable
  have unknown : (line.queue .unknown).length ≤ 100 := conserved.bounded .unknown
  have busy : (Intake.working line .online).length + (Intake.working line .reachable).length +
      (Intake.working line .unknown).length ≤ 1 := by
    simp only [Intake.working]
    cases line.busy with
    | none => simp
    | some message => cases message <;> simp [Message.channel?]
  have held : (line.heldFor .online).length + (line.heldFor .reachable).length +
      (line.heldFor .unknown).length ≤ 1 := by
    simp only [Pipeline.heldFor]
    cases line.holding with
    | none => simp
    | some entry =>
      obtain ⟨channel, message⟩ := entry
      cases channel <;> simp [pick]
  simp only [Intake.pending, List.length_append]
  omega

/-- Whatever it takes up in a fit state, the loop can handle it. -/
theorem handlers_able (config : Config) (serde : Serde) :
    Able world (handle config serde) (Fit config) where
  completes message fit := by
    have safe : Safe config (handle config serde message) := safe_handle fit.small message
    obtain ⟨trace, after, _, completes, still⟩ := Program.Assured.completes safe
      (fun question fit fits => Fit.answerable fit question fits) fit
    exact ⟨trace, after, completes, still⟩

theorem room_intake (serde : Serde) (channel : Channel) : 0 < (intake serde).capacity channel := by
  cases channel <;> exact Nat.zero_lt_succ _

theorem intake_drains (serde : Serde) (fit : Fit config line.state) :
    ∃ rested, ReflTransGen (Intake.Internal config serde) line rested ∧ rested.Drained := by
  obtain ⟨rested, work, drained, _⟩ := drains (handlers_able config serde) (room_intake serde) fit
  exact ⟨rested, work, drained⟩

/-- A report as it comes from the broker. -/
def relayedReport : ReachableInfo := ⟨⟨"Qm", [], .mirana⟩, ⟨"Qr", [], .mirana⟩⟩

def relayedText : String :=
  "\x7b\"peer\":\x7b\"peer_id\":\"Qm\",\"addresses\":[],\"network\":\"Mirana\"\x7d," ++
    "\"from\":\x7b\"peer_id\":\"Qr\",\"addresses\":[],\"network\":\"Mirana\"\x7d\x7d"

def relayedSerde : Serde :=
  { Serde.unary with reachableInfo := Codec.patch (.unary _) relayedReport relayedText }

/-- The process right after it has come in. -/
def relayedLine : Intake :=
  { (Pipeline.opened (.initial 0) : Intake) with
    arrived := [("peer/reachable", relayedText)]
    inbox := [("peer/reachable", relayedText)] }

theorem relayedLine_reachable :
    ReflTransGen (Intake.Advance sampleConfig relayedSerde) (.opened (.initial 0)) relayedLine :=
  .single .arrive

theorem relayedLine_fit : Fit sampleConfig relayedLine.state :=
  ⟨typed_empty 0, sampleConfig_timely (Nat.zero_le _)⟩

theorem heard_relayed : heard relayedSerde relayedLine.arrived .reachable = [.reachable relayedReport] := by
  have parsed : relayedSerde.reachableInfo.fromStr relayedText = some relayedReport := by
    simp [relayedSerde, Codec.patch]
  have read : subscribed relayedSerde "peer/reachable" relayedText = some (.reachable relayedReport) := by
    change (relayedSerde.reachableInfo.fromStr relayedText).map Message.reachable = _
    rw [parsed]
    rfl
  change List.filter _ (List.filterMap _ [("peer/reachable", relayedText)]) = _
  rw [List.filterMap_cons, read]
  rfl

/-- What arrives is handled exactly once, and in its order on each channel. At
most 702 messages are in the process at any time, besides those not read yet. -/
theorem intake_exact
    (reachable : ReflTransGen (Intake.Advance config serde) (.opened (.initial now)) line) :
    MarciRun config serde (.initial now) line.turns line.state ∧
      (∀ channel, heard serde line.arrived channel =
        handledOn line.turns channel ++ Intake.pending line channel ++ heard serde line.inbox channel) ∧
      (Intake.pending line .online).length + (Intake.pending line .reachable).length +
        (Intake.pending line .unknown).length ≤ 702 := by
  have conserved := reachable_conserved reachable
  have sorted := reachable_sorted (intake_kinds serde) reachable
  refine ⟨conserved.run, fun channel => ?_, pending_total conserved⟩
  rw [← expected_heard, conserved.ordered, sorted.takenFrom, conserved.handled, List.filter_append,
    expected_heard, Intake.pending, Intake.working, handledOn]
  simp only [List.append_assoc]

/-- The report has been handled, once, by the time the process is at rest. -/
theorem intake_exact_relayed : ∃ line, ReflTransGen (Intake.Advance sampleConfig relayedSerde) (.opened (.initial 0)) line ∧
    MarciRun sampleConfig relayedSerde (.initial 0) line.turns line.state ∧
    line.Drained ∧ handledOn line.turns .reachable = [.reachable relayedReport] := by
  obtain ⟨rested, work, drained⟩ :=
    intake_drains relayedSerde relayedLine_fit
  have reachable := relayedLine_reachable.trans (ReflTransGen.mono (fun _ _ => Advance.work) _ _ work)
  obtain ⟨run, exact, _⟩ := intake_exact reachable
  have heardAll := exact .reachable
  rw [internal_arrived work, heard_relayed] at heardAll
  refine ⟨rested, reachable, run, drained, ?_⟩
  simpa [Intake.pending, Intake.working, Pipeline.heldFor, drained.busy, drained.queue, drained.holding,
    drained.inbox, heard] using heardAll.symm

/-- The process never blocks itself and comes to rest by itself, and then all
that has arrived is handled. -/
theorem intake_rests
    (reachable : ReflTransGen (Intake.Advance config serde) (.opened (.initial now)) line)
    (timely : config.Timely line.state.redis.now) :
    (¬ line.Drained → ∃ next, Intake.Internal config serde line next) ∧
      (∀ next, Intake.Internal config serde line next → next.weight < line.weight) ∧
      ∃ rested, ReflTransGen (Intake.Internal config serde) line rested ∧ rested.Drained ∧
        ∀ channel, heard serde line.arrived channel = handledOn rested.turns channel := by
  have conserved := reachable_conserved reachable
  have small : config.ckbNodeDefaultTimeout.toNat < 2 ^ 63 := by
    have := timely.onlineDeadline
    omega
  have fit : Fit config line.state := ⟨run_typed small conserved.run (typed_empty now), timely⟩
  refine ⟨fun undrained => ?_, fun next internal => internal.lighter, ?_⟩
  · refine internal_of_undrained (room_intake serde) (fun message _ => ?_) undrained
    obtain ⟨trace, after, completes, _⟩ := (handlers_able config serde).completes message fit
    exact ⟨trace, after, completes⟩
  · obtain ⟨rested, work, drained⟩ := intake_drains serde fit
    have later := reachable.trans (ReflTransGen.mono (fun _ _ => Advance.work) _ _ work)
    have sorted := reachable_sorted (intake_kinds serde) later
    obtain ⟨taken, handled⟩ := (reachable_conserved later).rested drained
    refine ⟨rested, work, drained, fun channel => ?_⟩
    rw [← internal_arrived work, ← expected_heard, taken, sorted.takenFrom, handled, handledOn]

/-- From the delivery on the report is handled without any further delivery. -/
theorem intake_rests_relayed : ∃ line rested, ReflTransGen (Intake.Advance sampleConfig relayedSerde) (.opened (.initial 0)) line ∧
    ¬ line.Drained ∧ ReflTransGen (Intake.Internal sampleConfig relayedSerde) line rested ∧ rested.Drained ∧
    handledOn rested.turns .reachable = [.reachable relayedReport] := by
  obtain ⟨_, _, rested, work, drained, handled⟩ :=
    intake_rests relayedLine_reachable relayedLine_fit.timely
  refine ⟨relayedLine, rested, relayedLine_reachable, fun rests => ?_, work, drained, ?_⟩
  · cases rests.inbox
  · rw [← handled, heard_relayed]

end CkbDiscovery.Marci
