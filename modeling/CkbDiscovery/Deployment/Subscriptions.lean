import Mathlib.Data.List.Basic
import Mathlib.Data.List.Induction
import Mathlib.Data.List.TakeWhile

/-! The connection of a program to the broker: it subscribes once, on start-up,
and its connection may be lost and made again any number of times. -/

namespace CkbDiscovery.Deployment

structure ConnectOptions where
  cleanStart : Bool
  automaticReconnect : Bool

/-- One client at the broker. -/
structure Link where
  connected : Bool
  subscriptions : List String

namespace Link

/-- A clean start discards the session that the broker has kept. -/
def connect (options : ConnectOptions) (link : Link) : Link where
  connected := true
  subscriptions := if options.cleanStart then [] else link.subscriptions

def subscribe (topics : List String) (link : Link) : Link :=
  { link with subscriptions := link.subscriptions ++ topics }

def lose (link : Link) : Link := { link with connected := false }

end Link

/-- How a program connects, and the topics its receive loop handles. -/
structure Subscriber where
  options : ConnectOptions
  topics : List String

def marciClient : Subscriber where
  options := { cleanStart := true, automaticReconnect := true }
  topics := ["peer/online", "peer/reachable", "peer/unknown", "peer/online2"]

def dialerClient : Subscriber where
  options := { cleanStart := true, automaticReconnect := true }
  topics := ["peer/needs_dial"]

/-- Where a program is between start-up, its receive loop and the inner loop
that reconnects. An error on start-up ends it. -/
inductive LoopPhase where
  | connecting
  | subscribing
  | preparing
  | waiting
  | handling (topic : String)
  | reconnecting (attempts : Nat)
  | ended
  deriving DecidableEq

/-- The stream holds the topics of the messages that have come in, and `none`
for each connection that was lost. -/
structure Receiver where
  link : Link
  stream : List (Option String)
  phase : LoopPhase

/-- How a call of `reconnect` ends. -/
inductive Reconnection where
  | refused
  | connected
  | alreadyConnected
  deriving DecidableEq

/-- What the program does, what befalls the connection, and what the client
library does on its own. -/
inductive LinkEvent where
  | connect (accepted : Bool)
  | subscribe (accepted : Bool)
  | prepare (succeeded : Bool)
  | next
  | handled (finished : Bool)
  | reconnect (result : Reconnection)
  | lose
  | reconnectAutomatically
  | deliver (topic : String)
  deriving DecidableEq

namespace Receiver

/-- A program starts with whatever session the broker has kept for its client id. -/
def started (kept : List String) : Receiver := ⟨⟨false, kept⟩, [], .connecting⟩

/-- An event that is not enabled has no successor. -/
def step (program : Subscriber) (receiver : Receiver) : LinkEvent → Option Receiver
  | .connect accepted =>
    if receiver.phase = .connecting then
      if accepted then
        some { receiver with
          link := receiver.link.connect program.options
          phase := .subscribing }
      else some { receiver with phase := .ended }
    else none
  | .subscribe accepted =>
    if receiver.phase = .subscribing then
      if accepted then
        if receiver.link.connected then
          some { receiver with
            link := receiver.link.subscribe program.topics
            phase := .preparing }
        else none
      else some { receiver with phase := .ended }
    else none
  | .prepare succeeded =>
    if receiver.phase = .preparing then
      some { receiver with phase := if succeeded then .waiting else .ended }
    else none
  | .next =>
    if receiver.phase = .waiting then
      receiver.stream.head?.map fun item => { receiver with
        stream := receiver.stream.tail
        phase := item.elim (.reconnecting 0) .handling }
    else none
  | .handled finished =>
    match receiver.phase with
    | .handling _ => some { receiver with phase := if finished then .waiting else .ended }
    | _ => none
  | .reconnect result =>
    match receiver.phase with
    | .reconnecting attempts =>
      if result = .refused then some { receiver with phase := .reconnecting (attempts + 1) }
      else if result = .connected then
        some { receiver with
          link := receiver.link.connect program.options
          phase := .waiting }
      else if receiver.link.connected then some { receiver with phase := .waiting }
      else none
    | _ => none
  | .lose =>
    if receiver.link.connected then
      some { receiver with
        link := receiver.link.lose
        stream := receiver.stream ++ [none] }
    else none
  | .reconnectAutomatically =>
    if program.options.automaticReconnect ∧ receiver.link.connected = false ∧
        receiver.phase ≠ .connecting then
      some { receiver with link := receiver.link.connect program.options }
    else none
  | .deliver topic =>
    if receiver.link.connected ∧ topic ∈ receiver.link.subscriptions then
      some { receiver with stream := receiver.stream ++ [some topic] }
    else none

def run (program : Subscriber) (kept : List String) (events : List LinkEvent) : Option Receiver :=
  events.foldlM (step program) (started kept)

/-- Connected, and in the receive loop for the next message. -/
def Listening (receiver : Receiver) : Prop :=
  receiver.link.connected = true ∧ receiver.phase = .waiting

instance (receiver : Receiver) : Decidable receiver.Listening := by unfold Listening; infer_instance

/-- Subscribed to all the topics of the program. -/
def Subscribed (program : Subscriber) (receiver : Receiver) : Prop :=
  ∀ topic ∈ program.topics, topic ∈ receiver.link.subscriptions

instance (program : Subscriber) (receiver : Receiver) : Decidable (receiver.Subscribed program) := by
  unfold Subscribed; infer_instance

end Receiver

/-- The event makes a new connection after the first. -/
def LinkEvent.reconnects : LinkEvent → Bool
  | .reconnect result => result = .connected
  | .reconnectAutomatically => true
  | _ => false

/-- What has happened since the subscription. -/
def sinceSubscription (events : List LinkEvent) : List LinkEvent :=
  (events.dropWhile fun event => event ≠ .subscribe true).tail

/-- The subscription is behind the program. -/
def LoopPhase.subscribed : LoopPhase → Bool
  | .preparing | .waiting | .handling _ | .reconnecting _ => true
  | _ => false

/-- What the broker holds of a client that starts clean, by what has happened. -/
structure Tracked (program : Subscriber) (events : List LinkEvent) (receiver : Receiver) : Prop where
  unsubscribed : receiver.phase = .connecting ∨ receiver.phase = .subscribing → .subscribe true ∉ events
  empty : receiver.phase = .subscribing → receiver.link.subscriptions = []
  held : receiver.phase.subscribed = true → .subscribe true ∈ events ∧
    receiver.link.subscriptions =
      if (sinceSubscription events).any LinkEvent.reconnects then [] else program.topics

variable {program : Subscriber} {events : List LinkEvent} {event : LinkEvent} {receiver next : Receiver}
  {kept : List String}

theorem sinceSubscription_append (subscribed : .subscribe true ∈ events) (event : LinkEvent) :
    sinceSubscription (events ++ [event]) = sinceSubscription events ++ [event] := by
  have found : events.dropWhile (fun event => event ≠ .subscribe true) ≠ [] := by
    intro none
    have all := List.dropWhile_eq_nil_iff.mp none
    exact absurd (all _ subscribed) (by simp)
  rw [sinceSubscription, List.dropWhile_append, if_neg (by simpa using found),
    List.tail_append_of_ne_nil found]
  rfl

theorem sinceSubscription_first (unsubscribed : .subscribe true ∉ events) :
    sinceSubscription (events ++ [.subscribe true]) = [] := by
  have passed : events.dropWhile (fun event => event ≠ .subscribe true) = [] := by
    rw [List.dropWhile_eq_nil_iff]
    intro event member
    simp only [ne_eq, decide_not, Bool.not_eq_true', decide_eq_false_iff_not]
    rintro rfl
    exact unsubscribed member
  rw [sinceSubscription, List.dropWhile_append, if_pos (by simpa using passed)]
  simp

theorem Subscriber.discards (clean : program.options.cleanStart = true) (link : Link) :
    link.connect program.options = ⟨true, []⟩ := by
  rw [Link.connect, clean]
  rfl

/-- An event that leaves the session alone. -/
theorem Tracked.quiet (tracked : Tracked program events receiver) (other : event ≠ .subscribe true)
    (silent : event.reconnects = false)
    (same : next.link.subscriptions = receiver.link.subscriptions)
    (starting : next.phase = .connecting ∨ next.phase = .subscribing → next.phase = receiver.phase)
    (subscribed : next.phase.subscribed = true → receiver.phase.subscribed = true) :
    Tracked program (events ++ [event]) next := by
  constructor
  · intro early
    have before := tracked.unsubscribed (starting early ▸ early)
    simp [before, Ne.symm other]
  · intro early
    rw [same]
    exact tracked.empty (starting (.inr early) ▸ early)
  · intro late
    obtain ⟨member, held⟩ := tracked.held (subscribed late)
    rw [same, held, sinceSubscription_append member, List.any_append]
    exact ⟨List.mem_append_left _ member, by simp [silent]⟩

/-- An event that makes a new connection. -/
theorem Tracked.reconnected (tracked : Tracked program events receiver) (event_reconnects : event.reconnects = true)
    (discarded : next.link.subscriptions = [])
    (starting : next.phase = .connecting ∨ next.phase = .subscribing → next.phase = receiver.phase)
    (subscribed : next.phase.subscribed = true → receiver.phase.subscribed = true) :
    Tracked program (events ++ [event]) next := by
  have other : event ≠ .subscribe true := by
    rintro rfl
    cases event_reconnects
  constructor
  · intro early
    have before := tracked.unsubscribed (starting early ▸ early)
    simp [before, Ne.symm other]
  · exact fun _ => discarded
  · intro late
    obtain ⟨member, _⟩ := tracked.held (subscribed late)
    rw [discarded, sinceSubscription_append member, List.any_append]
    exact ⟨List.mem_append_left _ member, by simp [event_reconnects]⟩

theorem tracked_started : Tracked program [] (.started kept) where
  unsubscribed _ := List.not_mem_nil
  empty early := by cases early
  held late := by cases late

theorem Tracked.connect {accepted : Bool} (clean : program.options.cleanStart = true)
    (tracked : Tracked program events receiver)
    (stepped : receiver.step program (.connect accepted) = some next) :
    Tracked program (events ++ [.connect accepted]) next := by
  simp only [Receiver.step] at stepped
  split at stepped
  · rename_i connecting
    have before := tracked.unsubscribed (.inl connecting)
    cases accepted with
    | true =>
      cases stepped
      rw [Subscriber.discards clean]
      exact ⟨fun _ => by simp [before], fun _ => rfl, fun late => by cases late⟩
    | false =>
      cases stepped
      exact tracked.quiet (by simp) rfl rfl (by simp) fun late => by cases late
  · cases stepped

theorem Tracked.subscribe {accepted : Bool} (tracked : Tracked program events receiver)
    (stepped : receiver.step program (.subscribe accepted) = some next) :
    Tracked program (events ++ [.subscribe accepted]) next := by
  simp only [Receiver.step] at stepped
  split at stepped
  · rename_i subscribing
    cases accepted with
    | true =>
      rw [if_pos rfl] at stepped
      split at stepped
      · cases stepped
        refine ⟨by simp, by simp, fun _ => ⟨by simp, ?_⟩⟩
        rw [sinceSubscription_first (tracked.unsubscribed (.inr subscribing)), Link.subscribe,
          tracked.empty subscribing]
        rfl
      · cases stepped
    | false =>
      cases stepped
      exact tracked.quiet (by simp) rfl rfl (by simp) fun late => by cases late
  · cases stepped

theorem Tracked.reconnect {result : Reconnection} (clean : program.options.cleanStart = true)
    (tracked : Tracked program events receiver)
    (stepped : receiver.step program (.reconnect result) = some next) :
    Tracked program (events ++ [.reconnect result]) next := by
  simp only [Receiver.step] at stepped
  split at stepped
  · rename_i attempts reconnecting
    have late : receiver.phase.subscribed = true := by rw [reconnecting]; rfl
    cases result with
    | refused =>
      cases stepped
      exact tracked.quiet (by simp) rfl rfl (by simp) fun _ => late
    | connected =>
      cases stepped
      exact tracked.reconnected rfl (by rw [Subscriber.discards clean]) (by simp) fun _ => late
    | alreadyConnected =>
      simp only [reduceCtorEq, if_false] at stepped
      split at stepped <;> cases stepped
      exact tracked.quiet (by simp) rfl rfl (by simp) fun _ => late
  · cases stepped

/-- What each event makes of the phase and the session. -/
theorem Tracked.step (clean : program.options.cleanStart = true)
    (tracked : Tracked program events receiver) (stepped : receiver.step program event = some next) :
    Tracked program (events ++ [event]) next := by
  cases event with
  | connect accepted => exact tracked.connect clean stepped
  | subscribe accepted => exact tracked.subscribe stepped
  | reconnect result => exact tracked.reconnect clean stepped
  | prepare succeeded =>
    simp only [Receiver.step] at stepped
    split at stepped
    · rename_i preparing
      cases stepped
      refine tracked.quiet (by simp) rfl rfl ?_ fun _ => by rw [preparing]; rfl
      cases succeeded <;> simp
    · cases stepped
  | next =>
    simp only [Receiver.step] at stepped
    split at stepped
    · rename_i waiting
      obtain ⟨item, _, rfl⟩ := Option.map_eq_some_iff.mp stepped
      refine tracked.quiet (by simp) rfl rfl ?_ fun _ => by rw [waiting]; rfl
      cases item <;> simp
    · cases stepped
  | handled finished =>
    simp only [Receiver.step] at stepped
    split at stepped
    · rename_i handling
      cases stepped
      refine tracked.quiet (by simp) rfl rfl ?_ fun _ => by rw [handling]; rfl
      cases finished <;> simp
    · cases stepped
  | lose =>
    simp only [Receiver.step] at stepped
    split at stepped <;> cases stepped
    exact tracked.quiet (by simp) rfl rfl (fun _ => rfl) id
  | reconnectAutomatically =>
    simp only [Receiver.step] at stepped
    split at stepped <;> cases stepped
    exact tracked.reconnected rfl (by rw [Subscriber.discards clean]) (fun _ => rfl) id
  | deliver topic =>
    simp only [Receiver.step] at stepped
    split at stepped <;> cases stepped
    exact tracked.quiet (by simp) rfl rfl (fun _ => rfl) id

theorem tracked_run (clean : program.options.cleanStart = true)
    (ran : Receiver.run program kept events = some receiver) : Tracked program events receiver := by
  induction events using List.reverseRecOn generalizing receiver with
  | nil =>
    cases ran
    exact tracked_started
  | append_singleton events event inductionHypothesis =>
    rw [Receiver.run, List.foldlM_append] at ran
    obtain ⟨earlier, first, last⟩ := Option.bind_eq_some_iff.mp ran
    have stepped : earlier.step program event = some receiver := by simpa using last
    exact (inductionHypothesis first).step clean stepped

/-- In every run of either program, whatever session it starts with: while the
loop is connected and waits for the next message, the client is subscribed to
all its topics exactly if no new connection was made since it subscribed. -/
theorem subscribed_iff_unbroken (known : program ∈ [marciClient, dialerClient])
    (ran : Receiver.run program kept events = some receiver) (listening : receiver.Listening) :
    receiver.Subscribed program ↔ ∀ event ∈ sinceSubscription events, event.reconnects = false := by
  have clean : program.options.cleanStart = true := by
    rcases List.mem_pair.mp known with rfl | rfl <;> rfl
  have topics : program.topics ≠ [] := by
    rcases List.mem_pair.mp known with rfl | rfl <;> decide
  have subscribed : receiver.phase.subscribed = true := by rw [listening.2]; rfl
  obtain ⟨_, held⟩ := (tracked_run clean ran).held subscribed
  rw [Receiver.Subscribed, held]
  by_cases broken : (sinceSubscription events).any LinkEvent.reconnects = true
  · rw [if_pos broken]
    obtain ⟨event, member, reconnects⟩ := List.any_eq_true.mp broken
    constructor
    · intro all
      obtain ⟨topic, rest, same⟩ := List.exists_cons_of_ne_nil topics
      have none := all topic (same ▸ List.mem_cons_self)
      cases none
    · intro unbroken
      rw [unbroken event member] at reconnects
      cases reconnects
  · rw [if_neg broken]
    refine iff_of_true (fun _ member => member) fun event member => ?_
    rw [← Bool.not_eq_true]
    exact fun reconnects => broken (List.any_eq_true.mpr ⟨event, member, reconnects⟩)

/-- A connection that is lost, and made again at the second attempt. -/
def brokenEvents : List LinkEvent :=
  [.connect true, .subscribe true, .prepare true, .lose, .next, .reconnect .refused,
    .reconnect .connected]

/-- A connection that is made again before the loop is told. -/
def repairedEvents : List LinkEvent :=
  [.connect true, .subscribe true, .prepare true, .lose, .reconnectAutomatically]

/-- The events leave the program connected and waiting, with no subscription. -/
def EndsDeaf (program : Subscriber) (events : List LinkEvent) : Prop :=
  ∃ receiver, Receiver.run program [] events = some receiver ∧ receiver.Listening ∧
    receiver.link.subscriptions = [] ∧ ¬ receiver.Subscribed program

theorem endsDeaf_of_run (ran : (Receiver.run program [] events).any fun receiver => decide
    (receiver.Listening ∧ receiver.link.subscriptions = [] ∧ ¬ receiver.Subscribed program)) :
    EndsDeaf program events := by
  obtain ⟨receiver, same, holds⟩ := (Option.any_eq_true _ _).mp ran
  exact ⟨receiver, same, of_decide_eq_true holds⟩

/-- Either program goes deaf, whichever of the two mechanisms reconnects it. -/
theorem reconnected_deaf :
    (EndsDeaf marciClient brokenEvents ∧ EndsDeaf marciClient repairedEvents) ∧
      EndsDeaf dialerClient brokenEvents ∧ EndsDeaf dialerClient repairedEvents := by
  refine ⟨⟨?_, ?_⟩, ?_, ?_⟩ <;>
  · apply endsDeaf_of_run
    decide

theorem subscribed_first : ∃ receiver,
    Receiver.run marciClient ["peer/online"] [.connect true, .subscribe true, .prepare true,
      .deliver "peer/unknown", .next, .handled true] = some receiver ∧ receiver.Listening ∧
      receiver.Subscribed marciClient := by
  have played : (Receiver.run marciClient ["peer/online"] [.connect true, .subscribe true, .prepare true,
      .deliver "peer/unknown", .next, .handled true]).any fun receiver =>
        decide receiver.Listening := by
    decide
  obtain ⟨receiver, ran, holds⟩ := (Option.any_eq_true _ _).mp played
  have listening := of_decide_eq_true holds
  exact ⟨receiver, ran, listening,
    (subscribed_iff_unbroken (by simp) ran listening).mpr (by decide)⟩

end CkbDiscovery.Deployment
