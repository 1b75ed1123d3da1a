import CkbDiscovery.Effect.Assured
import Mathlib.Algebra.BigOperators.Group.Finset.Basic
import Mathlib.Data.Fintype.Basic

/-! An event loop that is fed through bounded channels. A receiver reads what
was delivered, in order, and puts each message into the channel of its kind. It
waits while that channel is full, and nothing behind is read meanwhile. The loop
takes from any channel that holds something. -/

namespace CkbDiscovery.Effect

open Relation (ReflTransGen)

/-- What is read from a delivery, how much each channel holds, and which messages
come up by themselves. -/
structure Routing (Raw Channel Message : Type) where
  route : Raw → Option (Channel × Message)
  capacity : Channel → Nat
  timer : Message → Prop

variable {Raw Channel Message Call State : Type} {Reply : Call → Type}

/-- All lists but the turns have the oldest first. -/
structure Pipeline (Raw Channel Message State : Type) (Reply : Call → Type) where
  arrived : List Raw
  inbox : List Raw
  holding : Option (Channel × Message)
  queue : Channel → List Message
  taken : List (Option Channel × Message)
  busy : Option Message
  state : State
  turns : List (Turn State Reply Message)

def Pipeline.opened (state : State) : Pipeline Raw Channel Message State Reply where
  arrived := []
  inbox := []
  holding := none
  queue _ := []
  taken := []
  busy := none
  state
  turns := []

variable [DecidableEq Channel] (routing : Routing Raw Channel Message) (world : World State Reply)
  (handle : Message → Program Reply Unit)

/-- What the process does with what it has got. -/
inductive Internal : Pipeline Raw Channel Message State Reply →
    Pipeline Raw Channel Message State Reply → Prop where
  | discard (free : line.holding = none) (next : line.inbox = raw :: rest)
      (unread : routing.route raw = none) :
      Internal line { line with inbox := rest }
  | read (free : line.holding = none) (next : line.inbox = raw :: rest)
      (routed : routing.route raw = some entry) :
      Internal line { line with inbox := rest, holding := some entry }
  | send (held : line.holding = some (channel, message))
      (room : (line.queue channel).length < routing.capacity channel) :
      Internal line { line with
        holding := none
        queue := Function.update line.queue channel (line.queue channel ++ [message]) }
  | take (idle : line.busy = none) (waiting : line.queue channel = message :: rest) :
      Internal line { line with
        queue := Function.update line.queue channel rest
        taken := line.taken ++ [(some channel, message)]
        busy := some message }
  | finish (working : line.busy = some message)
      (completes : Completes world line.state (handle message) trace after ()) :
      Internal line { line with busy := none, state := after, turns := ⟨message, trace⟩ :: line.turns }

/-- Deliveries come in and timers fire at any time. -/
inductive Advance : Pipeline Raw Channel Message State Reply →
    Pipeline Raw Channel Message State Reply → Prop where
  | work (internal : Internal routing world handle line next) : Advance line next
  | arrive : Advance line { line with arrived := line.arrived ++ [raw], inbox := line.inbox ++ [raw] }
  | fire (idle : line.busy = none) (timer : routing.timer message) :
      Advance line { line with taken := line.taken ++ [(none, message)], busy := some message }

/-- The message of an entry, if it is one of the given kind. -/
def pick [DecidableEq Kind] (kind : Kind) (entry : Kind × Message) : Option Message :=
  if entry.1 = kind then some entry.2 else none

/-- The messages for a channel among some deliveries. -/
def Routing.expected (raws : List Raw) (channel : Channel) : List Message :=
  (raws.filterMap routing.route).filterMap (pick channel)

def Pipeline.takenFrom (line : Pipeline Raw Channel Message State Reply) (channel : Channel) : List Message :=
  line.taken.filterMap (pick (some channel))

def Pipeline.heldFor (line : Pipeline Raw Channel Message State Reply) (channel : Channel) : List Message :=
  line.holding.toList.filterMap (pick channel)

variable {routing world handle} {line next : Pipeline Raw Channel Message State Reply} {start : State}

/-- On every channel, what has arrived was taken up, waits there, is held for it
or is still to be read, each once and in this order. No channel overflows, and
what was taken up makes a run of the loop. -/
structure Conserved (routing : Routing Raw Channel Message) (world : World State Reply)
    (handle : Message → Program Reply Unit) (start : State)
    (line : Pipeline Raw Channel Message State Reply) : Prop where
  ordered : ∀ channel, routing.expected line.arrived channel =
    line.takenFrom channel ++ line.queue channel ++ line.heldFor channel ++
      routing.expected line.inbox channel
  bounded : ∀ channel, (line.queue channel).length ≤ routing.capacity channel
  run : Run world handle start line.turns line.state
  handled : line.taken.map Prod.snd = (line.turns.map Turn.message).reverse ++ line.busy.toList

theorem conserved_opened (start : State) :
    Conserved routing world handle start (Pipeline.opened start) where
  ordered _ := rfl
  bounded _ := Nat.zero_le _
  run := .start
  handled := rfl

theorem expected_cons (raw : Raw) (rest : List Raw) (channel : Channel) :
    routing.expected (raw :: rest) channel =
      (routing.route raw).toList.filterMap (pick channel) ++ routing.expected rest channel := by
  rw [Routing.expected, List.filterMap_cons]
  cases routing.route raw with
  | none => rfl
  | some entry =>
    change List.filterMap (pick channel) ([entry] ++ _) = _
    rw [List.filterMap_append]
    rfl

theorem Internal.conserved (internal : Internal routing world handle line next)
    (conserved : Conserved routing world handle start line) : Conserved routing world handle start next := by
  cases internal with
  | discard free head unread =>
    refine ⟨fun channel => ?_, conserved.bounded, conserved.run, conserved.handled⟩
    rw [conserved.ordered, head, expected_cons, unread]
    rfl
  | read free head routed =>
    refine ⟨fun channel => ?_, conserved.bounded, conserved.run, conserved.handled⟩
    rw [conserved.ordered, head, expected_cons, routed]
    simp [Pipeline.heldFor, Pipeline.takenFrom, free]
  | send held room =>
    rename_i channel message
    refine ⟨fun other => ?_, fun other => ?_, conserved.run, conserved.handled⟩
    · rw [conserved.ordered]
      by_cases same : other = channel
      · subst same
        simp [Pipeline.heldFor, Pipeline.takenFrom, held, pick]
      · simp [Pipeline.heldFor, Pipeline.takenFrom, held, pick, Function.update_of_ne same, Ne.symm same]
    · by_cases same : other = channel
      · subst same
        simpa using Nat.succ_le_of_lt room
      · simpa [Function.update_of_ne same] using conserved.bounded other
  | take idle waiting =>
    rename_i message rest channel
    refine ⟨fun other => ?_, fun other => ?_, conserved.run, ?_⟩
    · rw [conserved.ordered]
      by_cases same : other = channel
      · subst same
        simp [Pipeline.heldFor, Pipeline.takenFrom, waiting, pick]
      · simp [Pipeline.heldFor, Pipeline.takenFrom, pick, Function.update_of_ne same, Ne.symm same]
    · by_cases same : other = channel
      · subst same
        have before := conserved.bounded other
        rw [waiting] at before
        simpa using Nat.le_of_succ_le before
      · simpa [Function.update_of_ne same] using conserved.bounded other
    · simpa [idle] using conserved.handled
  | finish working completes =>
    refine ⟨conserved.ordered, conserved.bounded, .turn conserved.run completes, ?_⟩
    simpa [working] using conserved.handled

theorem Advance.conserved (advance : Advance routing world handle line next)
    (conserved : Conserved routing world handle start line) : Conserved routing world handle start next := by
  cases advance with
  | work internal => exact internal.conserved conserved
  | arrive =>
    refine ⟨fun channel => ?_, conserved.bounded, conserved.run, conserved.handled⟩
    simp only [Routing.expected, List.filterMap_append]
    rw [← List.append_assoc]
    exact congrArg (· ++ _) (conserved.ordered channel)
  | fire idle timer =>
    refine ⟨fun channel => ?_, conserved.bounded, conserved.run, ?_⟩
    · rw [conserved.ordered]
      simp [Pipeline.heldFor, Pipeline.takenFrom, pick]
    · simpa [idle] using conserved.handled

/-- However deliveries, timers and the process interleave. -/
theorem reachable_conserved (reachable : ReflTransGen (Advance routing world handle) (.opened start) line) :
    Conserved routing world handle start line := by
  induction reachable with
  | refl => exact conserved_opened start
  | tail _ advance inductionHypothesis => exact advance.conserved inductionHypothesis

/-- Messages tell by themselves which channel they come through. -/
structure Routing.Kinds (routing : Routing Raw Channel Message) (kind : Message → Option Channel) : Prop where
  routed : ∀ {raw channel message}, routing.route raw = some (channel, message) → kind message = some channel
  timed : ∀ {message}, routing.timer message → kind message = none

structure Pipeline.Sorted (kind : Message → Option Channel)
    (line : Pipeline Raw Channel Message State Reply) : Prop where
  queue : ∀ channel, ∀ message ∈ line.queue channel, kind message = some channel
  holding : ∀ entry ∈ line.holding, kind entry.2 = some entry.1
  taken : ∀ entry ∈ line.taken, kind entry.2 = entry.1

theorem sorted_update {kind : Message → Option Channel} {queue : Channel → List Message}
    (sorted : ∀ channel, ∀ message ∈ queue channel, kind message = some channel) {channel : Channel}
    {replaced : List Message} (fits : ∀ message ∈ replaced, kind message = some channel) :
    ∀ other, ∀ message ∈ Function.update queue channel replaced other, kind message = some other := by
  intro other message member
  by_cases same : other = channel
  · subst same
    rw [Function.update_self] at member
    exact fits message member
  · rw [Function.update_of_ne same] at member
    exact sorted other message member

theorem Internal.sorted {kind : Message → Option Channel} (kinds : routing.Kinds kind)
    (internal : Internal routing world handle line next) (sorted : line.Sorted kind) : next.Sorted kind := by
  cases internal with
  | discard free head unread => exact ⟨sorted.queue, sorted.holding, sorted.taken⟩
  | read free head routed =>
    refine ⟨sorted.queue, fun entry held => ?_, sorted.taken⟩
    obtain rfl := Option.some.inj held
    exact kinds.routed routed
  | send held room =>
    rename_i channel message
    refine ⟨sorted_update sorted.queue fun queued member => ?_, by simp, sorted.taken⟩
    rcases List.mem_append.mp member with earlier | last
    · exact sorted.queue channel queued earlier
    · rw [List.mem_singleton.mp last]
      exact sorted.holding _ held
  | take idle waiting =>
    rename_i message rest channel
    have queued : ∀ other ∈ message :: rest, kind other = some channel :=
      fun other member => sorted.queue channel other (waiting ▸ member)
    refine ⟨sorted_update sorted.queue fun other member => queued other (List.mem_cons_of_mem _ member),
      sorted.holding, fun entry member => ?_⟩
    rcases List.mem_append.mp member with earlier | last
    · exact sorted.taken entry earlier
    · rw [List.mem_singleton.mp last]
      exact queued message List.mem_cons_self
  | finish working completes => exact ⟨sorted.queue, sorted.holding, sorted.taken⟩

theorem reachable_sorted {kind : Message → Option Channel} (kinds : routing.Kinds kind)
    (reachable : ReflTransGen (Advance routing world handle) (.opened start) line) : line.Sorted kind := by
  induction reachable with
  | refl => exact ⟨by simp [Pipeline.opened], by simp [Pipeline.opened], by simp [Pipeline.opened]⟩
  | tail _ advance inductionHypothesis =>
    cases advance with
    | work internal => exact internal.sorted kinds inductionHypothesis
    | arrive => exact ⟨inductionHypothesis.queue, inductionHypothesis.holding, inductionHypothesis.taken⟩
    | fire idle timer =>
      refine ⟨inductionHypothesis.queue, inductionHypothesis.holding, fun entry member => ?_⟩
      rcases List.mem_append.mp member with earlier | last
      · exact inductionHypothesis.taken entry earlier
      · rw [List.mem_singleton.mp last]
        exact kinds.timed timer

theorem Pipeline.Sorted.takenFrom {kind : Message → Option Channel} (sorted : line.Sorted kind)
    (channel : Channel) :
    line.takenFrom channel = (line.taken.map Prod.snd).filter fun message => kind message = some channel := by
  rw [Pipeline.takenFrom, List.filter_map, ← List.filterMap_eq_map, List.filterMap_filter]
  apply List.filterMap_congr
  intro entry member
  rw [pick, ← sorted.taken entry member]
  simp

/-- Nothing is left to do. -/
structure Pipeline.Drained (line : Pipeline Raw Channel Message State Reply) : Prop where
  inbox : line.inbox = []
  holding : line.holding = none
  queue : ∀ channel, line.queue channel = []
  busy : line.busy = none

/-- The process never blocks itself: while something is left it can go on, once
the handler it is in completes. -/
theorem internal_of_undrained (room : ∀ channel, 0 < routing.capacity channel)
    (able : ∀ message, line.busy = some message →
      ∃ trace after, Completes world line.state (handle message) trace after ())
    (undrained : ¬ line.Drained) : ∃ next, Internal routing world handle line next := by
  cases working : line.busy with
  | some message =>
    obtain ⟨trace, after, completes⟩ := able message working
    exact ⟨_, .finish working completes⟩
  | none =>
    by_cases waiting : ∃ channel, line.queue channel ≠ []
    · obtain ⟨channel, occupied⟩ := waiting
      obtain ⟨message, rest, queued⟩ := List.exists_cons_of_ne_nil occupied
      exact ⟨_, .take working queued⟩
    · have empty : ∀ channel, line.queue channel = [] :=
        fun channel => not_not.mp fun occupied => waiting ⟨channel, occupied⟩
      cases held : line.holding with
      | some entry =>
        have free : (line.queue entry.1).length < routing.capacity entry.1 := by
          rw [empty]
          exact room _
        exact ⟨_, .send held free⟩
      | none =>
        cases box : line.inbox with
        | nil => exact absurd ⟨box, held, empty, working⟩ undrained
        | cons raw rest =>
          cases routed : routing.route raw with
          | none => exact ⟨_, .discard held box routed⟩
          | some entry => exact ⟨_, .read held box routed⟩

/-- At rest, all that arrived has been taken up channel by channel in its order,
and handled to its end. -/
theorem Conserved.rested (conserved : Conserved routing world handle start line) (drained : line.Drained) :
    (∀ channel, routing.expected line.arrived channel = line.takenFrom channel) ∧
      line.taken.map Prod.snd = (line.turns.map Turn.message).reverse := by
  constructor
  · intro channel
    rw [conserved.ordered, drained.queue, drained.inbox, Pipeline.heldFor, drained.holding]
    simp [Routing.expected]
  · rw [conserved.handled, drained.busy]
    simp

/-- The process alone adds nothing to what has arrived. -/
theorem internal_arrived (work : ReflTransGen (Internal routing world handle) line next) :
    next.arrived = line.arrived := by
  induction work with
  | refl => rfl
  | tail _ internal inductionHypothesis =>
    rw [← inductionHypothesis]
    cases internal <;> rfl

variable [Fintype Channel]

/-- How many steps what is left can take at most. -/
def Pipeline.weight (line : Pipeline Raw Channel Message State Reply) : Nat :=
  4 * line.inbox.length + 3 * line.holding.toList.length +
    2 * ∑ channel, (line.queue channel).length + line.busy.toList.length

theorem waiting_update (queue : Channel → List Message) (channel : Channel) (replaced : List Message) :
    ∑ other, (Function.update queue channel replaced other).length + (queue channel).length =
      ∑ other, (queue other).length + replaced.length := by
  rw [← Finset.add_sum_erase _ _ (Finset.mem_univ channel),
    ← Finset.add_sum_erase _ (fun other => (queue other).length) (Finset.mem_univ channel)]
  have others : ∑ other ∈ Finset.univ.erase channel, (Function.update queue channel replaced other).length =
      ∑ other ∈ Finset.univ.erase channel, (queue other).length := by
    apply Finset.sum_congr rfl
    intro other member
    rw [Function.update_of_ne (Finset.ne_of_mem_erase member)]
  rw [others, Function.update_self]
  omega

/-- Without new deliveries and timers the process comes to rest. -/
theorem Internal.lighter (internal : Internal routing world handle line next) : next.weight < line.weight := by
  cases internal with
  | discard free head unread => simp [Pipeline.weight, head]
  | read free head routed =>
    simp only [Pipeline.weight, head, free, List.length_cons, Option.toList_none, Option.toList_some,
      List.length_nil]
    omega
  | send held room =>
    rename_i channel message
    have moved := waiting_update line.queue channel (line.queue channel ++ [message])
    simp only [Pipeline.weight, held, Option.toList_none, Option.toList_some, List.length_cons,
      List.length_nil, List.length_append] at moved ⊢
    omega
  | take idle waiting =>
    rename_i message rest channel
    have moved := waiting_update line.queue channel rest
    simp only [Pipeline.weight, idle, waiting, Option.toList_none, Option.toList_some, List.length_cons,
      List.length_nil] at moved ⊢
    omega
  | finish working completes => simp [Pipeline.weight, working]

/-- An assertion about the state that every handler keeps, and that lets it complete. -/
structure Able (world : World State Reply) (handle : Message → Program Reply Unit)
    (sound : State → Prop) : Prop where
  completes : ∀ {state} message, sound state →
    ∃ trace after, Completes world state (handle message) trace after () ∧ sound after

/-- Left alone, the process can work off all it has got. -/
theorem drains {sound : State → Prop} (able : Able world handle sound)
    (room : ∀ channel, 0 < routing.capacity channel) (fit : sound line.state) :
    ∃ rested, ReflTransGen (Internal routing world handle) line rested ∧ rested.Drained ∧
      sound rested.state := by
  induction weighs : line.weight using Nat.strong_induction_on generalizing line with
  | _ weight inductionHypothesis =>
    by_cases drained : line.Drained
    · exact ⟨line, .refl, drained, fit⟩
    · have further : ∃ next, Internal routing world handle line next ∧ sound next.state := by
        cases working : line.busy with
        | some message =>
          obtain ⟨trace, after, completes, keeps⟩ := able.completes message fit
          exact ⟨_, .finish working completes, keeps⟩
        | none =>
          have further : ∃ next, Internal routing world handle line next :=
            internal_of_undrained room (fun message same => by cases working.symm.trans same) drained
          obtain ⟨next, internal⟩ := further
          refine ⟨next, internal, ?_⟩
          cases internal with
          | finish busy completes => cases working.symm.trans busy
          | _ => exact fit
      obtain ⟨next, internal, keeps⟩ := further
      obtain ⟨rested, rest, done⟩ :=
        inductionHypothesis next.weight (weighs ▸ internal.lighter) keeps rfl
      exact ⟨rested, .head internal rest, done⟩

end CkbDiscovery.Effect
