import CkbDiscovery.Effect.Evaluate
import CkbDiscovery.Effect.Execution
import Mathlib.Logic.Hydra

/-! Tasks that share locks, in a world that answers their other calls. If every
task takes locks upwards in one order and gives them back, no crowd of tasks gets
stuck, and each task comes to its end however the tasks are scheduled. -/

namespace CkbDiscovery.Effect

open Relation (ReflTransGen CutExpand cutExpand_add_single)

/-- A lock is waited for, or tried once. -/
inductive Guarded (Lock Call : Type) where
  | lock (lock : Lock)
  | tryLock (lock : Lock)
  | unlock (lock : Lock)
  | call (question : Call)

abbrev Guarded.Reply (answer : Call → Type) : Guarded Lock Call → Type
  | .lock _ => Unit
  | .tryLock _ => Bool
  | .unlock _ => Unit
  | .call question => answer question

variable {Lock Call State : Type} {Reply : Call → Type} {α β : Type}

abbrev Task (Lock : Type) {Call : Type} (Reply : Call → Type) := Program (@Guarded.Reply Call Lock Reply)

namespace Task

def lock (lock : Lock) : Task Lock Reply Unit := .perform (Guarded.lock lock)

def tryLock (lock : Lock) : Task Lock Reply Bool := .perform (Guarded.tryLock lock)

def unlock (lock : Lock) : Task Lock Reply Unit := .perform (Guarded.unlock lock)

def call (question : Call) : Task Lock Reply (Reply question) := .perform (Guarded.call question)

def holding (lock : Lock) (body : Task Lock Reply α) : Task Lock Reply α := do
  Task.lock lock
  let value ← body
  unlock lock
  pure value

/-- From the locks held, the task takes further ones only above them, gives up
only those it has, and ends with the last ones. -/
def Ordered (below : Lock → Lock → Prop) (last : Set Lock) : Set Lock → Task Lock Reply α → Prop
  | held, .done _ => held = last
  | held, .ask (.lock lock) next =>
    (∀ other ∈ held, below other lock) ∧ Ordered below last (insert lock held) (next ())
  | held, .ask (.tryLock lock) next =>
    Ordered below last (insert lock held) (next true) ∧ Ordered below last held (next false)
  | held, .ask (.unlock lock) next => lock ∈ held ∧ Ordered below last (held \ {lock}) (next ())
  | held, .ask (.call _) next => ∀ reply, Ordered below last held (next reply)
  | _, .stop => True

variable {below : Lock → Lock → Prop} {last middle held : Set Lock}

theorem Ordered.andThen {task : Task Lock Reply α} {next : α → Task Lock Reply β}
    (first : task.Ordered below middle held) (rest : ∀ value, (next value).Ordered below last middle) :
    (task >>= next).Ordered below last held := by
  induction task generalizing held with
  | done value =>
    obtain rfl : held = middle := first
    exact rest value
  | ask question continuation inductionHypothesis =>
    cases question with
    | lock lock => exact ⟨first.1, inductionHypothesis () first.2⟩
    | tryLock lock => exact ⟨inductionHypothesis true first.1, inductionHypothesis false first.2⟩
    | unlock lock => exact ⟨first.1, inductionHypothesis () first.2⟩
    | call question => exact fun reply => inductionHypothesis reply (first reply)
  | stop => trivial

/-- A program of other calls, each made in order. -/
theorem Ordered.translate {Question : Type} {Answer : Question → Type}
    {through : (question : Question) → Task Lock Reply (Answer question)}
    (each : ∀ question, (through question).Ordered below held held) (program : Program Answer α) :
    Task.Ordered below held held (program.translate through) := by
  induction program with
  | done value => rfl
  | ask question next inductionHypothesis => exact (each question).andThen inductionHypothesis
  | stop => trivial

/-- A lock that is above those held can be held for a while. -/
theorem Ordered.holding {lock : Lock} {body : Task Lock Reply α} (above : ∀ other ∈ held, below other lock)
    (fresh : lock ∉ held) (inside : body.Ordered below (insert lock held) (insert lock held)) :
    (Task.holding lock body).Ordered below held held := by
  refine ⟨above, inside.andThen fun value => ⟨Set.mem_insert lock held, ?_⟩⟩
  exact Set.insert_sdiff_self_of_notMem fresh

end Task

/-- Tasks under way by their number, who holds what, and what has become of
earlier tasks; nothing, of one that has given up. -/
structure Crowd (Lock : Type) {Call : Type} (Reply : Call → Type) (State α : Type) where
  outside : State
  holder : Lock → Option Nat
  tasks : List (Nat × Task Lock Reply α)
  ended : List (Nat × Option α)

namespace Crowd

def opened (outside : State) : Crowd Lock Reply State α := ⟨outside, fun _ => none, [], []⟩

def held (crowd : Crowd Lock Reply State α) (id : Nat) : Set Lock := {lock | crowd.holder lock = some id}

def ids (crowd : Crowd Lock Reply State α) : List Nat := crowd.tasks.map Prod.fst

end Crowd

/-- Every task is in order with the locks it holds, and every lock is held by a task. -/
structure Disciplined (below : Lock → Lock → Prop) (crowd : Crowd Lock Reply State α) : Prop where
  distinct : crowd.ids.Nodup
  ordered : ∀ {id task}, (id, task) ∈ crowd.tasks → task.Ordered below ∅ (crowd.held id)
  present : ∀ {lock id}, crowd.holder lock = some id → id ∈ crowd.ids

section

variable {below : Lock → Lock → Prop} {crowd : Crowd Lock Reply State α}

theorem disciplined_opened (outside : State) :
    Disciplined below (Crowd.opened outside : Crowd Lock Reply State α) where
  distinct := .nil
  ordered member := by cases member
  present held := by cases held

/-- The rest of a crowd from which one task is taken out. -/
theorem Disciplined.other {id other : Nat} {outside : State} {holder : Lock → Option Nat}
    {first rest : List (Nat × Task Lock Reply α)} {task found : Task Lock Reply α}
    {ended : List (Nat × Option α)}
    (disciplined : Disciplined below ⟨outside, holder, first ++ (id, task) :: rest, ended⟩)
    (member : (other, found) ∈ first ++ rest) :
    other ≠ id ∧ found.Ordered below ∅ {lock | holder lock = some other} := by
  constructor
  · rintro rfl
    have distinct := disciplined.distinct
    rw [Crowd.ids, List.map_append, List.map_cons, List.nodup_middle, List.nodup_cons] at distinct
    rw [← List.map_append] at distinct
    exact distinct.1 (List.mem_map.mpr ⟨_, member, rfl⟩)
  · apply disciplined.ordered
    rcases List.mem_append.mp member with before | after
    · exact List.mem_append_left _ before
    · exact List.mem_append_right _ (List.mem_cons_of_mem _ after)

/-- A task is over, and none of its locks are held any more. -/
theorem Disciplined.leave {id : Nat} {outside : State} {holder locked : Lock → Option Nat}
    {first rest : List (Nat × Task Lock Reply α)} {task : Task Lock Reply α}
    {ended later : List (Nat × Option α)}
    (disciplined : Disciplined below ⟨outside, holder, first ++ (id, task) :: rest, ended⟩)
    (gone : ∀ {lock other}, locked lock = some other ↔ holder lock = some other ∧ other ≠ id) :
    Disciplined below ⟨outside, locked, first ++ rest, later⟩ where
  distinct := by
    have distinct := disciplined.distinct
    rw [Crowd.ids, List.map_append, List.map_cons, List.nodup_middle, List.nodup_cons] at distinct
    rw [Crowd.ids, List.map_append]
    exact distinct.2
  ordered := by
    intro other found member
    obtain ⟨different, inOrder⟩ := disciplined.other member
    have same : {lock | locked lock = some other} = {lock | holder lock = some other} := by
      ext lock
      exact gone.trans (and_iff_left different)
    change found.Ordered below ∅ {lock | locked lock = some other}
    rwa [same]
  present := by
    intro lock other held
    obtain ⟨before, different⟩ := gone.mp held
    have known := disciplined.present before
    rw [Crowd.ids, List.map_append, List.map_cons, List.mem_append, List.mem_cons] at known
    rw [Crowd.ids, List.map_append, List.mem_append]
    rcases known with left | rfl | right
    · exact .inl left
    · exact absurd rfl different
    · exact .inr right

theorem Disciplined.drift {outside : State} (disciplined : Disciplined below crowd) :
    Disciplined below { crowd with outside } :=
  ⟨disciplined.distinct, disciplined.ordered, disciplined.present⟩

end

variable [DecidableEq Lock] (world : World State Reply)

/-- What the task with a number does next, to the outside and to the locks. -/
inductive Acts (id : Nat) : State → (Lock → Option Nat) → Task Lock Reply α →
    State → (Lock → Option Nat) → Task Lock Reply α → Prop where
  | lock (free : holder lock = none) :
      Acts id outside holder (.ask (.lock lock) next)
        outside (Function.update holder lock (some id)) (next ())
  | grab (free : holder lock = none) :
      Acts id outside holder (.ask (.tryLock lock) next)
        outside (Function.update holder lock (some id)) (next true)
  | miss (taken : holder lock ≠ none) :
      Acts id outside holder (.ask (.tryLock lock) next) outside holder (next false)
  | unlock (own : holder lock = some id) :
      Acts id outside holder (.ask (.unlock lock) next)
        outside (Function.update holder lock none) (next ())
  | call (answers : world.answers outside question reply later) :
      Acts id outside holder (.ask (.call question) next) later holder (next reply)

/-- One task acts, or is over; one that gives up drops its locks. -/
inductive Goes : Crowd Lock Reply State α → Crowd Lock Reply State α → Prop where
  | act {id : Nat} (acts : Acts world id outside holder task later locked next) :
      Goes ⟨outside, holder, first ++ (id, task) :: rest, ended⟩
        ⟨later, locked, first ++ (id, next) :: rest, ended⟩
  | finish {id : Nat} :
      Goes ⟨outside, holder, first ++ (id, Program.done value) :: rest, ended⟩
        ⟨outside, holder, first ++ rest, (id, some value) :: ended⟩
  | panic {id : Nat} :
      Goes ⟨outside, holder, first ++ (id, Program.stop) :: rest, ended⟩
        ⟨outside, fun lock => if holder lock = some id then none else holder lock,
          first ++ rest, (id, none) :: ended⟩

/-- Some drift of the outside, then one task goes on. -/
inductive Passes : Crowd Lock Reply State α → Crowd Lock Reply State α → Prop where
  | pass (quiet : ReflTransGen world.drifts crowd.outside later)
      (goes : Goes world { crowd with outside := later } next) : Passes crowd next

/-- Tasks of the given kinds come in at any time, under numbers of their own. -/
inductive Bustles (starts : Task Lock Reply α → Prop) :
    Crowd Lock Reply State α → Crowd Lock Reply State α → Prop where
  | pass (passes : Passes world crowd next) : Bustles starts crowd next
  | arrive {id : Nat} (started : starts task) (fresh : id ∉ crowd.ids) :
      Bustles starts crowd { crowd with tasks := crowd.tasks ++ [(id, task)] }

/-- On every path of steps, the goal is reached. -/
inductive Inevitably {State : Type} (step : State → State → Prop) (goal : State → Prop) : State → Prop where
  | now (reached : goal state) : Inevitably step goal state
  | later (possible : ∃ next, step state next)
      (each : ∀ next, step state next → Inevitably step goal next) : Inevitably step goal state

theorem inevitably_of_progress {State : Type} {step : State → State → Prop} {goal invariant : State → Prop}
    (ends : WellFounded fun next state => step state next)
    (kept : ∀ {state next}, invariant state → step state next → invariant next)
    (progress : ∀ {state}, invariant state → ¬ goal state → ∃ next, step state next)
    {state : State} (holds : invariant state) : Inevitably step goal state := by
  induction state using ends.induction with
  | _ state inductionHypothesis =>
    by_cases reached : goal state
    · exact .now reached
    · exact .later (progress holds reached) fun next taken =>
        inductionHypothesis next taken (kept holds taken)

variable {world} {below : Lock → Lock → Prop} {crowd next : Crowd Lock Reply State α}
  {starts : Task Lock Reply α → Prop}

/-- An act keeps the order of the task and leaves the locks of others alone. -/
theorem Acts.ordered {id : Nat} {outside later : State} {holder locked : Lock → Option Nat}
    {task next : Task Lock Reply α} (acts : Acts world id outside holder task later locked next)
    (inOrder : task.Ordered below ∅ {lock | holder lock = some id}) :
    next.Ordered below ∅ {lock | locked lock = some id} ∧
      ∀ {lock other}, other ≠ id → (locked lock = some other ↔ holder lock = some other) := by
  have taken : ∀ {lock}, holder lock = none → {other | Function.update holder lock (some id) other = some id} =
      insert lock {other | holder other = some id} := by
    intro lock free
    ext other
    by_cases same : other = lock
    · simp [same]
    · simp [same]
  have others : ∀ {lock} {value : Option Nat}, (holder lock = none ∨ holder lock = some id) →
      (value = none ∨ value = some id) → ∀ {spot other}, other ≠ id →
        (Function.update holder lock value spot = some other ↔ holder spot = some other) := by
    intro lock value before after spot other different
    by_cases same : spot = lock
    · subst same
      rw [Function.update_self]
      rcases before with free | own <;> rcases after with rfl | rfl <;> simp [*, different.symm]
    · rw [Function.update_of_ne same]
  cases acts with
  | lock free =>
    refine ⟨?_, others (.inl free) (.inr rfl)⟩
    rw [taken free]
    exact inOrder.2
  | grab free =>
    refine ⟨?_, others (.inl free) (.inr rfl)⟩
    rw [taken free]
    exact inOrder.1
  | miss taken => exact ⟨inOrder.2, fun _ => Iff.rfl⟩
  | unlock own =>
    rename_i freed _
    refine ⟨?_, others (.inr own) (.inl rfl)⟩
    have released : {other | Function.update holder freed none other = some id} =
        {other | holder other = some id} \ {freed} := by
      ext other
      by_cases same : other = freed
      · simp [same]
      · simp [same]
    rw [released]
    exact inOrder.2
  | call answers => exact ⟨inOrder _, fun _ => Iff.rfl⟩

/-- One task acts, the others stay as they are. -/
theorem Disciplined.act {id : Nat} {outside later : State} {holder locked : Lock → Option Nat}
    {first rest : List (Nat × Task Lock Reply α)} {task next : Task Lock Reply α}
    {ended : List (Nat × Option α)}
    (disciplined : Disciplined below ⟨outside, holder, first ++ (id, task) :: rest, ended⟩)
    (acts : Acts world id outside holder task later locked next) :
    Disciplined below ⟨later, locked, first ++ (id, next) :: rest, ended⟩ := by
  have among : (id, task) ∈ first ++ (id, task) :: rest := List.mem_append_right first List.mem_cons_self
  obtain ⟨inOrder, others⟩ := acts.ordered (disciplined.ordered among)
  have same : Crowd.ids ⟨later, locked, first ++ (id, next) :: rest, ended⟩ =
      Crowd.ids ⟨outside, holder, first ++ (id, task) :: rest, ended⟩ := by
    simp [Crowd.ids]
  constructor
  · rw [same]
    exact disciplined.distinct
  · intro other found member
    have elsewhere : (other, found) = (id, next) ∨ (other, found) ∈ first ++ rest := by
      simpa [or_left_comm] using member
    rcases elsewhere with moved | stayed
    · cases moved
      exact inOrder
    · obtain ⟨different, kept⟩ := disciplined.other stayed
      have unchanged : {lock | locked lock = some other} = {lock | holder lock = some other} := by
        ext lock
        exact others different
      change found.Ordered below ∅ {lock | locked lock = some other}
      rwa [unchanged]
  · intro lock other held
    rw [same]
    by_cases mine : other = id
    · subst mine
      exact List.mem_map_of_mem among
    · exact disciplined.present ((others mine).mp held)

omit [DecidableEq Lock] in
theorem Disciplined.finish {id : Nat} {outside : State} {holder : Lock → Option Nat}
    {first rest : List (Nat × Task Lock Reply α)} {value : α} {ended later : List (Nat × Option α)}
    (disciplined : Disciplined below ⟨outside, holder, first ++ (id, .done value) :: rest, ended⟩) :
    Disciplined below ⟨outside, holder, first ++ rest, later⟩ := by
  have none : {lock | holder lock = some id} = (∅ : Set Lock) :=
    disciplined.ordered (List.mem_append_right first List.mem_cons_self)
  refine disciplined.leave fun {lock other} => (and_iff_left_of_imp fun held => ?_).symm
  rintro rfl
  exact Set.eq_empty_iff_forall_notMem.mp none lock held

theorem Goes.disciplined (goes : Goes world crowd next) (disciplined : Disciplined below crowd) :
    Disciplined below next := by
  cases goes with
  | act acts => exact disciplined.act acts
  | finish => exact disciplined.finish
  | panic =>
    refine disciplined.leave fun {lock other} => ?_
    split
    · rename_i own
      simp [own, eq_comm]
    · rename_i notOwn
      refine (and_iff_left_of_imp fun held => ?_).symm
      rintro rfl
      exact notOwn held

theorem Passes.disciplined (passes : Passes world crowd next) (disciplined : Disciplined below crowd) :
    Disciplined below next := by
  cases passes with
  | pass quiet goes => exact goes.disciplined disciplined.drift

omit [DecidableEq Lock] in
/-- A task comes in that holds nothing yet. -/
theorem Disciplined.arrive {id : Nat} {task : Task Lock Reply α} (disciplined : Disciplined below crowd)
    (inOrder : task.Ordered below ∅ ∅) (fresh : id ∉ crowd.ids) :
    Disciplined below { crowd with tasks := crowd.tasks ++ [(id, task)] } := by
  have none : crowd.held id = ∅ :=
    Set.eq_empty_iff_forall_notMem.mpr fun lock held => fresh (disciplined.present held)
  have extended : Crowd.ids { crowd with tasks := crowd.tasks ++ [(id, task)] } = crowd.ids ++ [id] := by
    simp [Crowd.ids]
  constructor
  · rw [extended, List.nodup_append_comm]
    exact List.nodup_cons.mpr ⟨fresh, disciplined.distinct⟩
  · intro other found member
    rcases List.mem_append.mp member with old | new
    · exact disciplined.ordered old
    · cases List.mem_singleton.mp new
      change task.Ordered below ∅ (crowd.held id)
      rw [none]
      exact inOrder
  · intro lock other held
    rw [extended]
    exact List.mem_append_left _ (disciplined.present held)

theorem Bustles.disciplined (inOrder : ∀ {task}, starts task → task.Ordered below ∅ ∅)
    (bustles : Bustles world starts crowd next) (disciplined : Disciplined below crowd) :
    Disciplined below next := by
  cases bustles with
  | pass passes => exact passes.disciplined disciplined
  | arrive started fresh => exact disciplined.arrive (inOrder started) fresh

/-- Whatever comes in and however it is scheduled, the crowd stays disciplined. -/
theorem reachable_disciplined (inOrder : ∀ {task}, starts task → task.Ordered below ∅ ∅)
    {outside : State} (reachable : ReflTransGen (Bustles world starts) (.opened outside) crowd) :
    Disciplined below crowd := by
  induction reachable with
  | refl => exact disciplined_opened outside
  | tail _ bustles inductionHypothesis => exact bustles.disciplined inOrder inductionHypothesis

/-- A task that is not waiting for a lock can go on at any time. -/
theorem goes_of_member (answered : ∀ (outside : State) question, ∃ reply later,
      world.answers outside question reply later) {id : Nat} {task : Task Lock Reply α}
    (disciplined : Disciplined below crowd) (member : (id, task) ∈ crowd.tasks)
    (blocked : ∀ lock next, task = .ask (.lock lock) next → crowd.holder lock = none) :
    ∃ later, Goes world crowd later := by
  have inOrder := disciplined.ordered member
  obtain ⟨outside, holder, tasks, ended⟩ := crowd
  obtain ⟨first, rest, rfl⟩ := List.append_of_mem member
  cases task with
  | done value => exact ⟨_, .finish⟩
  | stop => exact ⟨_, .panic⟩
  | ask question next =>
    cases question with
    | lock lock => exact ⟨_, .act (.lock (blocked lock next rfl))⟩
    | tryLock lock =>
      cases free : holder lock with
      | none => exact ⟨_, .act (.grab free)⟩
      | some other => exact ⟨_, .act (.miss (by simp [free]))⟩
    | unlock lock => exact ⟨_, .act (.unlock inOrder.1)⟩
    | call question =>
      obtain ⟨reply, later, answers⟩ := answered outside question
      exact ⟨_, .act (.call answers)⟩

/-- A task that waits for a lock waits for one that can go on, perhaps through
others: each of these waits for a lock further up. -/
theorem goes_of_waiting (answered : ∀ (outside : State) question, ∃ reply later,
      world.answers outside question reply later) (ascends : WellFounded (flip below))
    (disciplined : Disciplined below crowd) (lock : Lock) :
    ∀ {id next}, (id, .ask (.lock lock) next) ∈ crowd.tasks → ∃ later, Goes world crowd later := by
  induction lock using ascends.induction with
  | _ lock inductionHypothesis =>
    intro id next member
    cases held : crowd.holder lock with
    | none =>
      refine goes_of_member answered disciplined member fun other _ same => ?_
      cases same
      exact held
    | some other =>
      obtain ⟨⟨_, task⟩, among, rfl⟩ := List.mem_map.mp (disciplined.present held)
      by_cases blocked : ∃ above next, task = .ask (.lock above) next
      · obtain ⟨above, further, rfl⟩ := blocked
        exact inductionHypothesis above ((disciplined.ordered among).1 lock held) among
      · exact goes_of_member answered disciplined among fun above further same =>
          absurd ⟨above, further, same⟩ blocked

/-- A crowd never gets stuck. -/
theorem Disciplined.goes (answered : ∀ (outside : State) question, ∃ reply later,
      world.answers outside question reply later) (ascends : WellFounded (flip below))
    (disciplined : Disciplined below crowd) (busy : crowd.tasks ≠ []) : ∃ later, Goes world crowd later := by
  obtain ⟨⟨id, task⟩, member⟩ := List.exists_mem_of_ne_nil _ busy
  by_cases blocked : ∃ lock next, task = .ask (.lock lock) next
  · obtain ⟨lock, next, rfl⟩ := blocked
    exact goes_of_waiting answered ascends disciplined lock member
  · exact goes_of_member answered disciplined member fun lock next same =>
      absurd ⟨lock, next, same⟩ blocked

/-- What is left of a task after a reply. -/
def Remains (next task : Task Lock Reply α) : Prop := ∃ question continuation reply,
  task = .ask question continuation ∧ next = continuation reply

omit [DecidableEq Lock] in
theorem remains_wellFounded : WellFounded (Remains : Task Lock Reply α → Task Lock Reply α → Prop) := by
  constructor
  intro task
  induction task with
  | done value =>
    constructor
    rintro _ ⟨_, _, _, same, _⟩
    cases same
  | ask question continuation inductionHypothesis =>
    constructor
    rintro _ ⟨_, _, reply, same, rfl⟩
    cases same
    exact inductionHypothesis reply
  | stop =>
    constructor
    rintro _ ⟨_, _, _, same, _⟩
    cases same

/-- The heads of the hydra. -/
def Crowd.left (crowd : Crowd Lock Reply State α) : Multiset (Task Lock Reply α) :=
  (crowd.tasks.map Prod.snd : List (Task Lock Reply α))

theorem Acts.remains {id : Nat} {outside later : State} {holder locked : Lock → Option Nat}
    {task next : Task Lock Reply α} (acts : Acts world id outside holder task later locked next) :
    Remains next task := by
  cases acts with
  | lock | grab | miss | unlock | call => exact ⟨_, _, _, rfl, rfl⟩

/-- One head is cut off, and what remains of the task may grow back. -/
theorem Goes.cuts (goes : Goes world crowd next) : CutExpand Remains next.left crowd.left := by
  have split : ∀ (first rest : List (Nat × Task Lock Reply α)) (entry : Nat × Task Lock Reply α),
      (((first ++ entry :: rest).map Prod.snd : List _) : Multiset (Task Lock Reply α)) =
        ((first ++ rest).map Prod.snd : List _) + {entry.2} := by
    intro first rest entry
    rw [List.map_append, List.map_cons, ← Multiset.coe_singleton, Multiset.coe_add, List.map_append]
    exact Multiset.coe_eq_coe.mpr (List.perm_middle.trans (List.perm_append_singleton _ _).symm)
  have cut : ∀ (rest : Multiset (Task Lock Reply α)) (task : Task Lock Reply α),
      CutExpand Remains rest (rest + {task}) :=
    fun rest task => ⟨0, task, by simp, by rw [add_zero]⟩
  cases goes with
  | act acts =>
    rw [Crowd.left, Crowd.left, split, split]
    exact cutExpand_add_single _ acts.remains
  | finish =>
    rw [Crowd.left, Crowd.left, split]
    exact cut _ _
  | panic =>
    rw [Crowd.left, Crowd.left, split]
    exact cut _ _

/-- However the outside drifts, only finitely often does a task go on. -/
theorem passes_wellFounded :
    WellFounded fun next crowd : Crowd Lock Reply State α => Passes world crowd next := by
  refine Subrelation.wf ?_ (InvImage.wf Crowd.left remains_wellFounded.cutExpand)
  intro next crowd passes
  cases passes with
  | pass quiet goes => exact goes.cuts

/-- A task under way stays under way or is over, and then its outcome is kept. -/
theorem Goes.accounted (goes : Goes world crowd next) {id : Nat}
    (known : id ∈ crowd.ids ∨ ∃ outcome, (id, outcome) ∈ crowd.ended) :
    id ∈ next.ids ∨ ∃ outcome, (id, outcome) ∈ next.ended := by
  cases goes with
  | act acts => simpa [Crowd.ids] using known
  | @finish outside holder first value rest ended number =>
    by_cases same : id = number
    · exact .inr ⟨some value, by simp [same]⟩
    · simpa [Crowd.ids, same] using known
  | @panic outside holder first rest ended number =>
    by_cases same : id = number
    · exact .inr ⟨none, by simp [same]⟩
    · simpa [Crowd.ids, same] using known

/-- All locks are free and all of these tasks have come to their end. -/
structure Settled (ids : List Nat) (crowd : Crowd Lock Reply State α) : Prop where
  idle : crowd.tasks = []
  free : ∀ lock, crowd.holder lock = none
  ended : ∀ id ∈ ids, ∃ outcome, (id, outcome) ∈ crowd.ended

/-- In order, and with the end of these tasks still to come or on record. -/
structure Underway (below : Lock → Lock → Prop) (ids : List Nat) (crowd : Crowd Lock Reply State α) :
    Prop extends Disciplined below crowd where
  known : ∀ id ∈ ids, id ∈ crowd.ids ∨ ∃ outcome, (id, outcome) ∈ crowd.ended

omit [DecidableEq Lock] in
theorem Underway.settled {ids : List Nat} (underway : Underway below ids crowd) (idle : crowd.tasks = []) :
    Settled ids crowd where
  idle
  free lock := by
    cases held : crowd.holder lock with
    | none => rfl
    | some id =>
      have present := underway.present held
      rw [Crowd.ids, idle] at present
      cases present
  ended id member := by
    refine (underway.known id member).resolve_left fun present => ?_
    rw [Crowd.ids, idle] at present
    cases present

theorem Underway.passes {ids : List Nat} (underway : Underway below ids crowd)
    (passes : Passes world crowd next) : Underway below ids next := by
  cases passes with
  | pass quiet goes =>
    exact ⟨goes.disciplined underway.drift, fun id member => goes.accounted (underway.known id member)⟩

/-- Tasks in order are never caught in a deadlock: once no more come in, every
schedule brings each of them to its end. -/
theorem Disciplined.settles (answered : ∀ (outside : State) question, ∃ reply later,
      world.answers outside question reply later) (ascends : WellFounded (flip below))
    (disciplined : Disciplined below crowd) : Inevitably (Passes world) (Settled crowd.ids) crowd := by
  have underway : Underway below crowd.ids crowd := ⟨disciplined, fun id member => .inl member⟩
  refine inevitably_of_progress passes_wellFounded Underway.passes (fun inOrder unsettled => ?_) underway
  obtain ⟨next, goes⟩ := inOrder.goes answered ascends fun idle => unsettled (inOrder.settled idle)
  exact ⟨next, .pass .refl goes⟩

end CkbDiscovery.Effect
