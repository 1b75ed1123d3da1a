import CkbDiscovery.Effect.Replay

/-! Computations that may be exchanged and computations that may be repeated,
in any lawful monad, and programs run as computations by a responder. -/

namespace CkbDiscovery.Effect

universe u v

section Computations

variable {m : Type u → Type v} [Monad m] {α β γ : Type u}

/-- Nothing that follows can tell which of the two came first. -/
structure Commutes (first : m α) (second : m β) : Prop where
  exchange : ∀ {γ : Type u} (next : α → β → m γ),
    (do let left ← first; let right ← second; next left right) =
      do let right ← second; let left ← first; next left right

/-- Nothing that follows can tell whether it was done once more. -/
structure Idempotent (computation : m PUnit) : Prop where
  absorb : ∀ {γ : Type u} (next : m γ), (do computation; computation; next) = (do computation; next)

theorem Commutes.symm {first : m α} {second : m β} (commutes : Commutes first second) :
    Commutes second first :=
  ⟨fun next => (commutes.exchange fun left right => next right left).symm⟩

theorem Commutes.self (computation : m PUnit) : Commutes computation computation :=
  ⟨fun _ => rfl⟩

variable [LawfulMonad m]

theorem Commutes.pure (value : α) (second : m β) : Commutes (pure value : m α) second := by
  constructor
  intro γ next
  simp only [pure_bind]

theorem Commutes.bind {first : m α} {next : α → m β} {second : m γ}
    (head : Commutes first second) (rest : ∀ value, Commutes (next value) second) :
    Commutes (first >>= next) second := by
  constructor
  intro δ continuation
  calc ((first >>= next) >>= fun left => second >>= fun right => continuation left right)
      = (first >>= fun value => next value >>= fun left =>
          second >>= fun right => continuation left right) := by rw [bind_assoc]
    _ = (first >>= fun value => second >>= fun right =>
          next value >>= fun left => continuation left right) := by
        congr 1
        funext value
        exact (rest value).exchange continuation
    _ = (second >>= fun right => first >>= fun value =>
          next value >>= fun left => continuation left right) :=
        head.exchange fun value right => next value >>= fun left => continuation left right
    _ = (second >>= fun right => (first >>= next) >>= fun left => continuation left right) := by
        simp only [bind_assoc]

theorem Commutes.bind_right {first : m α} {second : m β} {next : β → m γ}
    (head : Commutes first second) (rest : ∀ value, Commutes first (next value)) :
    Commutes first (second >>= next) :=
  (head.symm.bind fun value => (rest value).symm).symm

theorem Idempotent.pure : Idempotent (pure ⟨⟩ : m PUnit) := by
  constructor
  intro γ next
  simp only [pure_bind]

/-- Two parts that may each be repeated may be repeated together if they may
be exchanged. -/
theorem Idempotent.andThen {first second : m PUnit} (head : Idempotent first)
    (tail : Idempotent second) (apart : Commutes second first) :
    Idempotent (do first; second) := by
  constructor
  intro γ next
  calc (do (do first; second); (do first; second); next)
      = (do first; second; first; second; next) := by simp only [bind_assoc]
    _ = (do first; first; second; second; next) := by
        congr 1
        funext _
        exact apart.exchange fun _ _ => do second; next
    _ = (do first; second; second; next) := head.absorb _
    _ = (do first; second; next) := by
        congr 1
        funext _
        exact tail.absorb next
    _ = (do (do first; second); next) := by simp only [bind_assoc]

end Computations

variable {Call State : Type} {Reply : Call → Type} {α β : Type}

/-- The answer to one question as a computation on the state. -/
def Responder.step (respond : Responder State Reply) (question : Call) :
    StateT State Option (Reply question) := fun state => respond state question

/-- A program as a computation; one that stops has no result. -/
def Program.run (respond : Responder State Reply) : Program Reply α → StateT State Option α
  | .done value => pure value
  | .ask question next => respond.step question >>= fun reply => run respond (next reply)
  | .stop => failure

variable {respond : Responder State Reply}

@[simp] theorem run_perform (question : Call) :
    (Program.perform question).run respond = respond.step question :=
  bind_pure (respond.step question)

/-- A computation that leaves the states it leads to alone may be repeated. -/
theorem idempotent_of_stable {computation : StateT State Option PUnit}
    (stable : ∀ {before after}, computation before = some (⟨⟩, after) →
      computation after = some (⟨⟩, after)) : Idempotent computation := by
  constructor
  intro γ next
  funext before
  change (computation before).bind (fun first => (computation first.2).bind fun second => next second.2) =
    (computation before).bind fun first => next first.2
  cases ran : computation before with
  | none => rfl
  | some result => rw [Option.bind_some, Option.bind_some, stable ran, Option.bind_some]

theorem Idempotent.stable {computation : StateT State Option PUnit} (idempotent : Idempotent computation)
    {before after : State} (ran : computation before = some (⟨⟩, after)) :
    computation after = some (⟨⟩, after) := by
  have twice := congrArg (fun computation => computation before)
    (idempotent.absorb (Pure.pure ⟨⟩ : StateT State Option PUnit))
  change (computation before).bind (fun first => (computation first.2).bind fun second =>
      some (PUnit.unit, second.2)) = (computation before).bind fun first => some (PUnit.unit, first.2) at twice
  rw [ran, Option.bind_some, Option.bind_some] at twice
  obtain ⟨again, ranAgain, same⟩ := Option.bind_eq_some_iff.mp twice
  cases same
  exact ranAgain

theorem bind_failure (computation : StateT State Option α) :
    (computation >>= fun _ => failure : StateT State Option β) = failure := by
  funext state
  change (computation state >>= fun _ => none) = none
  cases computation state <;> rfl

theorem Commutes.failure (second : StateT State Option β) :
    Commutes (failure : StateT State Option α) second := by
  constructor
  intro γ next
  exact (bind_failure second).symm

@[simp] theorem run_bind (program : Program Reply α) (next : α → Program Reply β) :
    (program >>= next).run respond = program.run respond >>= fun value => (next value).run respond := by
  induction program with
  | done value => exact (pure_bind value fun value => (next value).run respond).symm
  | ask question rest inductionHypothesis =>
    rw [Program.ask_bind, Program.run, Program.run, bind_assoc]
    apply congrArg (respond.step question >>= ·)
    funext reply
    exact inductionHypothesis reply
  | stop => rfl

theorem run_bind_apply (program : Program Reply α) (next : α → Program Reply β) (state : State) :
    (program >>= next).run respond state =
      (program.run respond state).bind fun result => (next result.1).run respond result.2 := by
  rw [run_bind]
  rfl

theorem run_perform_bind (question : Call) (next : Reply question → Program Reply α) (state : State) :
    (Program.perform question >>= next).run respond state =
      (respond state question).bind fun result => (next result.1).run respond result.2 := rfl

/-- A program commutes with what all its questions commute with. -/
theorem run_commutes {permitted : Call → Prop} {second : StateT State Option β}
    (each : ∀ question, permitted question → Commutes (respond.step question) second)
    {program : Program Reply α} (within : program.Within permitted) :
    Commutes (program.run respond) second := by
  induction program with
  | done value => exact .pure value second
  | ask question next inductionHypothesis =>
    exact (each question within.1).bind fun reply => inductionHypothesis reply (within.2 reply)
  | stop => exact .failure second

/-- A run is a replay without its trace. -/
theorem run_eq_replay (program : Program Reply α) (state : State) :
    program.run respond state =
      (program.replay respond state).map fun result => (result.2.2, result.2.1) := by
  induction program generalizing state with
  | done value => rfl
  | ask question next inductionHypothesis =>
    change (respond state question >>= fun answered => (next answered.1).run respond answered.2) = _
    rw [Program.replay]
    cases answered : respond state question with
    | none => rfl
    | some result =>
      obtain ⟨reply, replied⟩ := result
      change (next reply).run respond replied = _
      rw [inductionHypothesis]
      cases rest : (next reply).replay respond replied <;> simp [rest]
  | stop => rfl

/-- A relation kept by every permitted answer is kept by a run. -/
theorem run_relates {permitted : Call → Prop} (relation : State → State → Prop)
    (refl : ∀ state, relation state state)
    (trans : ∀ {first second third}, relation first second → relation second third →
      relation first third)
    (answer : ∀ {state question reply replied}, permitted question →
      respond state question = some (reply, replied) → relation state replied)
    {program : Program Reply α} (within : program.Within permitted) {before after : State} {value : α}
    (ran : program.run respond before = some (value, after)) : relation before after := by
  induction program generalizing before with
  | done result =>
    cases ran
    exact refl _
  | ask question next inductionHypothesis =>
    obtain ⟨⟨reply, replied⟩, answered, rest⟩ := Option.bind_eq_some_iff.mp ran
    exact trans (answer within.1 answered) (inductionHypothesis reply (within.2 reply) rest)
  | stop => cases ran

end CkbDiscovery.Effect
