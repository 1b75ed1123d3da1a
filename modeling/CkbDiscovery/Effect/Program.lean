import Mathlib.Logic.Relation

/-! Programs over atomic calls. A program is a tree of typed calls and knows
nothing of the state they act on, so one text can be read in several worlds:
run alone, interleaved with other parties, or cut short. -/

namespace CkbDiscovery.Effect

variable {Call : Type} {Reply : Call → Type} {α β γ ε : Type}

/-- `stop` gives the program up: an early return or a panic. -/
inductive Program (Reply : Call → Type) (α : Type) where
  | done (value : α)
  | ask (question : Call) (next : Reply question → Program Reply α)
  | stop

namespace Program

def andThen (next : α → Program Reply β) : Program Reply α → Program Reply β
  | done value => next value
  | ask question rest => ask question fun reply => andThen next (rest reply)
  | stop => stop

instance : Monad (Program Reply) where
  pure := done
  bind program next := andThen next program

/-- Issue one call and hand back its reply. -/
def perform (question : Call) : Program Reply (Reply question) := ask question done

@[simp] theorem pure_eq_done (value : α) :
    (pure value : Program Reply α) = done value := rfl

@[simp] theorem done_bind (value : α) (next : α → Program Reply β) :
    done value >>= next = next value := rfl

@[simp] theorem ask_bind (question : Call) (rest : Reply question → Program Reply α)
    (next : α → Program Reply β) :
    ask question rest >>= next = ask question fun reply => rest reply >>= next := rfl

theorem bind_done (program : Program Reply α) : program >>= done = program := by
  induction program with
  | done value => rfl
  | ask question rest inductionHypothesis =>
    rw [ask_bind]
    exact congrArg (ask question) (funext inductionHypothesis)
  | stop => rfl

theorem bind_assoc (program : Program Reply α) (first : α → Program Reply β)
    (second : β → Program Reply γ) :
    program >>= first >>= second = program >>= fun value => first value >>= second := by
  induction program with
  | done value => rfl
  | ask question rest inductionHypothesis =>
    rw [ask_bind, ask_bind, ask_bind]
    exact congrArg (ask question) (funext inductionHypothesis)
  | stop => rfl

instance : LawfulMonad (Program Reply) :=
  LawfulMonad.mk' (Program Reply) bind_done (fun _ _ => rfl) bind_assoc

/-- Run the body once for every item, in order. -/
def forEach (body : β → Program Reply Unit) : List β → Program Reply Unit
  | [] => done ()
  | item :: rest => body item >>= fun _ => forEach body rest

/-- Whatever the replies, the program asks permitted questions only. -/
def Within (permitted : Call → Prop) : Program Reply α → Prop
  | done _ => True
  | ask question next => permitted question ∧ ∀ reply, Within permitted (next reply)
  | stop => True

theorem Within.andThen {permitted : Call → Prop} {program : Program Reply α}
    {next : α → Program Reply β} (first : program.Within permitted)
    (rest : ∀ value, (next value).Within permitted) : (program >>= next).Within permitted := by
  induction program with
  | done value => exact rest value
  | ask question continuation inductionHypothesis =>
    exact ⟨first.1, fun reply => inductionHypothesis reply (first.2 reply)⟩
  | stop => trivial

theorem Within.run_bind {permitted : Call → Prop} {query : ExceptT ε (Program Reply) α}
    {next : α → ExceptT ε (Program Reply) β} (first : query.run.Within permitted)
    (rest : ∀ value, (next value).run.Within permitted) : (query >>= next).run.Within permitted := by
  rw [ExceptT.run_bind]
  apply Within.andThen first
  intro result
  cases result with
  | ok value => exact rest value
  | error error => trivial

theorem Within.run_lift {permitted : Call → Prop} {program : Program Reply α}
    (within : program.Within permitted) :
    (ExceptT.lift program : ExceptT ε (Program Reply) α).run.Within permitted := by
  rw [ExceptT.run_lift, map_eq_pure_bind]
  exact Within.andThen within fun _ => trivial

theorem Within.mono {narrow wide : Call → Prop} {program : Program Reply α}
    (within : program.Within narrow) (included : ∀ question, narrow question → wide question) :
    program.Within wide := by
  induction program with
  | done value => trivial
  | ask question next inductionHypothesis =>
    exact ⟨included question within.1, fun reply => inductionHypothesis reply (within.2 reply)⟩
  | stop => trivial

theorem Within.forEach {permitted : Call → Prop} {body : β → Program Reply Unit} {items : List β}
    (each : ∀ item ∈ items, (body item).Within permitted) :
    (forEach body items).Within permitted := by
  induction items with
  | nil => trivial
  | cons item rest inductionHypothesis =>
    apply Within.andThen (each item List.mem_cons_self)
    intro _
    exact inductionHypothesis fun other member => each other (List.mem_cons_of_mem item member)

end Program

end CkbDiscovery.Effect
