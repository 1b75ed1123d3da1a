import CkbDiscovery.Effect.Execution

/-! Programs under fixed answers: every question has one reply, whenever it is
asked, so a program is a partial value. -/

namespace CkbDiscovery.Effect

variable {Call State : Type} {Reply : Call → Type} {α β ε : Type}

namespace Program

def evaluate (answer : (question : Call) → Reply question) : Program Reply α → Option α
  | done value => some value
  | ask question next => evaluate answer (next (answer question))
  | stop => none

variable (answer : (question : Call) → Reply question)

@[simp] theorem evaluate_done (value : α) :
    (done value : Program Reply α).evaluate answer = some value := rfl

theorem evaluate_bind (program : Program Reply α) (next : α → Program Reply β) :
    (program >>= next).evaluate answer =
      (program.evaluate answer).bind fun value => (next value).evaluate answer := by
  induction program with
  | done value => rfl
  | ask question rest inductionHypothesis => exact inductionHypothesis (answer question)
  | stop => rfl

/-- Evaluation of a program that may also return an error. -/
theorem evaluate_run_bind (query : ExceptT ε (Program Reply) α)
    (next : α → ExceptT ε (Program Reply) β) :
    (query >>= next).run.evaluate answer =
      (query.run.evaluate answer).bind fun
        | .ok value => (next value).run.evaluate answer
        | .error error => some (.error error) := by
  rw [ExceptT.run_bind, evaluate_bind]
  congr 1
  funext result
  cases result <;> rfl

variable {answer}

theorem evaluate_run_ok {query : ExceptT ε (Program Reply) α} {value : α}
    (evaluated : query.run.evaluate answer = some (.ok value))
    (next : α → ExceptT ε (Program Reply) β) :
    (query >>= next).run.evaluate answer = (next value).run.evaluate answer := by
  rw [evaluate_run_bind, evaluated, Option.bind_some]

/-- What a query without an error came from. -/
theorem evaluate_run_split {query : ExceptT ε (Program Reply) α}
    {next : α → ExceptT ε (Program Reply) β} {result : β}
    (evaluated : (query >>= next).run.evaluate answer = some (.ok result)) :
    ∃ value, query.run.evaluate answer = some (.ok value) ∧
      (next value).run.evaluate answer = some (.ok result) := by
  rw [evaluate_run_bind] at evaluated
  obtain ⟨reply, first, rest⟩ := Option.bind_eq_some_iff.mp evaluated
  cases reply with
  | ok value => exact ⟨value, first, rest⟩
  | error error => cases rest

theorem evaluate_run_lift (program : Program Reply α) :
    (ExceptT.lift program : ExceptT ε (Program Reply) α).run.evaluate answer =
      (program.evaluate answer).map .ok := by
  rw [ExceptT.run_lift, map_eq_pure_bind, evaluate_bind]
  cases program.evaluate answer <;> rfl

end Program

namespace Program

variable (answer : (question : Call) → Reply question)

/-- The questions asked on the way, also by a program that stops. -/
def calls : Program Reply α → List Call
  | done _ => []
  | ask question next => question :: calls (next (answer question))
  | stop => []

theorem calls_bind (program : Program Reply α) (next : α → Program Reply β) :
    (program >>= next).calls answer = program.calls answer ++
      ((program.evaluate answer).map fun value => (next value).calls answer).getD [] := by
  induction program with
  | done value => rfl
  | ask question rest inductionHypothesis =>
    exact congrArg (question :: ·) (inductionHypothesis (answer question))
  | stop => rfl

theorem calls_forEach_cons (body : β → Program Reply Unit) (item : β) (rest : List β) :
    (forEach body (item :: rest)).calls answer = (body item).calls answer ++
      (((body item).evaluate answer).map fun _ => (forEach body rest).calls answer).getD [] :=
  calls_bind answer _ _

theorem evaluate_forEach_cons (body : β → Program Reply Unit) (item : β) (rest : List β) :
    (forEach body (item :: rest)).evaluate answer =
      ((body item).evaluate answer).bind fun _ => (forEach body rest).evaluate answer :=
  evaluate_bind answer _ _

/-- A loop asks nothing but what its body asks for some item. -/
theorem mem_calls_forEach {body : β → Program Reply Unit} {items : List β} {question : Call}
    (asked : question ∈ (forEach body items).calls answer) :
    ∃ item ∈ items, question ∈ (body item).calls answer := by
  induction items with
  | nil => cases asked
  | cons item rest inductionHypothesis =>
    rw [calls_forEach_cons] at asked
    rcases List.mem_append.mp asked with here | later
    · exact ⟨item, List.mem_cons_self, here⟩
    · cases finished : (body item).evaluate answer with
      | none => simp [finished] at later
      | some value =>
        obtain ⟨other, member, found⟩ := inductionHypothesis (by simpa [finished] using later)
        exact ⟨other, List.mem_cons_of_mem _ member, found⟩

/-- A loop that finishes has finished its body, with all its calls, for every item. -/
theorem forEach_finishes {body : β → Program Reply Unit} {items : List β} :
    ((forEach body items).evaluate answer).isSome ↔
      ∀ item ∈ items, ((body item).evaluate answer).isSome := by
  induction items with
  | nil => simp [forEach]
  | cons item rest inductionHypothesis =>
    rw [evaluate_forEach_cons]
    cases finished : (body item).evaluate answer with
    | none => simp [finished]
    | some value => simp [finished, inductionHypothesis]

theorem calls_of_finishes {body : β → Program Reply Unit} {items : List β} {item : β}
    (finishes : ((forEach body items).evaluate answer).isSome) (member : item ∈ items) :
    (body item).calls answer ⊆ (forEach body items).calls answer := by
  induction items with
  | nil => cases member
  | cons head rest inductionHypothesis =>
    rw [evaluate_forEach_cons] at finishes
    rw [calls_forEach_cons]
    cases finished : (body head).evaluate answer with
    | none => simp [finished] at finishes
    | some value =>
      rw [finished, Option.bind_some] at finishes
      rcases List.mem_cons.mp member with same | later
      · subst same
        exact List.subset_append_left _ _
      · exact List.Subset.trans (inductionHypothesis finishes later) (List.subset_append_right _ _)

variable {answer} in
/-- A program within a permission asks permitted questions under any answers. -/
theorem Within.calls {permitted : Call → Prop} {program : Program Reply α} (within : program.Within permitted)
    {question : Call} (asked : question ∈ program.calls answer) : permitted question := by
  induction program with
  | done value => cases asked
  | ask first next inductionHypothesis =>
    rcases List.mem_cons.mp asked with rfl | later
    · exact within.1
    · exact inductionHypothesis (answer first) (within.2 _) later
  | stop => cases asked

variable {Wider : Type} {WiderReply : Wider → Type}

/-- The same program with every call made through a program of a wider interface. -/
def translate (through : (question : Call) → Program WiderReply (Reply question)) :
    Program Reply α → Program WiderReply α
  | done value => done value
  | ask question next => through question >>= fun reply => translate through (next reply)
  | stop => stop

/-- A translation that makes one call for each call asks what the program asks. -/
theorem calls_translate {through : (question : Call) → Program WiderReply (Reply question)}
    {embed : Call → Wider} (wider : (question : Wider) → WiderReply question)
    (asks : ∀ question, (through question).calls wider = [embed question])
    (replies : ∀ question, (through question).evaluate wider = some (answer question))
    (program : Program Reply α) :
    (program.translate through).calls wider = (program.calls answer).map embed := by
  induction program with
  | done value => rfl
  | ask question next inductionHypothesis =>
    change (through question >>= _).calls wider = _
    rw [calls_bind, asks, replies, Option.map_some, Option.getD_some, inductionHypothesis]
    rfl
  | stop => rfl

end Program

/-- What is left of a program after some of its questions have been answered. -/
inductive Follows (program : Program Reply α) :
    List (Event State Reply) → Program Reply α → Prop where
  | start : Follows program [] program
  | answer (sofar : Follows program trace (.ask question next)) :
      Follows program (trace ++ [⟨asked, question, reply⟩]) (next reply)

/-- Answers that could have come from one place leave the value as it is there. -/
theorem Follows.evaluate {answer : (question : Call) → Reply question} {program rest : Program Reply α}
    {trace : List (Event State Reply)} (follows : Follows program trace rest)
    (same : ∀ event ∈ trace, event.reply = answer event.question) :
    program.evaluate answer = rest.evaluate answer := by
  induction follows with
  | start => rfl
  | answer _ inductionHypothesis =>
    rw [inductionHypothesis fun event member => same event (List.mem_append_left _ member),
      Program.evaluate, ← same _ (List.mem_append_right _ List.mem_cons_self)]

end CkbDiscovery.Effect
