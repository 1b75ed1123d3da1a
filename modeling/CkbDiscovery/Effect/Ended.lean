import CkbDiscovery.Effect.Replay

/-! Executions to their end, be it a value or a stop, with every state that the
world passed through meanwhile. -/

namespace CkbDiscovery.Effect

open Relation (ReflTransGen)

variable {Call State : Type} {Reply : Call → Type} {α β ε : Type}

/-- A program is finite in depth, so it has come to its end once all the calls
on its way are answered. -/
inductive Ended (world : World State Reply) :
    State → Program Reply α → List State → List (Event State Reply) → Option α → Prop where
  | done : Ended world state (.done value) [state] [] (some value)
  | stop : Ended world state .stop [state] [] none
  | drift (drifts : world.drifts before after)
      (rest : Ended world after program states trace outcome) :
      Ended world before program (before :: states) trace outcome
  | ask (answered : world.answers before question reply after)
      (rest : Ended world after (next reply) states trace outcome) :
      Ended world before (.ask question next) (before :: states)
        (⟨before, question, reply⟩ :: trace) outcome

/-- A replay that waits for some time before each call, and not at all once the
pauses have run out. -/
def Program.rehearse (respond : Responder State Reply) (wait : Nat → State → State) :
    Program Reply α → List Nat → State →
      Option (List State × List (Event State Reply) × Option α)
  | .done value, _, state => some ([state], [], some value)
  | .ask question next, pauses, state =>
    match respond (wait (pauses.headD 0) state) question with
    | none => none
    | some (reply, replied) =>
      match rehearse respond wait (next reply) pauses.tail replied with
      | none => none
      | some (states, trace, outcome) =>
        some (state :: wait (pauses.headD 0) state :: states,
          ⟨wait (pauses.headD 0) state, question, reply⟩ :: trace, outcome)
  | .stop, _, state => some ([state], [], none)

/-- An execution to its end, whatever it passed through. -/
def Ends (world : World State Reply) (before : State) (program : Program Reply α)
    (trace : List (Event State Reply)) (outcome : Option α) : Prop :=
  ∃ states, Ended world before program states trace outcome

variable {world : World State Reply} {before : State} {trace : List (Event State Reply)}

theorem Ended.of_rehearse {respond : Responder State Reply} (faithful : Faithful world respond)
    {wait : Nat → State → State} (drifts : ∀ pause state, world.drifts state (wait pause state))
    {program : Program Reply α}
    (rehearsed : program.rehearse respond wait pauses before = some (states, trace, outcome)) :
    Ended world before program states trace outcome := by
  induction program generalizing pauses before states trace with
  | done value =>
    cases rehearsed
    exact .done
  | ask question next inductionHypothesis =>
    simp only [Program.rehearse] at rehearsed
    split at rehearsed
    · cases rehearsed
    · rename_i answered
      split at rehearsed
      · cases rehearsed
      · rename_i rest
        cases rehearsed
        exact .drift (drifts _ _) (.ask (faithful _ _ _ _ answered) (inductionHypothesis _ rest))
  | stop =>
    cases rehearsed
    exact .stop

theorem Ended.visited {program : Program Reply α}
    (ended : Ended world before program states trace outcome) :
    ∀ event ∈ trace, event.before ∈ states := by
  induction ended with
  | done | stop => simp
  | drift _ _ inductionHypothesis =>
    intro event member
    exact List.mem_cons_of_mem _ (inductionHypothesis event member)
  | ask _ _ inductionHypothesis =>
    intro event member
    rcases List.mem_cons.mp member with same | later
    · rw [same]
      exact List.mem_cons_self
    · exact List.mem_cons_of_mem _ (inductionHypothesis event later)

theorem Ends.drift_left {program : Program Reply α}
    (quiet : ReflTransGen world.drifts earlier before)
    (ends : Ends world before program trace outcome) :
    Ends world earlier program trace outcome := by
  induction quiet using ReflTransGen.head_induction_on with
  | refl => exact ends
  | head drifts _ inductionHypothesis =>
    obtain ⟨states, ended⟩ := inductionHypothesis
    exact ⟨_, .drift drifts ended⟩

theorem Ends.ask {question : Call} {reply : Reply question} {next : Reply question → Program Reply α}
    (quiet : ReflTransGen world.drifts before asked)
    (answered : world.answers asked question reply replied)
    (rest : Ends world replied (next reply) trace outcome) :
    Ends world before (.ask question next) (⟨asked, question, reply⟩ :: trace) outcome := by
  obtain ⟨states, ended⟩ := rest
  exact Ends.drift_left quiet ⟨_, .ask answered ended⟩

theorem Ends.of_done {value : α} (ends : Ends world before (.done value) trace outcome) :
    trace = [] ∧ outcome = some value := by
  obtain ⟨states, ended⟩ := ends
  generalize same : Program.done value = program at ended
  induction ended with
  | done =>
    cases same
    exact ⟨rfl, rfl⟩
  | drift _ _ inductionHypothesis => exact inductionHypothesis same
  | stop | ask => cases same

theorem Ends.of_stop (ends : Ends world before (.stop : Program Reply α) trace outcome) :
    trace = [] ∧ outcome = none := by
  obtain ⟨states, ended⟩ := ends
  generalize same : Program.stop = program at ended
  induction ended with
  | stop => exact ⟨rfl, rfl⟩
  | drift _ _ inductionHypothesis => exact inductionHypothesis same
  | done | ask => cases same

theorem Ends.of_ask {question : Call} {next : Reply question → Program Reply α}
    (ends : Ends world before (.ask question next) trace outcome) :
    ∃ asked reply replied rest, ReflTransGen world.drifts before asked ∧
      world.answers asked question reply replied ∧
      Ends world replied (next reply) rest outcome ∧ trace = ⟨asked, question, reply⟩ :: rest := by
  obtain ⟨states, ended⟩ := ends
  generalize same : Program.ask question next = program at ended
  induction ended with
  | ask answered rest _ =>
    cases same
    exact ⟨_, _, _, _, .refl, answered, ⟨_, rest⟩, rfl⟩
  | drift drifts _ inductionHypothesis =>
    obtain ⟨asked, reply, replied, rest, quiet, further⟩ := inductionHypothesis same
    exact ⟨asked, reply, replied, rest, .head drifts quiet, further⟩
  | done | stop => cases same

/-- An execution in two parts ends in the first or passes on its value. -/
theorem Ends.split {program : Program Reply α} {next : α → Program Reply β}
    (ends : Ends world before (program >>= next) trace outcome) :
    (outcome = none ∧ Ends world before program trace none) ∨
      ∃ value middle first rest, Ends world before program first (some value) ∧
        Ends world middle (next value) rest outcome ∧ trace = first ++ rest := by
  induction program generalizing before trace with
  | done value => exact .inr ⟨value, before, [], trace, ⟨_, .done⟩, ends, rfl⟩
  | ask question continuation inductionHypothesis =>
    obtain ⟨asked, reply, replied, further, quiet, answered, later, rfl⟩ := Ends.of_ask ends
    rcases inductionHypothesis reply later with
      ⟨none, head⟩ | ⟨value, middle, first, rest, head, tail, rfl⟩
    · exact .inl ⟨none, Ends.ask quiet answered head⟩
    · exact .inr ⟨value, middle, _ :: first, rest, Ends.ask quiet answered head, tail, rfl⟩
  | stop =>
    obtain ⟨rfl, rfl⟩ := Ends.of_stop ends
    exact .inl ⟨rfl, _, .stop⟩

theorem Ends.permitted {program : Program Reply α} {permitted : Call → Prop}
    (within : program.Within permitted) (ends : Ends world before program trace outcome) :
    ∀ event ∈ trace, permitted event.question := by
  obtain ⟨states, ended⟩ := ends
  induction ended with
  | done | stop => simp
  | drift _ _ inductionHypothesis => exact inductionHypothesis within
  | ask _ _ inductionHypothesis =>
    intro event member
    rcases List.mem_cons.mp member with same | later
    · subst same
      exact within.1
    · exact inductionHypothesis (within.2 _) event later

theorem Ends.of_lift {program : Program Reply α}
    (ends : Ends world before (ExceptT.lift program : ExceptT ε (Program Reply) α).run trace outcome) :
    ∃ result, Ends world before program trace result ∧ outcome = result.map .ok := by
  rw [ExceptT.run_lift, map_eq_pure_bind] at ends
  rcases Ends.split ends with ⟨rfl, head⟩ | ⟨value, middle, first, rest, head, tail, rfl⟩
  · exact ⟨none, head, rfl⟩
  · obtain ⟨rfl, rfl⟩ := Ends.of_done tail
    rw [List.append_nil]
    exact ⟨some value, head, rfl⟩

/-- A query in two parts fails in the first or passes on its value. -/
theorem Ends.split_run {query : ExceptT ε (Program Reply) α} {next : α → ExceptT ε (Program Reply) β}
    (ends : Ends world before (query >>= next).run trace outcome) :
    (∃ failed, Ends world before query.run trace failed ∧ (¬ ∃ value, failed = some (.ok value)) ∧
        ¬ ∃ value, outcome = some (.ok value)) ∨
      ∃ value middle first rest, Ends world before query.run first (some (.ok value)) ∧
        Ends world middle (next value).run rest outcome ∧ trace = first ++ rest := by
  rw [ExceptT.run_bind] at ends
  rcases Ends.split ends with ⟨rfl, head⟩ | ⟨result, middle, first, rest, head, tail, rfl⟩
  · exact .inl ⟨none, head, by simp, by simp⟩
  · cases result with
    | ok value => exact .inr ⟨value, middle, first, rest, head, tail, rfl⟩
    | error error =>
      obtain ⟨rfl, rfl⟩ := Ends.of_done tail
      rw [List.append_nil]
      exact .inl ⟨_, head, by simp, by simp⟩

/-- What a query that succeeded came from. -/
theorem Ends.split_ok {query : ExceptT ε (Program Reply) α} {next : α → ExceptT ε (Program Reply) β}
    {result : β} (ends : Ends world before (query >>= next).run trace (some (.ok result))) :
    ∃ value middle first rest, Ends world before query.run first (some (.ok value)) ∧
      Ends world middle (next value).run rest (some (.ok result)) ∧ trace = first ++ rest := by
  rcases Ends.split_run ends with ⟨_, _, _, failed⟩ | parts
  · exact absurd ⟨result, rfl⟩ failed
  · exact parts

/-- The program comes to a value exactly if all its calls are sound. -/
def FinishesWhen (world : World State Reply) (sound : Event State Reply → Prop)
    (program : Program Reply α) : Prop :=
  ∀ before trace outcome, Ends world before program trace outcome →
    (outcome.isSome ↔ ∀ event ∈ trace, sound event)

/-- The query succeeds exactly if all its calls are sound. -/
def SucceedsWhen (world : World State Reply) (sound : Event State Reply → Prop)
    (query : ExceptT ε (Program Reply) α) : Prop :=
  ∀ before trace outcome, Ends world before query.run trace outcome →
    ((∃ value, outcome = some (.ok value)) ↔ ∀ event ∈ trace, sound event)

variable {sound : Event State Reply → Prop}

theorem SucceedsWhen.pure (value : α) :
    SucceedsWhen world sound (pure value : ExceptT ε (Program Reply) α) := by
  intro before trace outcome ends
  obtain ⟨rfl, rfl⟩ := Ends.of_done ends
  simp

theorem SucceedsWhen.lift {program : Program Reply α} (finishes : FinishesWhen world sound program) :
    SucceedsWhen world sound (ExceptT.lift program : ExceptT ε (Program Reply) α) := by
  intro before trace outcome ends
  obtain ⟨result, ended, rfl⟩ := Ends.of_lift ends
  rw [← finishes _ _ _ ended]
  cases result <;> simp

theorem SucceedsWhen.bind {query : ExceptT ε (Program Reply) α}
    {next : α → ExceptT ε (Program Reply) β} (first : SucceedsWhen world sound query)
    (rest : ∀ value, SucceedsWhen world sound (next value)) :
    SucceedsWhen world sound (query >>= next) := by
  intro before trace outcome ends
  rcases Ends.split_run ends with
    ⟨failed, head, fails, lost⟩ | ⟨value, middle, head, tail, started, ended, rfl⟩
  · rw [← first _ _ _ head]
    exact iff_of_false lost fails
  · have soundSofar := (first _ _ _ started).mp ⟨value, rfl⟩
    rw [rest value _ _ _ ended]
    constructor
    · intro soundLater event member
      rcases List.mem_append.mp member with earlier | later
      · exact soundSofar event earlier
      · exact soundLater event later
    · intro soundAll event member
      exact soundAll event (List.mem_append_right _ member)

end CkbDiscovery.Effect
