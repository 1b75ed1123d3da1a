import CkbDiscovery.Effect.Ended

/-! Type safety for programs over atomic calls. A world that may refuse a call
behaves like one that never does, as long as every program asks what the state
is fit to answer. -/

namespace CkbDiscovery.Effect

open Relation (ReflTransGen)

variable {Call State Message : Type} {Reply : Call → Type} {α β : Type}

namespace Program

/-- As long as it gets replies that can come, the program asks permitted questions. -/
def Respects (permitted : Call → Prop) (possible : (question : Call) → Reply question → Prop) :
    Program Reply α → Prop
  | done _ => True
  | ask question next => permitted question ∧
      ∀ reply, possible question reply → Respects permitted possible (next reply)
  | stop => True

/-- Of the replies that can come, the program also goes on after the good ones
to its end, and gives up at once after any other. -/
def Assured (permitted : Call → Prop) (possible good : (question : Call) → Reply question → Prop) :
    Program Reply α → Prop
  | done _ => True
  | ask question next => permitted question ∧ ∀ reply, possible question reply →
      (good question reply ∧ Assured permitted possible good (next reply)) ∨
        (¬ good question reply ∧ next reply = stop)
  | stop => False

variable {permitted : Call → Prop} {possible good : (question : Call) → Reply question → Prop}

theorem Respects.andThen {program : Program Reply α} {next : α → Program Reply β}
    (first : program.Respects permitted possible)
    (rest : ∀ value, (next value).Respects permitted possible) :
    (program >>= next).Respects permitted possible := by
  induction program with
  | done value => exact rest value
  | ask question continuation inductionHypothesis =>
    exact ⟨first.1, fun reply came => inductionHypothesis reply (first.2 reply came)⟩
  | stop => trivial

theorem Respects.run_bind {query : ExceptT ε (Program Reply) α} {next : α → ExceptT ε (Program Reply) β}
    (first : query.run.Respects permitted possible)
    (rest : ∀ value, (next value).run.Respects permitted possible) :
    (query >>= next).run.Respects permitted possible := by
  rw [ExceptT.run_bind]
  refine first.andThen fun result => ?_
  cases result with
  | ok value => exact rest value
  | error error => trivial

theorem Respects.run_lift {program : Program Reply α} (respects : program.Respects permitted possible) :
    (ExceptT.lift program : ExceptT ε (Program Reply) α).run.Respects permitted possible := by
  rw [ExceptT.run_lift, map_eq_pure_bind]
  exact respects.andThen fun _ => trivial

theorem Assured.respects {program : Program Reply α} (assured : program.Assured permitted possible good) :
    program.Respects permitted possible := by
  induction program with
  | done value => trivial
  | ask question next inductionHypothesis =>
    refine ⟨assured.1, fun reply came => ?_⟩
    rcases assured.2 reply came with ⟨_, further⟩ | ⟨_, stopped⟩
    · exact inductionHypothesis reply further
    · rw [stopped]
      trivial
  | stop => trivial

theorem Assured.andThen {program : Program Reply α} {next : α → Program Reply β}
    (first : program.Assured permitted possible good)
    (rest : ∀ value, (next value).Assured permitted possible good) :
    (program >>= next).Assured permitted possible good := by
  induction program with
  | done value => exact rest value
  | ask question continuation inductionHypothesis =>
    refine ⟨first.1, fun reply came => ?_⟩
    rcases first.2 reply came with ⟨fine, further⟩ | ⟨bad, stopped⟩
    · exact .inl ⟨fine, inductionHypothesis reply further⟩
    · refine .inr ⟨bad, ?_⟩
      change continuation reply >>= next = stop
      rw [stopped]
      rfl
  | stop => cases first

theorem Assured.forEach {body : β → Program Reply Unit} {items : List β}
    (each : ∀ item ∈ items, (body item).Assured permitted possible good) :
    (Program.forEach body items).Assured permitted possible good := by
  induction items with
  | nil => trivial
  | cons item rest inductionHypothesis =>
    refine (each item List.mem_cons_self).andThen fun _ => ?_
    exact inductionHypothesis fun other member => each other (List.mem_cons_of_mem item member)

/-- A call whose replies are all good. -/
theorem Assured.perform {question : Call} (allowed : permitted question)
    (fine : ∀ reply, possible question reply → good question reply) :
    (Program.perform question).Assured permitted possible good :=
  ⟨allowed, fun reply came => .inl ⟨fine reply came, trivial⟩⟩

end Program

/-- Within limits, the wide world does to sound states what the narrow one does,
and they stay sound. Limits hold of what came before if they hold later. -/
structure Narrows (wide narrow : World State Reply) (permitted : Call → Prop)
    (sound limit : State → Prop) : Prop where
  drifts : ∀ {before after}, sound before → limit before → wide.drifts before after →
    narrow.drifts before after
  answers : ∀ {before question reply after}, sound before → limit before → permitted question →
    wide.answers before question reply after → narrow.answers before question reply after
  drifted : ∀ {before after}, sound before → narrow.drifts before after → sound after
  answered : ∀ {before question reply after}, sound before → permitted question →
    narrow.answers before question reply after → sound after
  driftLimit : ∀ {before after}, wide.drifts before after → limit after → limit before
  answerLimit : ∀ {before question reply after}, wide.answers before question reply after →
    limit after → limit before

/-- The replies that can come in a world. -/
def Comes (world : World State Reply) (question : Call) (reply : Reply question) : Prop :=
  ∃ before after, world.answers before question reply after

variable {wide narrow : World State Reply} {permitted : Call → Prop} {sound limit : State → Prop}
  {good : (question : Call) → Reply question → Prop} {before after : State}
  {trace : List (Event State Reply)}

theorem Narrows.limited (narrows : Narrows wide narrow permitted sound limit)
    (path : Path wide before trace after) (within : limit after) : limit before := by
  refine path.relates (fun earlier later => limit later → limit earlier) (fun _ => id)
    (fun first last further => first (last further)) narrows.driftLimit
    (fun _ answered => narrows.answerLimit answered) (fun _ _ => trivial) within

theorem Narrows.quiet (narrows : Narrows wide narrow permitted sound limit)
    (quiet : ReflTransGen wide.drifts before after) (fit : sound before) (within : limit after) :
    ReflTransGen narrow.drifts before after ∧ sound after := by
  induction quiet with
  | refl => exact ⟨.refl, fit⟩
  | tail _ drifts inductionHypothesis =>
    have earlier := narrows.driftLimit drifts within
    obtain ⟨quietly, fitting⟩ := inductionHypothesis earlier
    have narrowly := narrows.drifts fitting earlier drifts
    exact ⟨quietly.tail narrowly, narrows.drifted fitting narrowly⟩

/-- Preservation: what completes in the wide world completes in the narrow one. -/
theorem Completes.narrowed (narrows : Narrows wide narrow permitted sound limit) {program : Program Reply α}
    (completes : Completes wide before program trace after value)
    (respects : program.Respects permitted (Comes narrow)) (fit : sound before) (within : limit after) :
    Completes narrow before program trace after value ∧ sound after := by
  induction completes with
  | done quiet =>
    obtain ⟨quietly, sounder⟩ := narrows.quiet quiet fit within
    exact ⟨.done quietly, sounder⟩
  | ask quiet answered rest inductionHypothesis =>
    have asking := narrows.answerLimit answered (narrows.limited rest.reaches.path within)
    obtain ⟨quietly, fitting⟩ := narrows.quiet quiet fit asking
    have narrowly := narrows.answers fitting asking respects.1 answered
    obtain ⟨completes, sounder⟩ := inductionHypothesis (respects.2 _ ⟨_, _, narrowly⟩)
      (narrows.answered fitting respects.1 narrowly) within
    exact ⟨.ask quietly narrowly completes, sounder⟩

/-- A whole run of the wide world is one of the narrow world. -/
theorem Run.narrowed (narrows : Narrows wide narrow permitted sound limit)
    {handle : Message → Program Reply Unit} {start : State} {turns : List (Turn State Reply Message)}
    (respects : ∀ message, (handle message).Respects permitted (Comes narrow))
    (run : Run wide handle start turns after) (fit : sound start) (within : limit after) :
    Run narrow handle start turns after ∧ sound after := by
  induction run with
  | start => exact ⟨.start, fit⟩
  | turn _ completes inductionHypothesis =>
    obtain ⟨earlier, fitting⟩ := inductionHypothesis (narrows.limited completes.reaches.path within)
    obtain ⟨narrowly, sounder⟩ := completes.narrowed narrows (respects _) fitting within
    exact ⟨.turn earlier narrowly, sounder⟩

theorem Ended.visits_start {world : World State Reply} {program : Program Reply α}
    (ended : Ended world before program states trace outcome) : before ∈ states := by
  cases ended <;> exact List.mem_cons_self

/-- What ends in the wide world, be it early, ends so in the narrow one. -/
theorem Ended.narrowed (narrows : Narrows wide narrow permitted sound limit) {program : Program Reply α}
    (ended : Ended wide before program states trace outcome)
    (respects : program.Respects permitted (Comes narrow)) (fit : sound before)
    (within : ∀ state ∈ states, limit state) : Ended narrow before program states trace outcome := by
  induction ended with
  | done => exact .done
  | stop => exact .stop
  | drift drifts _ inductionHypothesis =>
    have narrowly := narrows.drifts fit (within _ List.mem_cons_self) drifts
    exact .drift narrowly (inductionHypothesis respects (narrows.drifted fit narrowly)
      fun state member => within state (List.mem_cons_of_mem _ member))
  | ask answered _ inductionHypothesis =>
    have narrowly := narrows.answers fit (within _ List.mem_cons_self) respects.1 answered
    exact .ask narrowly (inductionHypothesis (respects.2 _ ⟨_, _, narrowly⟩)
      (narrows.answered fit respects.1 narrowly)
      fun state member => within state (List.mem_cons_of_mem _ member))

theorem Ended.mono (narrow wide : World State Reply)
    (drifts : ∀ {earlier later}, narrow.drifts earlier later → wide.drifts earlier later)
    (answers : ∀ {asked question reply replied}, narrow.answers asked question reply replied →
      wide.answers asked question reply replied)
    {program : Program Reply α} (ended : Ended narrow before program states trace outcome) :
    Ended wide before program states trace outcome := by
  induction ended with
  | done => exact .done
  | stop => exact .stop
  | drift quiet _ inductionHypothesis => exact .drift (drifts quiet) inductionHypothesis
  | ask answered _ inductionHypothesis => exact .ask (answers answered) inductionHypothesis

theorem Ended.of_stop {world : World State Reply}
    (ended : Ended world before (.stop : Program Reply α) states trace outcome) :
    trace = [] ∧ outcome = none :=
  Ends.of_stop ⟨states, ended⟩

/-- Progress: an assured program comes to its end exactly if it gets good replies only. -/
theorem Ended.finishes {world : World State Reply} {program : Program Reply α}
    (ended : Ended world before program states trace outcome)
    (assured : program.Assured permitted (Comes world) good) :
    outcome.isSome ↔ ∀ event ∈ trace, good event.question event.reply := by
  induction ended with
  | done => simp
  | stop => cases assured
  | drift _ _ inductionHypothesis => exact inductionHypothesis assured
  | ask answered rest inductionHypothesis =>
    rcases assured.2 _ ⟨_, _, answered⟩ with ⟨fine, further⟩ | ⟨bad, stopped⟩
    · rw [inductionHypothesis further]
      simp [fine]
    · rw [stopped] at rest
      obtain ⟨rfl, rfl⟩ := rest.of_stop
      simp [bad]

/-- An assured program completes if the world has a good answer to all it may ask. -/
theorem Program.Assured.completes {world : World State Reply} {program : Program Reply α}
    (assured : program.Assured permitted (Comes world) good)
    (answerable : ∀ {state} question, sound state → permitted question →
      ∃ reply after, world.answers state question reply after ∧ good question reply ∧ sound after)
    (fit : sound before) :
    ∃ trace after value, Completes world before program trace after value ∧ sound after := by
  induction program generalizing before with
  | done value => exact ⟨[], before, value, .done .refl, fit⟩
  | ask question next inductionHypothesis =>
    obtain ⟨reply, replied, answered, fine, keeps⟩ := answerable question fit assured.1
    rcases assured.2 reply ⟨_, _, answered⟩ with ⟨_, further⟩ | ⟨bad, _⟩
    · obtain ⟨trace, after, value, completes, sounder⟩ := inductionHypothesis reply further keeps
      exact ⟨_, after, value, .ask .refl answered completes, sounder⟩
    · exact absurd fine bad
  | stop => cases assured

end CkbDiscovery.Effect
