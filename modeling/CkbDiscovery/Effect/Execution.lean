import CkbDiscovery.Effect.Program

/-! Executions of a program in a world that moves on its own between any two
calls. Only completed executions are related: a program that stops has none. -/

namespace CkbDiscovery.Effect

open Relation (ReflTransGen)

variable {Call State : Type} {Reply : Call → Type} {α β : Type}

/-- How the surroundings answer one call, and how they drift between calls. -/
structure World (State : Type) (Reply : Call → Type) where
  answers : State → (question : Call) → Reply question → State → Prop
  drifts : State → State → Prop

/-- One answered call, with the state it was asked in. -/
structure Event (State : Type) (Reply : Call → Type) where
  before : State
  question : Call
  reply : Reply question

/-- A completed execution and the calls it made, oldest first. -/
inductive Completes (world : World State Reply) :
    State → Program Reply α → List (Event State Reply) → State → α → Prop where
  | done (quiet : ReflTransGen world.drifts before after) :
      Completes world before (.done value) [] after value
  | ask (quiet : ReflTransGen world.drifts before asked)
      (answered : world.answers asked question reply replied)
      (rest : Completes world replied (next reply) trace after value) :
      Completes world before (.ask question next) (⟨asked, question, reply⟩ :: trace) after value

variable {world : World State Reply}

theorem Completes.drift_left {program : Program Reply α}
    (quiet : ReflTransGen world.drifts earlier before)
    (completes : Completes world before program trace after value) :
    Completes world earlier program trace after value := by
  cases completes with
  | done later => exact .done (quiet.trans later)
  | ask later answered rest => exact .ask (quiet.trans later) answered rest

theorem Completes.split {program : Program Reply α} {next : α → Program Reply β}
    (completes : Completes world before (program >>= next) trace after result) :
    ∃ first middle value rest, Completes world before program first middle value ∧
      Completes world middle (next value) rest after result ∧ trace = first ++ rest := by
  induction program generalizing before trace with
  | done value => exact ⟨[], before, value, trace, .done .refl, completes, rfl⟩
  | ask question continuation inductionHypothesis =>
    cases completes with
    | ask quiet answered rest =>
      obtain ⟨first, middle, value, last, head, tail, rfl⟩ := inductionHypothesis _ rest
      exact ⟨_ :: first, middle, value, last, .ask quiet answered head, tail, rfl⟩
  | stop => cases completes

theorem Completes.of_done (completes : Completes world before (.done value) trace after result) :
    trace = [] ∧ ReflTransGen world.drifts before after ∧ result = value := by
  cases completes with
  | done quiet => exact ⟨rfl, quiet, rfl⟩

theorem Completes.of_perform {question : Call} {reply : Reply question}
    (completes : Completes world before (.perform question) trace after reply) :
    ∃ asked replied, trace = [⟨asked, question, reply⟩] ∧
      ReflTransGen world.drifts before asked ∧ world.answers asked question reply replied ∧
      ReflTransGen world.drifts replied after := by
  cases completes with
  | ask quiet answered rest =>
    cases rest with
    | done later => exact ⟨_, _, rfl, quiet, answered, later⟩

theorem Completes.of_stop (completes : Completes world before .stop trace after (value : α)) :
    False := by
  cases completes

theorem Completes.drift_right {program : Program Reply α}
    (completes : Completes world before program trace after value)
    (quiet : ReflTransGen world.drifts after later) :
    Completes world before program trace later value := by
  induction completes with
  | done earlier => exact .done (earlier.trans quiet)
  | ask earlier answered _ inductionHypothesis =>
    exact .ask earlier answered (inductionHypothesis quiet)

/-- An execution on its way: the calls made so far and the state they led to. -/
inductive Reaches (world : World State Reply) :
    State → Program Reply α → List (Event State Reply) → State → Prop where
  | here (quiet : ReflTransGen world.drifts before after) :
      Reaches world before program [] after
  | ask (quiet : ReflTransGen world.drifts before asked)
      (answered : world.answers asked question reply replied)
      (rest : Reaches world replied (next reply) trace after) :
      Reaches world before (.ask question next) (⟨asked, question, reply⟩ :: trace) after

theorem Completes.reaches {program : Program Reply α}
    (completes : Completes world before program trace after value) :
    Reaches world before program trace after := by
  induction completes with
  | done quiet => exact .here quiet
  | ask quiet answered _ inductionHypothesis => exact .ask quiet answered inductionHypothesis

theorem Reaches.drift_left {program : Program Reply α}
    (quiet : ReflTransGen world.drifts earlier before)
    (reaches : Reaches world before program trace after) :
    Reaches world earlier program trace after := by
  cases reaches with
  | here later => exact .here (quiet.trans later)
  | ask later answered rest => exact .ask (quiet.trans later) answered rest

/-- A program in two parts is either in its first part or has completed it. -/
theorem Reaches.split {program : Program Reply α} {next : α → Program Reply β}
    (reaches : Reaches world before (program >>= next) trace after) :
    Reaches world before program trace after ∨
      ∃ first middle value rest, Completes world before program first middle value ∧
        Reaches world middle (next value) rest after ∧ trace = first ++ rest := by
  induction program generalizing before trace with
  | done value => exact .inr ⟨[], before, value, trace, .done .refl, reaches, rfl⟩
  | ask question continuation inductionHypothesis =>
    cases reaches with
    | here quiet => exact .inl (.here quiet)
    | ask quiet answered rest =>
      rcases inductionHypothesis _ rest with inside | ⟨first, middle, value, last, head, tail, rfl⟩
      · exact .inl (.ask quiet answered inside)
      · exact .inr ⟨_ :: first, middle, value, last, .ask quiet answered head, tail, rfl⟩
  | stop =>
    cases reaches with
    | here quiet => exact .inl (.here quiet)

/-- An execution of a program, completed if that is asked for. -/
def Proceeds (world : World State Reply) :
    Bool → State → Program Reply Unit → List (Event State Reply) → State → Prop
  | true, before, program, trace, after => Completes world before program trace after ()
  | false, before, program, trace, after => Reaches world before program trace after

theorem Completes.proceeds {program : Program Reply Unit}
    (completes : Completes world before program trace after ()) :
    Proceeds world true before program trace after := completes

theorem Reaches.proceeds {program : Program Reply Unit}
    (reaches : Reaches world before program trace after) :
    Proceeds world false before program trace after := reaches

theorem Proceeds.reaches {finished : Bool} {program : Program Reply Unit}
    (proceeds : Proceeds world finished before program trace after) :
    Reaches world before program trace after := by
  cases finished with
  | true => exact Completes.reaches proceeds
  | false => exact proceeds

theorem Proceeds.of_done {finished : Bool}
    (proceeds : Proceeds world finished before (.done ()) trace after) : trace = [] := by
  cases proceeds.reaches with
  | here _ => rfl

theorem Proceeds.split {finished : Bool} {program : Program Reply α} {next : α → Program Reply Unit}
    (proceeds : Proceeds world finished before (program >>= next) trace after) :
    (finished = false ∧ Reaches world before program trace after) ∨
      ∃ first middle value rest, Completes world before program first middle value ∧
        Proceeds world finished middle (next value) rest after ∧ trace = first ++ rest := by
  cases finished with
  | true => exact .inr (Completes.split proceeds)
  | false => exact (Reaches.split proceeds).imp_left fun inside => ⟨rfl, inside⟩

/-- What two traces share with the longer one they make, a program in two parts
shares with its parts. -/
theorem Reaches.andThen {property : List (Event State Reply) → Prop} {program : Program Reply α}
    {next : α → Program Reply β}
    (append : ∀ {first rest}, property first → property rest → property (first ++ rest))
    (head : ∀ {before trace after}, Reaches world before program trace after → property trace)
    (tail : ∀ value {before trace after}, Reaches world before (next value) trace after → property trace)
    (reaches : Reaches world before (program >>= next) trace after) : property trace := by
  rcases Reaches.split reaches with inside | ⟨_, _, value, _, completes, later, rfl⟩
  · exact head inside
  · exact append (head completes.reaches) (tail value later)

/-- A world that drifts more allows the same executions. -/
theorem Completes.mono (narrow wide : World State Reply)
    (drifts : ∀ {earlier later}, narrow.drifts earlier later → wide.drifts earlier later)
    (answers : ∀ {asked question reply replied}, narrow.answers asked question reply replied →
      wide.answers asked question reply replied)
    {program : Program Reply α} (completes : Completes narrow before program trace after value) :
    Completes wide before program trace after value := by
  induction completes with
  | done quiet => exact .done (ReflTransGen.mono (fun _ _ => drifts) _ _ quiet)
  | ask quiet answered _ inductionHypothesis =>
    exact .ask (ReflTransGen.mono (fun _ _ => drifts) _ _ quiet) (answers answered) inductionHypothesis

/-- The calls of an execution are among those its program permits. -/
theorem Reaches.permitted {program : Program Reply α} {permitted : Call → Prop}
    (within : program.Within permitted) (reaches : Reaches world before program trace after) :
    ∀ event ∈ trace, permitted event.question := by
  induction reaches with
  | here _ => simp
  | ask _ _ _ inductionHypothesis =>
    intro event member
    rcases List.mem_cons.mp member with same | later
    · subst same
      exact within.1
    · exact inductionHypothesis (within.2 _) event later

/-- What a sequence of answered calls does to the state, whatever program made them. -/
inductive Path (world : World State Reply) : State → List (Event State Reply) → State → Prop where
  | here (quiet : ReflTransGen world.drifts before after) : Path world before [] after
  | ask (quiet : ReflTransGen world.drifts before asked)
      (answered : world.answers asked question reply replied)
      (rest : Path world replied trace after) :
      Path world before (⟨asked, question, reply⟩ :: trace) after

theorem Reaches.path {program : Program Reply α}
    (reaches : Reaches world before program trace after) : Path world before trace after := by
  induction reaches with
  | here quiet => exact .here quiet
  | ask quiet answered _ inductionHypothesis => exact .ask quiet answered inductionHypothesis

/-- A path through a call leads up to it, is answered there and goes on. -/
theorem Path.through {event : Event State Reply} (path : Path world before trace after)
    (member : event ∈ trace) :
    ∃ first last replied, trace = first ++ event :: last ∧ Path world before first event.before ∧
      world.answers event.before event.question event.reply replied ∧
      Path world replied last after := by
  induction path with
  | here _ => cases member
  | ask quiet answered rest inductionHypothesis =>
    rcases List.mem_cons.mp member with same | further
    · subst same
      exact ⟨[], _, _, rfl, .here quiet, answered, rest⟩
    · obtain ⟨first, last, replied, rfl, upTo, reply, onward⟩ := inductionHypothesis further
      exact ⟨_ :: first, last, replied, rfl, .ask quiet answered upTo, reply, onward⟩

/-- A preorder that holds across drifts and across every permitted call holds
across the whole path. -/
theorem Path.relates {permitted : Event State Reply → Prop} (relation : State → State → Prop)
    (refl : ∀ state, relation state state)
    (trans : ∀ {first second third}, relation first second → relation second third →
      relation first third)
    (drift : ∀ {earlier later}, world.drifts earlier later → relation earlier later)
    (answer : ∀ {event replied}, permitted event →
      world.answers event.before event.question event.reply replied →
        relation event.before replied)
    (path : Path world before trace after) (each : ∀ event ∈ trace, permitted event) :
    relation before after := by
  have quietly : ∀ {earlier later}, ReflTransGen world.drifts earlier later →
      relation earlier later := by
    intro earlier later quiet
    induction quiet with
    | refl => exact refl _
    | tail _ step inductionHypothesis => exact trans inductionHypothesis (drift step)
  induction path with
  | here quiet => exact quietly quiet
  | ask quiet answered _ inductionHypothesis =>
    have first := answer (each _ List.mem_cons_self) answered
    have others := inductionHypothesis fun event member => each event (List.mem_cons_of_mem _ member)
    exact trans (quietly quiet) (trans first others)

/-- The same for the calls that a program permits. -/
theorem Reaches.relates {program : Program Reply α} {permitted : Call → Prop}
    (relation : State → State → Prop)
    (refl : ∀ state, relation state state)
    (trans : ∀ {first second third}, relation first second → relation second third →
      relation first third)
    (drift : ∀ {earlier later}, world.drifts earlier later → relation earlier later)
    (answer : ∀ {asked question reply replied}, permitted question →
      world.answers asked question reply replied → relation asked replied)
    (within : program.Within permitted)
    (reaches : Reaches world before program trace after) : relation before after :=
  reaches.path.relates relation refl trans drift
    (fun allowed answered => answer allowed answered)
    (reaches.permitted within)

/-- A loop whose completed rounds keep an assertion makes only such calls as its
rounds make from states in which the assertion holds. -/
theorem Reaches.forEach {body : β → Program Reply Unit} (assertion : State → Prop)
    (allowed : Event State Reply → Prop)
    (keeps : ∀ {item before trace after}, assertion before →
      Completes world before (body item) trace after () → assertion after)
    {items : List β} (each : ∀ item ∈ items, ∀ {before trace after}, assertion before →
      Reaches world before (body item) trace after → ∀ event ∈ trace, allowed event)
    (holds : assertion before)
    (reaches : Reaches world before (Program.forEach body items) trace after) :
    ∀ event ∈ trace, allowed event := by
  induction items generalizing before trace with
  | nil =>
    cases reaches with
    | here _ => simp
  | cons item rest inductionHypothesis =>
    rcases Reaches.split reaches with inside | ⟨first, _, _, others, completes, later, rfl⟩
    · exact each item List.mem_cons_self holds inside
    · intro event member
      rcases List.mem_append.mp member with here | further
      · exact each item List.mem_cons_self holds completes.reaches event here
      · exact inductionHypothesis (fun other present => each other (List.mem_cons_of_mem _ present))
          (keeps holds completes) later event further

end CkbDiscovery.Effect
