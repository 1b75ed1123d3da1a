import CkbDiscovery.Effect.Replay

/-! An event loop whose turns may be cut short. A cut turn has made some of its
calls; the process then starts anew with what survives of the state. -/

namespace CkbDiscovery.Effect

open Relation (ReflTransGen)

variable {Call State Message : Type} {Reply : Call → Type} {α : Type}

/-- A message taken up: where, with which calls, and whether it was cut short. -/
structure Attempt (State : Type) (Reply : Call → Type) (Message : Type) where
  message : Message
  before : State
  trace : List (Event State Reply)
  aborted : Bool

/-- The attempts since a start, latest first, and the state they end in. -/
inductive RestartRun (world : World State Reply) (restart : State → State)
    (handle : Message → Program Reply Unit) : State → List (Attempt State Reply Message) → State → Prop where
  | start : RestartRun world restart handle start [] start
  | finish (earlier : RestartRun world restart handle start attempts before)
      (completes : Completes world before (handle message) trace after ()) :
      RestartRun world restart handle start (⟨message, before, trace, false⟩ :: attempts) after
  | abort (earlier : RestartRun world restart handle start attempts before)
      (reaches : Reaches world before (handle message) trace stopped) :
      RestartRun world restart handle start (⟨message, before, trace, true⟩ :: attempts)
        (restart stopped)

variable {world : World State Reply} {restart : State → State}
  {handle : Message → Program Reply Unit} {start after : State}
  {attempts : List (Attempt State Reply Message)}

/-- An assertion about the attempts so far and the state holds after every run
once it holds at the start and both kinds of attempt keep it. -/
theorem RestartRun.keeps (assertion : List (Attempt State Reply Message) → State → Prop)
    (initially : assertion [] start)
    (finish : ∀ {attempts before message trace after},
      assertion attempts before → Completes world before (handle message) trace after () →
        assertion (⟨message, before, trace, false⟩ :: attempts) after)
    (abort : ∀ {attempts before message trace stopped},
      assertion attempts before → Reaches world before (handle message) trace stopped →
        assertion (⟨message, before, trace, true⟩ :: attempts) (restart stopped))
    (run : RestartRun world restart handle start attempts after) : assertion attempts after := by
  induction run with
  | start => exact initially
  | finish _ completes inductionHypothesis => exact finish inductionHypothesis completes
  | abort _ reaches inductionHypothesis => exact abort inductionHypothesis reaches

/-- A run without restarts is a run in which nothing was aborted. -/
theorem Run.unaborted {turns : List (Turn State Reply Message)}
    (run : Run world handle start turns after) :
    ∃ attempts, RestartRun world restart handle start attempts after ∧
      (attempts.map fun attempt => (⟨attempt.message, attempt.trace⟩ : Turn State Reply Message)) =
        turns ∧
      ∀ attempt ∈ attempts, attempt.aborted = false := by
  induction run with
  | start => exact ⟨[], .start, rfl, by simp⟩
  | turn _ completes inductionHypothesis =>
    obtain ⟨attempts, earlier, same, unaborted⟩ := inductionHypothesis
    exact ⟨_, .finish earlier completes, by simp [same], by simpa using unaborted⟩

/-- The first calls of a program, as many as given. -/
def Program.replayCut (respond : Responder State Reply) :
    Nat → Program Reply α → State → Option (List (Event State Reply) × State)
  | 0, _, state => some ([], state)
  | count + 1, .ask question next, state =>
    match respond state question with
    | none => none
    | some (reply, replied) =>
      (replayCut respond count (next reply) replied).map fun rest =>
        (⟨state, question, reply⟩ :: rest.1, rest.2)
  | _ + 1, _, _ => none

theorem Reaches.of_replayCut {respond : Responder State Reply} (faithful : Faithful world respond)
    {count : Nat} {program : Program Reply α} {before after : State}
    {trace : List (Event State Reply)}
    (replayed : program.replayCut respond count before = some (trace, after)) :
    Reaches world before program trace after := by
  induction count generalizing program before trace with
  | zero =>
    cases replayed
    exact .here .refl
  | succ count inductionHypothesis =>
    cases program with
    | ask question next =>
      simp only [Program.replayCut] at replayed
      split at replayed
      · cases replayed
      · rename_i answered
        obtain ⟨⟨rest, last⟩, further, same⟩ := Option.map_eq_some_iff.mp replayed
        cases same
        exact .ask .refl (faithful _ _ _ _ answered) (inductionHypothesis further)
    | done value => cases replayed
    | stop => cases replayed

/-- A script of pauses, messages and, for a message cut short, the number of its calls. -/
def replayRestarts (respond : Responder State Reply) (wait : Nat → State → State)
    (restart : State → State) (handle : Message → Program Reply Unit) :
    List (Nat × Message × Option Nat) → List (Attempt State Reply Message) → State →
      Option (List (Attempt State Reply Message) × State)
  | [], attempts, state => some (attempts, state)
  | (pause, message, cut) :: rest, attempts, state =>
    match cut with
    | none =>
      ((handle message).replay respond (wait pause state)).bind fun taken =>
        replayRestarts respond wait restart handle rest
          (⟨message, state, taken.1, false⟩ :: attempts) taken.2.1
    | some count =>
      ((handle message).replayCut respond count (wait pause state)).bind fun taken =>
        replayRestarts respond wait restart handle rest
          (⟨message, state, taken.1, true⟩ :: attempts) (restart taken.2)

theorem RestartRun.of_replay {respond : Responder State Reply} (faithful : Faithful world respond)
    {wait : Nat → State → State}
    (drifts : ∀ pause state, ReflTransGen world.drifts state (wait pause state))
    {script : List (Nat × Message × Option Nat)} {earlier attempts : List (Attempt State Reply Message)}
    {before after : State} (run : RestartRun world restart handle start earlier before)
    (replayed : replayRestarts respond wait restart handle script earlier before =
      some (attempts, after)) :
    RestartRun world restart handle start attempts after := by
  induction script generalizing earlier before with
  | nil =>
    cases replayed
    exact run
  | cons entry rest inductionHypothesis =>
    obtain ⟨pause, message, cut⟩ := entry
    cases cut with
    | none =>
      obtain ⟨⟨trace, replied, _⟩, taken, further⟩ := Option.bind_eq_some_iff.mp replayed
      have completes := (Completes.of_replay faithful taken).drift_left (drifts pause before)
      exact inductionHypothesis (.finish run completes) further
    | some count =>
      obtain ⟨⟨trace, stopped⟩, taken, further⟩ := Option.bind_eq_some_iff.mp replayed
      have reaches := (Reaches.of_replayCut faithful taken).drift_left (drifts pause before)
      exact inductionHypothesis (.abort run reaches) further

end CkbDiscovery.Effect
