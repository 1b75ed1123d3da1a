import CkbDiscovery.Effect.EventLoop

/-! Executable runs: given a function that answers every call, a program is
replayed without drift, and a script of pauses and messages turn by turn. What
a replay produces is one of the executions of the world. -/

namespace CkbDiscovery.Effect

open Relation (ReflTransGen)

variable {Call State Message : Type} {Reply : Call → Type} {α : Type}

abbrev Responder (State : Type) (Reply : Call → Type) :=
  State → (question : Call) → Option (Reply question × State)

def Program.replay (respond : Responder State Reply) :
    Program Reply α → State → Option (List (Event State Reply) × State × α)
  | .done value, state => some ([], state, value)
  | .ask question next, state =>
    match respond state question with
    | none => none
    | some (reply, replied) =>
      match replay respond (next reply) replied with
      | none => none
      | some (trace, after, value) => some (⟨state, question, reply⟩ :: trace, after, value)
  | .stop, _ => none

/-- Each script entry waits for a while and then takes up a message. -/
def replayLoop (respond : Responder State Reply) (wait : Nat → State → State)
    (handle : Message → Program Reply Unit) :
    List (Nat × Message) → State → Option (List (Turn State Reply Message) × State)
  | [], state => some ([], state)
  | (pause, message) :: rest, state =>
    match (handle message).replay respond (wait pause state) with
    | none => none
    | some (trace, after, _) =>
      match replayLoop respond wait handle rest after with
      | none => none
      | some (turns, last) => some (turns ++ [⟨message, trace⟩], last)

variable {world : World State Reply} {respond : Responder State Reply}

/-- The responder only gives answers the world could give. -/
def Faithful (world : World State Reply) (respond : Responder State Reply) : Prop :=
  ∀ state question reply replied, respond state question = some (reply, replied) →
    world.answers state question reply replied

theorem Completes.of_replay (faithful : Faithful world respond) {program : Program Reply α}
    (replayed : program.replay respond before = some (trace, after, value)) :
    Completes world before program trace after value := by
  induction program generalizing before trace with
  | done result =>
    cases replayed
    exact .done .refl
  | ask question next inductionHypothesis =>
    simp only [Program.replay] at replayed
    split at replayed
    · cases replayed
    · rename_i answered
      split at replayed
      · cases replayed
      · rename_i rest
        cases replayed
        exact .ask .refl (faithful _ _ _ _ answered) (inductionHypothesis _ rest)
  | stop => cases replayed

theorem Run.of_replay (faithful : Faithful world respond) {wait : Nat → State → State}
    (drifts : ∀ pause state, ReflTransGen world.drifts state (wait pause state))
    {handle : Message → Program Reply Unit} {script : List (Nat × Message)}
    (replayed : replayLoop respond wait handle script before = some (turns, after)) :
    Run world handle before turns after := by
  induction script generalizing before turns with
  | nil =>
    cases replayed
    exact .start
  | cons entry rest inductionHypothesis =>
    obtain ⟨pause, message⟩ := entry
    simp only [replayLoop] at replayed
    split at replayed
    · cases replayed
    · rename_i taken
      split at replayed
      · cases replayed
      · rename_i replayedRest
        cases replayed
        have completes := (Completes.of_replay faithful taken).drift_left (drifts pause before)
        exact (Run.turn .start completes).append (inductionHypothesis replayedRest)

end CkbDiscovery.Effect
