import CkbDiscovery.Effect.Execution

/-! An event loop: one program per message, each run to completion before the
next message is taken up, in a world that keeps drifting. -/

namespace CkbDiscovery.Effect

variable {Call State Message : Type} {Reply : Call → Type}

/-- One completed turn: the message and the calls its program made. -/
structure Turn (State : Type) (Reply : Call → Type) (Message : Type) where
  message : Message
  trace : List (Event State Reply)

/-- The turns taken since a start, latest first, and the state they end in. -/
inductive Run (world : World State Reply) (handle : Message → Program Reply Unit) :
    State → List (Turn State Reply Message) → State → Prop where
  | start : Run world handle start [] start
  | turn (earlier : Run world handle start turns before)
      (completes : Completes world before (handle message) trace after ()) :
      Run world handle start (⟨message, trace⟩ :: turns) after

variable {world : World State Reply} {handle : Message → Program Reply Unit}
  {start before after : State} {turns : List (Turn State Reply Message)}

theorem Run.append {first last : List (Turn State Reply Message)}
    (earlier : Run world handle start first before) (later : Run world handle before last after) :
    Run world handle start (last ++ first) after := by
  induction later with
  | start => exact earlier
  | turn _ completes inductionHypothesis => exact .turn inductionHypothesis completes

theorem Run.split {first last : List (Turn State Reply Message)}
    (run : Run world handle start (last ++ first) after) :
    ∃ middle, Run world handle start first middle ∧ Run world handle middle last after := by
  induction last generalizing after with
  | nil => exact ⟨after, run, .start⟩
  | cons turn rest inductionHypothesis =>
    cases run with
    | turn earlier completes =>
      obtain ⟨middle, before, later⟩ := inductionHypothesis earlier
      exact ⟨middle, before, .turn later completes⟩

theorem Run.mono (narrow wide : World State Reply)
    (drifts : ∀ {earlier later}, narrow.drifts earlier later → wide.drifts earlier later)
    (answers : ∀ {asked question reply replied}, narrow.answers asked question reply replied →
      wide.answers asked question reply replied)
    (run : Run narrow handle start turns after) : Run wide handle start turns after := by
  induction run with
  | start => exact .start
  | turn _ completes inductionHypothesis =>
    exact .turn inductionHypothesis (Completes.mono narrow wide drifts answers completes)

/-- An assertion about the turns so far and the state holds after every run
once it holds at the start and every turn keeps it. -/
theorem Run.keeps (assertion : List (Turn State Reply Message) → State → Prop)
    (initially : assertion [] start)
    (step : ∀ {turns before message trace after}, Run world handle start turns before →
      assertion turns before → Completes world before (handle message) trace after () →
      assertion (⟨message, trace⟩ :: turns) after)
    (run : Run world handle start turns after) : assertion turns after := by
  induction run with
  | start => exact initially
  | turn earlier completes inductionHypothesis => exact step earlier inductionHypothesis completes

end CkbDiscovery.Effect
