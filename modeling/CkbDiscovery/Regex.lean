import Mathlib.Logic.Function.Basic

/-! Leftmost-first matching of regular expressions in which only classes are
repeated: the alternatives are tried in the order of preference, and a match is
the first one that can be continued to the end of the expression. -/

namespace CkbDiscovery

inductive Regex (α : Type) where
  | oneOf (accepts : α → Bool)
  | textStart
  | textEnd
  | seq (first second : Regex α)
  | lazyStar (accepts : α → Bool)
  | greedyStar (accepts : α → Bool)
  | group (index : Nat) (body : Regex α)

namespace Regex

variable {α β : Type}

/-- How far a match has come in a text, and the groups it has gone through. -/
structure Spot (α : Type) where
  before : List α
  rest : List α
  groups : Nat → Option (List α)

/-- Take as few items as possible. -/
def lazily (accepts : α → Bool) (resume : List α → List α → Option β) : List α → List α → Option β
  | before, [] => resume before []
  | before, item :: rest => (resume before (item :: rest)).or
      (if accepts item then lazily accepts resume (before ++ [item]) rest else none)

/-- Take as many items as possible. -/
def greedily (accepts : α → Bool) (resume : List α → List α → Option β) : List α → List α → Option β
  | before, [] => resume before []
  | before, item :: rest =>
    (if accepts item then greedily accepts resume (before ++ [item]) rest else none).or
      (resume before (item :: rest))

/-- Match an expression, and go on with what comes after it. -/
def run : Regex α → Spot α → (Spot α → Option β) → Option β
  | oneOf accepts, spot, resume => spot.rest.head?.bind fun item =>
    if accepts item then
      resume { spot with before := spot.before ++ [item], rest := spot.rest.tail }
    else none
  | textStart, spot, resume => if spot.before.isEmpty then resume spot else none
  | textEnd, spot, resume => if spot.rest.isEmpty then resume spot else none
  | seq first second, spot, resume => first.run spot fun next => second.run next resume
  | lazyStar accepts, spot, resume =>
    lazily accepts (fun before rest => resume { spot with before, rest }) spot.before spot.rest
  | greedyStar accepts, spot, resume =>
    greedily accepts (fun before rest => resume { spot with before, rest }) spot.before spot.rest
  | group index body, spot, resume => body.run spot fun next => resume { next with
      groups := Function.update next.groups index (some (next.before.drop spot.before.length)) }

/-- The match that starts first. -/
def search (regex : Regex α) : List α → List α → Option (Spot α)
  | before, [] => regex.run ⟨before, [], fun _ => none⟩ some
  | before, item :: rest =>
    (regex.run ⟨before, item :: rest, fun _ => none⟩ some).or (search regex (before ++ [item]) rest)

/-- The groups of the first match. -/
def captures (regex : Regex α) (text : List α) : Option (Nat → Option (List α)) :=
  (search regex [] text).map Spot.groups

theorem greedily_toEnd (accepts : α → Bool) (finish : List α → List α → Option β)
    (before rest : List α) :
    greedily accepts (fun before rest => if rest.isEmpty then finish before rest else none) before rest =
      if rest.all accepts then finish (before ++ rest) [] else none := by
  induction rest generalizing before with
  | nil => simp [greedily]
  | cons item rest inductionHypothesis =>
    rw [greedily, inductionHypothesis, List.append_assoc]
    cases accepted : accepts item <;> simp [accepted]

/-- A repetition before the end of the text takes all there is. -/
theorem run_greedyStar_textEnd (accepts : α → Bool) (spot : Spot α) (resume : Spot α → Option β) :
    (seq (greedyStar accepts) textEnd).run spot resume =
      if spot.rest.all accepts then
        resume { spot with before := spot.before ++ spot.rest, rest := [] }
      else none :=
  greedily_toEnd accepts (fun before rest => resume { spot with before, rest }) spot.before spot.rest

/-- An expression that is tied to the start of the text is matched there or nowhere. -/
theorem search_textStart (body : Regex α) (text : List α) :
    search (.seq .textStart body) [] text = body.run ⟨[], text, fun _ => none⟩ some := by
  have nowhere : ∀ (rest before : List α), before ≠ [] → search (.seq .textStart body) before rest = none := by
    intro rest
    induction rest with
    | nil =>
      intro before started
      simp [search, run, started]
    | cons item rest inductionHypothesis =>
      intro before started
      rw [search, inductionHypothesis _ (by simp)]
      simp [run, started]
  cases text with
  | nil => rfl
  | cons item rest =>
    rw [search, nowhere rest _ (by simp), Option.or_none]
    rfl

end Regex

end CkbDiscovery
