import Mathlib.Data.List.Infix

/-! Flat keys of the shape fixed text, free text, fixed text, and taking such
keys apart again at their dots. -/

namespace CkbDiscovery.Redis

structure Affix where
  before : String
  after : String
  deriving DecidableEq

namespace Affix

def key (affix : Affix) (middle : String) : String := affix.before ++ middle ++ affix.after

/-- Two affixes that no pair of middle texts can bring to one key. -/
def Separated (first second : Affix) : Prop :=
  (¬ first.before.toList <+: second.before.toList ∧ ¬ second.before.toList <+: first.before.toList) ∨
    (first.before = second.before ∧ ¬ first.after.toList <:+ second.after.toList ∧
      ¬ second.after.toList <:+ first.after.toList)

instance (first second : Affix) : Decidable (Separated first second) := by
  unfold Separated; infer_instance

theorem key_toList (affix : Affix) (middle : String) :
    (affix.key middle).toList = affix.before.toList ++ middle.toList ++ affix.after.toList := by
  simp [key]

theorem key_injective (affix : Affix) {first second : String}
    (same : affix.key first = affix.key second) : first = second := by
  have lists := congrArg String.toList same
  rw [key_toList, key_toList, List.append_left_inj, List.append_right_inj] at lists
  exact String.toList_inj.mp lists

theorem Separated.key_ne {first second : Affix} (separated : first.Separated second)
    (left right : String) : first.key left ≠ second.key right := by
  intro same
  have lists := congrArg String.toList same
  rw [key_toList, key_toList] at lists
  rcases separated with ⟨notBefore, notAfter⟩ | ⟨head, notBefore, notAfter⟩
  · rw [List.append_assoc, List.append_assoc] at lists
    rcases List.prefix_or_prefix_of_prefix (List.prefix_append first.before.toList _)
      (lists ▸ List.prefix_append second.before.toList _) with found | found
    · exact notBefore found
    · exact notAfter found
  · rw [head, List.append_assoc, List.append_assoc, List.append_right_inj] at lists
    rcases List.suffix_or_suffix_of_suffix (List.suffix_append left.toList first.after.toList)
      (lists ▸ List.suffix_append right.toList second.after.toList) with found | found
    · exact notBefore found
    · exact notAfter found

end Affix

/-- The pieces of a text between its dots, last first. -/
def rsplitDot (text : String) : List String :=
  ((text.toList.splitOn '.').map String.ofList).reverse

/-- The text around its last dot. -/
def rsplitOnceDot (text : String) : Option (String × String) :=
  match rsplitDot text with
  | last :: second :: rest => some (".".intercalate (second :: rest).reverse, last)
  | _ => none

theorem rsplitDot_ne_nil (text : String) : rsplitDot text ≠ [] := by
  simp [rsplitDot, List.splitOn_ne_nil]

theorem splitOn_avoids {α : Type} [DecidableEq α] {separator : α} {items piece : List α}
    (member : piece ∈ items.splitOn separator) : separator ∉ piece := by
  induction items generalizing piece with
  | nil =>
    obtain rfl := List.mem_singleton.mp member
    exact List.not_mem_nil
  | cons item rest inductionHypothesis =>
    rw [List.splitOn_cons_eq_if_modifyHead] at member
    by_cases separates : item = separator
    · rw [if_pos (beq_iff_eq.mpr separates)] at member
      rcases List.mem_cons.mp member with empty | further
      · rw [empty]
        exact List.not_mem_nil
      · exact inductionHypothesis further
    · rw [if_neg (by simpa using separates)] at member
      cases pieces : rest.splitOn separator with
      | nil => exact absurd pieces (List.splitOn_ne_nil _ _)
      | cons head others =>
        rw [pieces, List.modifyHead_cons] at member
        rw [pieces] at inductionHypothesis
        rcases List.mem_cons.mp member with first | further
        · rw [first, List.mem_cons, not_or]
          exact ⟨fun same => separates same.symm, inductionHypothesis List.mem_cons_self⟩
        · exact inductionHypothesis (List.mem_cons_of_mem _ further)

/-- The pieces have no dots left. -/
theorem rsplitDot_dotless {text piece : String} (member : piece ∈ rsplitDot text) :
    '.' ∉ piece.toList := by
  rw [rsplitDot, List.mem_reverse, List.mem_map] at member
  obtain ⟨chars, among, rfl⟩ := member
  rw [String.toList_ofList]
  exact splitOn_avoids among

theorem rsplitDot_append (before : String) {last : String} (dotless : '.' ∉ last.toList) :
    rsplitDot (before ++ "." ++ last) = last :: rsplitDot before := by
  have text : (before ++ "." ++ last).toList = before.toList ++ '.' :: last.toList := by simp
  rw [rsplitDot, text, List.splitOn_append_cons_self, List.splitOn_eq_singleton dotless]
  simp [rsplitDot]

/-- The last piece is the whole text behind the dot, or what its own last dot leaves of it. -/
theorem rsplitDot_head {before text last : String} (head : (rsplitDot (before ++ "." ++ text)).head? = some last) :
    text = last ∨ ∃ stem, text = stem ++ "." ++ last := by
  by_cases dotted : '.' ∈ text.toList
  · obtain ⟨tail, front, split, dotless⟩ := List.eq_append_cons_of_mem (List.mem_reverse.mpr dotted)
    have spelled : text = .ofList front.reverse ++ "." ++ .ofList tail.reverse := by
      rw [← String.toList_inj, ← List.reverse_inj, split]
      simp
    rw [spelled, ← String.append_assoc, ← String.append_assoc,
      rsplitDot_append _ (by simpa using dotless)] at head
    obtain rfl := Option.some.inj head
    exact .inr ⟨_, spelled⟩
  · rw [rsplitDot_append before dotted] at head
    exact .inl (Option.some.inj head)

/-- The last piece of a text whose ending after a dot has no dot of its own. -/
theorem rsplitOnceDot_append (before : String) {last : String} (dotless : '.' ∉ last.toList) :
    (rsplitOnceDot (before ++ "." ++ last)).map Prod.snd = some last := by
  rw [rsplitOnceDot, rsplitDot_append before dotless]
  cases pieces : rsplitDot before with
  | nil => exact absurd pieces (rsplitDot_ne_nil before)
  | cons second rest => rfl

end CkbDiscovery.Redis
