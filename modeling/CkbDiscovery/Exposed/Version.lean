import CkbDiscovery.Exposed.Peers
import CkbDiscovery.Regex

/-! The short version of a peer: what a regular expression captures of the text
that the peer calls its version. -/

namespace CkbDiscovery.Exposed

/-- `.`: everything but a line feed. -/
def dot (char : Char) : Bool := char != '\n'

/-- The complement of `[^0-9.]`. -/
def numeric (char : Char) : Bool := char.isDigit || char == '.'

/-- What follows the group: `[^0-9.].*$`. -/
def versionTail : Regex Char :=
  .seq (.oneOf fun char => !numeric char) (.seq (.greedyStar dot) .textEnd)

/-- `^(.*?)[^0-9.].*$`. -/
def versionPattern : Regex Char := .seq .textStart (.seq (.group 1 (.lazyStar dot)) versionTail)

theorem all_dot (text : List Char) : text.all dot = decide ('\n' ∉ text) := by
  rw [Bool.eq_iff_iff, List.all_eq_true, decide_eq_true_iff]
  constructor
  · intro each broken
    exact absurd (each _ broken) (by decide)
  · intro absent char member
    simp only [dot, bne_iff_ne, ne_eq]
    rintro rfl
    exact absent member

/-- The tail is matched where it starts and up to the end, or not at all. -/
theorem run_versionTail (before rest : List Char) (char : Char) (groups : Nat → Option (List Char)) :
    (versionTail.run ⟨before, char :: rest, groups⟩ some).map (·.groups 1) =
      if ¬ numeric char ∧ '\n' ∉ rest then some (groups 1) else none := by
  rw [versionTail, Regex.run, Regex.run, List.head?_cons, Option.bind_some, List.tail_cons]
  by_cases digit : numeric char
  · simp [digit]
  · rw [if_pos (by simp [digit]), Regex.run_greedyStar_textEnd, all_dot]
    by_cases broken : '\n' ∈ rest <;> simp [broken, digit]

theorem versionPrefix_cons (char : Char) (rest : List Char) :
    versionPrefix (char :: rest) =
      if ¬ numeric char ∧ '\n' ∉ rest then some []
      else if char = '\n' then none
      else (versionPrefix rest).map (char :: ·) := by
  simp [versionPrefix, numeric]

/-- The group ends at the first place where the tail can follow. -/
theorem lazily_versionTail (before rest : List Char) :
    (Regex.lazily dot (fun before rest => versionTail.run ⟨before, rest,
        Function.update (fun _ => none) 1 (some before)⟩ some) before rest).map (·.groups 1) =
      (versionPrefix rest).map fun captured => some (before ++ captured) := by
  induction rest generalizing before with
  | nil => rfl
  | cons char rest inductionHypothesis =>
    have here := run_versionTail before rest char (Function.update (fun _ => none) 1 (some before))
    rw [Regex.lazily, versionPrefix_cons, Option.map_or, here, Function.update_self]
    by_cases ends : ¬ numeric char ∧ '\n' ∉ rest
    · simp [ends]
    · rw [if_neg ends, Option.none_or, if_neg ends]
      by_cases broken : char = '\n'
      · simp [broken, dot]
      · rw [if_pos (by simpa [dot] using broken), if_neg broken, inductionHypothesis, Option.map_map]
        simp [Function.comp_def]

/-- The captured prefix is group one of the pattern. -/
theorem captures_versionPattern (text : List Char) :
    (versionPattern.captures text).map (· 1) = (versionPrefix text).map some := by
  rw [Regex.captures, versionPattern, Regex.search_textStart, Option.map_map]
  exact lazily_versionTail [] text

/-- `captures[1]`, or the whole text where nothing matches; the index panics on
a group that no match went through. -/
def capturedVersion (version : String) : Option String :=
  (versionPattern.captures version.toList).elim (some version) fun groups =>
    (groups 1).map String.ofList

/-- The index never panics. -/
theorem capturedVersion_eq (version : String) : capturedVersion version = some (versionShort version) := by
  have captured := captures_versionPattern version.toList
  rw [versionShort, capturedVersion]
  cases shortened : versionPrefix version.toList with
  | none =>
    rw [shortened, Option.map_none, Option.map_eq_none_iff] at captured
    rw [captured]
    rfl
  | some chars =>
    rw [shortened] at captured
    obtain ⟨groups, matched, one⟩ := Option.map_eq_some_iff.mp captured
    rw [matched, Option.elim_some, one]
    rfl

/-- The longest prefix of a text that consists of digits and dots. -/
structure NumericPrefix (text captured : String) : Prop where
  prefixed : captured.toList <+: text.toList
  accepted : ∀ char ∈ captured.toList, numeric char = true
  longest : ∀ other : List Char, other <+: text.toList → (∀ char ∈ other, numeric char = true) →
    other.length ≤ captured.toList.length

theorem takeWhile_longest {accepts : α → Bool} {items other : List α} (prefixed : other <+: items)
    (accepted : ∀ item ∈ other, accepts item = true) :
    other.length ≤ (items.takeWhile accepts).length := by
  obtain ⟨rest, rfl⟩ := prefixed
  rw [List.takeWhile_append_of_pos accepted, List.length_append]
  exact Nat.le_add_right _ _

theorem numericPrefix_iff (text captured : String) :
    NumericPrefix text captured ↔ captured.toList = text.toList.takeWhile numeric := by
  have taken := List.takeWhile_prefix (p := numeric) (l := text.toList)
  constructor
  · intro given
    have shorter := takeWhile_longest given.prefixed given.accepted
    have longer := given.longest _ taken (List.all_eq_true.mp List.all_takeWhile)
    exact (List.prefix_of_prefix_length_le given.prefixed taken shorter).eq_of_length
      (Nat.le_antisymm shorter longer)
  · intro same
    rw [← same] at taken
    refine ⟨taken, ?_, ?_⟩
    · rw [same]
      exact List.all_eq_true.mp List.all_takeWhile
    · intro other prefixed accepted
      rw [same]
      exact takeWhile_longest prefixed accepted

theorem versionPrefix_numeric {char : Char} (digit : numeric char = true) (rest : List Char) :
    versionPrefix (char :: rest) = (versionPrefix rest).map (char :: ·) := by
  have unbroken : char ≠ '\n' := by
    rintro rfl
    exact absurd digit (by decide)
  rw [versionPrefix_cons, if_neg (fun ends => ends.1 digit), if_neg unbroken]

/-- The captured prefix starts with the digits and dots at the start of the text. -/
theorem versionPrefix_dropWhile (text : List Char) :
    versionPrefix text =
      (versionPrefix (text.dropWhile numeric)).map (text.takeWhile numeric ++ ·) := by
  induction text with
  | nil => rfl
  | cons char rest inductionHypothesis =>
    by_cases digit : numeric char = true
    · rw [versionPrefix_numeric digit, List.dropWhile_cons_of_pos digit,
        List.takeWhile_cons_of_pos digit, inductionHypothesis, Option.map_map]
      rfl
    · rw [List.dropWhile_cons_of_neg digit, List.takeWhile_cons_of_neg digit]
      simp

/-- Where a text goes on after the digits and dots, the capture ends there if the
rest of it is one line, and never otherwise. -/
theorem versionPrefix_some_nil {char : Char} (other : ¬ numeric char = true) (rest : List Char) :
    versionPrefix (char :: rest) = some [] ↔ '\n' ∉ rest := by
  rw [versionPrefix_cons]
  by_cases broken : '\n' ∈ rest
  · rw [if_neg (fun ends => ends.2 broken)]
    split <;> simp [broken]
  · simp [other, broken]

/-- The short version is the numeric prefix of a version exactly if no line feed
comes after the first character that is neither a digit nor a dot. -/
theorem versionShort_numeric (version : String) :
    NumericPrefix version (versionShort version) ↔ '\n' ∉ (version.toList.dropWhile numeric).tail := by
  have split := List.takeWhile_append_dropWhile (p := numeric) (l := version.toList)
  have captured := versionPrefix_dropWhile version.toList
  rw [numericPrefix_iff, versionShort]
  cases dropped : version.toList.dropWhile numeric with
  | nil =>
    rw [dropped, List.append_nil] at split
    rw [dropped] at captured
    simp only [captured, versionPrefix, Option.map_none, split]
    simp
  | cons char rest =>
    have other : ¬ numeric char = true := by
      have first := List.head?_dropWhile_not numeric version.toList
      rw [dropped] at first
      simpa using first
    rw [dropped] at split captured
    rw [captured, List.tail_cons, ← versionPrefix_some_nil other]
    cases shortened : versionPrefix (char :: rest) with
    | none =>
      simp only [Option.map_none, reduceCtorEq, iff_false]
      intro whole
      have kept := List.append_right_eq_self.mp (split.trans whole)
      cases kept
    | some chars =>
      simp only [Option.map_some, String.toList_ofList, Option.some.injEq]
      exact List.append_right_eq_self

/-- A version of two lines keeps all of the first, and one of three lines is not shortened. -/
theorem broken_versions :
    versionShort "0.1a\nb" = "0.1a" ∧ ¬ NumericPrefix "0.1a\nb" (versionShort "0.1a\nb") ∧
      versionShort "0.1a\nb\n" = "0.1a\nb\n" := by
  have two : versionShort "0.1a\nb" = "0.1a" := by decide
  refine ⟨two, ?_, by decide⟩
  rw [two]
  intro given
  exact absurd (given.accepted 'a' (by decide)) (by decide)

example : NumericPrefix "0.111.0 (be4e9ab 2023-06-02)" "0.111.0" := by
  rw [numericPrefix_iff]
  decide

end CkbDiscovery.Exposed
