import Mathlib.Algebra.Group.Nat.Defs
import Mathlib.Tactic.Common

/-! Scanners that read a value off the front of a text or give up without
consuming anything, and the digits of a number as they are printed and read. -/

namespace CkbDiscovery

abbrev Scanner := StateT (List Char) Option

namespace Scanner

variable {α β : Type} {front more rest text : List Char} {value : α} {result : β}

def givenChar (target : Char) : Scanner Unit
  | [] => none
  | char :: rest => if char = target then some ((), rest) else none

/-- In a loop, a separator stands before every part but the first. -/
def separated (separator : Char) (index : Nat) (part : Scanner α) : Scanner α :=
  if 0 < index then do
    givenChar separator
    part
  else part

/-- Nothing of the text may be left. -/
def wholly (scanner : Scanner α) (text : List Char) : Option α :=
  match scanner text with
  | some (value, []) => some value
  | _ => none

/-- From the front of a text the scanner reads the value, and leaves the rest. -/
def Reads (scanner : Scanner α) (front : List Char) (value : α) (rest : List Char) : Prop :=
  scanner (front ++ rest) = some (value, rest)

theorem Reads.andThen {scanner : Scanner α} {next : α → Scanner β}
    (first : scanner.Reads front value (more ++ rest)) (second : (next value).Reads more result rest) :
    (scanner >>= next).Reads (front ++ more) result rest := by
  unfold Reads at *
  rw [List.append_assoc]
  change (scanner (front ++ (more ++ rest))).bind _ = _
  rw [first]
  exact second

theorem reads_pure (value : α) : (pure value : Scanner α).Reads [] value rest := rfl

theorem reads_givenChar (target : Char) : (givenChar target).Reads [target] () rest := by
  simp [Reads, givenChar]

theorem Reads.map {scanner : Scanner α} (change : α → β) (reads : scanner.Reads front value rest) :
    (change <$> scanner).Reads front (change value) rest := by
  change (scanner (front ++ rest)).bind _ = _
  rw [reads]
  rfl

theorem Reads.separated {scanner : Scanner α} (separator : Char) (index : Nat)
    (reads : scanner.Reads front value rest) :
    (scanner.separated separator index).Reads ((if 0 < index then [separator] else []) ++ front) value rest := by
  unfold Scanner.separated
  split
  · exact (reads_givenChar separator).andThen reads
  · exact reads

theorem wholly_of_reads {scanner : Scanner α} (reads : scanner.Reads text value []) :
    scanner.wholly text = some value := by
  rw [Reads, List.append_nil] at reads
  rw [wholly, reads]

theorem givenChar_of_ne {char target : Char} (different : char ≠ target) :
    givenChar target (char :: text) = none :=
  if_neg different

/-- A part fails if it does not stand in front, nor behind its separator. -/
theorem separated_none {scanner : Scanner α} {separator : Char} {index : Nat}
    (first : index = 0 → scanner text = none)
    (later : ∀ rest, text = separator :: rest → scanner rest = none) :
    scanner.separated separator index text = none := by
  unfold separated
  split
  · change (givenChar separator text).bind _ = _
    cases text with
    | nil => rfl
    | cons char rest =>
      by_cases same : char = separator
      · subst same
        rw [givenChar, if_pos rfl]
        exact later rest rfl
      · rw [givenChar_of_ne same]
        rfl
  · exact first (by omega)

end Scanner

/-- The value of a digit: the decimal ones first, then the letters of either case. -/
def digitOf (radix : Nat) (char : Char) : Option Nat :=
  let value :=
    if char.isDigit then some (char.toNat - '0'.toNat)
    else if char.isLower then some (char.toNat - 'a'.toNat + 10)
    else if char.isUpper then some (char.toNat - 'A'.toNat + 10)
    else none
  value.filter (· < radix)

/-- The digits in front, and the rest of the text. -/
def leadingDigits (radix : Nat) : List Char → List Nat × List Char
  | [] => ([], [])
  | char :: rest =>
    match digitOf radix char with
    | some digit => (digit :: (leadingDigits radix rest).1, (leadingDigits radix rest).2)
    | none => ([], char :: rest)

def numberOf (radix : Nat) (digits : List Nat) : Nat :=
  digits.foldl (fun value digit => value * radix + digit) 0

/-- A number of at most so many digits that is below a bound. -/
def Scanner.number (radix maxDigits bound : Nat) (allowZeroPrefix : Bool) : Scanner Nat := fun text =>
  let (digits, rest) := leadingDigits radix text
  let value := numberOf radix digits
  if digits = [] ∨ maxDigits < digits.length then none
  else if allowZeroPrefix = false ∧ text.head? = some '0' ∧ 1 < digits.length then none
  else if bound ≤ value then none
  else some (value, rest)

/-- No digit stands in front. -/
def Stops (radix : Nat) (text : List Char) : Prop :=
  ∀ char ∈ text.head?, digitOf radix char = none

theorem stops_nil (radix : Nat) : Stops radix [] := nofun

theorem stops_cons {radix : Nat} {char : Char} {text : List Char} (nondigit : digitOf radix char = none) :
    Stops radix (char :: text) := by
  rintro _ ⟨⟩
  exact nondigit

theorem leadingDigits_stopped {radix : Nat} {text : List Char} (stops : Stops radix text) :
    leadingDigits radix text = ([], text) := by
  cases text with
  | nil => rfl
  | cons char rest => rw [leadingDigits, stops char rfl]

theorem Scanner.number_stopped {radix maxDigits bound : Nat} {allowZeroPrefix : Bool} {text : List Char}
    (stops : Stops radix text) : number radix maxDigits bound allowZeroPrefix text = none := by
  simp [number, leadingDigits_stopped stops]

theorem leadingDigits_append {radix : Nat} {digits : List Nat} {front rest : List Char}
    (spelled : front.map (digitOf radix) = digits.map some) (stops : Stops radix rest) :
    leadingDigits radix (front ++ rest) = (digits, rest) := by
  induction front generalizing digits with
  | nil =>
    obtain rfl : digits = [] := by simpa using spelled.symm
    exact leadingDigits_stopped stops
  | cons char front inductionHypothesis =>
    cases digits with
    | nil => cases spelled
    | cons digit digits =>
      obtain ⟨here, further⟩ := List.cons.inj spelled
      rw [List.cons_append, leadingDigits, here, inductionHypothesis further]

theorem leadingDigits_suffix (radix : Nat) (text : List Char) : (leadingDigits radix text).2 <:+ text := by
  induction text with
  | nil => exact List.suffix_rfl
  | cons char rest inductionHypothesis =>
    rw [leadingDigits]
    split
    · exact inductionHypothesis.trans (List.suffix_cons char rest)
    · exact List.suffix_rfl

theorem Scanner.number_suffix {radix maxDigits bound value : Nat} {allowZeroPrefix : Bool} {text rest : List Char}
    (found : number radix maxDigits bound allowZeroPrefix text = some (value, rest)) : rest <:+ text := by
  unfold number at found
  split at found
  rename_i digits left split
  have suffix := leadingDigits_suffix radix text
  rw [split] at suffix
  grind

theorem digitOf_digitChar {radix digit : Nat} (small : radix ≤ 16) (below : digit < radix) :
    digitOf radix digit.digitChar = some digit := by
  have each : ∀ radix < 17, ∀ digit < radix, digitOf radix digit.digitChar = some digit := by decide
  exact each radix (by omega) digit below

/-- The printed digits are digits, and make up the number. -/
theorem toDigits_spelled {radix : Nat} (proper : 1 < radix) (small : radix ≤ 16) (value : Nat) :
    ∃ digits, (Nat.toDigits radix value).map (digitOf radix) = digits.map some ∧
      numberOf radix digits = value := by
  induction value using Nat.base_induction radix proper with
  | single digit below =>
    rw [Nat.toDigits_of_lt_base below]
    exact ⟨[digit], by simp [digitOf_digitChar small below], by simp [numberOf]⟩
  | digit front digit below positive inductionHypothesis =>
    obtain ⟨digits, spelled, total⟩ := inductionHypothesis
    rw [← Nat.toDigits_append_toDigits proper positive below, Nat.toDigits_of_lt_base below]
    refine ⟨digits ++ [digit], ?_, ?_⟩
    · rw [List.map_append, List.map_append, spelled]
      simp [digitOf_digitChar small below]
    · rw [numberOf, List.foldl_append, ← numberOf, total]
      exact congrArg (· + digit) (Nat.mul_comm front radix)

theorem toDigits_head {radix value : Nat} (proper : 1 < radix) (small : radix ≤ 16) (positive : 0 < value)
    (rest : List Char) : (Nat.toDigits radix value ++ rest).head? ≠ some '0' := by
  induction value using Nat.base_induction radix proper generalizing rest with
  | single digit below =>
    have nonzero : ∀ digit < 16, 0 < digit → digit.digitChar ≠ '0' := by decide
    rw [Nat.toDigits_of_lt_base below]
    simpa using nonzero digit (by omega) positive
  | digit front digit below nonzero inductionHypothesis =>
    rw [← Nat.toDigits_append_toDigits proper nonzero below, List.append_assoc]
    exact inductionHypothesis nonzero _

/-- All printed digits are read, and no others. -/
theorem leadingDigits_toDigits {radix : Nat} (proper : 1 < radix) (small : radix ≤ 16) (value : Nat)
    {rest : List Char} (stops : Stops radix rest) :
    ∃ digits, leadingDigits radix (Nat.toDigits radix value ++ rest) = (digits, rest) ∧
      digits.length = (Nat.toDigits radix value).length ∧ numberOf radix digits = value := by
  obtain ⟨digits, spelled, total⟩ := toDigits_spelled proper small value
  have length := congrArg List.length spelled
  rw [List.length_map, List.length_map] at length
  exact ⟨digits, leadingDigits_append spelled stops, length.symm, total⟩

/-- Nothing is printed with a zero in front for nothing. -/
theorem toDigits_unpadded {radix : Nat} (proper : 1 < radix) (small : radix ≤ 16) (value : Nat) (rest : List Char) :
    ¬ ((Nat.toDigits radix value ++ rest).head? = some '0' ∧ 1 < (Nat.toDigits radix value).length) := by
  rintro ⟨zero, several⟩
  rcases Nat.eq_zero_or_pos value with rfl | positive
  · simp at several
  · exact toDigits_head proper small positive rest zero

/-- A number that fits is read back from its printed digits. -/
theorem Scanner.reads_number {radix maxDigits bound value : Nat} (allowZeroPrefix : Bool) {rest : List Char}
    (proper : 1 < radix) (small : radix ≤ 16) (short : value < radix ^ maxDigits) (fits : value < bound)
    (room : 0 < maxDigits) (stops : Stops radix rest) :
    (number radix maxDigits bound allowZeroPrefix).Reads (Nat.toDigits radix value) value rest := by
  obtain ⟨digits, read, length, total⟩ := leadingDigits_toDigits proper small value stops
  have few : digits.length ≤ maxDigits := by
    rw [length]
    exact (Nat.length_toDigits_le_iff proper room).mpr short
  have some : digits ≠ [] := by
    rw [← List.length_pos_iff, length]
    exact Nat.length_toDigits_pos
  have unpadded := toDigits_unpadded proper small value rest
  rw [← length] at unpadded
  unfold Reads number
  rw [read]
  simp only [total]
  rw [if_neg (by rintro (empty | long); exacts [some empty, absurd few (by omega)]),
    if_neg (fun padded => unpadded padded.2), if_neg (by omega)]

end CkbDiscovery
