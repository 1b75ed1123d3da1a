import Mathlib.Data.List.Infix

/-! Glob patterns as `KEYS` reads them: byte by byte, with `*`, `?`, classes
in brackets and backslash escapes. -/

namespace CkbDiscovery.Redis

/-- The bytes of the text, as they go over the wire. -/
def bytes (text : String) : List UInt8 := text.toByteArray.data.toList

@[simp] theorem bytes_append (first second : String) :
    bytes (first ++ second) = bytes first ++ bytes second := by
  simp [bytes]

theorem bytes_injective {first second : String} (same : bytes first = bytes second) :
    first = second := by
  apply String.toByteArray_inj.mp
  exact ByteArray.ext (Array.toList_inj.mp same)

inductive GlobItem where
  | any
  | one
  | oneOf (negated : Bool) (ranges : List (UInt8 × UInt8))
  | literal (byte : UInt8)
  deriving DecidableEq, Repr

/-- `some (negated, ranges)` while the parser is inside a bracket class. -/
abbrev ClassState := Option (Bool × List (UInt8 × UInt8))

/-- A class may be closed by the end of the pattern, and its first byte may be
any byte but `]`; range ends may come in either order. -/
def parseGlob : ClassState → List UInt8 → List GlobItem
  | none, [] => []
  | none, 42 :: rest => .any :: parseGlob none rest
  | none, 63 :: rest => .one :: parseGlob none rest
  | none, 91 :: 94 :: rest => parseGlob (some (true, [])) rest
  | none, 91 :: rest => parseGlob (some (false, [])) rest
  | none, 92 :: byte :: rest => .literal byte :: parseGlob none rest
  | none, byte :: rest => .literal byte :: parseGlob none rest
  | some (negated, ranges), [] => [.oneOf negated ranges]
  | some (negated, ranges), 92 :: byte :: rest =>
    parseGlob (some (negated, (byte, byte) :: ranges)) rest
  | some (negated, ranges), 93 :: rest => .oneOf negated ranges :: parseGlob none rest
  | some (negated, ranges), low :: 45 :: high :: rest =>
    parseGlob (some (negated, (min low high, max low high) :: ranges)) rest
  | some (negated, ranges), byte :: rest =>
    parseGlob (some (negated, (byte, byte) :: ranges)) rest

def matchGlob : List GlobItem → List UInt8 → Bool
  | [], text => text.isEmpty
  | .any :: items, text => text.tails.any (matchGlob items)
  | .one :: items, text => match text with
    | [] => false
    | _ :: rest => matchGlob items rest
  | .oneOf negated ranges :: items, text => match text with
    | [] => false
    | byte :: rest =>
      (ranges.any fun range => range.1 ≤ byte && byte ≤ range.2) != negated && matchGlob items rest
  | .literal expected :: items, text => match text with
    | [] => false
    | byte :: rest => byte == expected && matchGlob items rest

/-- The keys a `KEYS pattern` command selects. -/
def globMatches (pattern key : String) : Bool :=
  matchGlob (parseGlob none (bytes pattern)) (bytes key)

/-- A byte that stands for itself outside brackets. -/
def Plain (byte : UInt8) : Prop := byte ≠ 42 ∧ byte ≠ 63 ∧ byte ≠ 91 ∧ byte ≠ 92

instance (byte : UInt8) : Decidable (Plain byte) := by unfold Plain; infer_instance

/-- A text with no metacharacter. -/
def PlainText (text : String) : Prop := ∀ byte ∈ bytes text, Plain byte

instance (text : String) : Decidable (PlainText text) := List.decidableBAll Plain (bytes text)

theorem parseGlob_plain {byte : UInt8} (plain : Plain byte) (rest : List UInt8) :
    parseGlob none (byte :: rest) = .literal byte :: parseGlob none rest := by
  obtain ⟨notStar, notMark, notBracket, notEscape⟩ := plain
  rw [parseGlob.eq_def]
  split <;> simp_all

theorem parseGlob_literal {text : List UInt8} (plain : ∀ byte ∈ text, Plain byte)
    (rest : List UInt8) :
    parseGlob none (text ++ rest) = text.map .literal ++ parseGlob none rest := by
  induction text with
  | nil => rfl
  | cons byte text inductionHypothesis =>
    rw [List.cons_append, parseGlob_plain (plain byte List.mem_cons_self),
      inductionHypothesis fun other member => plain other (List.mem_cons_of_mem byte member)]
    rfl

theorem matchGlob_literal (text : List UInt8) (items : List GlobItem) (key : List UInt8) :
    matchGlob (text.map .literal ++ items) key = true ↔
      ∃ rest, key = text ++ rest ∧ matchGlob items rest = true := by
  induction text generalizing key with
  | nil => simp
  | cons byte text inductionHypothesis =>
    cases key with
    | nil => simp [matchGlob]
    | cons first key =>
      simp only [List.map_cons, List.cons_append, matchGlob, Bool.and_eq_true, beq_iff_eq,
        inductionHypothesis, List.cons.injEq]
      constructor
      · intro given
        obtain ⟨same, rest, split, matched⟩ := given
        exact ⟨rest, ⟨same, split⟩, matched⟩
      · intro given
        obtain ⟨rest, ⟨same, split⟩, matched⟩ := given
        exact ⟨same, rest, split, matched⟩

theorem matchGlob_any (items : List GlobItem) (key : List UInt8) :
    matchGlob (.any :: items) key = true ↔
      ∃ skipped rest, key = skipped ++ rest ∧ matchGlob items rest = true := by
  simp only [matchGlob, List.any_eq_true, List.mem_tails]
  constructor
  · intro given
    obtain ⟨rest, ⟨skipped, split⟩, matched⟩ := given
    exact ⟨skipped, rest, split.symm, matched⟩
  · intro given
    obtain ⟨skipped, rest, split, matched⟩ := given
    exact ⟨rest, ⟨skipped, split.symm⟩, matched⟩

theorem globMatches_star_bytes (before after : String) (plainBefore : PlainText before)
    (plainAfter : PlainText after) (key : String) :
    globMatches (before ++ "*" ++ after) key = true ↔
      ∃ middle, bytes key = bytes before ++ middle ++ bytes after := by
  have star : bytes "*" = [42] := by decide
  have parsedAfter : parseGlob none (bytes after) = (bytes after).map .literal := by
    simpa [parseGlob] using parseGlob_literal plainAfter []
  have parsed : parseGlob none (bytes (before ++ "*" ++ after)) =
      (bytes before).map .literal ++ .any :: (bytes after).map .literal := by
    rw [bytes_append, bytes_append, List.append_assoc, parseGlob_literal plainBefore, star,
      List.singleton_append, parseGlob, parsedAfter]
  have tail (rest : List UInt8) :
      matchGlob ((bytes after).map .literal) rest = true ↔ rest = bytes after := by
    have ending := matchGlob_literal (bytes after) [] rest
    simpa [matchGlob] using ending
  rw [globMatches, parsed, matchGlob_literal]
  simp only [matchGlob_any, tail]
  constructor
  · intro given
    obtain ⟨rest, split, middle, ending, restSplit, rfl⟩ := given
    exact ⟨middle, by rw [split, restSplit, List.append_assoc]⟩
  · intro given
    obtain ⟨middle, split⟩ := given
    exact ⟨middle ++ bytes after, by rw [split, List.append_assoc], middle, bytes after, rfl, rfl⟩

theorem bytes_ofList (chars : List Char) :
    bytes (String.ofList chars) = chars.utf8Encode.data.toList := by
  rw [bytes, String.toByteArray_ofList]

/-- A text of characters that are spelled without metacharacters. -/
theorem plainText_of_chars {text : String}
    (plain : ∀ char ∈ text.toList, ∀ byte ∈ String.utf8EncodeChar char, Plain byte) :
    PlainText text := by
  intro byte member
  rw [← String.ofList_toList (s := text), bytes_ofList] at member
  obtain ⟨char, present, spelled⟩ : ∃ char ∈ text.toList, byte ∈ String.utf8EncodeChar char := by
    simpa [List.utf8Encode] using member
  exact plain char present byte spelled

/-- A text that starts a key byte by byte starts it as a text. -/
theorem exists_of_bytes_before {before key : String} {rest : List UInt8}
    (split : bytes key = bytes before ++ rest) : ∃ tail, key = before ++ tail ∧ bytes tail = rest := by
  have encoded : before.toList.utf8Encode ++ ⟨rest.toArray⟩ = key.toList.utf8Encode := by
    apply ByteArray.ext
    apply Array.toList_inj.mp
    have spelled := split
    simpa [bytes] using spelled.symm
  obtain ⟨tail, same⟩ := List.isPrefix_of_utf8Encode_append_eq_utf8Encode _ encoded
  have whole : key = before ++ String.ofList tail := by
    apply String.toList_inj.mp
    simp [← same]
  refine ⟨String.ofList tail, whole, ?_⟩
  rw [whole, bytes_append, List.append_cancel_left_eq] at split
  exact split

theorem bytes_getElem? {text : String} {position : Nat}
    (within : position < text.toByteArray.size) :
    (bytes text)[position]? = some text.toByteArray[position] := by
  rw [List.getElem?_eq_getElem (by simpa [bytes] using within)]
  rfl

/-- A text that ends a key byte by byte ends it as a text. -/
theorem exists_of_bytes_after {after key : String} {rest : List UInt8}
    (split : bytes key = rest ++ bytes after) : ∃ head, key = head ++ after ∧ bytes head = rest := by
  have size : key.toByteArray.size = rest.length + after.toByteArray.size := by
    have length := congrArg List.length split
    simpa [bytes] using length
  have valid : String.Pos.Raw.IsValid key ⟨rest.length⟩ := by
    rw [String.Pos.Raw.isValid_iff_isUTF8FirstByte]
    by_cases empty : after.toByteArray.size = 0
    · left
      apply String.Pos.Raw.ext
      simp [String.rawEndPos, ← String.size_toByteArray, size, empty]
    · right
      have within : rest.length < key.toByteArray.size := by omega
      have first := after.isValidUTF8.isUTF8FirstByte_getElem_zero (by omega)
      have same : key.toByteArray[rest.length] = after.toByteArray[0] := by
        apply Option.some.inj
        rw [← bytes_getElem? within, ← bytes_getElem?, split, List.getElem?_append_right (Nat.le_refl _),
          Nat.sub_self]
      refine ⟨by simpa [String.Pos.Raw.lt_iff] using within, ?_⟩
      rw [String.getUTF8Byte]
      exact same ▸ first
  obtain ⟨head, tail, encoded, whole⟩ := valid.exists
  have whole : key = String.ofList head ++ String.ofList tail := by rw [← whole, String.ofList_append]
  have headBytes : bytes (String.ofList head) = rest := by
    rw [bytes_ofList, encoded]
    have taken := congrArg (List.take rest.length) split
    simpa [bytes] using taken
  rw [whole, bytes_append, headBytes, List.append_cancel_left_eq] at split
  exact ⟨String.ofList head, by rw [whole, bytes_injective split], headBytes⟩

/-- The shape of every fixed scan: literal text, one star, literal text. -/
theorem globMatches_star (before after : String) (plainBefore : PlainText before)
    (plainAfter : PlainText after) (key : String) :
    globMatches (before ++ "*" ++ after) key = true ↔ ∃ middle, key = before ++ middle ++ after := by
  rw [globMatches_star_bytes before after plainBefore plainAfter]
  constructor
  · intro given
    obtain ⟨middle, split⟩ := given
    rw [List.append_assoc] at split
    obtain ⟨tail, rfl, rest⟩ := exists_of_bytes_before split
    obtain ⟨head, rfl, _⟩ := exists_of_bytes_after rest
    exact ⟨head, by rw [String.append_assoc]⟩
  · intro given
    obtain ⟨middle, rfl⟩ := given
    exact ⟨bytes middle, by rw [bytes_append, bytes_append]⟩

/-- A pattern with no metacharacter selects the one key it spells. -/
theorem globMatches_plain {pattern : String} (plain : PlainText pattern)
    (key : String) : globMatches pattern key = true ↔ key = pattern := by
  have parsed : parseGlob none (bytes pattern) = (bytes pattern).map .literal := by
    simpa [parseGlob] using parseGlob_literal plain []
  have literal := matchGlob_literal (bytes pattern) [] (bytes key)
  rw [globMatches, parsed]
  simp only [List.append_nil, matchGlob, List.isEmpty_iff, exists_eq_right] at literal
  rw [literal]
  exact ⟨bytes_injective, congrArg bytes⟩

example : globMatches "peer.*.x[0-9]" "peer.a.b.x7" = true := by decide

end CkbDiscovery.Redis
