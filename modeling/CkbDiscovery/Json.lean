import CkbDiscovery.Scanner

/-! JSON values and their texts: what is printed without spaces is read back, as
long as it is not nested too deep. -/

namespace CkbDiscovery

/-- Of a number that is not natural it is not kept which one it is. -/
inductive Json where
  | null
  | bool (value : Bool)
  | natural (value : Nat)
  | otherNumber
  | string (text : String)
  | array (items : List Json)
  | object (members : List (String × Json))

namespace Json

open Scanner

/-! ### Printing -/

/-- A control character without a letter of its own is printed by its number. -/
def escapeChar (char : Char) : List Char :=
  match char with
  | '"' => ['\\', '"']
  | '\\' => ['\\', '\\']
  | '\x08' => ['\\', 'b']
  | '\x0c' => ['\\', 'f']
  | '\n' => ['\\', 'n']
  | '\r' => ['\\', 'r']
  | '\t' => ['\\', 't']
  | char =>
    if char.toNat < 32 then
      ['\\', 'u', '0', '0', (char.toNat / 16).digitChar, (char.toNat % 16).digitChar]
    else [char]

def printString (text : String) : List Char :=
  '"' :: (text.toList.flatMap escapeChar ++ ['"'])

mutual

def print : Json → List Char
  | null => "null".toList
  | bool true => "true".toList
  | bool false => "false".toList
  | natural value => Nat.toDigits 10 value
  | otherNumber => "-1".toList
  | string text => printString text
  | array items => '[' :: printItems true items
  | object members => '{' :: printMembers true members

def printItems (first : Bool) : List Json → List Char
  | [] => [']']
  | item :: rest => (if first then [] else [',']) ++ item.print ++ printItems false rest

def printMembers (first : Bool) : List (String × Json) → List Char
  | [] => ['}']
  | (name, value) :: rest =>
    (if first then [] else [',']) ++ printString name ++ ':' :: value.print ++ printMembers false rest

end

mutual

/-- How deep arrays and objects are nested. -/
def depth : Json → Nat
  | array items => depthItems items + 1
  | object members => depthMembers members + 1
  | _ => 0

def depthItems : List Json → Nat
  | [] => 0
  | item :: rest => max item.depth (depthItems rest)

def depthMembers : List (String × Json) → Nat
  | [] => 0
  | (_, value) :: rest => max value.depth (depthMembers rest)

end

/-! ### Reading -/

def isSpace (char : Char) : Bool := char = ' ' || char = '\n' || char = '\t' || char = '\r'

def skipSpace (text : List Char) : List Char := text.dropWhile isSpace

def hex4 (a b c d : Char) : Option Nat := do
  let a ← digitOf 16 a
  let b ← digitOf 16 b
  let c ← digitOf 16 c
  let d ← digitOf 16 d
  pure (((a * 16 + b) * 16 + c) * 16 + d)

def unescape : Char → Option Char
  | '"' => some '"'
  | '\\' => some '\\'
  | '/' => some '/'
  | 'b' => some '\x08'
  | 'f' => some '\x0c'
  | 'n' => some '\n'
  | 'r' => some '\r'
  | 't' => some '\t'
  | _ => none

def isHighSurrogate (code : Nat) : Bool := 0xD800 ≤ code && code < 0xDC00

def isLowSurrogate (code : Nat) : Bool := 0xDC00 ≤ code && code < 0xE000

/-- The characters up to the closing quote. -/
def scanChars : Scanner (List Char)
  | [] => none
  | '"' :: rest => some ([], rest)
  | '\\' :: 'u' :: a :: b :: c :: d :: rest =>
    match hex4 a b c d with
    | none => none
    | some code =>
      if isHighSurrogate code then
        match rest with
        | '\\' :: 'u' :: a :: b :: c :: d :: rest =>
          match hex4 a b c d with
          | none => none
          | some low =>
            if isLowSurrogate low then
              (scanChars rest).map fun (chars, rest) =>
                (Char.ofNat (0x10000 + (code - 0xD800) * 0x400 + (low - 0xDC00)) :: chars, rest)
            else none
        | _ => none
      else if isLowSurrogate code then none
      else (scanChars rest).map fun (chars, rest) => (Char.ofNat code :: chars, rest)
  | '\\' :: letter :: rest =>
    match unescape letter with
    | none => none
    | some char => (scanChars rest).map fun (chars, rest) => (char :: chars, rest)
  | char :: rest =>
    if char.toNat < 32 then none
    else (scanChars rest).map fun (chars, rest) => (char :: chars, rest)

def scanString : Scanner String
  | '"' :: rest => (scanChars rest).map fun (chars, rest) => (String.ofList chars, rest)
  | _ => none

/-- Digits after this, if the number goes on with one of these characters. -/
def scanPart (starts : Char → Bool) (signed : Bool) : Scanner Bool
  | [] => some (false, [])
  | char :: rest =>
    if starts char then
      let unsigned := match rest with
        | sign :: more => if signed && (sign = '+' || sign = '-') then more else rest
        | [] => []
      match leadingDigits 10 unsigned with
      | ([], _) => none
      | (_, left) => some (true, left)
    else some (false, char :: rest)

/-- A number without a fraction and an exponent is natural. -/
def scanMagnitude : Scanner Json := fun text => do
  let (digits, rest) := leadingDigits 10 text
  if digits = [] ∨ text.head? = some '0' ∧ 1 < digits.length then none
  else
    let (fraction, rest) ← scanPart (· = '.') false rest
    let (exponent, rest) ← scanPart (fun char => char = 'e' || char = 'E') true rest
    pure (if fraction || exponent then otherNumber else natural (numberOf 10 digits), rest)

def scanNumber : Scanner Json
  | '-' :: rest => (scanMagnitude rest).map fun (_, rest) => (otherNumber, rest)
  | text => scanMagnitude text

/-- Items with commas between them, up to the closing character. -/
def scanItems (close : Char) (item : Scanner α) (first : Bool) : Nat → Scanner (List α)
  | 0, _ => none
  | fuel + 1, text =>
    match skipSpace text with
    | [] => none
    | char :: rest =>
      if char = close then some ([], rest)
      else do
        let text ← if first then some (char :: rest) else if char = ',' then some (skipSpace rest) else none
        let (value, rest) ← item text
        let (values, rest) ← scanItems close item false fuel rest
        pure (value :: values, rest)

def scanMember (value : Scanner Json) : Scanner (String × Json) := fun text => do
  let (name, rest) ← scanString text
  let (_, rest) ← givenChar ':' (skipSpace rest)
  let (value, rest) ← value (skipSpace rest)
  pure ((name, value), rest)

/-- A value in which arrays and objects are nested at most so deep. -/
def scan : Nat → Scanner Json
  | depth, text =>
    match text with
    | 'n' :: 'u' :: 'l' :: 'l' :: rest => some (null, rest)
    | 't' :: 'r' :: 'u' :: 'e' :: rest => some (bool true, rest)
    | 'f' :: 'a' :: 'l' :: 's' :: 'e' :: rest => some (bool false, rest)
    | '"' :: rest => (scanString ('"' :: rest)).map fun (text, rest) => (string text, rest)
    | '[' :: rest =>
      match depth with
      | 0 => none
      | depth + 1 =>
        (scanItems ']' (scan depth) true (rest.length + 1) rest).map fun (items, rest) => (array items, rest)
    | '{' :: rest =>
      match depth with
      | 0 => none
      | depth + 1 =>
        (scanItems '}' (scanMember (scan depth)) true (rest.length + 1) rest).map fun (members, rest) =>
          (object members, rest)
    | text => scanNumber text

/-- The whole text is one value, with spaces around it. -/
def parse (limit : Nat) (text : String) : Option Json :=
  match scan limit (skipSpace text.toList) with
  | some (value, rest) => if skipSpace rest = [] then some value else none
  | none => none

/-! ### What is printed is read back -/

/-- What may stand behind a value that is printed. -/
def Closed (text : List Char) : Prop := ∀ char ∈ text.head?, char = ',' ∨ char = ']' ∨ char = '}'

theorem closed_nil : Closed [] := nofun

theorem closed_cons {char : Char} {text : List Char} (closing : char = ',' ∨ char = ']' ∨ char = '}') :
    Closed (char :: text) := by
  rintro _ ⟨⟩
  exact closing

theorem hex4_control {code : Nat} (small : code < 32) :
    hex4 '0' '0' (code / 16).digitChar (code % 16).digitChar = some code := by
  have each : ∀ code < 32, hex4 '0' '0' (code / 16).digitChar (code % 16).digitChar = some code := by decide
  exact each code small

theorem scanChars_escapeChar (char : Char) (text : List Char) :
    scanChars (escapeChar char ++ text) = (scanChars text).map fun (chars, rest) => (char :: chars, rest) := by
  unfold escapeChar
  split
  any_goals rfl
  rename_i quote slash _ _ _ _ _
  split
  · rename_i control
    have low : ¬ isHighSurrogate char.toNat ∧ ¬ isLowSurrogate char.toNat := by
      simp [isHighSurrogate, isLowSurrogate]
      omega
    simp [scanChars, hex4_control control, low]
  · rename_i visible
    rw [List.singleton_append, scanChars]
    · exact if_neg visible
    · exact quote
    · exact fun _ _ _ _ _ same _ => slash same
    · exact fun _ _ same _ => slash same

theorem reads_scanString (text : String) (rest : List Char) :
    scanString.Reads (printString text) text rest := by
  have chars : ∀ chars : List Char,
      scanChars (chars.flatMap escapeChar ++ '"' :: rest) = some (chars, rest) := by
    intro chars
    induction chars with
    | nil => rfl
    | cons char chars inductionHypothesis =>
      rw [List.flatMap_cons, List.append_assoc, scanChars_escapeChar, inductionHypothesis]
      rfl
  simp [Reads, printString, scanString, chars]

theorem stops_closed {text : List Char} (closed : Closed text) : Stops 10 text := by
  intro char front
  rcases closed char front with rfl | rfl | rfl <;> decide

theorem scanPart_closed (starts : Char → Bool) (signed : Bool) {text : List Char} (closed : Closed text)
    (other : starts ',' = false ∧ starts ']' = false ∧ starts '}' = false) :
    scanPart starts signed text = some (false, text) := by
  cases text with
  | nil => rfl
  | cons char rest =>
    have unstarted : starts char = false := by
      rcases closed char rfl with rfl | rfl | rfl
      · exact other.1
      · exact other.2.1
      · exact other.2.2
    simp [scanPart, unstarted]

theorem reads_scanMagnitude (value : Nat) {rest : List Char} (closed : Closed rest) :
    scanMagnitude.Reads (Nat.toDigits 10 value) (natural value) rest := by
  obtain ⟨digits, read, length, total⟩ :=
    leadingDigits_toDigits (show 1 < 10 by decide) (by decide) value (stops_closed closed)
  have unpadded := toDigits_unpadded (show 1 < 10 by decide) (by decide) value rest
  have proper : ¬ (digits = [] ∨ (Nat.toDigits 10 value ++ rest).head? = some '0' ∧ 1 < digits.length) := by
    rintro (rfl | padded)
    · exact absurd length (Nat.ne_of_lt Nat.length_toDigits_pos)
    · rw [length] at padded
      exact unpadded padded
  have whole := scanPart_closed (· = '.') false closed (by decide)
  have plain := scanPart_closed (fun char => char = 'e' || char = 'E') true closed (by decide)
  unfold Reads scanMagnitude
  rw [read]
  simp [-List.head?_append, proper, whole, plain, total]

/-- Texts with commas between them, up to the closing character. -/
def printList (close : Char) (first : Bool) : List (List Char) → List Char
  | [] => [close]
  | text :: rest => (if first then [] else [',']) ++ text ++ printList close false rest

theorem printItems_eq (first : Bool) (items : List Json) :
    printItems first items = printList ']' first (items.map print) := by
  induction items generalizing first with
  | nil => rfl
  | cons item rest inductionHypothesis => rw [printItems, inductionHypothesis, List.map_cons, printList]

def printMember (member : String × Json) : List Char := printString member.1 ++ ':' :: member.2.print

theorem printMembers_eq (first : Bool) (members : List (String × Json)) :
    printMembers first members = printList '}' first (members.map printMember) := by
  induction members generalizing first with
  | nil => rfl
  | cons member rest inductionHypothesis =>
    rw [printMembers, inductionHypothesis, List.map_cons, printList, printMember]
    simp

/-- A text that starts neither with a space nor by closing a list. -/
def Opens (text : List Char) : Prop :=
  ∃ char rest, text = char :: rest ∧ isSpace char = false ∧ char ≠ ']' ∧ char ≠ '}'

theorem skipSpace_opens {text : List Char} (opens : Opens text) (rest : List Char) :
    skipSpace (text ++ rest) = text ++ rest := by
  obtain ⟨char, more, rfl, visible, _⟩ := opens
  simp [skipSpace, visible]

/-- One more item, after a comma or not. -/
theorem scanItems_cons {α : Type} {item : Scanner α} {close : Char} {first : Bool} {fuel : Nat}
    {text more rest : List Char} {value : α} {values : List α} (closing : close = ']' ∨ close = '}')
    (opens : Opens text) (here : item.Reads text value more)
    (later : scanItems close item false fuel more = some (values, rest)) :
    scanItems close item first (fuel + 1) ((if first then [] else [',']) ++ text ++ more) =
      some (value :: values, rest) := by
  have unspaced := skipSpace_opens opens more
  obtain ⟨char, tail, rfl, visible, square, curly⟩ := opens
  have different : char ≠ close := by
    rcases closing with rfl | rfl
    · exact square
    · exact curly
  have comma : ',' ≠ close ∧ isSpace ',' = false := by
    rcases closing with rfl | rfl <;> decide
  unfold Reads at here
  cases first with
  | true =>
    rw [if_pos rfl, List.nil_append, scanItems, unspaced]
    simp only [List.cons_append, if_neg different] at here ⊢
    simp [here, later]
  | false =>
    have after : skipSpace (',' :: (char :: tail ++ more)) = ',' :: (char :: tail ++ more) := by
      simp [skipSpace, comma.2]
    rw [if_neg Bool.false_ne_true, List.append_assoc, List.singleton_append, scanItems, after]
    simp only [if_neg comma.1, unspaced]
    simp only [List.cons_append] at here ⊢
    simp [here, later]

/-- Items that are read one by one are read as a list. -/
theorem reads_scanItems {α : Type} {item : Scanner α} {write : α → List Char} {close : Char}
    (closing : close = ']' ∨ close = '}') {values : List α} {rest : List Char}
    (opens : ∀ value ∈ values, Opens (write value))
    (reads : ∀ value ∈ values, ∀ rest, Closed rest → item.Reads (write value) value rest)
    (first : Bool) {fuel : Nat} (enough : values.length < fuel) :
    (scanItems close item first fuel).Reads (printList close first (values.map write)) values rest := by
  have visible : isSpace close = false := by
    rcases closing with rfl | rfl <;> decide
  induction values generalizing first fuel with
  | nil =>
    cases fuel with
    | zero => cases enough
    | succ fuel => simp [Reads, printList, scanItems, skipSpace, visible]
  | cons value values inductionHypothesis =>
    cases fuel with
    | zero => cases enough
    | succ fuel =>
      have closed : Closed (printList close false (values.map write) ++ rest) := by
        cases values with
        | nil => exact closed_cons (.inr closing)
        | cons second values => exact closed_cons (.inl rfl)
      have later := inductionHypothesis (fun other member => opens other (List.mem_cons_of_mem _ member))
        (fun other member => reads other (List.mem_cons_of_mem _ member)) false (Nat.lt_of_succ_lt_succ enough)
      rw [Reads, List.map_cons, printList, List.append_assoc]
      exact scanItems_cons closing (opens value List.mem_cons_self) (reads value List.mem_cons_self _ closed) later

theorem opens_cons {char : Char} {text : List Char}
    (visible : isSpace char = false ∧ char ≠ ']' ∧ char ≠ '}') : Opens (char :: text) :=
  ⟨char, text, rfl, visible⟩

/-- A printed number starts with a digit. -/
theorem toDigits_front (value : Nat) :
    ∃ char text, Nat.toDigits 10 value = char :: text ∧ char.isDigit = true := by
  obtain ⟨char, text, front⟩ := List.exists_cons_of_ne_nil (Nat.toDigits_ne_nil (n := value) (b := 10))
  exact ⟨char, text, front,
    Nat.isDigit_of_mem_toDigits (show 0 < 10 by decide) (by decide) (front ▸ List.mem_cons_self)⟩

theorem opens_toDigits (value : Nat) : Opens (Nat.toDigits 10 value) := by
  obtain ⟨char, text, front, digit⟩ := toDigits_front value
  rw [front]
  refine opens_cons ⟨?_, ?_, ?_⟩
  · rw [← Bool.not_eq_true]
    intro space
    simp only [isSpace, Bool.or_eq_true, decide_eq_true_eq] at space
    rcases space with ((rfl | rfl) | rfl) | rfl <;> cases digit
  · rintro rfl
    cases digit
  · rintro rfl
    cases digit

theorem opens_print (value : Json) : Opens value.print := by
  cases value with
  | natural value => exact opens_toDigits value
  | bool value => cases value <;> exact opens_cons (by decide)
  | _ => exact opens_cons (by decide)

theorem opens_printMember (member : String × Json) : Opens (printMember member) := opens_cons (by decide)

theorem depth_le_depthItems {item : Json} {items : List Json} (member : item ∈ items) :
    item.depth ≤ depthItems items := by
  induction items with
  | nil => cases member
  | cons other rest inductionHypothesis =>
    rw [depthItems]
    rcases List.mem_cons.mp member with rfl | later
    · exact Nat.le_max_left _ _
    · exact Nat.le_trans (inductionHypothesis later) (Nat.le_max_right _ _)

theorem depth_le_depthMembers {entry : String × Json} {members : List (String × Json)} (member : entry ∈ members) :
    entry.2.depth ≤ depthMembers members := by
  induction members with
  | nil => cases member
  | cons other rest inductionHypothesis =>
    rw [depthMembers]
    rcases List.mem_cons.mp member with rfl | later
    · exact Nat.le_max_left _ _
    · exact Nat.le_trans (inductionHypothesis later) (Nat.le_max_right _ _)

theorem printList_length (close : Char) {texts : List (List Char)} (opens : ∀ text ∈ texts, Opens text)
    (first : Bool) : texts.length ≤ (printList close first texts).length := by
  induction texts generalizing first with
  | nil => exact Nat.zero_le _
  | cons text rest inductionHypothesis =>
    have later := inductionHypothesis (fun other member => opens other (List.mem_cons_of_mem _ member)) false
    obtain ⟨char, more, rfl, _⟩ := opens text List.mem_cons_self
    simp only [printList, List.length_append, List.length_cons]
    omega

/-- A list is read with the fuel that its own text gives. -/
theorem reads_list {α : Type} (item : Scanner α) (write : α → List Char) {close : Char}
    (closing : close = ']' ∨ close = '}') {values : List α} (rest : List Char)
    (opens : ∀ value ∈ values, Opens (write value))
    (reads : ∀ value ∈ values, ∀ rest, Closed rest → item.Reads (write value) value rest) :
    scanItems close item true ((printList close true (values.map write) ++ rest).length + 1)
      (printList close true (values.map write) ++ rest) = some (values, rest) := by
  have texts : ∀ text ∈ values.map write, Opens text := List.forall_mem_map.mpr opens
  have length : values.length ≤ (printList close true (values.map write)).length := by
    simpa using printList_length close texts true
  refine reads_scanItems closing opens reads true ?_
  rw [List.length_append]
  omega

theorem reads_scanMember {limit : Nat} {member : String × Json} {rest : List Char}
    (reads : (scan limit).Reads member.2.print member.2 rest) :
    (scanMember (scan limit)).Reads (printMember member) member rest := by
  obtain ⟨name, value⟩ := member
  have unspaced := skipSpace_opens (opens_print value) rest
  have named := reads_scanString name (':' :: value.print ++ rest)
  have colon : givenChar ':' (skipSpace (':' :: value.print ++ rest)) = some ((), value.print ++ rest) := rfl
  unfold Reads at *
  rw [printMember, List.append_assoc, scanMember, named]
  simp only [Option.bind_eq_bind, Option.bind_some, colon, unspaced, reads]
  rfl

/-- A digit in front can only start a number. -/
theorem scan_digit (limit : Nat) {char : Char} {text : List Char} (digit : char.isDigit = true) :
    scan limit (char :: text) = scanMagnitude (char :: text) := by
  unfold scan
  split
  any_goals
    rename_i same
    cases same
    cases digit
  unfold scanNumber
  split
  · rename_i same
    cases same
    cases digit
  · rfl

theorem reads_scalar (limit : Nat) {value : Json} (scalar : value.depth = 0) {rest : List Char}
    (closed : Closed rest) : (scan limit).Reads value.print value rest := by
  cases value with
  | null => cases limit <;> rfl
  | bool value => cases limit <;> cases value <;> rfl
  | natural value =>
    have read := reads_scanMagnitude value closed
    obtain ⟨char, text, front, digit⟩ := toDigits_front value
    rw [Reads, print]
    rw [Reads] at read
    rw [front] at read ⊢
    rwa [List.cons_append, scan_digit limit digit]
  | otherNumber =>
    have one : scanMagnitude ('1' :: rest) = some (natural 1, rest) := reads_scanMagnitude 1 closed
    have read : scan limit ('-' :: '1' :: rest) =
        (scanMagnitude ('1' :: rest)).map fun (_, rest) => (otherNumber, rest) := by
      cases limit <;> rfl
    exact read.trans (by rw [one]; rfl)
  | string text =>
    have text' := reads_scanString text rest
    have read : scan limit (printString text ++ rest) =
        (scanString (printString text ++ rest)).map fun (text, rest) => (string text, rest) := by
      cases limit <;> rfl
    exact read.trans (by rw [text']; rfl)
  | array items => cases scalar
  | object members => cases scalar

/-- A value that is not nested too deep is read back from its text. -/
theorem reads_scan {limit : Nat} {value : Json} (shallow : value.depth ≤ limit) {rest : List Char}
    (closed : Closed rest) : (scan limit).Reads value.print value rest := by
  -- by induction on the limit, which the parts of a list stay one below
  induction limit generalizing value rest with
  | zero => exact reads_scalar 0 (Nat.le_zero.mp shallow) closed
  | succ limit inductionHypothesis =>
    cases value with
    | array items =>
      have listed := reads_list (scan limit) print (.inl rfl) rest (fun item _ => opens_print item)
        fun item member rest closed => inductionHypothesis
          (Nat.le_trans (depth_le_depthItems member) (Nat.le_of_succ_le_succ shallow)) closed
      rw [Reads, print, printItems_eq, List.cons_append, scan]
      simp only [listed]
      rfl
    | object members =>
      have listed := reads_list (scanMember (scan limit)) printMember (.inr rfl) rest
        (fun member _ => opens_printMember member) fun entry member rest closed => reads_scanMember
          (inductionHypothesis
            (Nat.le_trans (depth_le_depthMembers member) (Nat.le_of_succ_le_succ shallow)) closed)
      rw [Reads, print, printMembers_eq, List.cons_append, scan]
      simp only [listed]
      rfl
    | _ => exact reads_scalar (limit + 1) rfl closed

/-- What is printed is read back, if it is not nested deeper than the limit. -/
theorem parse_print {limit : Nat} {value : Json} (shallow : value.depth ≤ limit) :
    parse limit (String.ofList value.print) = some value := by
  have unspaced := skipSpace_opens (opens_print value) []
  have read := reads_scan shallow closed_nil
  rw [List.append_nil] at unspaced
  rw [Reads, List.append_nil] at read
  rw [parse, String.toList_ofList, unspaced, read]
  rfl

end Json

end CkbDiscovery
