import CkbDiscovery.Scanner
import CkbDiscovery.Types

/-! The text forms of IP addresses as `std::net` reads them, and that every
address is read back from the text it is printed as. -/

namespace CkbDiscovery

open Scanner

namespace Ipv4Addr

def readOctet : Scanner UInt8 := UInt8.ofNat <$> number 10 3 256 false

def readIpv4Addr : Scanner Ipv4Addr := do
  let a ← separated '.' 0 readOctet
  let b ← separated '.' 1 readOctet
  let c ← separated '.' 2 readOctet
  let d ← separated '.' 3 readOctet
  pure ⟨a, b, c, d⟩

/-- A text that is too long is not looked at. -/
def fromStr (text : String) : Option Ipv4Addr :=
  if 15 < text.utf8ByteSize then none else wholly readIpv4Addr text.toList

/-- `u16::from_be_bytes` -/
def fromBeBytes (high low : UInt8) : UInt16 := .ofNat (high.toNat * 256 + low.toNat)

/-- The two groups that the address takes in the newer form. -/
def groups (address : Ipv4Addr) : List UInt16 :=
  [fromBeBytes address.a address.b, fromBeBytes address.c address.d]

end Ipv4Addr

namespace Ipv6Addr

open Ipv4Addr (readIpv4Addr)

def readGroup : Scanner UInt16 := UInt16.ofNat <$> number 16 4 65536 true

/-- Groups from an index on, for as many slots as are left, and whether the last
two were given as an IPv4 address, which takes two slots. -/
def readGroups (index : Nat) : Nat → List Char → (List UInt16 × Bool) × List Char
  | 0, text => (([], false), text)
  | left + 1, text =>
    match if 0 < left then separated ':' index readIpv4Addr text else none with
    | some (address, rest) => ((address.groups, true), rest)
    | none =>
      match separated ':' index readGroup text with
      | some (group, rest) =>
        let ((groups, ipv4), rest) := readGroups (index + 1) left rest
        ((group :: groups, ipv4), rest)
      | none => (([], false), text)

def ofSegments (segments : List UInt16) : Ipv6Addr :=
  ⟨segments.getD 0 0, segments.getD 1 0, segments.getD 2 0, segments.getD 3 0,
    segments.getD 4 0, segments.getD 5 0, segments.getD 6 0, segments.getD 7 0⟩

/-- All groups, or those before and those after one `::` that stands for zeroes. -/
def readIpv6Addr : Scanner Ipv6Addr := fun text => do
  let ((head, headIpv4), rest) := readGroups 0 8 text
  if head.length = 8 then pure (ofSegments head, rest)
  else if headIpv4 then none
  else
    let (_, rest) ← givenChar ':' rest
    let (_, rest) ← givenChar ':' rest
    let ((tail, _), rest) := readGroups 0 (8 - (head.length + 1)) rest
    let zeroes := List.replicate (8 - head.length - tail.length) 0
    pure (ofSegments (head ++ zeroes ++ tail), rest)

def fromStr (text : String) : Option Ipv6Addr := wholly readIpv6Addr text.toList

end Ipv6Addr

namespace IpAddr

def readIpAddr : Scanner IpAddr := fun text =>
  match (v4 <$> Ipv4Addr.readIpv4Addr : Scanner IpAddr) text with
  | some found => some found
  | none => (v6 <$> Ipv6Addr.readIpv6Addr : Scanner IpAddr) text

def fromStr (text : String) : Option IpAddr := wholly readIpAddr text.toList

end IpAddr

namespace Ipv4Addr

theorem reads_readOctet (octet : UInt8) {rest : List Char} (stops : Stops 10 rest) :
    readOctet.Reads (Nat.toDigits 10 octet.toNat) octet rest := by
  have below := octet.toNat_lt
  have reads := (reads_number false (by decide) (by decide) (by omega : octet.toNat < 10 ^ 3) below (by decide)
    stops).map UInt8.ofNat
  rwa [UInt8.ofNat_toNat] at reads

theorem toString_toList (address : Ipv4Addr) : address.toString.toList =
    Nat.toDigits 10 address.a.toNat ++ ('.' :: Nat.toDigits 10 address.b.toNat ++
      ('.' :: Nat.toDigits 10 address.c.toNat ++ ('.' :: Nat.toDigits 10 address.d.toNat ++ []))) := by
  simp [toString, ToString.toString]

theorem stops_dot (text : List Char) : Stops 10 ('.' :: text) := stops_cons (by decide)

theorem reads_readIpv4Addr (address : Ipv4Addr) {rest : List Char} (stops : Stops 10 rest) :
    readIpv4Addr.Reads address.toString.toList address rest := by
  rw [toString_toList]
  refine ((reads_readOctet _ (stops_dot _)).separated '.' 0).andThen ?_
  refine ((reads_readOctet _ (stops_dot _)).separated '.' 1).andThen ?_
  refine ((reads_readOctet _ (stops_dot _)).separated '.' 2).andThen ?_
  exact ((reads_readOctet _ stops).separated '.' 3).andThen (reads_pure _)

/-- Without a digit in front there is no first octet. -/
theorem readIpv4Addr_stopped {text : List Char} (stops : Stops 10 text) : readIpv4Addr text = none := by
  have first : separated '.' 0 readOctet text = none := by
    change (number 10 3 256 false text).bind _ = _
    rw [number_stopped stops]
    rfl
  change (separated '.' 0 readOctet text).bind _ = _
  rw [first]
  rfl

/-- Without a dot there is no second one. -/
theorem readIpv4Addr_dotless {text : List Char} (dotless : '.' ∉ text) : readIpv4Addr text = none := by
  change (separated '.' 0 readOctet text).bind _ = _
  cases found : separated '.' 0 readOctet text with
  | none => rfl
  | some first =>
    obtain ⟨octet, rest⟩ := first
    obtain ⟨⟨value, left⟩, scanned, same⟩ := Option.bind_eq_some_iff.mp
      (show (number 10 3 256 false text).bind _ = _ from found)
    cases same
    have suffix := number_suffix scanned
    have second : separated '.' 1 readOctet rest = none := by
      refine separated_none nofun ?_
      rintro more rfl
      exact absurd (suffix.subset List.mem_cons_self) dotless
    change (separated '.' 1 readOctet rest).bind _ = _
    rw [second]
    rfl

theorem repr_bytes (value : Nat) : value.repr.utf8ByteSize = (Nat.toDigits 10 value).length := by
  induction value using Nat.base_induction 10 (by decide) with
  | single digit below =>
    have narrow : ∀ digit < 10, digit.digitChar.utf8Size = 1 := by decide
    rw [Nat.repr_of_lt below, Nat.toDigits_of_lt_base below, String.utf8ByteSize_singleton]
    exact narrow digit below
  | digit front digit below positive inductionHypothesis =>
    have narrow : ∀ digit < 10, digit.digitChar.utf8Size = 1 := by decide
    have split : (10 * front + digit) / 10 = front := by omega
    have last : (10 * front + digit) % 10 = digit := by omega
    rw [Nat.repr_of_ge (by omega), ← Nat.toDigits_append_toDigits (by decide) positive below,
      Nat.toDigits_of_lt_base below, split, last, String.utf8ByteSize_append, inductionHypothesis,
      String.utf8ByteSize_singleton, narrow digit below, List.length_append, List.length_singleton]

theorem toString_bytes (address : Ipv4Addr) : address.toString.utf8ByteSize ≤ 15 := by
  have octet : ∀ octet : UInt8, octet.toNat.repr.utf8ByteSize ≤ 3 := by
    intro octet
    have below := octet.toNat_lt
    rw [repr_bytes]
    exact (Nat.length_toDigits_le_iff (by decide) (by decide)).mpr (by omega)
  have a := octet address.a
  have b := octet address.b
  have c := octet address.c
  have d := octet address.d
  have dot : ".".utf8ByteSize = 1 := by decide
  simp only [toString, ToString.toString, String.utf8ByteSize_append, dot]
  omega

theorem fromStr_toString (address : Ipv4Addr) : fromStr address.toString = some address := by
  rw [fromStr, if_neg (Nat.not_lt.mpr address.toString_bytes)]
  exact wholly_of_reads (address.reads_readIpv4Addr (stops_nil 10))

end Ipv4Addr

namespace Ipv6Addr

open Ipv4Addr (readIpv4Addr readIpv4Addr_dotless readIpv4Addr_stopped)

/-- Groups as they are printed from an index on. -/
def groupsText (index : Nat) : List UInt16 → List Char
  | [] => []
  | group :: rest =>
    (if 0 < index then [':'] else []) ++ Nat.toDigits 16 group.toNat ++ groupsText (index + 1) rest

theorem groupsText_later (index : Nat) (groups : List UInt16) :
    groupsText (index + 1) groups = groups.flatMap fun group => ':' :: Nat.toDigits 16 group.toNat := by
  induction groups generalizing index with
  | nil => rfl
  | cons group rest inductionHypothesis =>
    rw [groupsText, inductionHypothesis, List.flatMap_cons, if_pos (Nat.succ_pos index)]
    rfl

theorem fmtSubslice_toList (groups : List UInt16) : (fmtSubslice groups).toList = groupsText 0 groups := by
  cases groups with
  | nil => rfl
  | cons group rest =>
    rw [groupsText, groupsText_later, fmtSubslice, String.toList_intercalate]
    induction rest generalizing group with
    | nil => simp
    | cons second rest inductionHypothesis =>
      have later := inductionHypothesis second
      simp only [List.map_cons, List.flatMap_cons, List.map_map] at later ⊢
      rw [List.intercalate_cons_cons, later]
      simp

/-- Neither a group nor an IPv4 address goes on here. -/
structure Ends (text : List Char) : Prop where
  stops : Stops 16 text
  dotless : '.' ∉ text
  last : ∀ more, text = ':' :: more → Stops 16 more

theorem ends_nil : Ends [] := ⟨stops_nil 16, List.not_mem_nil, nofun⟩

theorem ends_gap {text : List Char} (dotless : '.' ∉ text) : Ends (':' :: ':' :: text) where
  stops := stops_cons (by decide)
  dotless := by simpa using dotless
  last := by
    rintro _ ⟨⟩
    exact stops_cons (by decide)

theorem toDigits_dotless (value : Nat) : '.' ∉ Nat.toDigits 16 value := by
  intro dotted
  obtain ⟨digits, spelled, _⟩ := toDigits_spelled (show 1 < 16 by decide) (by decide) value
  have digit : digitOf 16 '.' ∈ digits.map some := spelled ▸ List.mem_map_of_mem dotted
  have none : digitOf 16 '.' = none := by decide
  simp [none] at digit

theorem groupsText_dotless (index : Nat) (groups : List UInt16) : '.' ∉ groupsText index groups := by
  induction groups generalizing index with
  | nil => exact List.not_mem_nil
  | cons group rest inductionHypothesis =>
    have digits := toDigits_dotless group.toNat
    have later := inductionHypothesis (index + 1)
    rw [groupsText]
    split <;> simp [digits, later]

theorem reads_readGroup (group : UInt16) {rest : List Char} (stops : Stops 16 rest) :
    readGroup.Reads (Nat.toDigits 16 group.toNat) group rest := by
  have below := group.toNat_lt
  have reads := (reads_number true (by decide) (by decide) (by omega : group.toNat < 16 ^ 4) below (by decide)
    stops).map UInt16.ofNat
  rwa [UInt16.ofNat_toNat] at reads

theorem readGroup_stopped {text : List Char} (stops : Stops 16 text) : readGroup text = none := by
  change (number 16 4 65536 true text).bind _ = _
  rw [number_stopped stops]
  rfl

theorem separated_ipv4_dotless {text : List Char} (dotless : '.' ∉ text) (index : Nat) :
    separated ':' index readIpv4Addr text = none := by
  refine separated_none (fun _ => readIpv4Addr_dotless dotless) ?_
  rintro more rfl
  exact readIpv4Addr_dotless fun dotted => dotless (List.mem_cons_of_mem _ dotted)

theorem stops_groupsText {index : Nat} {groups : List UInt16} {rest : List Char} (stops : Stops 16 rest) :
    Stops 16 (groupsText (index + 1) groups ++ rest) := by
  cases groups with
  | nil => exact stops
  | cons group groups => exact stops_cons (by decide)

/-- Printed groups are read up to their end, if there are slots for them. -/
theorem readGroups_groupsText (index left : Nat) (groups : List UInt16) {rest : List Char}
    (room : groups.length ≤ left) (ends : Ends rest) :
    readGroups index left (groupsText index groups ++ rest) = ((groups, false), rest) := by
  have dotless : ∀ index groups, '.' ∉ groupsText index groups ++ rest := fun index groups => by
    simp [groupsText_dotless, ends.dotless]
  -- the IPv4 form is tried first for each slot, and fails for want of a dot
  induction groups generalizing index left with
  | nil =>
    cases left with
    | zero => rfl
    | succ left =>
      have done : separated ':' index readGroup rest = none :=
        separated_none (fun _ => readGroup_stopped ends.stops) fun more same =>
          readGroup_stopped (ends.last more same)
      rw [groupsText, List.nil_append, readGroups, separated_ipv4_dotless ends.dotless, ite_self]
      simp only [done]
  | cons group groups inductionHypothesis =>
    cases left with
    | zero => cases room
    | succ left =>
      have here : separated ':' index readGroup (groupsText index (group :: groups) ++ rest) =
          some (group, groupsText (index + 1) groups ++ rest) := by
        rw [groupsText, List.append_assoc]
        exact (reads_readGroup group (stops_groupsText ends.stops)).separated ':' index
      rw [readGroups, separated_ipv4_dotless (dotless index _), ite_self]
      simp only [here, inductionHypothesis (index + 1) left (Nat.le_of_succ_le_succ room)]

/-- The zeroes that a span points out. -/
def Span.Zeroes (span : Span) (segments : List UInt16) : Prop :=
  ∃ head tail, segments = head ++ List.replicate span.len 0 ++ tail ∧ head.length = span.start

/-- The zeroes that a list ends in. -/
def Span.Trailing (span : Span) (segments : List UInt16) : Prop :=
  ∃ head, segments = head ++ List.replicate span.len 0 ∧ (span.len ≠ 0 → head.length = span.start)

theorem Span.Zeroes.append {span : Span} {segments : List UInt16} (zeroes : span.Zeroes segments)
    (more : List UInt16) : span.Zeroes (segments ++ more) := by
  obtain ⟨head, tail, rfl, start⟩ := zeroes
  exact ⟨head, tail ++ more, by simp, start⟩

theorem Span.Trailing.zeroes {span : Span} {segments : List UInt16} (trailing : span.Trailing segments)
    (some : span.len ≠ 0) : span.Zeroes segments := by
  obtain ⟨head, rfl, start⟩ := trailing
  exact ⟨head, [], by simp, start some⟩

/-- One more zero; the first one starts a span. -/
theorem Span.Trailing.grow {span : Span} {segments : List UInt16} (trailing : span.Trailing segments) :
    Span.Trailing ⟨if span.len = 0 then segments.length else span.start, span.len + 1⟩ (segments ++ [0]) := by
  obtain ⟨head, rfl, start⟩ := trailing
  refine ⟨head, by rw [List.replicate_succ', List.append_assoc], fun _ => ?_⟩
  split
  · rename_i none
    simp [none]
  · rename_i some
    exact start some

theorem trailing_none (segments : List UInt16) : Span.Trailing ⟨0, 0⟩ segments :=
  ⟨segments, by simp, fun some => absurd rfl some⟩

theorem longestZeroes_zeroes {seen rest : List UInt16} {longest current : Span}
    (known : longest.Zeroes seen) (running : current.Trailing seen) :
    (longestZeroes seen.length longest current rest).Zeroes (seen ++ rest) := by
  induction rest generalizing seen longest current with
  | nil =>
    rw [List.append_nil]
    exact known
  | cons segment rest inductionHypothesis =>
    have length : seen.length + 1 = (seen ++ [segment]).length := by simp
    have whole : seen ++ segment :: rest = (seen ++ [segment]) ++ rest := by simp
    rw [longestZeroes, length, whole]
    split
    · rename_i zero
      subst zero
      have grown := running.grow
      refine inductionHypothesis ?_ grown
      by_cases longer : longest.len < current.len + 1
      · rw [if_pos longer]
        exact grown.zeroes (Nat.succ_ne_zero _)
      · rw [if_neg longer]
        exact known.append [0]
    · exact inductionHypothesis (known.append [segment]) (trailing_none _)

theorem ofSegments_segments (address : Ipv6Addr) : ofSegments address.segments = address := rfl

/-- Groups before and after the two colons. -/
theorem readIpv6Addr_parts {text rest left : List Char} {head tail : List UInt16} {ipv4 : Bool}
    (front : readGroups 0 8 text = ((head, false), ':' :: ':' :: rest)) (short : head.length ≠ 8)
    (back : readGroups 0 (8 - (head.length + 1)) rest = ((tail, ipv4), left)) :
    readIpv6Addr text =
      some (ofSegments (head ++ List.replicate (8 - head.length - tail.length) 0 ++ tail), left) := by
  rw [readIpv6Addr, front]
  simp [short, givenChar, back, -Nat.reduceSubDiff]

/-- The longest run of zeroes is left out and put back. -/
theorem readIpv6Addr_gap {head tail : List UInt16} {zeroes : Nat}
    (size : head.length + zeroes + tail.length = 8) (gap : 1 < zeroes) :
    readIpv6Addr (groupsText 0 head ++ ':' :: ':' :: groupsText 0 tail) =
      some (ofSegments (head ++ List.replicate zeroes 0 ++ tail), []) := by
  have front := readGroups_groupsText 0 8 head (by omega) (ends_gap (groupsText_dotless 0 tail))
  have back := readGroups_groupsText 0 (8 - (head.length + 1)) tail (by omega) ends_nil
  have missing : zeroes = 8 - head.length - tail.length := by omega
  rw [List.append_nil] at back
  rw [missing]
  exact readIpv6Addr_parts front (by omega) back

theorem readIpv6Addr_whole {groups : List UInt16} (size : groups.length = 8) :
    readIpv6Addr (groupsText 0 groups) = some (ofSegments groups, []) := by
  have whole := readGroups_groupsText 0 8 groups (by omega) ends_nil
  rw [List.append_nil] at whole
  rw [readIpv6Addr, whole]
  simp only [if_pos size]
  rfl

theorem zeroes_found (segments : List UInt16) : (longestZeroes 0 ⟨0, 0⟩ ⟨0, 0⟩ segments).Zeroes segments := by
  have nothing : Span.Zeroes ⟨0, 0⟩ [] := ⟨[], [], rfl, rfl⟩
  exact longestZeroes_zeroes nothing (trailing_none [])

theorem segments_length (address : Ipv6Addr) : address.segments.length = 8 := rfl

/-- A text without a dot that is read as the address. -/
structure Prints (address : Ipv6Addr) (text : List Char) : Prop where
  dotless : '.' ∉ text
  read : readIpv6Addr text = some (address, [])

theorem prints_toString {address : Ipv6Addr} (unmapped : address.toIpv4Mapped = none) :
    address.Prints address.toString.toList := by
  rw [toString, unmapped]
  simp only
  split
  · rename_i gap
    obtain ⟨head, tail, whole, start⟩ := zeroes_found address.segments
    generalize longestZeroes 0 ⟨0, 0⟩ ⟨0, 0⟩ address.segments = span at gap whole start
    have size : head.length + span.len + tail.length = 8 := by
      rw [← address.segments_length, whole]
      simp [Nat.add_assoc]
    have front : address.segments.take span.start = head := by
      rw [whole, ← start]
      simp
    have back : address.segments.drop (span.start + span.len) = tail := by
      rw [whole, ← start]
      simp
    have text : (fmtSubslice head ++ "::" ++ fmtSubslice tail).toList =
        groupsText 0 head ++ ':' :: ':' :: groupsText 0 tail := by
      simp [fmtSubslice_toList]
    rw [front, back, text]
    constructor
    · simp [groupsText_dotless]
    · rw [readIpv6Addr_gap size gap, ← whole, ofSegments_segments]
  · rw [fmtSubslice_toList]
    exact ⟨groupsText_dotless 0 _, readIpv6Addr_whole address.segments_length⟩

/-- The two bytes of a group put together again. -/
theorem fromBeBytes_bytes (group : UInt16) :
    Ipv4Addr.fromBeBytes (group >>> 8).toUInt8 group.toUInt8 = group := by
  have below := group.toNat_lt
  rw [← UInt16.toNat_inj]
  simp [Ipv4Addr.fromBeBytes, Nat.shiftRight_eq_div_pow]
  omega

theorem readGroups_gap (left : Nat) (text : List Char) :
    readGroups 0 left (':' :: ':' :: text) = (([], false), ':' :: ':' :: text) := by
  cases left with
  | zero => rfl
  | succ left =>
    have colon : ∀ radix ≤ 16, ∀ text, Stops radix (':' :: text) := by
      intro radix small text
      have nondigit : ∀ radix < 17, digitOf radix ':' = none := by decide
      exact stops_cons (nondigit radix (by omega))
    have address : separated ':' 0 readIpv4Addr (':' :: ':' :: text) = none :=
      readIpv4Addr_stopped (colon 10 (by decide) _)
    have group : separated ':' 0 readGroup (':' :: ':' :: text) = none :=
      readGroup_stopped (colon 16 (by decide) _)
    rw [readGroups, address, ite_self]
    simp only [group]

/-- The embedded address is read in the last two slots. -/
theorem readGroups_mapped (mapped : Ipv4Addr) :
    readGroups 0 7 ("ffff:".toList ++ mapped.toString.toList) = ((0xffff :: mapped.groups, true), []) := by
  have letter : separated ':' 0 readIpv4Addr ("ffff:".toList ++ mapped.toString.toList) = none :=
    readIpv4Addr_stopped (stops_cons (by decide))
  have group : separated ':' 0 readGroup ("ffff:".toList ++ mapped.toString.toList) =
      some (0xffff, ':' :: mapped.toString.toList) :=
    reads_readGroup 0xffff (stops_cons (by decide))
  have address : separated ':' 1 readIpv4Addr (':' :: mapped.toString.toList) = some (mapped, []) := by
    have reads := (mapped.reads_readIpv4Addr (stops_nil 10)).separated ':' 1
    rwa [Reads, List.append_nil] at reads
  rw [readGroups, letter, ite_self]
  simp only [group]
  rw [readGroups, if_pos (by decide)]
  simp only [address]

/-- An address that embeds an IPv4 address is printed with the latter in its own form. -/
theorem readIpv6Addr_mapped (mapped : Ipv4Addr) :
    readIpv6Addr ("::ffff:" ++ mapped.toString).toList =
      some (ofSegments ([0, 0, 0, 0, 0, 0xffff] ++ mapped.groups), []) := by
  have text : ("::ffff:" ++ mapped.toString).toList =
      ':' :: ':' :: ("ffff:".toList ++ mapped.toString.toList) := by
    simp
  rw [text]
  exact readIpv6Addr_parts (readGroups_gap 8 _) (by decide) (readGroups_mapped mapped)

theorem mapped_groups {address : Ipv6Addr} {mapped : Ipv4Addr} (same : address.toIpv4Mapped = some mapped) :
    ofSegments ([0, 0, 0, 0, 0, 0xffff] ++ mapped.groups) = address := by
  unfold toIpv4Mapped at same
  split at same
  · cases same
    simp [ofSegments, Ipv4Addr.groups, fromBeBytes_bytes]
  · cases same

theorem readIpv6Addr_toString (address : Ipv6Addr) :
    readIpv6Addr address.toString.toList = some (address, []) := by
  cases same : address.toIpv4Mapped with
  | none => exact (prints_toString same).read
  | some mapped =>
    rw [toString, same]
    exact (readIpv6Addr_mapped mapped).trans (by rw [mapped_groups same])

theorem fromStr_toString (address : Ipv6Addr) : fromStr address.toString = some address := by
  rw [fromStr, wholly, readIpv6Addr_toString]

/-- The text of an IPv6 address is never taken for an IPv4 address. -/
theorem readIpv4Addr_toString (address : Ipv6Addr) : readIpv4Addr address.toString.toList = none := by
  cases same : address.toIpv4Mapped with
  | none => exact readIpv4Addr_dotless (prints_toString same).dotless
  | some mapped =>
    rw [toString, same]
    simp only [String.toList_append]
    exact readIpv4Addr_stopped (stops_cons (by decide))

end Ipv6Addr

namespace IpAddr

/-- Every address is read back from its text. -/
theorem fromStr_toString (address : IpAddr) : fromStr address.toString = some address := by
  cases address with
  | v4 address =>
    have reads := (address.reads_readIpv4Addr (stops_nil 10)).map v4
    rw [Reads, List.append_nil] at reads
    rw [toString, fromStr, wholly, readIpAddr, reads]
  | v6 address =>
    have other : (v4 <$> Ipv4Addr.readIpv4Addr : Scanner IpAddr) address.toString.toList = none := by
      change (Ipv4Addr.readIpv4Addr address.toString.toList).bind _ = _
      rw [address.readIpv4Addr_toString]
      rfl
    have reads : (v6 <$> Ipv6Addr.readIpv6Addr : Scanner IpAddr) address.toString.toList = some (v6 address, []) := by
      change (Ipv6Addr.readIpv6Addr address.toString.toList).bind _ = _
      rw [address.readIpv6Addr_toString]
      rfl
    rw [toString, fromStr, wholly, readIpAddr, other]
    simp only [reads]

example : IpAddr.fromStr "2001:db8::1:0:0:1" = some (.v6 ⟨0x2001, 0xdb8, 0, 0, 1, 0, 0, 1⟩) := by decide
example : IpAddr.fromStr "1::2::3" = none := by decide

end IpAddr

end CkbDiscovery
