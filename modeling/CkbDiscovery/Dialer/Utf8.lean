import Mathlib.Data.UInt

/-! `String::from_utf8_lossy`: every maximal ill-formed piece of a byte string
becomes one replacement character. -/

namespace CkbDiscovery.Dialer

def replacement : Char := Char.ofNat 0xFFFD

def isContinuation (byte : UInt8) : Bool := 0x80 ≤ byte && byte ≤ 0xBF

/-- The second bytes that may follow the first byte of a longer sequence. -/
def secondByteOk (first second : UInt8) : Bool :=
  if first = 0xE0 then 0xA0 ≤ second && second ≤ 0xBF
  else if first = 0xED then 0x80 ≤ second && second ≤ 0x9F
  else if first = 0xF0 then 0x90 ≤ second && second ≤ 0xBF
  else if first = 0xF4 then 0x80 ≤ second && second ≤ 0x8F
  else isContinuation second

/-- The length of the sequence a byte starts, if it starts one. -/
def charWidth (first : UInt8) : Nat :=
  if first ≤ 0x7F then 1
  else if 0xC2 ≤ first && first ≤ 0xDF then 2
  else if 0xE0 ≤ first && first ≤ 0xEF then 3
  else if 0xF0 ≤ first && first ≤ 0xF4 then 4
  else 0

/-- The six payload bits of a continuation byte after earlier ones. -/
def extend (bits : Nat) (byte : UInt8) : Nat := bits * 64 + byte.toNat % 64

def lossyChars : List UInt8 → List Char
  | [] => []
  | first :: rest =>
    match charWidth first, rest with
    | 1, rest => Char.ofNat first.toNat :: lossyChars rest
    | 2, second :: rest =>
      if isContinuation second then Char.ofNat (extend (first.toNat % 32) second) :: lossyChars rest
      else replacement :: lossyChars (second :: rest)
    | 3, second :: rest =>
      if secondByteOk first second then
        match rest with
        | third :: rest =>
          if isContinuation third then
            Char.ofNat (extend (extend (first.toNat % 16) second) third) :: lossyChars rest
          else replacement :: lossyChars (third :: rest)
        | [] => [replacement]
      else replacement :: lossyChars (second :: rest)
    | 4, second :: rest =>
      if secondByteOk first second then
        match rest with
        | third :: rest =>
          if isContinuation third then
            match rest with
            | fourth :: rest =>
              if isContinuation fourth then
                Char.ofNat (extend (extend (extend (first.toNat % 8) second) third) fourth) ::
                  lossyChars rest
              else replacement :: lossyChars (fourth :: rest)
            | [] => [replacement]
          else replacement :: lossyChars (third :: rest)
        | [] => [replacement]
      else replacement :: lossyChars (second :: rest)
    | _, rest => replacement :: lossyChars rest

def fromUtf8Lossy (bytes : List UInt8) : String := String.ofList (lossyChars bytes)

example : fromUtf8Lossy [0x30, 0xE2, 0x82, 0xAC, 0xF0, 0x90, 0x31] = "0€\uFFFD1" := by decide

end CkbDiscovery.Dialer
