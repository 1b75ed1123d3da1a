import Mathlib.Data.UInt
import Mathlib.Logic.Equiv.List
import Mathlib.Tactic.DeriveEncodable

/-! Texts for values of a type, as a serialisation library gives them, and
codecs to run concrete examples with. -/

namespace CkbDiscovery

/-- `to_string` and `from_str` for one type. -/
structure Codec (α : Type) where
  toString : α → String
  fromStr : String → Option α

namespace Codec

variable {α : Type}

def RoundTrips (codec : Codec α) : Prop :=
  ∀ value, codec.fromStr (codec.toString value) = some value

/-- Texts that were all written by the codec are read back to values that
write them again. -/
theorem RoundTrips.map_filterMap {codec : Codec α} (roundTrips : codec.RoundTrips)
    {texts : List String} (written : ∀ text ∈ texts, ∃ value, text = codec.toString value) :
    (texts.filterMap codec.fromStr).map codec.toString = texts := by
  induction texts with
  | nil => rfl
  | cons text rest inductionHypothesis =>
    obtain ⟨value, rfl⟩ := written text List.mem_cons_self
    have others := inductionHypothesis fun other member => written other (List.mem_cons_of_mem _ member)
    rw [List.filterMap_cons_some (roundTrips value), List.map_cons, others]

/-- The value's number as that many strokes. -/
def unary (α : Type) [Encodable α] : Codec α where
  toString value := String.ofList (List.replicate (Encodable.encode value) '|')
  fromStr text := Encodable.decode text.length

theorem unary_roundTrips [Encodable α] : (unary α).RoundTrips := by
  intro value
  simp [unary]

/-- The same codec with another text for one value. -/
def patch [DecidableEq α] (codec : Codec α) (special : α) (text : String) : Codec α where
  toString value := if value = special then text else codec.toString value
  fromStr read := if read = text then some special else codec.fromStr read

theorem RoundTrips.patch [DecidableEq α] {codec : Codec α} (roundTrips : codec.RoundTrips)
    {special : α} {text : String} (fresh : ∀ value, codec.toString value ≠ text) :
    (codec.patch special text).RoundTrips := by
  intro value
  by_cases same : value = special
  · simp [Codec.patch, same]
  · simp [Codec.patch, same, fresh value, roundTrips value]

/-- Strokes never make a text that starts otherwise. -/
theorem unary_ne [Encodable α] {text : String} (other : ∃ char ∈ text.toList, char ≠ '|')
    (value : α) : (unary α).toString value ≠ text := by
  rintro rfl
  obtain ⟨char, member, different⟩ := other
  simp [unary] at member
  exact different member.2

theorem patch_ne [DecidableEq α] {codec : Codec α} {special : α} {text other : String}
    (fresh : ∀ value, codec.toString value ≠ other) (different : text ≠ other) (value : α) :
    (codec.patch special text).toString value ≠ other := by
  by_cases same : value = special
  · simpa [patch, same] using different
  · simpa [patch, same] using fresh value

/-- Given texts for some values and strokes for all others. -/
def table [DecidableEq α] [Encodable α] (texts : List (α × String)) : Codec α :=
  texts.foldr (fun entry codec => codec.patch entry.1 entry.2) (unary α)

theorem table_ne [DecidableEq α] [Encodable α] {texts : List (α × String)} {text : String}
    (spelled : ∃ char ∈ text.toList, char ≠ '|') (absent : text ∉ texts.map Prod.snd) :
    ∀ value, (table texts).toString value ≠ text := by
  induction texts with
  | nil => exact unary_ne spelled
  | cons entry rest inductionHypothesis =>
    rw [List.map_cons, List.mem_cons, not_or] at absent
    exact patch_ne (inductionHypothesis absent.2) (Ne.symm absent.1)

theorem table_roundTrips [DecidableEq α] [Encodable α] {texts : List (α × String)}
    (distinct : (texts.map Prod.snd).Nodup)
    (spelled : ∀ entry ∈ texts, ∃ char ∈ entry.2.toList, char ≠ '|') : (table texts).RoundTrips := by
  induction texts with
  | nil => exact unary_roundTrips
  | cons entry rest inductionHypothesis =>
    rw [List.map_cons, List.nodup_cons] at distinct
    have roundTrips := inductionHypothesis distinct.2 fun other member =>
      spelled other (List.mem_cons_of_mem _ member)
    exact roundTrips.patch (table_ne (spelled entry List.mem_cons_self) distinct.1)

end Codec

instance encodableUInt8 : Encodable UInt8 := .ofLeftInverse UInt8.toNat UInt8.ofNat (by intro value; simp)

instance encodableUInt16 : Encodable UInt16 := .ofLeftInverse UInt16.toNat UInt16.ofNat (by intro value; simp)

instance encodableChar : Encodable Char := .ofLeftInverse Char.toNat Char.ofNat (by intro value; simp)

instance encodableString : Encodable String := .ofLeftInverse String.toList String.ofList (by intro value; simp)

end CkbDiscovery
