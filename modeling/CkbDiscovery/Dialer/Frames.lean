import CkbDiscovery.Dialer.Compress
import CkbDiscovery.Effect.Evaluate

/-! The decoder on any bytes at all, with its indexing and its one allocation
spelled out. -/

namespace CkbDiscovery.Dialer.Compress

open Effect

/-- A buffer of zeroes that the decoder asks for. -/
inductive BufferCall where
  | zeroed (length : Nat)

abbrev BufferReply (_ : BufferCall) := Bytes

def allocate : (call : BufferCall) → BufferReply call
  | .zeroed length => List.replicate length 0

abbrev Decoder := Program BufferReply

/-- `inner[index]`, a panic past the end. -/
def byteAt (inner : Bytes) (index : Nat) : Decoder UInt8 :=
  match inner[index]? with
  | some byte => pure byte
  | none => .stop

/-- `inner[start..]` and `split_to(start)`, a panic past the end. -/
def sliceFrom (inner : Bytes) (start : Nat) : Decoder Bytes :=
  if start ≤ inner.length then pure (inner.drop start) else .stop

/-- What the decoder makes of the library's result. -/
def filledBuffer : Except ε (Nat × Bytes) → Except ErrorKind Bytes
  | .ok (_, buf) => .ok buf
  | .error _ => .error .invalidData

/-- Index by index and buffer by buffer what `Message.decompress` computes. -/
def Message.decompressSteps (snap : Snap ε) (message : Message) : Decoder (Except ErrorKind Bytes) :=
  if message.inner.isEmpty then pure (.error .invalidData)
  else do
    let flag ← byteAt message.inner 0
    if flag &&& Compress.compressFlag != 0 then
      let body ← sliceFrom message.inner 1
      match snap.decompressLen body with
      | .ok decompressedBytesLen =>
        if maxUncompressedLen < decompressedBytesLen then pure (.error .invalidData)
        else
          let buf ← .perform (.zeroed decompressedBytesLen)
          let body ← sliceFrom message.inner 1
          pure (filledBuffer (snap.decompress body buf))
      | .error _ => pure (.error .invalidData)
    else
      let payload ← sliceFrom message.inner 1
      pure (.ok payload)

def decompressSteps (snap : Snap ε) (src : Bytes) : Decoder (Except ErrorKind Bytes) :=
  (Message.fromCompressed src).decompressSteps snap

/-- A buffer keeps its length, and one of the declared length is filled to the end. -/
structure Snap.FillsBuffers (snap : Snap ε) : Prop where
  length : ∀ {packed buf written filled}, snap.decompress packed buf = .ok (written, filled) →
    filled.length = buf.length
  exact : ∀ {packed buf written filled}, snap.decompressLen packed = .ok buf.length →
    snap.decompress packed buf = .ok (written, filled) → written = buf.length

/-- The top bit of the first byte. -/
def Flagged (flag : UInt8) : Prop := flag &&& compressFlag ≠ 0

/-- The bytes decode to exactly so many. -/
def Decodes (snap : Snap ε) (packed : Bytes) (length : Nat) : Prop :=
  ∃ buf, snap.decompress packed (List.replicate length 0) = .ok (length, buf) ∧ buf.length = length

/-- The frames that are not a message. -/
def Rejected (snap : Snap ε) (frame : Bytes) : Prop :=
  frame = [] ∨ ∃ flag packed, frame = flag :: packed ∧ Flagged flag ∧
    ((∃ error, snap.decompressLen packed = .error error) ∨
      ∃ length, snap.decompressLen packed = .ok length ∧
        (maxUncompressedLen < length ∨ ¬ Decodes snap packed length))

variable {snap : Snap ε} {flag : UInt8} {packed : Bytes}

/-- Past the flag byte only the library and the limit decide. -/
def bodySteps (snap : Snap ε) (packed : Bytes) : Decoder (Except ErrorKind Bytes) :=
  match snap.decompressLen packed with
  | .ok length =>
    if maxUncompressedLen < length then pure (.error .invalidData)
    else do
      let buf ← .perform (.zeroed length)
      pure (filledBuffer (snap.decompress packed buf))
  | .error _ => pure (.error .invalidData)

/-- With a flag byte in place no index is out of range. -/
theorem decompressSteps_cons :
    decompressSteps snap (flag :: packed) =
      if flag &&& compressFlag != 0 then bodySteps snap packed else pure (.ok packed) := by
  have flagByte : byteAt (flag :: packed) 0 = pure flag := rfl
  have body : sliceFrom (flag :: packed) 1 = pure packed := rfl
  rw [decompressSteps, Message.decompressSteps, Message.fromCompressed, if_neg (by simp), flagByte, body]
  rfl

/-- The steps compute what the decoder does and never stop short. -/
theorem evaluate_decompressSteps (snap : Snap ε) (frame : Bytes) :
    (decompressSteps snap frame).evaluate allocate = some (decompress snap frame) := by
  cases frame with
  | nil => rfl
  | cons flag packed =>
    rw [decompressSteps_cons, decompress, Message.decompress, Message.compressFlag, Message.fromCompressed]
    simp only [List.isEmpty_cons, List.headD_cons, List.drop_one, List.tail_cons, bodySteps]
    by_cases flagged : flag &&& compressFlag != 0
    · simp only [flagged]
      cases snap.decompressLen packed with
      | error error => rfl
      | ok length =>
        by_cases large : maxUncompressedLen < length
        · simp only [large]
          rfl
        · simp only [large]
          change some (filledBuffer (snap.decompress packed (List.replicate length 0))) = _
          cases snap.decompress packed (List.replicate length 0) <;> rfl
    · simp only [flagged]
      rfl

/-- The one buffer that is asked for is within the limit. -/
theorem calls_decompressSteps (snap : Snap ε) (frame : Bytes) :
    ∀ call ∈ (decompressSteps snap frame).calls allocate,
      ∃ length, call = .zeroed length ∧ length ≤ maxUncompressedLen := by
  intro call asked
  cases frame with
  | nil => cases asked
  | cons flag packed =>
    rw [decompressSteps_cons] at asked
    split at asked
    · unfold bodySteps at asked
      split at asked
      · rename_i length _
        by_cases large : maxUncompressedLen < length
        · rw [if_pos large] at asked
          cases asked
        · rw [if_neg large] at asked
          exact ⟨length, List.mem_singleton.mp asked, by omega⟩
      · cases asked
    · cases asked

theorem decompress_unflagged (plain : ¬ Flagged flag) : decompress snap (flag :: packed) = .ok packed := by
  have evaluated := evaluate_decompressSteps snap (flag :: packed)
  rw [decompressSteps_cons, if_neg (by simpa [Flagged] using plain)] at evaluated
  exact (Option.some.inj evaluated).symm

theorem decompress_flagged (flagged : Flagged flag) :
    some (decompress snap (flag :: packed)) = (bodySteps snap packed).evaluate allocate := by
  rw [← evaluate_decompressSteps, decompressSteps_cons, if_pos (by simpa [Flagged] using flagged)]

/-- A frame is decoded to its payload as it is, or to a body that fills a
buffer within the limit. -/
theorem decompress_ok {frame out : Bytes} (decoded : decompress snap frame = .ok out) :
    ∃ flag packed, frame = flag :: packed ∧
      (¬ Flagged flag ∧ out = packed ∨
        Flagged flag ∧ ∃ length written, length ≤ maxUncompressedLen ∧
          snap.decompressLen packed = .ok length ∧
          snap.decompress packed (List.replicate length 0) = .ok (written, out)) := by
  cases frame with
  | nil => cases decoded
  | cons flag packed =>
    refine ⟨flag, packed, rfl, ?_⟩
    by_cases flagged : Flagged flag
    · right
      refine ⟨flagged, ?_⟩
      have evaluated : some (decompress snap (flag :: packed)) = (bodySteps snap packed).evaluate allocate :=
        decompress_flagged flagged
      rw [decoded, bodySteps] at evaluated
      split at evaluated
      · rename_i length declared
        split at evaluated
        · cases evaluated
        · rename_i small
          have filled : .ok out = filledBuffer (snap.decompress packed (List.replicate length 0)) :=
            Option.some.inj evaluated
          cases body : snap.decompress packed (List.replicate length 0) with
          | error error =>
            rw [body] at filled
            cases filled
          | ok result =>
            rw [body] at filled
            cases filled
            exact ⟨length, result.1, by omega, declared, body⟩
      · cases evaluated
    · left
      rw [decompress_unflagged flagged] at decoded
      cases decoded
      exact ⟨flagged, rfl⟩

theorem Snap.FillsBuffers.decodes (fills : snap.FillsBuffers) {length written : Nat} {buf : Bytes}
    (declared : snap.decompressLen packed = .ok length)
    (body : snap.decompress packed (List.replicate length 0) = .ok (written, buf)) :
    Decodes snap packed length := by
  have total : (List.replicate length (0 : UInt8)).length = length := List.length_replicate
  have whole : written = length := by
    rw [fills.exact (by rw [declared, total]) body, total]
  subst whole
  exact ⟨buf, body, by rw [fills.length body, total]⟩

/-- Exactly the rejected frames are errors. -/
theorem decompress_error_iff (fills : snap.FillsBuffers) (frame : Bytes) :
    (∃ error, decompress snap frame = .error error) ↔ Rejected snap frame := by
  constructor
  · intro failed
    obtain ⟨error, failed⟩ := failed
    cases frame with
    | nil => exact .inl rfl
    | cons flag packed =>
      by_cases flagged : Flagged flag
      · refine .inr ⟨flag, packed, rfl, flagged, ?_⟩
        have evaluated : some (decompress snap (flag :: packed)) = (bodySteps snap packed).evaluate allocate :=
          decompress_flagged flagged
        rw [failed, bodySteps] at evaluated
        cases declared : snap.decompressLen packed with
        | error unreadable => exact .inl ⟨unreadable, rfl⟩
        | ok length =>
          refine .inr ⟨length, rfl, ?_⟩
          by_cases large : maxUncompressedLen < length
          · exact .inl large
          · right
            intro decodes
            obtain ⟨buf, body, _⟩ := decodes
            simp only [declared, large, if_false] at evaluated
            have filled : .error error = filledBuffer (snap.decompress packed (List.replicate length 0)) :=
              Option.some.inj evaluated
            rw [body] at filled
            cases filled
      · rw [decompress_unflagged flagged] at failed
        cases failed
  · intro rejected
    rcases rejected with rfl | ⟨flag, packed, rfl, flagged, broken⟩
    · exact ⟨_, rfl⟩
    · cases answer : decompress snap (flag :: packed) with
      | error error => exact ⟨error, rfl⟩
      | ok out =>
        obtain ⟨_, _, same, decoded⟩ := decompress_ok answer
        cases same
        rcases decoded with ⟨plain, _⟩ | ⟨_, length, written, small, declared, body⟩
        · exact absurd flagged plain
        · rcases broken with ⟨error, unreadable⟩ | ⟨other, stated, large | undecodable⟩
          · cases declared.symm.trans unreadable
          · cases declared.symm.trans stated
            omega
          · cases declared.symm.trans stated
            exact absurd (fills.decodes declared body) undecodable

/-- What may be relied on when any frame is decoded. -/
structure Withstood (snap : Snap ε) (frame : Bytes) : Prop where
  returns : (decompressSteps snap frame).evaluate allocate = some (decompress snap frame)
  bounded : ∀ call ∈ (decompressSteps snap frame).calls allocate,
    ∃ length, call = .zeroed length ∧ length ≤ 2 ^ 23
  short : ∀ out, decompress snap frame = .ok out → out.length ≤ max (frame.length - 1) (2 ^ 23)
  fails : (∃ error, decompress snap frame = .error error) ↔ Rejected snap frame

/-- Every frame is decoded or rejected without a panic and within the limit, and
the reserved bits of its first byte make no difference. -/
theorem decompress_withstands (fills : snap.FillsBuffers) :
    (∀ frame, Withstood snap frame) ∧
      ∀ first second packed, first &&& compressFlag = second &&& compressFlag →
        decompress snap (first :: packed) = decompress snap (second :: packed) := by
  constructor
  · intro frame
    refine ⟨evaluate_decompressSteps snap frame, calls_decompressSteps snap frame, ?_,
      decompress_error_iff fills frame⟩
    intro out decoded
    obtain ⟨flag, packed, rfl, plain | ⟨_, length, written, small, declared, body⟩⟩ := decompress_ok decoded
    · obtain ⟨_, rfl⟩ := plain
      rw [List.length_cons]
      omega
    · have total : out.length = length := by rw [fills.length body, List.length_replicate]
      have limit : maxUncompressedLen = 2 ^ 23 := rfl
      omega
  · intro first second packed same
    by_cases flagged : Flagged first
    · have other : Flagged second := by
        rw [Flagged, ← same]
        exact flagged
      exact Option.some.inj ((decompress_flagged flagged).trans (decompress_flagged other).symm)
    · have other : ¬ Flagged second := by
        rw [Flagged, ← same]
        exact flagged
      rw [decompress_unflagged flagged, decompress_unflagged other]

theorem sampleSnap_fillsBuffers : sampleSnap.FillsBuffers := by
  have total : sampleZeroes.length = 1024 := List.length_replicate
  constructor
  · intro packed buf written filled decoded
    by_cases sample : packed = samplePacked ∧ buf.length = 1024
    · simp only [sampleSnap, sample, and_self, if_true] at decoded
      cases decoded
      rw [total, sample.2]
    · simp only [sampleSnap, sample, if_false] at decoded
      cases decoded
  · intro packed buf written filled declared decoded
    by_cases sample : packed = samplePacked ∧ buf.length = 1024
    · simp only [sampleSnap, sample, and_self, if_true] at decoded
      cases decoded
      exact sample.2.symm
    · simp only [sampleSnap, sample, if_false] at decoded
      cases decoded

/-- The compressed zeroes under another flag byte, whose reserved bits are all set. -/
theorem decompress_withstands_sample :
    Withstood sampleSnap (compressFlag :: samplePacked) ∧
      decompress sampleSnap (0xff :: samplePacked) = .ok sampleZeroes := by
  obtain ⟨each, reserved⟩ := decompress_withstands sampleSnap_fillsBuffers
  have encoded : sampleSnap.compressVec sampleZeroes = .ok samplePacked := by
    simp only [sampleSnap, if_true]
  have total : sampleZeroes.length = 1024 := List.length_replicate
  have decoded : decompress sampleSnap (compressFlag :: samplePacked) = .ok sampleZeroes := by
    rw [decompress_packed sampleSnap_roundTrips encoded, if_neg]
    rw [total]
    decide
  refine ⟨each _, ?_⟩
  rw [reserved 0xff compressFlag samplePacked (by decide), decoded]

end CkbDiscovery.Dialer.Compress
