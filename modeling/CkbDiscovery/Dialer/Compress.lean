import Mathlib.Data.UInt

/-! The framing of the messages between peers: a flag byte, and the payload,
which the snappy library compresses when it is long. -/

namespace CkbDiscovery.Dialer.Compress

abbrev Bytes := List UInt8

/-- The block format of the snappy library. Decompressing fills a buffer and
tells how much of it. -/
structure Snap (ε : Type) where
  compressVec : Bytes → Except ε Bytes
  decompressLen : Bytes → Except ε Nat
  decompress : Bytes → Bytes → Except ε (Nat × Bytes)

/-- Compressed bytes tell the length of the input and fill a buffer of that
length with it. -/
def Snap.RoundTrips (snap : Snap ε) : Prop :=
  ∀ {input packed}, snap.compressVec input = .ok packed →
    snap.decompressLen packed = .ok input.length ∧
      ∀ buf : Bytes, buf.length = input.length →
        ∃ written, snap.decompress packed buf = .ok (written, input)

inductive ErrorKind where
  | invalidData
  deriving DecidableEq

def compressionSizeThreshold : Nat := 1024

def uncompressFlag : UInt8 := 0b00000000

def compressFlag : UInt8 := 0b10000000

def maxUncompressedLen : Nat := 1 <<< 23

structure Message where
  inner : Bytes

namespace Message

def fromRaw (data : Bytes) : Message := ⟨[uncompressFlag] ++ data⟩

def fromCompressed (data : Bytes) : Message := ⟨data⟩

def setCompressFlag (message : Message) : Message := ⟨message.inner.set 0 Compress.compressFlag⟩

/-- Asked of a message with a flag byte only. -/
def compressFlag (message : Message) : Bool := message.inner.headD 0 &&& Compress.compressFlag != 0

/-- The threshold counts the flag byte. The buffer is split after that byte and
put together again if the library fails. -/
def compress (snap : Snap ε) (message : Message) : Bytes :=
  if compressionSizeThreshold < message.inner.length then
    let (inner, input) := message.inner.splitAt 1
    match snap.compressVec input with
    | .ok res => (setCompressFlag ⟨inner ++ res⟩).inner
    | .error _ => inner ++ input
  else message.inner

def decompress (snap : Snap ε) (message : Message) : Except ErrorKind Bytes :=
  if message.inner.isEmpty then .error .invalidData
  else if message.compressFlag then
    match snap.decompressLen (message.inner.drop 1) with
    | .ok decompressedBytesLen =>
      if maxUncompressedLen < decompressedBytesLen then .error .invalidData
      else
        match snap.decompress (message.inner.drop 1) (List.replicate decompressedBytesLen 0) with
        | .ok (_, buf) => .ok buf
        | .error _ => .error .invalidData
    | .error _ => .error .invalidData
  else .ok (message.inner.drop 1)

end Message

def compress (snap : Snap ε) (src : Bytes) : Bytes := (Message.fromRaw src).compress snap

def decompress (snap : Snap ε) (src : Bytes) : Except ErrorKind Bytes :=
  (Message.fromCompressed src).decompress snap

variable {snap : Snap ε} {src packed : Bytes}

theorem compress_short (short : src.length < compressionSizeThreshold) :
    compress snap src = uncompressFlag :: src := by
  have below : ¬ compressionSizeThreshold < (Message.fromRaw src).inner.length := by
    simp [Message.fromRaw]
    omega
  rw [compress, Message.compress, if_neg below]
  rfl

theorem compress_failed {error : ε} (failed : snap.compressVec src = .error error) :
    compress snap src = uncompressFlag :: src := by
  by_cases long : compressionSizeThreshold < (Message.fromRaw src).inner.length
  · rw [compress, Message.compress, if_pos long]
    simp [Message.fromRaw, failed]
  · rw [compress, Message.compress, if_neg long]
    rfl

theorem compress_packed (long : compressionSizeThreshold ≤ src.length)
    (succeeded : snap.compressVec src = .ok packed) :
    compress snap src = compressFlag :: packed := by
  have above : compressionSizeThreshold < (Message.fromRaw src).inner.length := by
    simp [Message.fromRaw]
    omega
  rw [compress, Message.compress, if_pos above]
  simp [Message.fromRaw, succeeded, Message.setCompressFlag]

theorem decompress_plain : decompress snap (uncompressFlag :: src) = .ok src := by
  simp [decompress, Message.fromCompressed, Message.decompress, Message.compressFlag, uncompressFlag]

/-- The decoder's own limit is all that keeps it from the input. -/
theorem decompress_packed (roundTrips : snap.RoundTrips)
    (succeeded : snap.compressVec src = .ok packed) :
    decompress snap (compressFlag :: packed) =
      if maxUncompressedLen < src.length then .error .invalidData else .ok src := by
  obtain ⟨length, filled⟩ := roundTrips succeeded
  obtain ⟨written, same⟩ := filled (List.replicate src.length 0) List.length_replicate
  have flagged : (Message.fromCompressed (compressFlag :: packed)).compressFlag = true := by
    simp [Message.fromCompressed, Message.compressFlag, compressFlag]
  have present : (Message.fromCompressed (compressFlag :: packed)).inner.isEmpty = false := rfl
  rw [decompress, Message.decompress, present, if_neg Bool.false_ne_true, if_pos flagged]
  simp [Message.fromCompressed, length, same]

/-- Compressing and decompressing gives the input back or fails, and fails
exactly on inputs over the decoder's limit that the library has compressed. -/
theorem decompress_compress_eq (roundTrips : snap.RoundTrips) (src : Bytes) :
    decompress snap (compress snap src) =
      if maxUncompressedLen < src.length ∧ (snap.compressVec src).isOk then .error .invalidData
      else .ok src := by
  by_cases short : src.length < compressionSizeThreshold
  · have within : ¬ maxUncompressedLen < src.length := by
      have order : compressionSizeThreshold < maxUncompressedLen := by decide
      omega
    rw [compress_short short, decompress_plain, if_neg fun both => within both.1]
  · cases encoded : snap.compressVec src with
    | ok packed =>
      rw [compress_packed (by omega) encoded, decompress_packed roundTrips encoded]
      simp [Except.isOk, Except.toBool]
    | error error =>
      rw [compress_failed encoded, decompress_plain]
      simp [Except.isOk, Except.toBool]

/-- For every input, what is decompressed after compressing is the input or
nothing; it is the input whenever that is not over the limit or the library
fails on it, and then it was sent unchanged after the flag. -/
theorem compress_round_trip (roundTrips : snap.RoundTrips) (src : Bytes) :
    (decompress snap (compress snap src) = .ok src ∨
      ∃ error, decompress snap (compress snap src) = .error error) ∧
    (src.length ≤ maxUncompressedLen → decompress snap (compress snap src) = .ok src) ∧
    ∀ error, snap.compressVec src = .error error →
      compress snap src = uncompressFlag :: src ∧ decompress snap (compress snap src) = .ok src := by
  have result := decompress_compress_eq roundTrips src
  refine ⟨?_, ?_, ?_⟩
  · rw [result]
    split
    · exact .inr ⟨_, rfl⟩
    · exact .inl rfl
  · intro within
    rw [result, if_neg]
    intro both
    omega
  · intro error failed
    rw [compress_failed failed]
    exact ⟨rfl, decompress_plain⟩

/-- Just as long as is compressed. -/
def sampleZeroes : Bytes := List.replicate 1024 0

/-- Their length, one byte as a literal, and copies of it of at most 64 bytes. -/
def samplePacked : Bytes :=
  [0x80, 0x08, 0x00, 0x00] ++ (List.replicate 15 [0xfe, 0x01, 0x00]).flatten ++ [0xfa, 0x01, 0x00]

def sampleSnap : Snap Unit where
  compressVec input := if input = sampleZeroes then .ok samplePacked else .error ()
  decompressLen packed := if packed = samplePacked then .ok 1024 else .error ()
  decompress packed buf :=
    if packed = samplePacked ∧ buf.length = 1024 then .ok (1024, sampleZeroes) else .error ()

theorem sampleSnap_roundTrips : sampleSnap.RoundTrips := by
  intro input packed succeeded
  by_cases zeroes : input = sampleZeroes
  · simp only [sampleSnap, zeroes, if_true] at succeeded
    cases succeeded
    subst zeroes
    have total : sampleZeroes.length = 1024 := List.length_replicate
    refine ⟨?_, fun buf length => ⟨1024, ?_⟩⟩
    · simp only [sampleSnap, if_true, total]
    · exact if_pos ⟨rfl, length.trans total⟩
  · simp [sampleSnap, zeroes] at succeeded

/-- The zeroes are sent compressed and come back. -/
theorem compress_round_trip_sample :
    compress sampleSnap sampleZeroes = compressFlag :: samplePacked ∧
      decompress sampleSnap (compress sampleSnap sampleZeroes) = .ok sampleZeroes := by
  have length : sampleZeroes.length = 1024 := List.length_replicate
  have within : sampleZeroes.length ≤ maxUncompressedLen := by
    rw [length]
    decide
  have long : compressionSizeThreshold ≤ sampleZeroes.length := by
    rw [length]
    decide
  have encoded : sampleSnap.compressVec sampleZeroes = .ok samplePacked := by
    simp only [sampleSnap, if_true]
  refine ⟨compress_packed long encoded, ?_⟩
  exact (compress_round_trip sampleSnap_roundTrips sampleZeroes).2.1 within

end CkbDiscovery.Dialer.Compress
