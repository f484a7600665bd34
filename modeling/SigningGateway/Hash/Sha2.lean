import SigningGateway.Bytes

/-!
# The SHA-2 hash functions

The two functions differ in their word size and in a few amounts, which a `Variant` holds;
`sha256` and `sha512` are its two values.  The round constants and initial words are the leading
bits of the fractional parts of roots of the first primes.
-/

namespace SigningGateway

namespace Sha2

/-! ## Constants from roots of primes -/

/-- The largest number below `2 ^ bits` above `low` whose `degree`-th power is at most `n`, found
bit by bit. -/
def rootBits (degree n : Nat) : Nat → Nat → Nat
  | 0, low => low
  | bits + 1, low =>
    let high := low + Nat.pow 2 bits
    if Nat.pow high degree ≤ n then rootBits degree n bits high else rootBits degree n bits low

/-- The first `bits` bits of the fractional part of the `degree`-th root of a number below `2 ^ 9`. -/
def rootFraction (degree bits n : Nat) : BitVec bits :=
  BitVec.ofNat bits (rootBits degree (n * Nat.pow 2 (degree * bits)) (bits + 9) 0)

/-- Whether a number has no divisor from two up to its root; such numbers from two on are prime. -/
def isPrime (n : Nat) : Bool := (List.range n).all fun d => d < 2 || n % d != 0

/-- The first `count` primes; the eightieth is 409. -/
def firstPrimes (count : Nat) : List Nat :=
  (((List.range 410).drop 2).filter isPrime).take count

/-! ## Variants -/

/-- A way to mix a word with itself: two rotations, and a third rotation or a shift. -/
structure Mixer where
  first : Nat
  second : Nat
  third : Nat

/-- Three rotations added without carry. -/
def Mixer.rotations {w : Nat} (m : Mixer) (x : BitVec w) : BitVec w :=
  x.rotateRight m.first ^^^ x.rotateRight m.second ^^^ x.rotateRight m.third

/-- Two rotations and a shift added without carry. -/
def Mixer.withShift {w : Nat} (m : Mixer) (x : BitVec w) : BitVec w :=
  x.rotateRight m.first ^^^ x.rotateRight m.second ^^^ (x >>> m.third)

/-- One of the hash functions, over words of `w` bits. -/
structure Variant (w : Nat) where
  /-- The bytes in which the length of the message is written. -/
  lengthBytes : Nat
  bigSigma0 : Mixer
  bigSigma1 : Mixer
  smallSigma0 : Mixer
  smallSigma1 : Mixer
  /-- One constant for each round. -/
  constants : List (BitVec w)

/-- The eight words between two rounds. -/
structure State (w : Nat) where
  a : BitVec w
  b : BitVec w
  c : BitVec w
  d : BitVec w
  e : BitVec w
  f : BitVec w
  g : BitVec w
  h : BitVec w

/-- The words before the first block: from the square roots of the first eight primes. -/
def State.initial (w : Nat) : State w :=
  let word (n : Nat) := rootFraction 2 w n
  ⟨word 2, word 3, word 5, word 7, word 11, word 13, word 17, word 19⟩

def State.add {w : Nat} (s t : State w) : State w :=
  ⟨s.a + t.a, s.b + t.b, s.c + t.c, s.d + t.d, s.e + t.e, s.f + t.f, s.g + t.g, s.h + t.h⟩

def State.toList {w : Nat} (s : State w) : List (BitVec w) :=
  [s.a, s.b, s.c, s.d, s.e, s.f, s.g, s.h]

/-! ## Algorithm -/

/-- The message, a one bit, zeros up to a whole number of blocks, and the length in bits. -/
def pad (block lengthBytes : Nat) (message : Bytes) : Bytes :=
  let used := (message.length + 1 + lengthBytes) % block
  message ++ 0x80 :: List.replicate ((block - used) % block) 0 ++
    Bytes.bigEndian lengthBytes (8 * message.length)

/-- Cuts a byte string into pieces of `size` bytes, the last one possibly shorter. -/
def chunks (size : Nat) (bytes : Bytes) : List Bytes :=
  if _ : bytes = [] ∨ size = 0 then []
  else bytes.take size :: chunks size (bytes.drop size)
termination_by bytes.length
decreasing_by
  rename_i h
  rw [not_or] at h
  have : bytes.length ≠ 0 := by simpa using h.1
  simp; omega

def blockWords (w : Nat) (block : Bytes) : List (BitVec w) :=
  (chunks (w / 8) block).map fun word => BitVec.ofNat w (Bytes.ofBigEndian word)

/-- Prepends `count` further words to the schedule, which holds the latest word first. -/
def extendSchedule {w : Nat} (v : Variant w) : Nat → List (BitVec w) → List (BitVec w)
  | 0, words => words
  | count + 1, words =>
    let next := v.smallSigma1.withShift (words.getD 1 0) + words.getD 6 0 +
      v.smallSigma0.withShift (words.getD 14 0) + words.getD 15 0
    extendSchedule v count (next :: words)

/-- One word for each round, from the words of a block. -/
def schedule {w : Nat} (v : Variant w) (block : List (BitVec w)) : List (BitVec w) :=
  (extendSchedule v (v.constants.length - 16) block.reverse).reverse

/-- One round, with the word of the schedule and the constant that belong to it. -/
def round {w : Nat} (v : Variant w) (s : State w) (word constant : BitVec w) : State w :=
  let choice := (s.e &&& s.f) ^^^ (~~~s.e &&& s.g)
  let majority := (s.a &&& s.b) ^^^ (s.a &&& s.c) ^^^ (s.b &&& s.c)
  let t1 := s.h + v.bigSigma1.rotations s.e + choice + constant + word
  let t2 := v.bigSigma0.rotations s.a + majority
  ⟨t1 + t2, s.a, s.b, s.c, s.d + t1, s.e, s.f, s.g⟩

/-- Mixes one block into the state. -/
def compress {w : Nat} (v : Variant w) (s : State w) (block : Bytes) : State w :=
  let words := schedule v (blockWords w block)
  s.add ((words.zip v.constants).foldl (fun s' wk => round v s' wk.1 wk.2) s)

/-- The bytes of the state, each word with its most significant byte first. -/
def State.toBytes {w : Nat} (s : State w) : Bytes :=
  s.toList.flatMap fun word => Bytes.bigEndian (w / 8) word.toNat

def digest {w : Nat} (v : Variant w) (message : Bytes) : Bytes :=
  let block := 2 * w
  ((chunks block (pad block v.lengthBytes message)).foldl (compress v) (State.initial w)).toBytes

end Sha2

/-! ## The two functions -/

def Sha2.variant256 : Sha2.Variant 32 where
  lengthBytes := 8
  bigSigma0 := ⟨2, 13, 22⟩
  bigSigma1 := ⟨6, 11, 25⟩
  smallSigma0 := ⟨7, 18, 3⟩
  smallSigma1 := ⟨17, 19, 10⟩
  constants := (Sha2.firstPrimes 64).map (Sha2.rootFraction 3 32)

def Sha2.variant512 : Sha2.Variant 64 where
  lengthBytes := 16
  bigSigma0 := ⟨28, 34, 39⟩
  bigSigma1 := ⟨14, 18, 41⟩
  smallSigma0 := ⟨1, 8, 7⟩
  smallSigma1 := ⟨19, 61, 6⟩
  constants := (Sha2.firstPrimes 80).map (Sha2.rootFraction 3 64)

/-- The SHA-256 digest, 32 bytes. -/
def sha256 (message : Bytes) : Bytes := Sha2.digest Sha2.variant256 message

/-- The SHA-512 digest, 64 bytes. -/
def sha512 (message : Bytes) : Bytes := Sha2.digest Sha2.variant512 message

end SigningGateway
