/-!
# Byte strings

`Bytes` is a list of bytes, so that concatenation and cutting are the list operations.
Integers are written in a fixed number of bytes, least significant first
(`littleEndian`) or last (`bigEndian`); what does not fit is dropped.

    ofLittleEndian (littleEndian w n) = n % Nat.pow 256 w  (ofLittleEndian_littleEndian)
    (bigEndian w n).length = w                             (length_bigEndian)
-/

namespace SigningGateway

abbrev Bytes := List UInt8

namespace Bytes

/-! ## Fixed-width integers -/

/-- The low `width` bytes of `n`, least significant first. -/
def littleEndian : Nat → Nat → Bytes
  | 0, _ => []
  | width + 1, n => UInt8.ofNat n :: littleEndian width (n / 256)

/-- The number written by `bytes`, least significant first. -/
def ofLittleEndian : Bytes → Nat
  | [] => 0
  | b :: rest => b.toNat + 256 * ofLittleEndian rest

/-- The low `width` bytes of `n`, most significant first. -/
def bigEndian (width n : Nat) : Bytes := (littleEndian width n).reverse

/-- The number written by `bytes`, most significant first. -/
def ofBigEndian (bytes : Bytes) : Nat := ofLittleEndian bytes.reverse

/-- The bytes preceded by their number in four bytes. -/
def lengthPrefixed (bytes : Bytes) : Bytes := bigEndian 4 bytes.length ++ bytes

/-! ## Lemmas -/

@[simp] theorem length_littleEndian (width n : Nat) : (littleEndian width n).length = width := by
  induction width generalizing n with
  | zero => rfl
  | succ width ih => simp [littleEndian, ih]

@[simp] theorem length_bigEndian (width n : Nat) : (bigEndian width n).length = width := by
  simp [bigEndian]

theorem ofLittleEndian_littleEndian (width n : Nat) :
    ofLittleEndian (littleEndian width n) = n % Nat.pow 256 width := by
  induction width generalizing n with
  | zero => exact (Nat.mod_one n).symm
  | succ width ih =>
    have hpow : Nat.pow 256 (width + 1) = 256 * Nat.pow 256 width := Nat.mul_comm _ _
    have hlow : (UInt8.ofNat n).toNat = n % 256 := rfl
    rw [littleEndian, ofLittleEndian, ih, hpow, Nat.mod_mul, hlow]

theorem ofBigEndian_bigEndian (width n : Nat) :
    ofBigEndian (bigEndian width n) = n % Nat.pow 256 width := by
  simp [ofBigEndian, bigEndian, ofLittleEndian_littleEndian]

end Bytes

end SigningGateway
