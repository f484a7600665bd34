import SigningGateway.Bytes
import SigningGateway.Text.Utf8
import SigningGateway.Text.CharLiteral

/-!
# Hexadecimal text

`Hex.encode` writes two lower-case digits a byte; `Hex.decode` reads digits of either case.

    decode (encode bytes) = .ok bytes                      (decode_encode)
-/

namespace SigningGateway

namespace Hex

/-- Why a text is not hexadecimal. -/
inductive Error
  /-- The text has an odd number of bytes. -/
  | oddLength
  /-- The byte at this index is no digit. -/
  | invalidCharacter (byte : UInt8) (index : Nat)
  deriving DecidableEq, Repr

/-- The wording of an error; the offending byte is shown as the character of that number. -/
def Error.message : Error → String
  | .oddLength => "Odd number of digits"
  | .invalidCharacter byte index =>
    "Invalid character " ++ Text.charLiteral (Char.ofNat byte.toNat) ++ " at position " ++
      toString index

/-! ## Writing -/

/-- The digit of a number below sixteen. -/
def digit (n : Nat) : Char := Char.ofNat (if n < 10 then 48 + n else 87 + n)

def digits : Bytes → List Char
  | [] => []
  | b :: rest => digit (b.toNat / 16) :: digit (b.toNat % 16) :: digits rest

/-- A byte string as lower-case digits. -/
def encode (bytes : Bytes) : String := String.ofList (digits bytes)

/-! ## Reading -/

/-- The value of the digit, of either case, that has a number as a character. -/
def value? (n : Nat) : Option Nat :=
  if 48 ≤ n ∧ n ≤ 57 then some (n - 48)
  else if 97 ≤ n ∧ n ≤ 102 then some (n - 87)
  else if 65 ≤ n ∧ n ≤ 70 then some (n - 55)
  else none

def isHexDigit (c : Char) : Bool :=
  c.isDigit || ('a' ≤ c && c ≤ 'f') || ('A' ≤ c && c ≤ 'F')

/-- Reads pairs of digits; `index` is the place of the first one. -/
def decodePairs : Bytes → Nat → Except Error Bytes
  | high :: low :: rest, index =>
    match value? high.toNat, value? low.toNat with
    | none, _ => .error (.invalidCharacter high index)
    | some _, none => .error (.invalidCharacter low (index + 1))
    | some h, some l => do
      let tail ← decodePairs rest (index + 2)
      return UInt8.ofNat (16 * h + l) :: tail
  | _, _ => .ok []

/-- Reads the digits written by a byte string.  An odd number of bytes is met first. -/
def decodeBytes (text : Bytes) : Except Error Bytes :=
  if text.length % 2 = 0 then decodePairs text 0 else .error .oddLength

def decode (text : String) : Except Error Bytes := decodeBytes (Bytes.ofText text)

/-! ## Lemmas -/

theorem utf8EncodeChar_digit : ∀ n, n < 16 →
    String.utf8EncodeChar (digit n) = [UInt8.ofNat (digit n).toNat] := by
  decide

theorem toNat_ofNat_digit : ∀ n, n < 16 →
    (UInt8.ofNat (digit n).toNat).toNat = (digit n).toNat := by
  decide

theorem value?_digit : ∀ n, n < 16 → value? (digit n).toNat = some n := by decide

@[simp] theorem length_digits (bytes : Bytes) : (digits bytes).length = 2 * bytes.length := by
  induction bytes with
  | nil => rfl
  | cons b rest ih => simp [digits, ih]; omega

theorem length_encode_digits (bytes : Bytes) :
    (Utf8.encode (digits bytes)).length = 2 * bytes.length := by
  induction bytes with
  | nil => rfl
  | cons b rest ih =>
    have hb := b.toNat_lt
    have h1 := utf8EncodeChar_digit (b.toNat / 16) (by omega)
    have h2 := utf8EncodeChar_digit (b.toNat % 16) (by omega)
    simp only [Utf8.encode, digits, List.flatMap_cons, h1, h2, List.length_append] at ih ⊢
    simp [ih]; omega

theorem decodePairs_encode (bytes : Bytes) (index : Nat) :
    decodePairs (Utf8.encode (digits bytes)) index = .ok bytes := by
  induction bytes generalizing index with
  | nil => rfl
  | cons b rest ih =>
    have hhigh : b.toNat / 16 < 16 := Nat.div_lt_of_lt_mul b.toNat_lt
    have hlow : b.toNat % 16 < 16 := Nat.mod_lt _ (by decide)
    have hback : UInt8.ofNat (16 * (b.toNat / 16) + b.toNat % 16) = b := by
      rw [Nat.div_add_mod]; simp
    simp only [Utf8.encode] at ih
    simp only [Utf8.encode, digits, List.flatMap_cons, utf8EncodeChar_digit _ hhigh,
      utf8EncodeChar_digit _ hlow, List.cons_append, List.nil_append, decodePairs,
      toNat_ofNat_digit _ hhigh, toNat_ofNat_digit _ hlow, value?_digit _ hhigh,
      value?_digit _ hlow, ih, hback]
    rfl

theorem decode_encode (bytes : Bytes) : decode (encode bytes) = .ok bytes := by
  have hlen := length_encode_digits bytes
  simp [decode, encode, Bytes.ofText, decodeBytes, hlen, decodePairs_encode]

end Hex

end SigningGateway
