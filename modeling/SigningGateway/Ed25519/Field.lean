/-!
# The field of the curve

Numbers modulo the prime `2 ^ 255 - 19`, with inverses and square roots of quotients by powers.
-/

namespace SigningGateway

namespace Ed25519

/-- The prime `2 ^ 255 - 19`. -/
def fieldPrime : Nat := Nat.pow 2 255 - 19

theorem fieldPrime_pos : 0 < fieldPrime := by decide

abbrev Field := Fin fieldPrime

namespace Field

def ofNat (n : Nat) : Field := ⟨n % fieldPrime, Nat.mod_lt n fieldPrime_pos⟩

instance (n : Nat) : OfNat Field n := ⟨ofNat n⟩

/-- The low `bits` bits of `n` as exponent, by repeated squaring; `acc` collects the result. -/
def powBits : Nat → Field → Nat → Field → Field
  | 0, _, _, acc => acc
  | bits + 1, x, n, acc => powBits bits (x * x) (n / 2) (if n % 2 = 1 then acc * x else acc)

/-- A power with an exponent below `2 ^ 255`. -/
def pow (x : Field) (n : Nat) : Field := powBits 255 x n 1

/-- The inverse, by Fermat's little theorem; zero for zero. -/
def inverse (x : Field) : Field := x.pow (fieldPrime - 2)

def sqrtNegOne : Field := (ofNat 2).pow ((fieldPrime - 1) / 4)

/-- A root of `u / v`, if the quotient is a square.  As the prime is 5 modulo 8, the candidate
`u v³ (u v⁷) ^ ((p - 5) / 8)` is a root of `u / v` up to a fourth root of unity. -/
def sqrtRatio? (u v : Field) : Option Field :=
  let v3 := v * v * v
  let r := u * v3 * (u * v3 * v3 * v).pow ((fieldPrime - 5) / 8)
  let check := v * r * r
  if check = u then some r
  else if check = -u then some (r * sqrtNegOne)
  else none

/-- The elements with an odd least representative count as negative. -/
def isNegative (x : Field) : Bool := x.val % 2 = 1

end Field

end Ed25519

end SigningGateway
