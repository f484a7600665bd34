import SigningGateway.Bytes
import SigningGateway.Ed25519.Field

/-!
# The points of the curve

The twisted Edwards curve `-x² + y² = 1 + d x² y²` in extended coordinates, its addition, and the
32-byte form of a point: `y` with the sign of `x` in the top bit.
-/

namespace SigningGateway

namespace Ed25519

/-- The constant `d = -121665 / 121666` of the curve. -/
def curveConstant : Field := -(Field.ofNat 121665) * (Field.ofNat 121666).inverse

/-- The number of multiples of the base point. -/
def groupOrder : Nat := Nat.pow 2 252 + 27742317777372353535851937790883648493

/-- A point `(x / z, y / z)`, with `t = x y / z`. -/
structure Point where
  x : Field
  y : Field
  z : Field
  t : Field

namespace Point

def ofAffine (x y : Field) : Point := ⟨x, y, 1, x * y⟩

def zero : Point := ofAffine 0 1

/-- The sum of two points; the formula has no exceptional cases on this curve. -/
def add (p q : Point) : Point :=
  let a := (p.y - p.x) * (q.y - q.x)
  let b := (p.y + p.x) * (q.y + q.x)
  let c := p.t * (curveConstant + curveConstant) * q.t
  let d := p.z * q.z + p.z * q.z
  let e := b - a
  let f := d - c
  let g := d + c
  let h := b + a
  ⟨e * f, g * h, f * g, e * h⟩

def neg (p : Point) : Point := ⟨-p.x, p.y, p.z, -p.t⟩

/-- The multiple of a point by the low `bits` bits of a number; `acc` collects the result. -/
def smulBits : Nat → Nat → Point → Point → Point
  | 0, _, _, acc => acc
  | bits + 1, n, p, acc => smulBits bits (n / 2) (p.add p) (if n % 2 = 1 then acc.add p else acc)

/-- The multiple of a point by a number below `2 ^ 256`. -/
def smul (n : Nat) (p : Point) : Point := smulBits 256 n p zero

/-- Whether eight times the point is the neutral point. -/
def hasSmallOrder (p : Point) : Bool :=
  let q := smulBits 4 8 p zero
  q.x = 0 && q.y = q.z

/-- The bit above the coordinate, which holds the sign of the other one. -/
def signBit : Nat := Nat.pow 2 255

/-- The 32 bytes of a point. -/
def compress (p : Point) : Bytes :=
  let zInv := p.z.inverse
  let x := p.x * zInv
  let y := p.y * zInv
  Bytes.littleEndian 32 (y.val + if x.isNegative then signBit else 0)

/-- The point of 32 bytes, if there is one.  `y` is taken modulo the prime, and a set sign bit is
accepted where `x` is zero. -/
def decompress? (bytes : Bytes) : Option Point :=
  let n := Bytes.ofLittleEndian bytes
  let y := Field.ofNat (n % signBit)
  let negative := n / signBit % 2 = 1
  match Field.sqrtRatio? (y * y - 1) (curveConstant * (y * y) + 1) with
  | none => none
  | some root =>
    let x := if root.isNegative then -root else root
    some (ofAffine (if negative then -x else x) y)

/-- The base point: `y = 4 / 5`, with the even `x`. -/
def base : Point :=
  (decompress? (Bytes.littleEndian 32 (Field.ofNat 4 * (Field.ofNat 5).inverse).val)).getD zero

end Point

end Ed25519

end SigningGateway
