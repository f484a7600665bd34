/-!
# Integers as text

`parseInt64` reads a decimal integer of 64 bits with an optional sign, character by character: a
character that is no digit is met before the number it would make too large.
-/

namespace SigningGateway

namespace Text

/-- Why a text is no integer of 64 bits. -/
inductive IntegerError
  | empty
  | invalidDigit
  | tooLarge
  | tooSmall
  deriving DecidableEq, Repr

def IntegerError.message : IntegerError → String
  | .empty => "cannot parse integer from empty string"
  | .invalidDigit => "invalid digit found in string"
  | .tooLarge => "number too large to fit in target type"
  | .tooSmall => "number too small to fit in target type"

/-- Reads digits behind the number read so far, up to a bound. -/
def parseDigits (bound : Nat) (overflow : IntegerError) :
    List Char → Nat → Except IntegerError Nat
  | [], n => .ok n
  | c :: rest, n =>
    if c.isDigit then
      let next := 10 * n + (c.toNat - 48)
      if next ≤ bound then parseDigits bound overflow rest next else .error overflow
    else .error .invalidDigit

/-- The largest integer of 64 bits with sign; the smallest one lies one further from zero. -/
def largest : Nat := UInt64.size / 2 - 1

def parseInt64 (cs : List Char) : Except IntegerError Int64 :=
  match cs with
  | [] => .error .empty
  | '-' :: rest =>
    if rest = [] then .error .invalidDigit
    else (parseDigits (largest + 1) .tooSmall rest 0).map fun n => Int64.ofInt (-(n : Int))
  | '+' :: rest =>
    if rest = [] then .error .invalidDigit
    else (parseDigits largest .tooLarge rest 0).map fun n => Int64.ofInt n
  | _ => (parseDigits largest .tooLarge cs 0).map fun n => Int64.ofInt n

end Text

end SigningGateway
