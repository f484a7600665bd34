/-!
# JSON values

A `Json` is a text as far as it reads as JSON.  A text that stops being JSON somewhere still
shows what comes before that place: the value there is `broken`, and it is the last one of each
array and object around it.  Decoders walk a value in the order of its text, so they meet faults
in that order.
-/

namespace SigningGateway

/-- A number as it is written: `significand * 10 ^ exponent`, and whether digits alone write it. -/
structure Json.Number where
  significand : Nat
  exponent : Int
  plain : Bool
  deriving DecidableEq, Repr

/-- A JSON text as far as it reads. -/
inductive Json
  | null
  | bool (b : Bool)
  | number (n : Json.Number)
  /-- A string; none if its escapes write no characters. -/
  | string (s : Option String)
  | array (items : List Json)
  /-- The members in order; a key is none if it is no text. -/
  | object (members : List (Option String × Json))
  /-- The text is not JSON from here on. -/
  | broken

namespace Json

/-! ## Values to write -/

def nat (n : Nat) : Json := .number ⟨n, 0, true⟩

def text (s : String) : Json := .string (some s)

def ofFields (fields : List (String × Json)) : Json :=
  .object (fields.map fun f => (some f.1, f.2))

/-- A value that may be missing. -/
def ofOption {α : Type} (f : α → Json) : Option α → Json
  | none => .null
  | some a => f a

/-! ## Numbers -/

def Number.digitCount (n : Number) : Nat := (Nat.toDigits 10 n.significand).length

/-- Whether the number stays below the halfway point between the largest double and the next
power of two. -/
def Number.fitsDouble (n : Number) : Bool :=
  let bound := Nat.pow 2 1024 - Nat.pow 2 970
  let magnitude := n.exponent + n.digitCount
  if n.significand = 0 || magnitude < 300 then true
  else if 310 < magnitude then false
  else if 0 ≤ n.exponent then n.significand * Nat.pow 10 n.exponent.toNat < bound
  else n.significand < bound * Nat.pow 10 (-n.exponent).toNat

/-- The natural number written by digits alone. -/
def Number.toNat? (n : Number) : Option Nat := if n.plain then some n.significand else none

/-! ## Soundness of a value -/

mutual

/-- Whether the text of the value is JSON. -/
def isWhole : Json → Bool
  | .null | .bool _ | .number _ | .string _ => true
  | .array items => allWhole items
  | .object members => membersWhole members
  | .broken => false

def allWhole : List Json → Bool
  | [] => true
  | v :: rest => v.isWhole && allWhole rest

def membersWhole : List (Option String × Json) → Bool
  | [] => true
  | (_, v) :: rest => v.isWhole && membersWhole rest

end

mutual

/-- Whether the value can be kept for later: its text is JSON, its strings are text, its numbers
fit a double, and it nests at most `depth` arrays and objects. -/
def isStorable : Nat → Json → Bool
  | _, .null | _, .bool _ => true
  | _, .number n => n.fitsDouble
  | _, .string s => s.isSome
  | 0, .array _ | 0, .object _ => false
  | depth + 1, .array items => allStorable depth items
  | depth + 1, .object members => membersStorable depth members
  | _, .broken => false

def allStorable : Nat → List Json → Bool
  | _, [] => true
  | depth, v :: rest => isStorable depth v && allStorable depth rest

def membersStorable : Nat → List (Option String × Json) → Bool
  | _, [] => true
  | depth, (key, v) :: rest => key.isSome && isStorable depth v && membersStorable depth rest

end

end Json

end SigningGateway
