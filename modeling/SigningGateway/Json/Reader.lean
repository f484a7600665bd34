import SigningGateway.Hex
import SigningGateway.Json.Basic

/-!
# Reading JSON

`Json.read` reads the value at the front of a text and returns what follows it.  Nothing is
refused here: where the text is not JSON the value is `broken`, with nothing following.
-/

namespace SigningGateway

namespace Json

/-! ## Blanks -/

/-- The four characters allowed between tokens. -/
def isBlank (c : Char) : Bool := c = ' ' || c = '\n' || c = '\t' || c = '\r'

def skipBlanks (cs : List Char) : List Char := cs.dropWhile isBlank

/-! ## Strings -/

/-- A part of a string literal: a character, or the 16-bit unit of a numbered escape. -/
inductive Piece
  | char (c : Char)
  | unit (n : Nat)
  deriving DecidableEq, Repr

/-- The unit written by four hexadecimal digits. -/
def unit? (a b c d : Char) : Option Nat := do
  let a ← Hex.value? a.toNat
  let b ← Hex.value? b.toNat
  let c ← Hex.value? c.toNat
  let d ← Hex.value? d.toNat
  return 4096 * a + 256 * b + 16 * c + d

/-- The character written by a backslash and the given one. -/
def escape? : Char → Option Char
  | '"' => some '"'
  | '\\' => some '\\'
  | '/' => some '/'
  | 'b' => some '\x08'
  | 'f' => some '\x0c'
  | 'n' => some '\n'
  | 'r' => some '\r'
  | 't' => some '\t'
  | _ => none

/-- Reads the rest of a literal behind its opening quote: its pieces, and what follows it. -/
def scanLiteral : List Char → Option (List Piece × List Char)
  | [] => none
  | '"' :: rest => some ([], rest)
  | '\\' :: 'u' :: a :: b :: c :: d :: rest =>
    match unit? a b c d, scanLiteral rest with
    | some n, some (pieces, tail) => some (.unit n :: pieces, tail)
    | _, _ => none
  | '\\' :: e :: rest =>
    match escape? e, scanLiteral rest with
    | some c, some (pieces, tail) => some (.char c :: pieces, tail)
    | _, _ => none
  | c :: rest =>
    if c.toNat < 0x20 || c = '\\' then none
    else
      match scanLiteral rest with
      | some (pieces, tail) => some (.char c :: pieces, tail)
      | none => none

/-- Whether a unit is the first half of a character beyond U+FFFF. -/
def isHighHalf (n : Nat) : Bool := 0xd800 ≤ n && n ≤ 0xdbff

def isLowHalf (n : Nat) : Bool := 0xdc00 ≤ n && n ≤ 0xdfff

/-- The characters written by the pieces of a literal; halves must stand in pairs. -/
def pieceChars : List Piece → Option (List Char)
  | [] => some []
  | .char c :: rest => (pieceChars rest).map (c :: ·)
  | .unit high :: .unit low :: rest =>
    if isHighHalf high then
      if isLowHalf low then
        (pieceChars rest).map
          (Char.ofNat (0x10000 + (high - 0xd800) * 0x400 + (low - 0xdc00)) :: ·)
      else none
    else if isLowHalf high then none
    else (pieceChars (.unit low :: rest)).map (Char.ofNat high :: ·)
  | .unit n :: rest =>
    if isHighHalf n || isLowHalf n then none else (pieceChars rest).map (Char.ofNat n :: ·)

/-- The text written by the pieces of a literal. -/
def pieceText (pieces : List Piece) : Option String := (pieceChars pieces).map String.ofList

/-! ## Numbers -/

/-- Reads the exponent behind the digits of a number, if there is one. -/
def scanExponent (cs : List Char) : Option (Option Int × List Char) :=
  match cs with
  | c :: rest =>
    if c = 'e' || c = 'E' then
      let (negative, rest) :=
        match rest with
        | '-' :: tail => (true, tail)
        | '+' :: tail => (false, tail)
        | tail => (false, tail)
      let digits := rest.takeWhile Char.isDigit
      if digits = [] then none
      else
        let n : Int := Nat.ofDigitChars 10 digits 0
        some (some (if negative then -n else n), rest.dropWhile Char.isDigit)
    else some (none, cs)
  | [] => some (none, cs)

/-- Reads the digits behind the point of a number, if there is one. -/
def scanFraction (cs : List Char) : Option (Option (List Char) × List Char) :=
  match cs with
  | '.' :: rest =>
    let digits := rest.takeWhile Char.isDigit
    if digits = [] then none else some (some digits, rest.dropWhile Char.isDigit)
  | _ => some (none, cs)

/-- Reads a number without its sign.  A leading zero stands alone. -/
def scanUnsigned (cs : List Char) : Option (Number × List Char) := do
  let digits := cs.takeWhile Char.isDigit
  if digits = [] || (digits.head? = some '0' && digits.length ≠ 1) then none
  else
    let (fraction, rest) ← scanFraction (cs.dropWhile Char.isDigit)
    let (exponent, rest) ← scanExponent rest
    let behind := fraction.getD []
    return (⟨Nat.ofDigitChars 10 (digits ++ behind) 0, exponent.getD 0 - behind.length,
      fraction.isNone && exponent.isNone⟩, rest)

def scanNumber (cs : List Char) : Option (Number × List Char) :=
  match cs with
  | '-' :: rest =>
    match scanUnsigned rest with
    | some (n, tail) => some ({ n with plain := false }, tail)
    | none => none
  | _ => scanUnsigned cs

/-! ## Values -/

/-- Drops a word from the front of a text. -/
def dropWord : List Char → List Char → Option (List Char)
  | [], cs => some cs
  | w :: word, c :: cs => if w = c then dropWord word cs else none
  | _ :: _, [] => none

/-- Reads a value that is a word or a number. -/
def readScalar (cs : List Char) : Json × List Char :=
  match dropWord ['n', 'u', 'l', 'l'] cs, dropWord ['t', 'r', 'u', 'e'] cs,
      dropWord ['f', 'a', 'l', 's', 'e'] cs with
  | some rest, _, _ => (.null, rest)
  | _, some rest, _ => (.bool true, rest)
  | _, _, some rest => (.bool false, rest)
  | none, none, none =>
    match scanNumber cs with
    | some (n, rest) => (.number n, rest)
    | none => (.broken, [])

mutual

/-- Reads the value at the front of a text; `fuel` bounds the tokens read. -/
def readValue : Nat → List Char → Json × List Char
  | 0, _ => (.broken, [])
  | fuel + 1, cs =>
    match skipBlanks cs with
    | '"' :: rest =>
      match scanLiteral rest with
      | some (pieces, tail) => (.string (pieceText pieces), tail)
      | none => (.broken, [])
    | '[' :: rest =>
      match skipBlanks rest with
      | ']' :: tail => (.array [], tail)
      | _ =>
        let (items, tail) := readItems fuel rest
        (.array items, tail)
    | '{' :: rest =>
      match skipBlanks rest with
      | '}' :: tail => (.object [], tail)
      | _ =>
        let (members, tail) := readMembers fuel rest
        (.object members, tail)
    | rest => readScalar rest

/-- Reads the values of an array up to its closing bracket. -/
def readItems : Nat → List Char → List Json × List Char
  | 0, _ => ([.broken], [])
  | fuel + 1, cs =>
    let (v, rest) := readValue fuel cs
    match skipBlanks rest with
    | ',' :: tail =>
      let (items, tail) := readItems fuel tail
      (v :: items, tail)
    | ']' :: tail => ([v], tail)
    | _ => ([v, .broken], [])

/-- Reads the members of an object up to its closing brace. -/
def readMembers : Nat → List Char → List (Option String × Json) × List Char
  | 0, _ => ([(none, .broken)], [])
  | fuel + 1, cs =>
    match skipBlanks cs with
    | '"' :: rest =>
      match scanLiteral rest with
      | none => ([(none, .broken)], [])
      | some (pieces, rest) =>
        let key := pieceText pieces
        match skipBlanks rest with
        | ':' :: rest =>
          let (v, rest) := readValue fuel rest
          match skipBlanks rest with
          | ',' :: tail =>
            let (members, tail) := readMembers fuel tail
            ((key, v) :: members, tail)
          | '}' :: tail => ([(key, v)], tail)
          | _ => ([(key, v), (none, .broken)], [])
        | _ => ([(key, .broken)], [])
    | _ => ([(none, .broken)], [])

end

/-- Reads the value at the front of a text; what follows it comes with it.  No more tokens are
read than the text has characters. -/
def read (cs : List Char) : Json × List Char := readValue (2 * cs.length + 2) cs

/-- A text read as one value: the value, and whether nothing but blanks follows it. -/
structure Document where
  value : Json
  endsThere : Bool

def Document.ofChars (cs : List Char) : Document :=
  let (v, rest) := read cs
  ⟨v, (skipBlanks rest).isEmpty⟩

def Document.ofText (text : String) : Document := .ofChars text.toList

/-- What a byte that belongs to no character is read as.  In a literal this is half a character, so
the literal is whole but no text; behind a backslash and outside of literals it is not JSON. -/
def noCharacter : List Char := ['?', '\\', 'u', 'd', 'c', '0', '0']

/-- Reads bytes.  Those that are not UTF-8 matter only where a text is wanted: a literal that is
passed over may hold any. -/
def Document.ofBytes (bytes : Bytes) : Document :=
  .ofChars <| (Utf8.chars bytes).flatMap fun
    | some c => [c]
    | none => noCharacter

@[simp] theorem Document.ofBytes_encode (cs : List Char) :
    Document.ofBytes (Utf8.encode cs) = .ofChars cs := by
  rw [ofBytes, Utf8.chars_encode, List.flatMap_map]
  exact congrArg ofChars (List.flatMap_singleton' cs)

end Json

end SigningGateway
