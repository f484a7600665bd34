import SigningGateway.Hex
import SigningGateway.Json.Basic

/-!
# Writing JSON

`Json.compact` writes a value without blanks, `Json.writePretty` with two blanks of indentation a
level.  Strings escape the quote, the backslash and the control characters below U+0020, nothing else.
-/

namespace SigningGateway

namespace Json

/-! ## Strings -/

/-- A character inside a literal. -/
def writeChar (c : Char) : List Char :=
  if c = '"' then ['\\', '"']
  else if c = '\\' then ['\\', '\\']
  else if c = '\x08' then ['\\', 'b']
  else if c = '\t' then ['\\', 't']
  else if c = '\n' then ['\\', 'n']
  else if c = '\x0c' then ['\\', 'f']
  else if c = '\r' then ['\\', 'r']
  else if c.toNat < 0x20 then
    ['\\', 'u', '0', '0', Hex.digit (c.toNat / 16), Hex.digit (c.toNat % 16)]
  else [c]

/-- A string literal with its quotes. -/
def writeString (s : String) : List Char := '"' :: s.toList.flatMap writeChar ++ ['"']

/-! ## Compact form -/

mutual

/-- Writes a value without blanks. -/
def write : Json → List Char
  | .null => ['n', 'u', 'l', 'l']
  | .bool true => ['t', 'r', 'u', 'e']
  | .bool false => ['f', 'a', 'l', 's', 'e']
  | .number n => Nat.toDigits 10 n.significand
  | .string s => writeString (s.getD "")
  | .array items => '[' :: writeItems items ++ [']']
  | .object members => '{' :: writeMembers members ++ ['}']
  | .broken => []

def writeItems : List Json → List Char
  | [] => []
  | [v] => write v
  | v :: rest => write v ++ ',' :: writeItems rest

def writeMembers : List (Option String × Json) → List Char
  | [] => []
  | [(key, v)] => writeString (key.getD "") ++ ':' :: write v
  | (key, v) :: rest => writeString (key.getD "") ++ ':' :: write v ++ ',' :: writeMembers rest

end

def compact (v : Json) : String := String.ofList (write v)

/-! ## Indented form -/

/-- A line end and the indentation of a level. -/
def newline (level : Nat) : List Char := '\n' :: List.replicate (2 * level) ' '

mutual

/-- Writes a value whose first line stands at the given level. -/
def writePretty : Nat → Json → List Char
  | _, .array [] => ['[', ']']
  | _, .object [] => ['{', '}']
  | level, .array items =>
    '[' :: writePrettyItems (level + 1) items ++ newline level ++ [']']
  | level, .object members =>
    '{' :: writePrettyMembers (level + 1) members ++ newline level ++ ['}']
  | _, v => write v

def writePrettyItems : Nat → List Json → List Char
  | _, [] => []
  | level, [v] => newline level ++ writePretty level v
  | level, v :: rest => newline level ++ writePretty level v ++ ',' :: writePrettyItems level rest

def writePrettyMembers : Nat → List (Option String × Json) → List Char
  | _, [] => []
  | level, [(key, v)] =>
    newline level ++ writeString (key.getD "") ++ ':' :: ' ' :: writePretty level v
  | level, (key, v) :: rest =>
    newline level ++ writeString (key.getD "") ++ ':' :: ' ' :: writePretty level v ++
      ',' :: writePrettyMembers level rest

end

end Json

end SigningGateway
