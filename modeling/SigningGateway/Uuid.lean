import SigningGateway.Hex

/-!
# Universally unique identifiers

Sixteen bytes.  `Uuid.format` writes them as five groups of lower-case digits; `Uuid.parse?` also
takes the digits alone, the groups in braces, and the groups after `urn:uuid:`.
-/

namespace SigningGateway

/-- Sixteen bytes that name an object. -/
structure Uuid where
  bytes : Bytes
  length_bytes : bytes.length = 16
  deriving DecidableEq

namespace Uuid

def ofBytes? (bytes : Bytes) : Option Uuid :=
  if h : bytes.length = 16 then some ⟨bytes, h⟩ else none

/-- Marks random bytes as version 4, variant 1. -/
def markRandom (bytes : Bytes) : Bytes :=
  (bytes.modify 6 fun b => 0x40 ||| (b &&& 0x0f)).modify 8 fun b => 0x80 ||| (b &&& 0x3f)

/-- The first sixteen of some bytes, with the last one first; missing bytes are zero. -/
def reversed (bytes : Bytes) : Bytes := ((bytes ++ List.replicate 16 0).take 16).reverse

/-- The identifier made of sixteen random bytes, which are taken as a number with its lowest byte
first. -/
def ofRandom (bytes : Bytes) : Uuid :=
  ⟨markRandom (reversed bytes), by simp [markRandom, reversed]⟩

/-- The five groups of digits with dashes between them. -/
def formatChars (u : Uuid) : List Char :=
  let group (start size : Nat) := Hex.digits ((u.bytes.drop start).take size)
  group 0 4 ++ '-' :: group 4 2 ++ '-' :: group 6 2 ++ '-' :: group 8 2 ++ '-' :: group 10 6

def format (u : Uuid) : String := String.ofList u.formatChars

def ofDigits? (digits : List Char) : Option Uuid :=
  if digits.length = 32 then
    match Hex.decode (String.ofList digits) with
    | .ok bytes => ofBytes? bytes
    | .error _ => none
  else none

/-- Reads five groups of digits with dashes between them. -/
def ofGroups? (cs : List Char) : Option Uuid :=
  if cs.length = 36 && cs[8]? = some '-' && cs[13]? = some '-' && cs[18]? = some '-' &&
      cs[23]? = some '-' then
    ofDigits? (cs.filter (· ≠ '-'))
  else none

/-- Reads an identifier in any of its forms. -/
def parse? (text : String) : Option Uuid :=
  let cs := text.toList
  match cs with
  | '\x7b' :: rest => if rest.getLast? = some '\x7d' then ofGroups? rest.dropLast else none
  | _ =>
    if cs.take 9 = "urn:uuid:".toList then ofGroups? (cs.drop 9)
    else if cs.length = 32 then ofDigits? cs
    else ofGroups? cs

end Uuid

end SigningGateway
