/-!
# Characters between quotes

`charLiteral` shows one byte-sized character between single quotes.  What has no glyph of its
own is written as an escape, so that every character stays visible in a message.
-/

namespace SigningGateway

namespace Text

/-- The lower-case hexadecimal digits of a number, without leading zeros. -/
def hexDigits (n : Nat) : String := String.ofList (Nat.toDigits 16 n)

/-- The characters below U+0100 that have a glyph: neither controls, nor the no-break space, nor
the soft hyphen. -/
def hasGlyph (c : Char) : Bool :=
  let n := c.toNat
  (0x20 ≤ n && n < 0x7f) || (0xa1 ≤ n && n ≤ 0xff && n != 0xad)

/-- A character below U+0100 between single quotes. -/
def charLiteral (c : Char) : String :=
  let inner :=
    if c = '\x00' then "\\0"
    else if c = '\t' then "\\t"
    else if c = '\n' then "\\n"
    else if c = '\r' then "\\r"
    else if c = '\'' then "\\'"
    else if c = '\\' then "\\\\"
    else if hasGlyph c then c.toString
    else "\\u\x7b" ++ hexDigits c.toNat ++ "\x7d"
  "'" ++ inner ++ "'"

end Text

end SigningGateway
