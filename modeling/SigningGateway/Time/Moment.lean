import SigningGateway.Time.Calendar
import SigningGateway.Text.Blank

/-!
# Moments of the wall clock

A `Moment` is a number of seconds from the start of 1970, in UTC, and a number of nanoseconds.
`Moment.format` writes it as RFC 3339 with as few of 0, 3, 6 or 9 fraction digits as are exact;
`Moment.parse?` reads any offset, any number of fraction digits, and blanks between the parts.
-/

namespace SigningGateway

/-- A moment of the wall clock.  Within a leap second the nanoseconds go beyond `10 ^ 9`. -/
structure Moment where
  seconds : Int
  nanos : Nat
  deriving DecidableEq, Repr

namespace Moment

def addMillis (m : Moment) (millis : Nat) : Moment :=
  let nanos := m.nanos + millis * 1000000
  ⟨m.seconds + nanos / 1000000000, nanos % 1000000000⟩

/-! ## Writing -/

/-- A number with leading zeros up to a width. -/
def padded (width n : Nat) : List Char :=
  let digits := Nat.toDigits 10 n
  List.replicate (width - digits.length) '0' ++ digits

/-- A year: four digits, with a sign outside of 0 to 9999. -/
def formatYear (year : Int) : List Char :=
  if 0 ≤ year ∧ year ≤ 9999 then padded 4 year.toNat
  else (if year < 0 then '-' else '+') :: padded 4 year.natAbs

/-- The fraction of a second in the fewest of 0, 3, 6 or 9 digits. -/
def formatFraction (nanos : Nat) : List Char :=
  if nanos = 0 then []
  else if nanos % 1000000 = 0 then '.' :: padded 3 (nanos / 1000000)
  else if nanos % 1000 = 0 then '.' :: padded 6 (nanos / 1000)
  else '.' :: padded 9 nanos

def formatChars (m : Moment) : List Char :=
  let date := Date.ofDays (m.seconds / 86400)
  let secondOfDay := (m.seconds % 86400).toNat
  let second := secondOfDay % 60 + m.nanos / 1000000000
  formatYear date.year ++ '-' :: padded 2 date.month ++ '-' :: padded 2 date.day ++
    'T' :: padded 2 (secondOfDay / 3600) ++ ':' :: padded 2 (secondOfDay / 60 % 60) ++
    ':' :: padded 2 second ++ formatFraction (m.nanos % 1000000000) ++ ['Z']

def format (m : Moment) : String := String.ofList m.formatChars

/-! ## Reading -/

/-- Reads one up to `width` digits. -/
def scanDigits (width : Nat) (cs : List Char) : Option (Nat × List Char) :=
  let digits := (cs.take width).takeWhile Char.isDigit
  if digits = [] then none else some (Nat.ofDigitChars 10 digits 0, cs.drop digits.length)

/-- Reads a number of up to two digits, after blanks. -/
def scanTwo (cs : List Char) : Option (Nat × List Char) := scanDigits 2 (Text.trimStart cs)

/-- Reads a year, after blanks: up to four digits, or a sign and any number of digits. -/
def scanYear (cs : List Char) : Option (Int × List Char) :=
  match Text.trimStart cs with
  | '-' :: rest => (scanDigits rest.length rest).map fun (n, tail) => (-(n : Int), tail)
  | '+' :: rest => (scanDigits rest.length rest).map fun (n, tail) => ((n : Int), tail)
  | rest => (scanDigits 4 rest).map fun (n, tail) => ((n : Int), tail)

/-- Passes over a mark, after blanks. -/
def skipMark (mark : Char) (cs : List Char) : Option (List Char) :=
  match Text.trimStart cs with
  | c :: rest => if c = mark then some rest else none
  | [] => none

/-- Reads a fraction of a second as nanoseconds; digits behind the ninth are passed over. -/
def scanFraction (cs : List Char) : Option (Nat × List Char) :=
  match cs with
  | '.' :: rest =>
    let digits := rest.takeWhile Char.isDigit
    if digits = [] then none
    else
      let kept := digits.take 9
      some (Nat.ofDigitChars 10 kept 0 * Nat.pow 10 (9 - kept.length),
        rest.dropWhile Char.isDigit)
  | _ => some (0, cs)

/-- Two decimal digits in front of a text, as a number. -/
def twoDigits (cs : List Char) : Option (Nat × List Char) :=
  match cs with
  | a :: b :: rest =>
    if a.isDigit && b.isDigit then some (Nat.ofDigitChars 10 [a, b] 0, rest) else none
  | _ => none

/-- Reads the hours and minutes of an offset as seconds. -/
def scanHoursMinutes (cs : List Char) : Option (Int × List Char) := do
  let (hours, rest) ← twoDigits cs
  let (minutes, rest) ← twoDigits (rest.dropWhile fun c => c = ':' || Text.isBlank c)
  if minutes < 60 then some (((hours * 3600 + minutes * 60 : Nat) : Int), rest) else none

/-- Reads an offset from UTC as seconds: `Z`, `UTC`, or a sign with hours and minutes. -/
def scanOffset (cs : List Char) : Option (Int × List Char) :=
  if (cs.take 3).map Char.toUpper = ['U', 'T', 'C'] then some (0, cs.drop 3)
  else
    match cs with
    | [] => none
    | c :: rest =>
      if c = 'Z' || c = 'z' then some (0, rest)
      else if c = '+' then scanHoursMinutes rest
      else if c = '-' || c = '\u2212' then
        (scanHoursMinutes rest).map fun (n, tail) => (-n, tail)
      else none

/-- The years for which there are dates. -/
def yearLimit : Int := 262143

def firstSecond : Int := (⟨-yearLimit, 1, 1⟩ : Date).toDays * 86400

def endSecond : Int := (⟨yearLimit, 1, 1⟩ : Date).toDays * 86400

/-- Whether a moment can be the present one: a clock does not go back behind 1970 and shows no moment
that has no date. -/
def isPresent (m : Moment) : Bool := 0 ≤ m.seconds && m.seconds < endSecond

/-- Reads a date as days from 1970-01-01. -/
def scanDate (cs : List Char) : Option (Int × List Char) := do
  let (year, rest) ← scanYear cs
  let (month, rest) ← scanTwo (← skipMark '-' rest)
  let (day, rest) ← scanTwo (← skipMark '-' rest)
  let date : Date := ⟨year, month, day⟩
  if date.isValid && -yearLimit ≤ year && year < yearLimit then some (date.toDays, rest) else none

/-- Reads a time of day as seconds and nanoseconds.  The second 60 is a leap second. -/
def scanTime (cs : List Char) : Option ((Nat × Nat) × List Char) := do
  let (hour, rest) ← scanTwo cs
  let (minute, rest) ← scanTwo (← skipMark ':' rest)
  let (second, rest) ← scanTwo (← skipMark ':' rest)
  let (nanos, rest) ← scanFraction rest
  if hour < 24 && minute < 60 && second ≤ 60 then
    if second = 60 then
      some ((hour * 3600 + minute * 60 + 59, nanos + 1000000000), rest)
    else some ((hour * 3600 + minute * 60 + second, nanos), rest)
  else none

/-- Reads a moment.  It must lie in the years that have dates in UTC too. -/
def parseChars? (cs : List Char) : Option Moment := do
  let (days, rest) ← scanDate cs
  match rest with
  | [] => none
  | mark :: rest =>
    if mark = 'T' || mark = 't' || mark = ' ' then
      let ((second, nanos), rest) ← scanTime rest
      let (offset, rest) ← scanOffset (Text.trimStart rest)
      let seconds := days * 86400 + second - offset
      if offset.natAbs < 86400 && (Text.trimStart rest).isEmpty && firstSecond ≤ seconds &&
          seconds < endSecond then
        some ⟨seconds, nanos⟩
      else none
    else none

def parse? (text : String) : Option Moment := parseChars? text.toList

end Moment

end SigningGateway
