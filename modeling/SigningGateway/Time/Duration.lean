import SigningGateway.Time.Moment

/-!
# Lengths of time in messages

A length of time is written in the largest unit of which it holds at least one, with as many
decimal places as are exact: `1.5s`, `50ms`, `0ns`.
-/

namespace SigningGateway

namespace Duration

/-- The places behind the point for a number of thousandths, without zeros at the end. -/
def fraction (thousandths : Nat) : List Char :=
  let digits := (Moment.padded 3 thousandths).reverse.dropWhile (· = '0')
  if digits = [] then [] else '.' :: digits.reverse

/-- A number of milliseconds with its unit. -/
def formatMillis (millis : Nat) : String :=
  if millis = 0 then "0ns"
  else if millis < 1000 then toString millis ++ "ms"
  else toString (millis / 1000) ++ String.ofList (fraction (millis % 1000)) ++ "s"

end Duration

end SigningGateway
