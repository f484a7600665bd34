import SigningGateway.Time.Moment

/-!
# The two clocks

The wall clock dates what the gateway writes down.  The steady clock counts milliseconds and
measures how long something has lasted; both advance together.  Instants of the steady clock and
lengths of time are numbers of milliseconds.
-/

namespace SigningGateway

/-- A reading of both clocks. -/
structure Clock where
  wall : Moment
  steady : Nat

def Clock.advance (c : Clock) (duration : Nat) : Clock :=
  ⟨c.wall.addMillis duration, c.steady + duration⟩

/-- The jumps in which a length of time passes: of the given size, the last one of what is left.  A
size of zero stands for one jump. -/
def jumps (total size : Nat) : List Nat :=
  let (whole, rest) := if size = 0 then (0, total) else (total / size, total % size)
  List.replicate whole size ++ if rest = 0 then [] else [rest]

end SigningGateway
