import SigningGateway.Bytes

/-!
# Random bytes

Random bytes come from a sequence of draws of up to 32 bytes; whoever needs some takes the next
draw.  Nothing else is known of the sequence, so what holds of the gateway holds for every one.
-/

namespace SigningGateway

/-- A sequence of draws, and how many of them were taken. -/
structure Entropy where
  draws : Nat → Bytes
  taken : Nat

/-- Takes the first `size` bytes of the next draw. -/
def Entropy.draw (e : Entropy) (size : Nat) : Bytes × Entropy :=
  ((e.draws e.taken).take size, { e with taken := e.taken + 1 })

end SigningGateway
