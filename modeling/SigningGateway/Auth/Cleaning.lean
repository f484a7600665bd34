import SigningGateway.Auth.Authenticator
import SigningGateway.Time.Ticker

/-!
# An authenticator that is cleaned up

An authenticator with the clocks and, if it has one, its cleaner: a ticker at whose ticks challenges
that are over are dropped.  Ticks that come late are made up for.
-/

namespace SigningGateway

structure CleanedAuthenticator where
  auth : Authenticator
  clock : Clock
  cleaner : Option Ticker

namespace CleanedAuthenticator

/-- Cleans up if the cleaner says so; of several ticks at one time the later ones find nothing. -/
def settle (s : CleanedAuthenticator) : CleanedAuthenticator :=
  match s.cleaner with
  | none => s
  | some t =>
    let (count, t) := t.run s.clock.steady
    { s with
      auth := if count = 0 then s.auth else s.auth.cleanup s.clock.steady
      cleaner := some t }

/-- An authenticator that comes into use; the first cleanup is due at once. -/
def start (auth : Authenticator) (clock : Clock) (period : Option Nat) : CleanedAuthenticator :=
  settle ⟨auth, clock, period.map fun p => .start p .catchUp clock.steady⟩

def advance (s : CleanedAuthenticator) (duration : Nat) : CleanedAuthenticator :=
  { s with clock := s.clock.advance duration }.settle

end CleanedAuthenticator

end SigningGateway
