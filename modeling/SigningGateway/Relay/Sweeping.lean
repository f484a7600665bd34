import SigningGateway.Relay.Basic
import SigningGateway.Time.Ticker

/-!
# A relay that is swept

A relay with its clock and, if it has one, its sweeper: a ticker at whose ticks the deadlines of
the requests are checked.  A tick that comes late delays those after it.
-/

namespace SigningGateway

structure SweptRelay where
  relay : Relay
  now : Nat
  sweeper : Option Ticker

namespace SweptRelay

/-- Sweeps if the sweeper says so; of several ticks at one time the later ones find nothing. -/
def settle (s : SweptRelay) : SweptRelay :=
  match s.sweeper with
  | none => s
  | some t =>
    let (count, t) := t.run s.now
    { s with
      relay := if count = 0 then s.relay else (s.relay.sweep s.now).2
      sweeper := some t }

/-- A relay at its start; the first sweep is due at once. -/
def start (settings : RelaySettings) (swept : Bool) : SweptRelay :=
  settle ⟨.start settings, 0,
    if swept then some (.start settings.sweepInterval .delay 0) else none⟩

def advance (s : SweptRelay) (duration : Nat) : SweptRelay :=
  { s with now := s.now + duration }.settle

end SweptRelay

end SigningGateway
