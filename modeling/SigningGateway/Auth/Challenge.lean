import SigningGateway.Time.Clock
import SigningGateway.Json.Decode
import SigningGateway.Json.Writer

/-!
# Challenges

A challenge is a random value of 32 bytes that a node has to sign within its time to live.  Its
scope says whether the signature registers the node or recovers its credentials.
-/

namespace SigningGateway

/-- What a challenge may be used for. -/
inductive Scope
  | register
  | recover
  deriving DecidableEq, Repr

namespace Scope

def word : Scope → String
  | .register => "REGISTER"
  | .recover => "RECOVER"

def choices : List (String × Scope) := [("REGISTER", .register), ("RECOVER", .recover)]

def toJson (s : Scope) : Json := .text s.word

def decode : Json.Decoder Scope := Json.Decode.oneOf choices

end Scope

/-- The size of a challenge in bytes. -/
def challengeSize : Nat := 32

/-- A challenge that was handed out and not used yet. -/
structure Challenge where
  value : Bytes
  expiresAt : Nat

def Challenge.isExpired (c : Challenge) (now : Nat) : Bool := c.expiresAt ≤ now

end SigningGateway
