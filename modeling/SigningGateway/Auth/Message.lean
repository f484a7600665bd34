import SigningGateway.Auth.Metadata
import SigningGateway.Hash.Sha2

/-!
# Signed messages

What is signed is the SHA-256 digest of a byte string that starts with the purpose of the
signature.  Fields of free length are preceded by their length, so the bytes tell them apart.

    registration:  purpose ‖ challenge ‖ key ‖ e-mail ‖ network
    recovery:      purpose ‖ challenge ‖ node
    request:       purpose ‖ timestamp ‖ method ‖ path
-/

namespace SigningGateway

namespace Message

/-! ## The signed bytes -/

/-- The first bytes of a registration message. -/
def registerPurpose : Bytes := Bytes.ofText "keyhole/register/v1"

def recoverPurpose : Bytes := Bytes.ofText "keyhole/recover/v1"

def requestPurpose : Bytes := Bytes.ofText "keyhole/request/v1"

/-- The bytes that a registering node signs; a missing e-mail counts as an empty one. -/
def registrationBytes (challenge : Bytes) (m : Metadata) : Bytes :=
  registerPurpose ++ challenge ++ Bytes.lengthPrefixed m.bip32Key ++
    Bytes.lengthPrefixed (Bytes.ofText (m.email.getD "")) ++
    Bytes.lengthPrefixed (Bytes.ofText m.network)

/-- The bytes that a recovering node signs. -/
def recoveryBytes (challenge : Bytes) (node : NodeId) : Bytes :=
  recoverPurpose ++ challenge ++ node.bytes

/-- The eight bytes of a timestamp in two's complement. -/
def timestampBytes (timestamp : Int64) : Bytes :=
  Bytes.bigEndian 8 timestamp.toUInt64.toNat

/-- The bytes that the caller of a request signs. -/
def requestBytes (timestamp : Int64) (method path : String) : Bytes :=
  requestPurpose ++ timestampBytes timestamp ++ Bytes.lengthPrefixed (Bytes.ofText method) ++
    Bytes.lengthPrefixed (Bytes.ofText path)

/-! ## The signed digests -/

/-- The digest that a registering node signs. -/
def registration (challenge : Bytes) (m : Metadata) : Bytes :=
  sha256 (registrationBytes challenge m)

def recovery (challenge : Bytes) (node : NodeId) : Bytes := sha256 (recoveryBytes challenge node)

def request (timestamp : Int64) (method path : String) : Bytes :=
  sha256 (requestBytes timestamp method path)

end Message

end SigningGateway
