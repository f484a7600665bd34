import SigningGateway.Json.Decode
import SigningGateway.Json.Writer

/-!
# Registration metadata

What a node tells about itself when it registers.  The gateway keeps it and has the registration
signature cover it, and gives it no further meaning.
-/

namespace SigningGateway

/-- What a node tells about itself. -/
structure Metadata where
  bip32Key : Bytes
  email : Option String
  network : String
  deriving DecidableEq

namespace Metadata

def members (m : Metadata) : List (String × Json) :=
  [("bip32_key", .text (Hex.encode m.bip32Key)), ("email", .ofOption .text m.email),
    ("network", .text m.network)]

def toJson (m : Metadata) : Json := .ofFields m.members

def fields : List Json.Field :=
  [Json.field "bip32_key" Json.Decode.hexBytes,
    Json.optionalField "email" (Json.Decode.nullable Json.Decode.text),
    Json.field "network" Json.Decode.text]

def ofValues (values : Json.Record.Values) : Except Json.DecodeError Metadata := do
  let bip32Key ← Json.Decode.hexBytes (values "bip32_key")
  let email ← Json.Decode.nullable Json.Decode.text (values "email")
  let network ← Json.Decode.text (values "network")
  return { bip32Key, email, network }

def decode : Json.Decoder Metadata := fun v => do
  ofValues (← Json.Record.read fields v)

end Metadata

end SigningGateway
