import SigningGateway.Auth.Challenge
import SigningGateway.Auth.Issuer
import SigningGateway.Auth.Metadata
import SigningGateway.Scheduler.Assignment

/-!
# Bodies of HTTP calls

The JSON records that callers send and the ones they get back.  Bytes are written in hexadecimal
digits.
-/

namespace SigningGateway

/-! ## What callers send -/

/-- Asks for a challenge. -/
structure ChallengeCall where
  scope : Scope
  node : NodeId

namespace ChallengeCall

def fields : List Json.Field :=
  [Json.field "scope" Scope.decode, Json.field "node_id" Json.Decode.nodeId]

def decode : Json.Decoder ChallengeCall := fun v => do
  let values ← Json.Record.read fields v
  let scope ← Scope.decode (values "scope")
  let node ← Json.Decode.nodeId (values "node_id")
  return { scope, node }

end ChallengeCall

/-- Registers a node; the fields of the metadata stand beside the others. -/
structure RegisterCall where
  node : NodeId
  metadata : Metadata
  challenge : Bytes
  signature : Bytes

namespace RegisterCall

/-- The fields of the JSON object without those of the metadata. -/
def fields : List Json.Field :=
  [Json.field "node_id" Json.Decode.nodeId, Json.field "challenge" Json.Decode.hexBytes,
    Json.field "signature" Json.Decode.hexBytes]

def decode : Json.Decoder RegisterCall := fun v => do
  let (own, inner) ← Json.Record.readBeside fields Metadata.fields v
  let node ← Json.Decode.nodeId (own "node_id")
  let metadata ← Metadata.ofValues inner
  let challenge ← Json.Decode.hexBytes (own "challenge")
  let signature ← Json.Decode.hexBytes (own "signature")
  return { node, metadata, challenge, signature }

end RegisterCall

/-- Recovers a credential of a node. -/
structure RecoverCall where
  node : NodeId
  challenge : Bytes
  signature : Bytes

namespace RecoverCall

def fields : List Json.Field :=
  [Json.field "node_id" Json.Decode.nodeId, Json.field "challenge" Json.Decode.hexBytes,
    Json.field "signature" Json.Decode.hexBytes]

def decode : Json.Decoder RecoverCall := fun v => do
  let values ← Json.Record.read fields v
  let node ← Json.Decode.nodeId (values "node_id")
  let challenge ← Json.Decode.hexBytes (values "challenge")
  let signature ← Json.Decode.hexBytes (values "signature")
  return { node, challenge, signature }

end RecoverCall

/-- Asks for the process of a node to run. -/
structure ScheduleCall where
  node : NodeId

namespace ScheduleCall

def fields : List Json.Field := [Json.field "node_id" Json.Decode.nodeId]

def decode : Json.Decoder ScheduleCall := fun v => do
  let values ← Json.Record.read fields v
  let node ← Json.Decode.nodeId (values "node_id")
  return { node }

end ScheduleCall

/-- Asks where the process of a node runs. -/
structure LocateCall where
  node : NodeId
  /-- Whether to wait for a process that does not run yet. -/
  wait : Bool

namespace LocateCall

/-- A truth value, false for a field that was left out. -/
def waitValue : Json → Except Json.DecodeError Bool
  | .null => .ok false
  | v => Json.Decode.bool v

def fields : List Json.Field :=
  [Json.field "node_id" Json.Decode.nodeId, Json.defaultedField "wait" Json.Decode.bool]

def decode : Json.Decoder LocateCall := fun v => do
  let values ← Json.Record.read fields v
  let node ← Json.Decode.nodeId (values "node_id")
  let wait ← waitValue (values "wait")
  return { node, wait }

end LocateCall

/-! ## What callers get back -/

/-- A challenge to sign. -/
structure ChallengeAnswer where
  challenge : Bytes

namespace ChallengeAnswer

def toJson (a : ChallengeAnswer) : Json := .ofFields [("challenge", .text (Hex.encode a.challenge))]

def fields : List Json.Field := [Json.field "challenge" Json.Decode.hexBytes]

def decode : Json.Decoder ChallengeAnswer := fun v => do
  let values ← Json.Record.read fields v
  let challenge ← Json.Decode.hexBytes (values "challenge")
  return { challenge }

end ChallengeAnswer

/-- Where the process of a node can be reached. -/
structure Location where
  node : NodeId
  endpoint : String

namespace Location

def ofAssignment (a : Assignment) : Location := ⟨a.node, a.endpoint⟩

def toJson (l : Location) : Json :=
  .ofFields [("node_id", .text l.node.toHex), ("endpoint", .text l.endpoint)]

def fields : List Json.Field :=
  [Json.field "node_id" Json.Decode.nodeId, Json.field "endpoint" Json.Decode.text]

def decode : Json.Decoder Location := fun v => do
  let values ← Json.Record.read fields v
  let node ← Json.Decode.nodeId (values "node_id")
  let endpoint ← Json.Decode.text (values "endpoint")
  return { node, endpoint }

end Location

end SigningGateway
