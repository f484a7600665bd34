import SigningGateway.Json.Decode
import SigningGateway.Json.Writer

/-!
# Frames

What travels on the streams of the relay: signing requests with their context, the answers of
signers, and the frames around them.  Payloads are opaque bytes, written in hexadecimal digits.
A frame is a JSON object whose member `type` names its variant; an array with the variant in front is
read as well.
-/

namespace SigningGateway

/-! ## Requests and responses -/

/-- Who asks, and for which capabilities. -/
structure RequestContext where
  node : NodeId
  dbid : UInt64
  capabilities : UInt64
  deriving DecidableEq

/-- A signing request as the signer sees it. -/
structure Request where
  id : UInt32
  context : RequestContext
  raw : Bytes
  deriving DecidableEq

/-- The answer of a signer to one request. -/
structure Response where
  id : UInt32
  raw : Bytes
  deriving DecidableEq

def payloadJson (raw : Bytes) : Json := .text (Hex.encode raw)

namespace RequestContext

def toJson (c : RequestContext) : Json :=
  .ofFields [("node_id", .text c.node.toHex), ("dbid", .nat c.dbid.toNat),
    ("capabilities", .nat c.capabilities.toNat)]

def fields : List Json.Field :=
  [Json.field "node_id" Json.Decode.nodeId, Json.field "dbid" Json.Decode.word64,
    Json.field "capabilities" Json.Decode.word64]

def decode : Json.Decoder RequestContext := fun v => do
  let values ← Json.Record.read fields v
  let node ← Json.Decode.nodeId (values "node_id")
  let dbid ← Json.Decode.word64 (values "dbid")
  let capabilities ← Json.Decode.word64 (values "capabilities")
  return { node, dbid, capabilities }

end RequestContext

namespace Request

def members (r : Request) : List (String × Json) :=
  [("request_id", .nat r.id.toNat), ("context", r.context.toJson), ("raw", payloadJson r.raw)]

def toJson (r : Request) : Json := .ofFields r.members

def fields : List Json.Field :=
  [Json.field "request_id" Json.Decode.word32, Json.field "context" RequestContext.decode,
    Json.field "raw" Json.Decode.hexBytes]

def ofValues (values : Json.Record.Values) : Except Json.DecodeError Request := do
  let id ← Json.Decode.word32 (values "request_id")
  let context ← RequestContext.decode (values "context")
  let raw ← Json.Decode.hexBytes (values "raw")
  return { id, context, raw }

def decode : Json.Decoder Request := fun v => do
  ofValues (← Json.Record.read fields v)

end Request

namespace Response

def members (r : Response) : List (String × Json) :=
  [("request_id", .nat r.id.toNat), ("raw", payloadJson r.raw)]

def toJson (r : Response) : Json := .ofFields r.members

def fields : List Json.Field :=
  [Json.field "request_id" Json.Decode.word32, Json.field "raw" Json.Decode.hexBytes]

def ofValues (values : Json.Record.Values) : Except Json.DecodeError Response := do
  let id ← Json.Decode.word32 (values "request_id")
  let raw ← Json.Decode.hexBytes (values "raw")
  return { id, raw }

def decode : Json.Decoder Response := fun v => do
  ofValues (← Json.Record.read fields v)

end Response

/-- A tagged object: the tag before the other members. -/
def taggedJson (tag : String) (members : List (String × Json)) : Json :=
  .ofFields ((Json.Record.tagName, .text tag) :: members)

/-! ## Frames of a node -/

/-- What a node sends: a request with a tag of its own, or a grant to one of its ids. -/
inductive NodeFrame
  | request (tag dbid capabilities : UInt64) (raw : Bytes)
  | grant (dbid capabilities : UInt64)
  deriving DecidableEq

namespace NodeFrame

def toJson : NodeFrame → Json
  | .request tag dbid capabilities raw =>
    taggedJson "request" [("tag", .nat tag.toNat), ("dbid", .nat dbid.toNat),
      ("capabilities", .nat capabilities.toNat), ("raw", payloadJson raw)]
  | .grant dbid capabilities =>
    taggedJson "grant" [("dbid", .nat dbid.toNat), ("capabilities", .nat capabilities.toNat)]

inductive Variant
  | request
  | grant

def variants : List (String × Variant) := [("request", .request), ("grant", .grant)]

def requestFields : List Json.Field :=
  [Json.field "tag" Json.Decode.word64, Json.field "dbid" Json.Decode.word64,
    Json.field "capabilities" Json.Decode.word64, Json.field "raw" Json.Decode.hexBytes]

def grantFields : List Json.Field :=
  [Json.field "dbid" Json.Decode.word64, Json.field "capabilities" Json.Decode.word64]

def decode : Json.Decoder NodeFrame := fun v => do
  let (variant, rest) ← Json.Record.readTagged variants v
  match variant with
  | .request =>
    let values ← Json.Record.read requestFields rest
    let tag ← Json.Decode.word64 (values "tag")
    let dbid ← Json.Decode.word64 (values "dbid")
    let capabilities ← Json.Decode.word64 (values "capabilities")
    let raw ← Json.Decode.hexBytes (values "raw")
    return .request tag dbid capabilities raw
  | .grant =>
    let values ← Json.Record.read grantFields rest
    let dbid ← Json.Decode.word64 (values "dbid")
    let capabilities ← Json.Decode.word64 (values "capabilities")
    return .grant dbid capabilities

end NodeFrame

/-! ## Frames to a node -/

/-- What a node is sent: the answer to the request with its tag, or an error, which has a tag if a
request caused it. -/
inductive RelayFrame
  | response (tag : UInt64) (id : UInt32) (raw : Bytes)
  | error (tag : Option UInt64) (kind message : String)
  deriving DecidableEq

namespace RelayFrame

def ofError (tag : Option UInt64) (e : Error) : RelayFrame := .error tag e.kind e.message

/-- The tag of the request that a frame belongs to. -/
def tag? : RelayFrame → Option UInt64
  | .response tag _ _ => some tag
  | .error tag _ _ => tag

/-- The member for a tag, if there is one. -/
def tagMember : Option UInt64 → List (String × Json)
  | none => []
  | some tag => [("tag", .nat tag.toNat)]

def toJson : RelayFrame → Json
  | .response tag id raw =>
    taggedJson "response" [("tag", .nat tag.toNat), ("request_id", .nat id.toNat),
      ("raw", payloadJson raw)]
  | .error tag kind message =>
    taggedJson "error" (tagMember tag ++ [("kind", .text kind), ("message", .text message)])

inductive Variant
  | response
  | error

def variants : List (String × Variant) := [("response", .response), ("error", .error)]

def responseFields : List Json.Field :=
  [Json.field "tag" Json.Decode.word64, Json.field "request_id" Json.Decode.word32,
    Json.field "raw" Json.Decode.hexBytes]

def errorFields : List Json.Field :=
  [Json.defaultedField "tag" (Json.Decode.nullable Json.Decode.word64),
    Json.field "kind" Json.Decode.text, Json.field "message" Json.Decode.text]

def decode : Json.Decoder RelayFrame := fun v => do
  let (variant, rest) ← Json.Record.readTagged variants v
  match variant with
  | .response =>
    let values ← Json.Record.read responseFields rest
    let tag ← Json.Decode.word64 (values "tag")
    let id ← Json.Decode.word32 (values "request_id")
    let raw ← Json.Decode.hexBytes (values "raw")
    return .response tag id raw
  | .error =>
    let values ← Json.Record.read errorFields rest
    let tag ← Json.Decode.nullable Json.Decode.word64 (values "tag")
    let kind ← Json.Decode.text (values "kind")
    let message ← Json.Decode.text (values "message")
    return .error tag kind message

end RelayFrame

/-! ## Frames of a signer session -/

/-- What travels between the relay and a signer. -/
inductive SignerFrame
  | request (r : Request)
  | response (r : Response)
  deriving DecidableEq

namespace SignerFrame

def toJson : SignerFrame → Json
  | .request r => taggedJson "request" r.members
  | .response r => taggedJson "response" r.members

inductive Variant
  | request
  | response

def variants : List (String × Variant) := [("request", .request), ("response", .response)]

def decode : Json.Decoder SignerFrame := fun v => do
  let (variant, rest) ← Json.Record.readTagged variants v
  match variant with
  | .request =>
    let values ← Json.Record.read Request.fields rest
    return .request (← Request.ofValues values)
  | .response =>
    let values ← Json.Record.read Response.fields rest
    return .response (← Response.ofValues values)

end SignerFrame

end SigningGateway
