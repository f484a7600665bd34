import SigningGateway.Auth.Message
import SigningGateway.Text.Integer
import SigningGateway.Time.Moment

/-!
# Device certificates

A certificate binds the key of a device, or of a node process, to a node, and is signed by the
issuer of the gateway.  It travels as JSON, in a header as the hexadecimal form of that JSON.
Every request also carries a `RequestProof`: a signature with the key of the certificate.
-/

namespace SigningGateway

/-! ## Roles -/

/-- Who a certificate speaks for. -/
inductive Role
  /-- A device of the user: starts the node and runs its signer. -/
  | device
  /-- The node process itself: sends the signing requests. -/
  | node
  deriving DecidableEq, Repr

namespace Role

def word : Role → String
  | .device => "device"
  | .node => "node"

def choices : List (String × Role) := [("device", .device), ("node", .node)]

def toJson (r : Role) : Json := .text r.word

def decode : Json.Decoder Role := Json.Decode.oneOf choices

end Role

/-! ## Certificates -/

/-- The signed part of a certificate. -/
structure CertificateBody where
  serial : String
  node : NodeId
  publicKey : Bytes
  role : Role
  /-- The name of the holder. -/
  name : String
  issuedAt : Moment
  /-- The public key of the issuer in hexadecimal digits. -/
  issuer : String
  deriving DecidableEq

/-- A certificate with the signature of its issuer. -/
structure Certificate where
  body : CertificateBody
  signature : Bytes
  deriving DecidableEq

namespace CertificateBody

def members (b : CertificateBody) : List (String × Json) :=
  [("serial", .text b.serial), ("node_id", .text b.node.toHex),
    ("device_public_key", .text (Hex.encode b.publicKey)), ("role", b.role.toJson),
    ("name", .text b.name), ("issued_at", .text b.issuedAt.format), ("issuer", .text b.issuer)]

/-- The bytes that the issuer signs. -/
def signedBytes (b : CertificateBody) : Bytes :=
  Utf8.encode (Json.write (.ofFields b.members))

def fields : List Json.Field :=
  [Json.field "serial" Json.Decode.text, Json.field "node_id" Json.Decode.nodeId,
    Json.field "device_public_key" Json.Decode.hexBytes,
    Json.field "role" (Json.Decode.keptOneOf Role.choices),
    Json.field "name" Json.Decode.text, Json.field "issued_at" Json.Decode.moment,
    Json.field "issuer" Json.Decode.text]

def ofValues (values : Json.Record.Values) : Except Json.DecodeError CertificateBody := do
  let serial ← Json.Decode.text (values "serial")
  let node ← Json.Decode.nodeId (values "node_id")
  let publicKey ← Json.Decode.hexBytes (values "device_public_key")
  let role ← Json.Decode.keptOneOf Role.choices (values "role")
  let name ← Json.Decode.text (values "name")
  let issuedAt ← Json.Decode.moment (values "issued_at")
  let issuer ← Json.Decode.text (values "issuer")
  return { serial, node, publicKey, role, name, issuedAt, issuer }

end CertificateBody

namespace Certificate

/-- The JSON object: the members of the body and the signature. -/
def toJson (c : Certificate) : Json :=
  .ofFields (c.body.members ++ [("signature", .text (Hex.encode c.signature))])

def decode : Json.Decoder Certificate := fun v => do
  let (own, inner) ←
    Json.Record.readBeside [Json.field "signature" Json.Decode.hexBytes] CertificateBody.fields v
  let signature ← Json.Decode.hexBytes (own "signature")
  let body ← CertificateBody.ofValues inner
  return { body, signature }

def malformed (reason : String) : Error := .unauthenticated ("malformed certificate: " ++ reason)

def toBytes (c : Certificate) : Bytes := Utf8.encode c.toJson.write

def ofBytes (bytes : Bytes) : Except Error Certificate :=
  match Json.decodeBytes decode bytes with
  | .ok c => .ok c
  | .error cause => .error (malformed cause.message)

/-- The value of the header that carries a certificate. -/
def toHeader (c : Certificate) : String := Hex.encode c.toBytes

/-- The certificate in the value of a header, with blanks around it. -/
def ofHeader (value : String) : Except Error Certificate :=
  match Hex.decode (String.ofList (Text.trim value.toList)) with
  | .error cause => .error (malformed cause.message)
  | .ok bytes => ofBytes bytes

end Certificate

/-! ## Proofs of possession -/

/-- A signature of one request with the key of a certificate. -/
structure RequestProof where
  /-- Seconds from the start of 1970 when the signature was made. -/
  timestamp : Int64
  signature : Bytes
  deriving DecidableEq

/-- How many seconds a timestamp may lie from the clock of the gateway. -/
def maxRequestSkew : Nat := 300

namespace RequestProof

/-- The proof in the values of its two headers, with blanks around them. -/
def ofHeaders (timestamp signature : String) : Except Error RequestProof := do
  let timestamp ←
    match Text.parseInt64 (Text.trim timestamp.toList) with
    | .ok n => pure n
    | .error cause => throw (.unauthenticated ("malformed request timestamp: " ++ cause.message))
  match Hex.decode (String.ofList (Text.trim signature.toList)) with
  | .ok signature => return { timestamp, signature }
  | .error cause => throw (.unauthenticated ("malformed request signature: " ++ cause.message))

def timestampHeader (p : RequestProof) : String := toString p.timestamp.toInt

def signatureHeader (p : RequestProof) : String := Hex.encode p.signature

/-- Checks that a proof was made with a key for a request, close to `now` in seconds from the start
of 1970. -/
def check (p : RequestProof) (publicKey : Bytes) (method path : String) (now : Int) :
    Except Error Unit :=
  if maxRequestSkew < (now - p.timestamp.toInt).natAbs then
    .error (.unauthenticated "request timestamp outside the accepted window")
  else if publicKey.length ≠ 32 then
    .error (.unauthenticated "certificate key has wrong length")
  else if !Ed25519.isPublicKey publicKey then
    .error (.unauthenticated "certificate key is invalid")
  else if p.signature.length ≠ 64 then
    .error (.unauthenticated "request signature has wrong length")
  else if Ed25519.verify publicKey (Message.request p.timestamp method path) p.signature then
    .ok ()
  else .error (.unauthenticated "request signature invalid")

end RequestProof

namespace Certificate

/-- Checks that a proof was made with the key of the certificate. -/
def checkRequest (c : Certificate) (method path : String) (proof : RequestProof) (now : Int) :
    Except Error Unit :=
  proof.check c.body.publicKey method path now

end Certificate

end SigningGateway
