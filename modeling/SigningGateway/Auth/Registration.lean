import SigningGateway.Auth.Certificate

/-!
# Registrations

What the gateway knows about a registered node: its metadata and the certificates that are current.
A device certificate is current as long as its serial is listed, the one of the node process as long
as no other replaced it.
-/

namespace SigningGateway

/-! ## Issued certificates -/

structure IssuedCertificate where
  serial : String
  name : String
  role : Role
  issuedAt : Moment
  deriving DecidableEq

namespace IssuedCertificate

def ofCertificate (c : Certificate) : IssuedCertificate :=
  ⟨c.body.serial, c.body.name, c.body.role, c.body.issuedAt⟩

def toJson (c : IssuedCertificate) : Json :=
  .ofFields [("serial", .text c.serial), ("name", .text c.name), ("role", c.role.toJson),
    ("issued_at", .text c.issuedAt.format)]

def fields : List Json.Field :=
  [Json.field "serial" Json.Decode.text, Json.field "name" Json.Decode.text,
    Json.field "role" Role.decode, Json.field "issued_at" Json.Decode.moment]

def decode : Json.Decoder IssuedCertificate := fun v => do
  let values ← Json.Record.read fields v
  let serial ← Json.Decode.text (values "serial")
  let name ← Json.Decode.text (values "name")
  let role ← Role.decode (values "role")
  let issuedAt ← Json.Decode.moment (values "issued_at")
  return { serial, name, role, issuedAt }

end IssuedCertificate

/-! ## Registrations -/

/-- A registered node. -/
structure Registration where
  node : NodeId
  metadata : Metadata
  registeredAt : Moment
  /-- The device certificates that are current. -/
  certificates : List IssuedCertificate
  /-- The certificate of the node process launched last. -/
  nodeCertificate : Option IssuedCertificate
  deriving DecidableEq

namespace Registration

/-- Whether the certificate with a role and a serial is current. -/
def holds (r : Registration) (role : Role) (serial : String) : Bool :=
  match role with
  | .device => r.certificates.any fun c => c.serial = serial
  | .node => r.nodeCertificate.any fun c => c.serial = serial

def certificateCount (r : Registration) : Nat :=
  r.certificates.length + if r.nodeCertificate.isSome then 1 else 0

def toJson (r : Registration) : Json :=
  .ofFields [("node_id", .text r.node.toHex), ("metadata", r.metadata.toJson),
    ("registered_at", .text r.registeredAt.format),
    ("certificates", .array (r.certificates.map IssuedCertificate.toJson)),
    ("node_certificate", .ofOption IssuedCertificate.toJson r.nodeCertificate)]

def fields : List Json.Field :=
  [Json.field "node_id" Json.Decode.nodeId, Json.field "metadata" Metadata.decode,
    Json.field "registered_at" Json.Decode.moment,
    Json.field "certificates" (Json.Decode.list IssuedCertificate.decode),
    Json.defaultedField "node_certificate" (Json.Decode.nullable IssuedCertificate.decode)]

def decode : Json.Decoder Registration := fun v => do
  let values ← Json.Record.read fields v
  let node ← Json.Decode.nodeId (values "node_id")
  let metadata ← Metadata.decode (values "metadata")
  let registeredAt ← Json.Decode.moment (values "registered_at")
  let certificates ← Json.Decode.list IssuedCertificate.decode (values "certificates")
  let nodeCertificate ←
    Json.Decode.nullable IssuedCertificate.decode (values "node_certificate")
  return { node, metadata, registeredAt, certificates, nodeCertificate }

end Registration

/-! ## Snapshots -/

def snapshotJson (registrations : List Registration) : Json :=
  .ofFields [("registrations", .array (registrations.map Registration.toJson))]

/-- The bytes of a snapshot file. -/
def snapshotBytes (registrations : List Registration) : Bytes :=
  Utf8.encode (Json.writePretty 0 (snapshotJson registrations))

def decodeSnapshot : Json.Decoder (List Registration) := fun v => do
  let registrations := Json.Decode.list Registration.decode
  let values ← Json.Record.read [Json.field "registrations" registrations] v
  registrations (values "registrations")

end SigningGateway
