import SigningGateway.Auth.Certificate
import SigningGateway.Entropy
import SigningGateway.Time.Clock

/-!
# Issuing certificates

The issuer holds an Ed25519 key.  It mints a key pair and a certificate for a node, and checks that
a certificate carries its signature.
-/

namespace SigningGateway

/-! ## Credential bundles -/

/-- What a device or a node process is given: its certificate and its secret key. -/
structure Bundle where
  certificate : Bytes
  key : Bytes
  deriving DecidableEq

namespace Bundle

def toJson (b : Bundle) : Json :=
  .ofFields [("device_cert", .text (Hex.encode b.certificate)),
    ("device_key", .text (Hex.encode b.key))]

def fields : List Json.Field :=
  [Json.field "device_cert" Json.Decode.hexBytes, Json.field "device_key" Json.Decode.hexBytes]

def decode : Json.Decoder Bundle := fun v => do
  let values ← Json.Record.read fields v
  let certificate ← Json.Decode.hexBytes (values "device_cert")
  let key ← Json.Decode.hexBytes (values "device_key")
  return { certificate, key }

def isEmpty (b : Bundle) : Bool := b.certificate.isEmpty || b.key.isEmpty

/-- The form for logs, which hides the key. -/
def redacted (b : Bundle) : String :=
  "CredentialBundle \x7b device_cert_len: " ++ toString b.certificate.length ++
    ", device_key: \"<redacted>\" \x7d"

/-- The proof of a request with the key of the bundle. -/
def signRequest (b : Bundle) (method path : String) (timestamp : Int64) :
    Except Error RequestProof :=
  if b.key.length = 32 then
    .ok ⟨timestamp, Ed25519.sign b.key (Message.request timestamp method path)⟩
  else .error (.internal ("device key must be 32 bytes, got " ++ toString b.key.length))

end Bundle

/-! ## The issuer -/

/-- An issuer with the 32-byte seed of its key. -/
structure Issuer where
  seed : Bytes
  deriving DecidableEq

namespace Issuer

/-- The issuer whose seed is written in hexadecimal digits, with blanks around them. -/
def ofHexSeed (text : String) : Except Error Issuer :=
  match Hex.decode (String.ofList (Text.trim text.toList)) with
  | .error cause => .error (.config ("invalid issuer key: " ++ cause.message))
  | .ok seed =>
    if seed.length = 32 then .ok ⟨seed⟩
    else .error (.config ("issuer key must be 32 bytes, got " ++ toString seed.length))

/-- What reading a file that does not exist gives. -/
def noSuchFile : String := "No such file or directory (os error 2)"

/-- The issuer whose seed is written in a file; `contents` is what reading the file gave. -/
def ofFile (path : String) (contents : Except String Bytes) : Except Error Issuer :=
  let unreadable (reason : String) : Error :=
    .config ("cannot read issuer key " ++ path ++ ": " ++ reason)
  match contents with
  | .error reason => .error (unreadable reason)
  | .ok bytes =>
    match Utf8.decode? bytes with
    | none => .error (unreadable "stream did not contain valid UTF-8")
    | some cs => ofHexSeed (String.ofList cs)

def generate (e : Entropy) : Issuer × Entropy :=
  let (seed, e) := e.draw 32
  (⟨seed⟩, e)

def publicKey (i : Issuer) : Bytes := Ed25519.publicKey i.seed

/-- The public key in hexadecimal digits, by which certificates name their issuer. -/
def name (i : Issuer) : String := Hex.encode i.publicKey

def sign (i : Issuer) (body : CertificateBody) : Certificate :=
  ⟨body, Ed25519.sign i.seed body.signedBytes⟩

/-- A serial number of random bytes in the form of a unique identifier. -/
def serialOf (random : Bytes) : String := (Uuid.ofRandom random).format

/-- Mints a key pair and a certificate for a node.  The key is drawn before the serial number. -/
def issue (i : Issuer) (node : NodeId) (role : Role) (name : String) (now : Moment)
    (e : Entropy) : (Certificate × Bundle) × Entropy :=
  let (key, e) := e.draw 32
  let (serial, e) := e.draw 16
  let certificate := i.sign
    { serial := serialOf serial, node, publicKey := Ed25519.publicKey key, role, name,
      issuedAt := now, issuer := i.name }
  ((certificate, ⟨certificate.toBytes, key⟩), e)

/-- Checks that a certificate was signed by this issuer. -/
def check (i : Issuer) (c : Certificate) : Except Error Unit :=
  if c.body.issuer ≠ i.name then
    .error (.unauthenticated "certificate was issued by another authority")
  else if c.signature.length ≠ 64 then
    .error (.unauthenticated "certificate signature has wrong length")
  else if Ed25519.verify i.publicKey c.body.signedBytes c.signature then .ok ()
  else .error (.unauthenticated "certificate signature invalid")

end Issuer

end SigningGateway
