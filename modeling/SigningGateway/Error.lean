import SigningGateway.NodeId

/-!
# The errors of the gateway

Every refusal is one of thirteen kinds.  `Error.kind` is its stable name, `Error.message` its
wording and `Error.status` the status of the HTTP answer that carries it.
-/

namespace SigningGateway

/-- Why the gateway refuses. -/
inductive Error
  /-- A challenge is missing, expired or different, or a signature is invalid. -/
  | authentication (reason : String)
  /-- The presented challenge was used before. -/
  | replay
  /-- The node was never registered. -/
  | unknownIdentity (node : NodeId)
  /-- The caller holds no valid credential for what it asks. -/
  | unauthenticated (reason : String)
  /-- The process of a node failed or did not come up in time. -/
  | scheduling (reason : String)
  /-- No signer answered before the deadline. -/
  | requestTimeout (id : UInt32)
  /-- The stream or session that the request needs ended. -/
  | connectionLost (reason : String)
  /-- An answer to a request that is not pending. -/
  | duplicateResponse (id : UInt32)
  /-- More capabilities are asked for than were granted. -/
  | capabilityViolation (dbid requested granted : UInt64)
  | badRequest (reason : String)
  | notFound (reason : String)
  | config (reason : String)
  | internal (reason : String)
  deriving DecidableEq

namespace Error

/-- The stable name of the kind of error. -/
def kind : Error → String
  | .authentication _ => "authentication"
  | .replay => "replay"
  | .unknownIdentity _ => "unknown_identity"
  | .unauthenticated _ => "unauthenticated"
  | .scheduling _ => "scheduling"
  | .requestTimeout _ => "request_timeout"
  | .connectionLost _ => "connection_lost"
  | .duplicateResponse _ => "duplicate_response"
  | .capabilityViolation .. => "capability_violation"
  | .badRequest _ => "bad_request"
  | .notFound _ => "not_found"
  | .config _ => "config"
  | .internal _ => "internal"

/-- A number as hexadecimal digits after `0x`. -/
def hexNumber (n : UInt64) : String := "0x" ++ Text.hexDigits n.toNat

def message : Error → String
  | .authentication reason => "Authentication failed: " ++ reason
  | .replay => "Challenge has already been used"
  | .unknownIdentity node => "Unknown identity: " ++ node.toHex
  | .unauthenticated reason => "Unauthenticated: " ++ reason
  | .scheduling reason => "Scheduling failed: " ++ reason
  | .requestTimeout id => "Request " ++ toString id.toNat ++ " timed out waiting for the signer"
  | .connectionLost reason => "Connection lost: " ++ reason
  | .duplicateResponse id => "Duplicate or unknown response for request " ++ toString id.toNat
  | .capabilityViolation dbid requested granted =>
    "Capability violation for dbid " ++ toString dbid.toNat ++ ": requested " ++
      hexNumber requested ++ ", granted " ++ hexNumber granted
  | .badRequest reason => "Bad request: " ++ reason
  | .notFound reason => "Not found: " ++ reason
  | .config reason => "Configuration error: " ++ reason
  | .internal reason => "Internal error: " ++ reason

def status : Error → Nat
  | .authentication _ => 401
  | .replay => 401
  | .unknownIdentity _ => 404
  | .unauthenticated _ => 401
  | .scheduling _ => 503
  | .requestTimeout _ => 504
  | .connectionLost _ => 502
  | .duplicateResponse _ => 409
  | .capabilityViolation .. => 403
  | .badRequest _ => 400
  | .notFound _ => 404
  | .config _ => 500
  | .internal _ => 500

def ofHex (cause : Hex.Error) : Error := .badRequest ("Hex error: " ++ cause.message)

def ofNodeId (cause : NodeId.ParseError) : Error := .badRequest cause.message

end Error

/-- The text of the refusal of a node identity that is no public key. -/
def NodeId.invalidKeyReason : String :=
  "node id is not a valid public key: signature error: Cannot decompress Edwards point"

def NodeId.checkKey (n : NodeId) : Except Error Unit :=
  if n.isPublicKey then .ok () else .error (.authentication invalidKeyReason)

end SigningGateway
