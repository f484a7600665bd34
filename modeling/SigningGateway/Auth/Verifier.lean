import SigningGateway.Error

/-!
# Checking signatures of nodes

A verifier decides whether a signature over a message was made with the key of a node.  The gateway
uses `Verifier.ed25519`, for which the node is its own public key.
-/

namespace SigningGateway

/-- Decides whether a signature over a message was made with the key of a node. -/
abbrev Verifier := NodeId → Bytes → Bytes → Except Error Unit

namespace Verifier

/-- Strict Ed25519 verification under the node as public key. -/
def ed25519 : Verifier := fun node message signature => do
  node.checkKey
  if signature.length ≠ 64 then
    throw (.authentication ("signature must be 64 bytes, got " ++ toString signature.length))
  else if Ed25519.verify node.bytes message signature then return ()
  else throw (.authentication "invalid signature")

end Verifier

end SigningGateway
