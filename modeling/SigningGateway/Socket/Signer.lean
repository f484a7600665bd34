import SigningGateway.Socket.Node

/-!
# The WebSocket of a signer

A signer is sent every request of its node and sends back responses.  A response to a request that
does not wait is passed over, and so is any message that is no response.
-/

namespace SigningGateway

/-- The WebSocket of a signer: its session in the relay. -/
structure SignerSocket where
  session : Nat

namespace SignerSocket

def connect (relay : Relay) (node : NodeId) : SignerSocket × Relay :=
  let (session, relay) := relay.attach node
  (⟨session⟩, relay)

def receive (s : SignerSocket) (relay : Relay) (m : SocketMessage) : Relay :=
  match m.decode SignerFrame.decode with
  | some (.ok (.response response)) =>
    match relay.respond s.session response with
    | .ok relay => relay
    | .error _ => relay
  | _ => relay

/-- The number of requests that the session can take. -/
def ready (s : SignerSocket) (relay : Relay) : Nat :=
  match relay.sessions.get? s.session with
  | some session => session.handed.length - session.taken
  | none => 0

def collect (s : SignerSocket) (relay : Relay) : List SignerFrame × Relay :=
  let (requests, relay) := relay.take s.session (s.ready relay)
  (requests.map .request, relay)

def close (s : SignerSocket) (relay : Relay) : Relay := relay.detach s.session

end SignerSocket

end SigningGateway
