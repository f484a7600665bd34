import SigningGateway.Api.Body
import SigningGateway.Api.Http
import SigningGateway.Api.Route
import SigningGateway.Auth.Authenticator
import SigningGateway.Scheduler.Basic
import SigningGateway.Socket.Signer

/-!
# The gateway

The gateway answers HTTP requests.  Who wants a process, or a WebSocket, proves who it is with
three headers: a certificate, and the time and signature of the request.  The certificate must be
current and of the role that the route asks for; this is checked before the body is looked at.

A call that cannot be answered at once waits under a number of the scheduler.
-/

namespace SigningGateway

structure Gateway where
  auth : Authenticator
  scheduler : Scheduler
  relay : Relay

/-- What became of a request. -/
inductive Handled
  | replied (r : HttpReply)
  /-- The caller waits for a launch. -/
  | scheduling (call : Nat)
  /-- The caller waits for a process of the node to run. -/
  | locating (node : NodeId) (call : Nat)
  /-- The connection became the WebSocket of a node. -/
  | nodeSocket (s : NodeSocket)
  /-- The connection became the WebSocket of a signer. -/
  | signerSocket (s : SignerSocket)

namespace Gateway

/-! ## Callers -/

def certificateHeader : String := "x-device-cert"

def timestampHeader : String := "x-device-timestamp"

def signatureHeader : String := "x-device-signature"

/-- The refusal of a certificate of another role. -/
def wrongRole (presented required : Role) : Error :=
  .unauthenticated (presented.word ++ " certificate presented where a " ++ required.word ++
    " certificate is required")

/-- Who sent a request, if its headers prove it for the wanted role. -/
def callerOf (g : Gateway) (now : Moment) (role : Role) (r : HttpRequest) :
    Except Error AuthenticatedNode := do
  let certificate ← Certificate.ofHeader (← r.header certificateHeader)
  let timestamp ← r.header timestampHeader
  let proof ← RequestProof.ofHeaders timestamp (← r.header signatureHeader)
  let caller ← g.auth.store.authenticate now certificate r.method r.path proof
  if caller.role = role then return caller else throw (wrongRole caller.role role)

/-! ## Health -/

def version : String := "0.1.0"

def counts (fields : List (String × Nat)) : Json :=
  .ofFields (fields.map fun f => (f.1, .nat f.2))

/-- What the gateway holds, in numbers. -/
def health (g : Gateway) : Json :=
  let auth := g.auth.stats
  let scheduler := g.scheduler.stats
  let relay := g.relay.stats
  .ofFields [("status", .text "ok"), ("version", .text version),
    ("auth", counts [("live_challenges", auth.liveChallenges),
      ("consumed_challenges", auth.usedChallenges), ("identity_locks", auth.identityLocks)]),
    ("credentials", counts [("registered_nodes", g.auth.store.registeredNodes),
      ("issued_certificates", g.auth.store.issuedCertificates)]),
    ("scheduler", counts [("assignments", scheduler.assignments),
      ("launches_in_flight", scheduler.launchesInFlight),
      ("launches_started", scheduler.launchesStarted),
      ("launches_failed", scheduler.launchesFailed)]),
    ("relay", counts [("pending", relay.pending), ("queued", relay.queued),
      ("signers", relay.signers), ("node_streams", relay.nodeStreams),
      ("grants", relay.grants)])]

/-! ## Replies -/

def reply : Except Error Json → HttpReply
  | .ok body => .ok body
  | .error cause => .refusal cause

def locationReply (a : Assignment) : HttpReply := .ok (Location.ofAssignment a).toJson

def scheduleReply : Except Error Assignment → HttpReply
  | .ok a => locationReply a
  | .error cause => .refusal cause

def locateReply (node : NodeId) : Option Assignment → HttpReply
  | some a => locationReply a
  | none => .refusal (.notFound ("node " ++ node.toHex ++ " is not scheduled"))

/-! ## Calls -/

/-- The outcome of a call on the authenticator as that of a request. -/
def replyWith (g : Gateway) {α : Type} (toJson : α → Json)
    (result : (Except Error α × Authenticator) × Entropy) : (Handled × Gateway) × Entropy :=
  ((.replied (reply (result.1.1.map toJson)), { g with auth := result.1.2 }), result.2)

def challenge (g : Gateway) (now : Clock) (c : ChallengeCall) (e : Entropy) :
    (Handled × Gateway) × Entropy :=
  let ((value, auth), e) := g.auth.getChallenge now.steady c.node c.scope e
  g.replyWith (fun v => (ChallengeAnswer.mk v).toJson) ((.ok value, auth), e)

def register (g : Gateway) (now : Clock) (fault : Option WriteFault) (c : RegisterCall)
    (e : Entropy) : (Handled × Gateway) × Entropy :=
  g.replyWith Bundle.toJson
    (g.auth.register now fault c.node c.metadata c.challenge c.signature e)

def recover (g : Gateway) (now : Clock) (fault : Option WriteFault) (c : RecoverCall)
    (e : Entropy) : (Handled × Gateway) × Entropy :=
  g.replyWith Bundle.toJson (g.auth.recover now fault c.node c.challenge c.signature e)

/-- Has the process of a node run. -/
def schedule (g : Gateway) (caller : AuthenticatedNode) (c : ScheduleCall) : Handled × Gateway :=
  match g.scheduler.schedule caller.node c.node with
  | .error cause => (.replied (.refusal cause), g)
  | .ok (.running a, scheduler) => (.replied (locationReply a), { g with scheduler })
  | .ok (.joined call, scheduler) => (.scheduling call, { g with scheduler })

/-- Tells where the process of a node runs. -/
def locate (g : Gateway) (now : Clock) (caller : AuthenticatedNode) (c : LocateCall) :
    Handled × Gateway :=
  match g.scheduler.locate now.steady caller.node c.node c.wait with
  | .error cause => (.replied (.refusal cause), g)
  | .ok (.found a, scheduler) => (.replied (locateReply c.node a), { g with scheduler })
  | .ok (.waiting call, scheduler) => (.locating c.node call, { g with scheduler })

/-- Answers a request with a record in its body. -/
def withBody (g : Gateway) {α : Type} (r : HttpRequest) (d : Json.Decoder α) (e : Entropy)
    (call : α → (Handled × Gateway) × Entropy) : (Handled × Gateway) × Entropy :=
  match r.decodeBody d with
  | .ok a => call a
  | .error status => ((.replied (.bare status), g), e)

/-- Answers a request of a caller that proves who it is. -/
def withCaller (g : Gateway) (now : Moment) (role : Role) (r : HttpRequest) (e : Entropy)
    (call : AuthenticatedNode → (Handled × Gateway) × Entropy) : (Handled × Gateway) × Entropy :=
  match g.callerOf now role r with
  | .ok caller => call caller
  | .error cause => ((.replied (.refusal cause), g), e)

/-- Turns the connection of a caller into the WebSocket of a node. -/
def connectNode (g : Gateway) (r : HttpRequest) (caller : AuthenticatedNode) : Handled × Gateway :=
  match r.checkUpgrade with
  | .error status => (.replied (.bare status), g)
  | .ok () =>
    let (socket, relay) := NodeSocket.connect g.relay caller.node
    (.nodeSocket socket, { g with relay })

/-- Turns the connection of a caller into the WebSocket of a signer. -/
def connectSigner (g : Gateway) (r : HttpRequest) (caller : AuthenticatedNode) :
    Handled × Gateway :=
  match r.checkUpgrade with
  | .error status => (.replied (.bare status), g)
  | .ok () =>
    let (socket, relay) := SignerSocket.connect g.relay caller.node
    (.signerSocket socket, { g with relay })

def handleRoute (g : Gateway) (now : Clock) (fault : Option WriteFault) (r : HttpRequest)
    (e : Entropy) : Route → (Handled × Gateway) × Entropy
  | .health => ((.replied (.ok g.health), g), e)
  | .challenge => g.withBody r ChallengeCall.decode e fun c => g.challenge now c e
  | .register => g.withBody r RegisterCall.decode e fun c => g.register now fault c e
  | .recover => g.withBody r RecoverCall.decode e fun c => g.recover now fault c e
  | .schedule =>
    g.withCaller now.wall .device r e fun caller =>
      g.withBody r ScheduleCall.decode e fun c => (g.schedule caller c, e)
  | .locate =>
    g.withCaller now.wall .device r e fun caller =>
      g.withBody r LocateCall.decode e fun c => (g.locate now caller c, e)
  | .nodeSocket => g.withCaller now.wall .node r e fun caller => (g.connectNode r caller, e)
  | .signerSocket =>
    g.withCaller now.wall .device r e fun caller => (g.connectSigner r caller, e)

/-- What a caller that asked without the body gets to see. -/
def hideBody (r : HttpRequest) : Handled → Handled
  | .replied reply => .replied (if r.method = "HEAD" then .bare reply.status else reply)
  | handled => handled

def handle (g : Gateway) (now : Clock) (fault : Option WriteFault) (r : HttpRequest)
    (e : Entropy) : (Handled × Gateway) × Entropy :=
  match Route.find r.method r.path with
  | .error status => ((.replied (.bare status), g), e)
  | .ok route =>
    let ((handled, g), e) := g.handleRoute now fault r e route
    ((hideBody r handled, g), e)

end Gateway

end SigningGateway
