import SigningGateway.Operation.Basic

/-!
# Requests and WebSockets of a gateway in operation

A request is answered at once, waits as a call, or becomes a WebSocket.  A WebSocket ends in one of
three ways, which differ in what the other end is still sent.
-/

namespace SigningGateway

/-- What a client sees of its request. -/
inductive Answer
  | replied (r : HttpReply)
  | waiting (call : Nat)
  | connected (socket : Nat)

inductive Ending
  /-- The other end closed it; it is sent nothing but the close in return. -/
  | closed
  /-- The other end broke the protocol; it is sent the last frames and a close. -/
  | broken
  /-- The other end is gone. -/
  | gone
  deriving DecidableEq, Repr

namespace Operation

/-! ## Requests -/

def connect (o : Operation) (s : Socket) : Answer × Operation :=
  (.connected o.next, { o with sockets := o.sockets.set o.next s, next := o.next + 1 })

def handle (o : Operation) (r : HttpRequest) : Handled × Operation :=
  let ((handled, gateway), entropy) := o.gateway.handle o.clock none r o.entropy
  let scheduler := gateway.scheduler
  (handled,
    { o with entropy, gateway := { gateway with scheduler := o.scheduler } }.adopt scheduler)

/-- The answer to a call that has settled. -/
def answerOf (o : Operation) (n : Nat) : Answer × Operation :=
  match o.ended.find? fun e => e.1 = n with
  | some e => (.replied e.2.reply, { o with ended := o.ended.filter fun e => e.1 ≠ n })
  | none => (.waiting n, o)

/-- Answers a request, as far as it can be answered before time goes on. -/
def request (o : Operation) (r : HttpRequest) : Answer × Operation :=
  match o.handle r with
  | (.replied reply, o) => (.replied reply, o.settle)
  | (.nodeSocket s, o) =>
    let (answer, o) := o.connect (.node s)
    (answer, o.settle)
  | (.signerSocket s, o) =>
    let (answer, o) := o.connect (.signer s)
    (answer, o.settle)
  | (.scheduling ticket, o) =>
    { o with next := o.next + 1 }.awaitLaunch o.next ticket |>.settle.answerOf o.next
  | (.locating node ticket, o) =>
    { o with next := o.next + 1 }.awaitProcess o.next node ticket |>.settle.answerOf o.next

/-! ## Messages -/

def deliver (o : Operation) (n : Nat) (ds : List Delivery) : Operation :=
  { o with delivered := o.delivered ++ ds.map fun d => (n, d) }

def receive (o : Operation) (n : Nat) (m : SocketMessage) : Operation :=
  match o.sockets.get? n with
  | none => o
  | some (.node s) =>
    let (frames, s, relay) := s.receive o.gateway.relay o.now m
    { o with
      gateway := { o.gateway with relay }
      sockets := o.sockets.modify n fun _ => .node s }.deliver n (frames.map .toNode)
  | some (.signer s) =>
    { o with gateway := { o.gateway with relay := s.receive o.gateway.relay m } }

/-- What the other end is sent last. -/
def lastDeliveries (frames : List RelayFrame) : Ending → List Delivery
  | .closed => [.close]
  | .broken => frames.map .toNode ++ [.close]
  | .gone => []

def disconnect (o : Operation) (n : Nat) (ending : Ending) : Operation :=
  match o.sockets.get? n with
  | none => o
  | some (.node s) =>
    let (frames, relay) := s.close o.gateway.relay o.now
    { o with
      gateway := { o.gateway with relay }
      sockets := o.sockets.erase n }.deliver n (lastDeliveries frames ending)
  | some (.signer s) =>
    { o with
      gateway := { o.gateway with relay := s.close o.gateway.relay }
      sockets := o.sockets.erase n }.deliver n (lastDeliveries [] ending)

end Operation

end SigningGateway
