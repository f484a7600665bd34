import SigningGateway.Relay.Basic

/-!
# The WebSocket of a node process

A node sends request and grant frames.  Every request frame is answered by one frame with its tag:
the answer of a signer, or an error.  A grant frame is answered only if it is refused, and so is a
message that is no frame; these errors carry no tag.
-/

namespace SigningGateway

inductive SocketMessage
  | text (s : String)
  | binary (bytes : Bytes)
  /-- A ping or pong. -/
  | control

namespace SocketMessage

/-- Reads the frame in a message; control messages hold none. -/
def decode {α : Type} (d : Json.Decoder α) : SocketMessage → Option (Except Json.DecodeError α)
  | text s => some (Json.decodeText d s)
  | binary bytes => some (Json.decodeBytes d bytes)
  | control => none

end SocketMessage

def Error.invalidFrame (cause : Json.DecodeError) : Error :=
  .badRequest ("invalid frame: " ++ cause.message)

/-- A request frame that waits for its answer. -/
structure AwaitedAnswer where
  tag : UInt64
  id : UInt32
  ticket : Nat

/-- The WebSocket of a node: its stream in the relay and the frames that wait for an answer. -/
structure NodeSocket where
  stream : Nat
  awaited : List AwaitedAnswer

namespace NodeSocket

def connect (relay : Relay) (node : NodeId) : NodeSocket × Relay :=
  let (stream, relay) := relay.openStream node
  (⟨stream, []⟩, relay)

/-- Acts on a frame; the frames are sent back at once. -/
def receiveFrame (s : NodeSocket) (relay : Relay) (now : Nat) :
    NodeFrame → List RelayFrame × NodeSocket × Relay
  | .request tag dbid capabilities raw =>
    match relay.submit now s.stream dbid capabilities raw with
    | .ok ((ticket, id), relay) =>
      ([], { s with awaited := s.awaited ++ [⟨tag, id, ticket⟩] }, relay)
    | .error cause => ([.ofError (some tag) cause], s, relay)
  | .grant dbid capabilities =>
    match relay.grant s.stream dbid capabilities with
    | .ok relay => ([], s, relay)
    | .error cause => ([.ofError none cause], s, relay)

def receive (s : NodeSocket) (relay : Relay) (now : Nat) (m : SocketMessage) :
    List RelayFrame × NodeSocket × Relay :=
  match m.decode NodeFrame.decode with
  | none => ([], s, relay)
  | some (.ok frame) => s.receiveFrame relay now frame
  | some (.error cause) => ([.ofError none (.invalidFrame cause)], s, relay)

def answerFrame (a : AwaitedAnswer) : Outcome → RelayFrame
  | .ok raw => .response a.tag a.id raw
  | .error cause => .ofError (some a.tag) cause

/-- Polls tickets: the frames for the outcomes, and the requests that still wait. -/
def collectFrom (relay : Relay) (now : Nat) :
    List AwaitedAnswer → List RelayFrame × List AwaitedAnswer × Relay
  | [] => ([], [], relay)
  | a :: rest =>
    match relay.poll now a.ticket with
    | (some outcome, relay) =>
      let (frames, awaited, relay) := collectFrom relay now rest
      (answerFrame a outcome :: frames, awaited, relay)
    | (none, relay) =>
      let (frames, awaited, relay) := collectFrom relay now rest
      (frames, a :: awaited, relay)

/-- The frames for the requests that ended since the last time. -/
def collect (s : NodeSocket) (relay : Relay) (now : Nat) :
    List RelayFrame × NodeSocket × Relay :=
  let (frames, awaited, relay) := collectFrom relay now s.awaited
  (frames, { s with awaited }, relay)

/-- Closes the stream; the requests that still wait end with it, and their frames are the last. -/
def close (s : NodeSocket) (relay : Relay) (now : Nat) : List RelayFrame × Relay :=
  let (frames, _, relay) := s.collect (relay.closeStream s.stream) now
  (frames, relay.dropStream s.stream)

end NodeSocket

end SigningGateway
