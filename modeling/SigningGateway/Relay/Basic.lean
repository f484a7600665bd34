import SigningGateway.Relay.Capability
import SigningGateway.Relay.Pending

/-!
# The relay

The relay carries the signing requests of a node to the signer sessions of that node and the first
answer back.  Every session of a node sees each request in the order of submission, and starts with
those still outstanding; requests without a session wait in the queue of their node.

Whoever submitted a request holds a ticket, on which the outcome is laid down until it is polled.
Streams, sessions and tickets are known by numbers.
-/

namespace SigningGateway

structure RelaySettings where
  /-- How long a signer may take to answer. -/
  requestTimeout : Nat := 60000
  /-- How often requests are checked for their deadline. -/
  sweepInterval : Nat := 1000

/-- The sessions of a node and its outstanding requests, in the order of submission.  Requests that
were resolved meanwhile are dropped late. -/
structure NodeQueue where
  signers : List Nat
  outstanding : List Request

/-- What a ticket knows of its request. -/
inductive TicketState
  | waiting
  | resolved (outcome : Outcome)
  /-- The request left the table without an outcome. -/
  | abandoned

/-- The right to the outcome of one request. -/
structure TicketEntry where
  id : UInt32
  deadline : Nat
  state : TicketState

/-- A signer session: the requests handed to it, and how many of them the signer has taken. -/
structure SignerSession where
  node : NodeId
  handed : List Request
  taken : Nat

structure NodeStream where
  node : NodeId
  closed : Bool

structure RelayStats where
  pending : Nat
  /-- The requests that wait for a signer session. -/
  queued : Nat
  signers : Nat
  nodeStreams : Nat
  grants : Nat
  deriving DecidableEq, Repr

/-- The state of the relay.  Streams and sessions are numbered by counters of 64 bits, which are
taken as numbers without a bound here: a relay that opens one stream in each nanosecond gets to the
end of them after 584 years. -/
structure Relay where
  settings : RelaySettings
  pending : PendingTable
  grants : Grants
  queues : Table NodeId NodeQueue
  streams : Table Nat NodeStream
  sessions : Table Nat SignerSession
  tickets : Table Nat TicketEntry
  nextStream : Nat
  nextSession : Nat
  nextTicket : Nat
  /-- Counts up with every stream that opens and down with every one that closes. -/
  openStreams : UInt64

namespace Relay

def start (settings : RelaySettings) : Relay :=
  ⟨settings, .empty, .empty, .empty, .empty, .empty, .empty, 1, 1, 1, 0⟩

/-! ## Parts of operations -/

/-- Lays the outcomes of requests down on their tickets. -/
def resolve (r : Relay) (resolutions : List Resolution) : Relay :=
  { r with
    tickets := resolutions.foldl (fun tickets res =>
      tickets.modify res.ticket fun t =>
        { t with
          state := match res.outcome with
            | some outcome => .resolved outcome
            | none => .abandoned }) r.tickets }

def queueOf (r : Relay) (node : NodeId) : NodeQueue := (r.queues.get? node).getD ⟨[], []⟩

/-- Hands a request to signer sessions. -/
def hand (r : Relay) (signers : List Nat) (request : Request) : Relay :=
  { r with
    sessions := r.sessions.map fun id s =>
      if id ∈ signers then { s with handed := s.handed ++ [request] } else s }

/-- Drops the requests that wait no longer. -/
def prune (pending : PendingTable) (outstanding : List Request) : List Request :=
  outstanding.filter fun request => pending.contains request.id

/-- Drops the requests in front that wait no longer. -/
def pruneFront (pending : PendingTable) (outstanding : List Request) : List Request :=
  outstanding.dropWhile fun request => !pending.contains request.id

/-- Notes that requests were given to a signer session. -/
def markAll (pending : PendingTable) (requests : List Request) : PendingTable :=
  requests.foldl (fun t request => t.markDelivered request.id) pending

/-! ## Node streams -/

def openStream (r : Relay) (node : NodeId) : Nat × Relay :=
  (r.nextStream,
    { r with
      grants := r.grants.openNode node
      streams := r.streams.set r.nextStream ⟨node, false⟩
      nextStream := r.nextStream + 1
      openStreams := r.openStreams + 1 })

/-- Closes a stream and fails its requests; a closed stream stays closed. -/
def closeStream (r : Relay) (stream : Nat) : Relay :=
  match r.streams.get? stream with
  | none => r
  | some s =>
    if s.closed then r
    else
      let (resolutions, pending) := r.pending.failStream stream
      let r := { r with
        pending
        streams := r.streams.set stream { s with closed := true }
        openStreams := r.openStreams - 1 }
      r.resolve resolutions

/-- Lets a stream go, closing it. -/
def dropStream (r : Relay) (stream : Nat) : Relay :=
  let r := r.closeStream stream
  { r with streams := r.streams.erase stream }

/-- Enters a request, hands it to the sessions of its node and puts it into the queue. -/
def dispatch (r : Relay) (now : Nat) (stream : Nat) (context : RequestContext)
    (raw : Bytes) : (Nat × UInt32) × Relay :=
  let ticket := r.nextTicket
  let deadline := now + r.settings.requestTimeout
  let queue := r.queueOf context.node
  let kept := pruneFront r.pending queue.outstanding
  let (id, pending) := r.pending.register context stream deadline ticket
  let request : Request := ⟨id, context, raw⟩
  let pending := if queue.signers.isEmpty then pending else pending.markDelivered id
  let r := { r with
    pending
    queues := r.queues.set context.node { queue with outstanding := kept ++ [request] }
    tickets := r.tickets.set ticket ⟨id, deadline, .waiting⟩
    nextTicket := ticket + 1 }
  ((ticket, id), r.hand queue.signers request)

/-- Submits a request on a stream, if the stream is open and the capabilities were granted. -/
def submit (r : Relay) (now : Nat) (stream : Nat) (dbid capabilities : UInt64)
    (raw : Bytes) : Except Error ((Nat × UInt32) × Relay) :=
  match r.streams.get? stream with
  | none => .error PendingTable.streamClosed
  | some s =>
    if s.closed then .error PendingTable.streamClosed
    else do
      let _ ← r.grants.check s.node dbid capabilities
      return r.dispatch now stream ⟨s.node, dbid, capabilities⟩ raw

/-- Grants capabilities to an id of the node of a stream. -/
def grant (r : Relay) (stream : Nat) (dbid capabilities : UInt64) : Except Error Relay :=
  match r.streams.get? stream with
  | none => .error PendingTable.streamClosed
  | some s => do
    let grants ← r.grants.grant s.node dbid capabilities
    return { r with grants }

/-! ## Tickets -/

/-- The outcome of a request that was let go. -/
def droppedRequest : Error := .connectionLost "relay dropped request"

/-- Looks at a ticket.  Once there is an outcome the ticket is used up; after its deadline a waiting
request ends here. -/
def poll (r : Relay) (now : Nat) (ticket : Nat) : Option Outcome × Relay :=
  match r.tickets.get? ticket with
  | none => (none, r)
  | some t =>
    let used := { r with tickets := r.tickets.erase ticket }
    match t.state with
    | .resolved outcome => (some outcome, used)
    | .abandoned => (some (.error droppedRequest), used)
    | .waiting =>
      if t.deadline ≤ now then
        let (resolution, pending) := r.pending.expire t.id
        (some (.error (.requestTimeout t.id)),
          { used with pending }.resolve resolution.toList)
      else (none, r)

/-- Gives a ticket up before its outcome was seen; its id is taken out of the table. -/
def abandon (r : Relay) (ticket : Nat) : Relay :=
  match r.tickets.get? ticket with
  | none => r
  | some t =>
    let (resolution, pending) := r.pending.cancel t.id
    { r with pending, tickets := r.tickets.erase ticket }.resolve resolution.toList

/-! ## Signer sessions -/

/-- Attaches a signer session, which is handed all requests of its node that still wait. -/
def attach (r : Relay) (node : NodeId) : Nat × Relay :=
  let queue := r.queueOf node
  let outstanding := prune r.pending queue.outstanding
  (r.nextSession,
    { r with
      pending := markAll r.pending outstanding
      queues := r.queues.set node ⟨queue.signers ++ [r.nextSession], outstanding⟩
      sessions := r.sessions.set r.nextSession ⟨node, outstanding, 0⟩
      nextSession := r.nextSession + 1 })

/-- Ends a signer session.  With the last one of a node the requests given to it fail. -/
def detach (r : Relay) (session : Nat) : Relay :=
  match r.sessions.get? session with
  | none => r
  | some s =>
    let r := { r with sessions := r.sessions.erase session }
    match r.queues.get? s.node with
    | none => r
    | some queue =>
      let signers := queue.signers.filter (· ≠ session)
      let r := { r with queues := r.queues.set s.node { queue with signers } }
      if signers.isEmpty then
        let (resolutions, pending) := r.pending.failDelivered s.node
        { r with pending }.resolve resolutions
      else r

/-- Takes the next requests handed to a session, at most `count`. -/
def take (r : Relay) (session : Nat) (count : Nat) : List Request × Relay :=
  match r.sessions.get? session with
  | none => ([], r)
  | some s =>
    let requests := (s.handed.drop s.taken).take count
    (requests,
      { r with sessions := r.sessions.set session { s with taken := s.taken + requests.length } })

/-- Takes the answer of a session to a request of its node that waits. -/
def respond (r : Relay) (session : Nat) (response : Response) : Except Error Relay :=
  match r.sessions.get? session with
  | none => .error (.duplicateResponse response.id)
  | some s => do
    let (resolution, pending) ← r.pending.complete s.node response.id response.raw
    return { r with pending }.resolve resolution.toList

/-! ## Housekeeping -/

/-- Ends the requests whose deadline has come and drops queues without sessions and requests. -/
def sweep (r : Relay) (now : Nat) : Nat × Relay :=
  let (resolutions, pending) := r.pending.sweep now
  let queues := (r.queues.map fun _ q => { q with outstanding := prune pending q.outstanding }).filter
    fun _ q => !q.signers.isEmpty || !q.outstanding.isEmpty
  (resolutions.length, { r with pending, queues }.resolve resolutions)

/-- The requests of a queue that wait for a signer session. -/
def queuedIn (pending : PendingTable) (queue : NodeQueue) : Nat :=
  (queue.outstanding.filter fun request => pending.awaitsDelivery request.id).length

def stats (r : Relay) : RelayStats where
  pending := r.pending.size
  queued := r.queues.total (queuedIn r.pending)
  signers := r.queues.total fun q => q.signers.length
  nodeStreams := r.openStreams.toNat
  grants := r.grants.size

end Relay

end SigningGateway
