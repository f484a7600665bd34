import SigningGateway.Relay.Frame
import SigningGateway.Table
import SigningGateway.Time.Clock

/-!
# Pending requests

Every request that waits for its answer has one entry under its id.  Entries leave the table
through an answer, their deadline, the loss of their stream or signers, or the end of the waiting;
each operation that removes entries tells which callers it lets go, and with which outcome.
Streams and callers are known by numbers; the number of a caller is its ticket.
-/

namespace SigningGateway

/-- What a request ended with. -/
abbrev Outcome := Except Error Bytes

/-- A request that waits for its answer. -/
structure PendingEntry where
  context : RequestContext
  stream : Nat
  deadline : Nat
  /-- Whether a signer session was given the request. -/
  delivered : Bool
  ticket : Nat

/-- The end of the waiting of a caller; without an outcome the caller is just let go. -/
structure Resolution where
  ticket : Nat
  id : UInt32
  outcome : Option Outcome

/-- The requests that wait, by id, and the id to try next. -/
structure PendingTable where
  entries : Table UInt32 PendingEntry
  nextId : UInt32

namespace PendingTable

/-- No requests; ids are counted from one. -/
def empty : PendingTable := ⟨.empty, 1⟩

def contains (t : PendingTable) (id : UInt32) : Bool := t.entries.contains id

def size (t : PendingTable) : Nat := t.entries.size

/-- The first id from `id` on, counted modulo `2 ^ 32`, that is not in use, among `fuel` ids. -/
def freeIdFrom (t : PendingTable) : Nat → UInt32 → UInt32
  | 0, id => id
  | fuel + 1, id => if t.contains id then freeIdFrom t fuel (id + 1) else id

/-- The id of the next request.  Among one more id than there are requests one is free. -/
def freeId (t : PendingTable) : UInt32 := t.freeIdFrom (t.size + 1) t.nextId

/-- Enters a request under the next free id. -/
def register (t : PendingTable) (context : RequestContext) (stream : Nat)
    (deadline : Nat) (ticket : Nat) : UInt32 × PendingTable :=
  let id := t.freeId
  (id, ⟨t.entries.set id ⟨context, stream, deadline, false, ticket⟩, id + 1⟩)

/-- Notes that a signer session was given the request. -/
def markDelivered (t : PendingTable) (id : UInt32) : PendingTable :=
  { t with entries := t.entries.modify id fun e => { e with delivered := true } }

/-- Whether the request waits and no signer session was given it. -/
def awaitsDelivery (t : PendingTable) (id : UInt32) : Bool :=
  match t.entries.get? id with
  | some e => !e.delivered
  | none => false

/-- Removes an entry and lets its caller go. -/
def remove (t : PendingTable) (id : UInt32) (outcome : Option Outcome) :
    Option Resolution × PendingTable :=
  match t.entries.get? id with
  | some e => (some ⟨e.ticket, id, outcome⟩, { t with entries := t.entries.erase id })
  | none => (none, t)

/-- Removes all entries that pass a test and lets their callers go. -/
def removeWhere (t : PendingTable) (p : PendingEntry → Bool) (outcome : UInt32 → Outcome) :
    List Resolution × PendingTable :=
  (t.entries.entries.filterMap fun (id, e) =>
      if p e then some ⟨e.ticket, id, some (outcome id)⟩ else none,
    { t with entries := t.entries.filter fun _ e => !p e })

/-- Ends a request with the answer of a signer session of its node. -/
def complete (t : PendingTable) (node : NodeId) (id : UInt32) (raw : Bytes) :
    Except Error (Option Resolution × PendingTable) :=
  match t.entries.get? id with
  | some e =>
    if e.context.node = node then .ok (t.remove id (some (.ok raw)))
    else .error (.duplicateResponse id)
  | none => .error (.duplicateResponse id)

/-- Ends a request whose time is over. -/
def expire (t : PendingTable) (id : UInt32) : Option Resolution × PendingTable :=
  t.remove id (some (.error (.requestTimeout id)))

/-- Removes the entry of a caller that waits no longer. -/
def cancel (t : PendingTable) (id : UInt32) : Option Resolution × PendingTable := t.remove id none

/-- The end of a request whose stream closed. -/
def streamClosed : Error := .connectionLost "node stream closed"

/-- The end of a request whose last signer session ended. -/
def sessionEnded : Error := .connectionLost "signer session ended"

def failStream (t : PendingTable) (stream : Nat) : List Resolution × PendingTable :=
  t.removeWhere (fun e => e.stream = stream) fun _ => .error streamClosed

/-- Fails every request of a node that a signer session was given. -/
def failDelivered (t : PendingTable) (node : NodeId) : List Resolution × PendingTable :=
  t.removeWhere (fun e => e.delivered && e.context.node = node) fun _ => .error sessionEnded

/-- Ends every request whose deadline has come. -/
def sweep (t : PendingTable) (now : Nat) : List Resolution × PendingTable :=
  t.removeWhere (fun e => e.deadline ≤ now) fun id => .error (.requestTimeout id)

end PendingTable

end SigningGateway
