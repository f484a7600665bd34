import SigningGateway.Relay.Basic

/-!
# Runs of the relay

A run is a list of operations, applied one after the other to a relay and its clock.  Operations
may come in any order and name any stream, session or ticket; one that names nothing changes
nothing.  The requests that a run had accepted are read off it: each is what was submitted, under
the id that the relay gave it.

    run s (ops ++ more) = run (run s ops) more                       (run_append)
    accepted s (ops ++ more) = accepted s ops ++ accepted (run s ops) more    (accepted_append)
-/

namespace SigningGateway

/-- What is done to a relay from outside. -/
inductive RelayOp
  | openStream (node : NodeId)
  | closeStream (stream : Nat)
  | dropStream (stream : Nat)
  | submit (stream : Nat) (dbid capabilities : UInt64) (raw : Bytes)
  | grant (stream : Nat) (dbid capabilities : UInt64)
  | attach (node : NodeId)
  | take (session count : Nat)
  | respond (session : Nat) (response : Response)
  | detach (session : Nat)
  | poll (ticket : Nat)
  | abandon (ticket : Nat)
  | sweep
  | advance (duration : Nat)
  deriving DecidableEq

inductive RelayAnswer
  | done
  | opened (stream : Nat)
  | submitted (ticket : Nat) (id : UInt32)
  | refused (cause : Error)
  | attached (session : Nat)
  | taken (requests : List Request)
  /-- The outcome that a ticket reports; none while it is pending. -/
  | polled (outcome : Option Outcome)
  | swept (count : Nat)

/-- A request that the relay accepted, with what its entry in the table is made of. -/
structure Accepted where
  request : Request
  stream : Nat
  deadline : Nat
  ticket : Nat
  deriving DecidableEq

namespace Accepted

def id (q : Accepted) : UInt32 := q.request.id

def node (q : Accepted) : NodeId := q.request.context.node

end Accepted

/-- A relay with its clock. -/
structure ClockedRelay where
  relay : Relay
  now : Nat

namespace ClockedRelay

def start (settings : RelaySettings) (now : Nat) : ClockedRelay := ⟨.start settings, now⟩

def step (s : ClockedRelay) : RelayOp → RelayAnswer × ClockedRelay
  | .openStream node =>
    let (stream, relay) := s.relay.openStream node
    (.opened stream, { s with relay })
  | .closeStream stream => (.done, { s with relay := s.relay.closeStream stream })
  | .dropStream stream => (.done, { s with relay := s.relay.dropStream stream })
  | .submit stream dbid capabilities raw =>
    match s.relay.submit s.now stream dbid capabilities raw with
    | .ok ((ticket, id), relay) => (.submitted ticket id, { s with relay })
    | .error cause => (.refused cause, s)
  | .grant stream dbid capabilities =>
    match s.relay.grant stream dbid capabilities with
    | .ok relay => (.done, { s with relay })
    | .error cause => (.refused cause, s)
  | .attach node =>
    let (session, relay) := s.relay.attach node
    (.attached session, { s with relay })
  | .take session count =>
    let (requests, relay) := s.relay.take session count
    (.taken requests, { s with relay })
  | .respond session response =>
    match s.relay.respond session response with
    | .ok relay => (.done, { s with relay })
    | .error cause => (.refused cause, s)
  | .detach session => (.done, { s with relay := s.relay.detach session })
  | .poll ticket =>
    let (outcome, relay) := s.relay.poll s.now ticket
    (.polled outcome, { s with relay })
  | .abandon ticket => (.done, { s with relay := s.relay.abandon ticket })
  | .sweep =>
    let (count, relay) := s.relay.sweep s.now
    (.swept count, { s with relay })
  | .advance duration => (.done, { s with now := s.now + duration })

def run (s : ClockedRelay) (ops : List RelayOp) : ClockedRelay :=
  ops.foldl (fun s op => (s.step op).2) s

/-- The request that an operation submits, if it is accepted. -/
def accepts (s : ClockedRelay) : RelayOp → Option Accepted
  | .submit stream dbid capabilities raw =>
    match s.relay.streams.get? stream, s.relay.submit s.now stream dbid capabilities raw with
    | some opened, .ok ((ticket, id), _) =>
      some {
        request := ⟨id, ⟨opened.node, dbid, capabilities⟩, raw⟩
        stream
        deadline := s.now + s.relay.settings.requestTimeout
        ticket }
    | _, _ => none
  | _ => none

/-- The requests that a run had accepted, in the order of submission. -/
def accepted (s : ClockedRelay) : List RelayOp → List Accepted
  | [] => []
  | op :: ops => (s.accepts op).toList ++ accepted (s.step op).2 ops

/-- The operations of a run with their answers. -/
def log (s : ClockedRelay) : List RelayOp → List (RelayOp × RelayAnswer)
  | [] => []
  | op :: ops => (op, (s.step op).1) :: log (s.step op).2 ops

/-! ## Lemmas -/

@[simp] theorem run_nil (s : ClockedRelay) : s.run [] = s := rfl

@[simp] theorem run_cons (s : ClockedRelay) (op : RelayOp) (ops : List RelayOp) :
    s.run (op :: ops) = (s.step op).2.run ops := rfl

theorem run_append (s : ClockedRelay) (ops more : List RelayOp) :
    s.run (ops ++ more) = (s.run ops).run more := by
  simp [run]

theorem accepted_append (s : ClockedRelay) (ops more : List RelayOp) :
    s.accepted (ops ++ more) = s.accepted ops ++ (s.run ops).accepted more := by
  induction ops generalizing s with
  | nil => rfl
  | cons op ops ih => simp [accepted, ih]

theorem log_append (s : ClockedRelay) (ops more : List RelayOp) :
    s.log (ops ++ more) = s.log ops ++ (s.run ops).log more := by
  induction ops generalizing s with
  | nil => rfl
  | cons op ops ih => simp [log, ih]

/-- An operation that accepts a request is a submission on an open stream. -/
theorem accepts_eq_some (s : ClockedRelay) (op : RelayOp) (q : Accepted)
    (h : s.accepts op = some q) :
    ∃ opened, s.relay.streams.get? q.stream = some opened ∧ opened.closed = false ∧
      opened.node = q.node ∧ q.deadline = s.now + s.relay.settings.requestTimeout ∧
      ((q.ticket, q.id), (s.step op).2.relay) =
        s.relay.dispatch s.now q.stream q.request.context q.request.raw := by
  cases op with
  | submit stream dbid capabilities raw =>
    simp only [accepts] at h
    split at h
    · next opened ticket id relay hopened hsubmit =>
      simp only [Option.some.injEq] at h
      subst h
      have hsubmit' := hsubmit
      simp only [Relay.submit, hopened] at hsubmit
      split at hsubmit
      · cases hsubmit
      · next hclosed =>
        refine ⟨opened, hopened, by simpa using hclosed, rfl, rfl, ?_⟩
        cases hcheck : s.relay.grants.check opened.node dbid capabilities with
        | error cause => rw [hcheck] at hsubmit; cases hsubmit
        | ok caps =>
          rw [hcheck] at hsubmit
          simp only [step, hsubmit']
          exact (Except.ok.inj hsubmit).symm
    · cases h
  | _ => cases h

end ClockedRelay

end SigningGateway
