import SigningGateway.Auth.Authenticator

/-!
# Runs of the authenticator

A run is a list of operations on an authenticator.  A call to register or to recover is two of them:
it begins when it gets the lock of its node, and it ends when its write to the store ends.  What
happens in between may be anything, but whatever else wants the lock of the node waits.

A run keeps a record of the challenges handed out and of the calls that were granted.

    run s [call, finish] = finish (prepare s call)                               (run_call)
-/

namespace SigningGateway

/-! ## Calls -/

inductive Call
  | register (metadata : Metadata)
  | recover
  deriving DecidableEq

namespace Call

def scope : Call → Scope
  | .register _ => .register
  | .recover => .recover

/-- What a call tells about its node. -/
def metadata : Call → Option Metadata
  | .register metadata => some metadata
  | .recover => none

/-- The message whose signature a call has to present. -/
def message (node : NodeId) (challenge : Bytes) : Call → Bytes
  | .register metadata => Message.registration challenge metadata
  | .recover => Message.recovery challenge node

/-- The name of the holder of the certificate that is minted. -/
def name (challenge : Bytes) : Call → String
  | .register _ => "device"
  | .recover => Authenticator.recoveredName challenge

end Call

/-- A call that waits for its write to the store. -/
structure OpenCall where
  call : Call
  challenge : Bytes
  admission : Admission

/-- A challenge that was handed out, and when. -/
structure Issue where
  node : NodeId
  scope : Scope
  value : Bytes
  time : Nat

/-- A call that was granted, with the challenge that it presented. -/
structure Grant where
  node : NodeId
  scope : Scope
  challenge : Bytes

/-- The latest challenge handed out to a node for a scope. -/
def latest (issues : List Issue) (node : NodeId) (scope : Scope) : Option Issue :=
  (issues.filter fun i => i.node = node && i.scope = scope).getLast?

/-- Whether a challenge was used up by a call. -/
def spent (grants : List Grant) (challenge : Bytes) : Prop := ∃ g ∈ grants, g.challenge = challenge

/-- The bytes of one draw. -/
structure Block where
  bytes : Bytes
  length_bytes : bytes.length = challengeSize

/-! ## Runs -/

/-- What is done to an authenticator from outside. -/
inductive AuthOp
  | getChallenge (node : NodeId) (scope : Scope)
  | call (node : NodeId) (call : Call) (challenge signature : Bytes)
  /-- The end of the write of the call of a node, which may fail. -/
  | finish (node : NodeId) (fault : Option WriteFault)
  | cleanup
  | advance (duration : Nat)

def AuthOp.isCleanup : AuthOp → Bool
  | .cleanup => true
  | _ => false

inductive AuthAnswer
  | done
  /-- A call of the node is under way. -/
  | busy
  | issued (value : Bytes)
  | admitted
  | refused (cause : Error)
  | granted (bundle : Bundle)

/-- The credentials that an answer grants. -/
def AuthAnswer.bundle? : AuthAnswer → Option Bundle
  | .granted bundle => some bundle
  | _ => none

/-- An authenticator with its clocks and its source of random bytes, the calls under way, and the
record of what was handed out and granted. -/
structure AuthRun where
  auth : Authenticator
  clock : Clock
  entropy : Entropy
  calls : Table NodeId OpenCall
  issues : List Issue
  grants : List Grant

namespace AuthRun

def start (settings : AuthSettings) (store : Store) (verifier : Verifier) (clock : Clock)
    (blocks : Nat → Block) : AuthRun :=
  ⟨.start settings store verifier, clock, ⟨fun i => (blocks i).bytes, 0⟩, .empty, [], []⟩

/-- Checks a call of a node that holds its lock. -/
def prepare (s : AuthRun) (node : NodeId) (call : Call) (challenge signature : Bytes) :
    (Except Error Admission × Authenticator) × Entropy :=
  match call with
  | .register metadata =>
    s.auth.prepareRegister s.clock node metadata challenge signature s.entropy
  | .recover => s.auth.prepareRecover s.clock node challenge signature s.entropy

/-- Hands out a challenge. -/
def issue (s : AuthRun) (node : NodeId) (scope : Scope) : AuthAnswer × AuthRun :=
  let ((value, auth), entropy) := s.auth.getChallenge s.clock.steady node scope s.entropy
  (.issued value,
    { s with auth, entropy, issues := s.issues ++ [⟨node, scope, value, s.clock.steady⟩] })

def enter (s : AuthRun) (node : NodeId) (call : Call) (challenge signature : Bytes) :
    AuthAnswer × AuthRun :=
  match s.prepare node call challenge signature with
  | ((.error cause, auth), entropy) => (.refused cause, { s with auth, entropy })
  | ((.ok admission, auth), entropy) =>
    (.admitted,
      { s with auth, entropy, calls := s.calls.set node ⟨call, challenge, admission⟩ })

def finish (s : AuthRun) (node : NodeId) (o : OpenCall) (fault : Option WriteFault) :
    AuthAnswer × AuthRun :=
  match s.auth.complete s.clock fault o.admission with
  | (.error cause, auth) => (.refused cause, { s with auth, calls := s.calls.erase node })
  | (.ok bundle, auth) =>
    (.granted bundle,
      { s with
        auth
        calls := s.calls.erase node
        grants := s.grants ++ [⟨node, o.call.scope, o.challenge⟩] })

def step (s : AuthRun) : AuthOp → AuthAnswer × AuthRun
  | .getChallenge node scope =>
    if s.calls.contains node then (.busy, s) else s.issue node scope
  | .call node call challenge signature =>
    if s.calls.contains node then (.busy, s) else s.enter node call challenge signature
  | .finish node fault =>
    match s.calls.get? node with
    | some o => s.finish node o fault
    | none => (.done, s)
  | .cleanup => (.done, { s with auth := s.auth.cleanup s.clock.steady })
  | .advance duration => (.done, { s with clock := s.clock.advance duration })

def run (s : AuthRun) (ops : List AuthOp) : AuthRun := ops.foldl (fun s op => (s.step op).2) s

/-- What each operation of a run other than a cleanup grants. -/
def successes (s : AuthRun) : List AuthOp → List (Option Bundle)
  | [] => []
  | .cleanup :: ops => successes (s.step .cleanup).2 ops
  | op :: ops => (s.step op).1.bundle? :: successes (s.step op).2 ops

/-! ## Lemmas -/

@[simp] theorem run_nil (s : AuthRun) : s.run [] = s := rfl

@[simp] theorem run_cons (s : AuthRun) (op : AuthOp) (ops : List AuthOp) :
    s.run (op :: ops) = (s.step op).2.run ops := rfl

/-- A call that is recorded is granted, and uses its challenge up. -/
theorem finish_of_ok (s : AuthRun) (node : NodeId) (o : OpenCall) (fault : Option WriteFault)
    (store : Store) (hrecord : s.auth.record fault s.clock.wall o.admission = .ok store) :
    s.finish node o fault =
      (.granted o.admission.bundle,
        { s with
          auth := ({ s.auth.lock o.admission.node false with store } : Authenticator).useChallenge
            s.clock.steady o.admission.node o.admission.scope
          calls := s.calls.erase node
          grants := s.grants ++ [⟨node, o.call.scope, o.challenge⟩] }) := by
  have hlocked : (s.auth.lock o.admission.node false).record fault s.clock.wall o.admission =
      .ok store := hrecord
  simp only [finish, Authenticator.complete, hlocked]

/-- A call that is not recorded is refused, and gives the lock of its node back. -/
theorem finish_of_error (s : AuthRun) (node : NodeId) (o : OpenCall) (fault : Option WriteFault)
    (cause : Error) (hrecord : s.auth.record fault s.clock.wall o.admission = .error cause) :
    s.finish node o fault =
      (.refused cause,
        { s with auth := s.auth.lock o.admission.node false, calls := s.calls.erase node }) := by
  have hlocked : (s.auth.lock o.admission.node false).record fault s.clock.wall o.admission =
      .error cause := hrecord
  simp only [finish, Authenticator.complete, hlocked]

/-- Only the passing of time moves the clocks. -/
theorem clock_step (s : AuthRun) (op : AuthOp) :
    (s.step op).2.clock = s.clock ∨
      ∃ duration, (s.step op).2.clock = s.clock.advance duration := by
  cases op with
  | getChallenge node scope =>
    rw [step]
    split <;> exact Or.inl rfl
  | call node call challenge signature =>
    rw [step]
    split
    · exact Or.inl rfl
    · rw [enter]
      split <;> exact Or.inl rfl
  | finish node fault =>
    rw [step]
    split
    · rw [finish]
      split <;> exact Or.inl rfl
    · exact Or.inl rfl
  | cleanup => exact Or.inl rfl
  | advance duration => exact Or.inr ⟨duration, rfl⟩

/-- A call that ends as soon as it has begun is a call of the authenticator. -/
theorem run_call (s : AuthRun) (node : NodeId) (call : Call) (challenge signature : Bytes)
    (fault : Option WriteFault) (hidle : s.calls.contains node = false) :
    let whole := Authenticator.finish s.clock fault (s.prepare node call challenge signature)
    let begun := (s.step (.call node call challenge signature)).2
    (begun.step (.finish node fault)).1.bundle? = whole.1.1.toOption ∧
      (begun.step (.finish node fault)).2.auth = whole.1.2 ∧
      (begun.step (.finish node fault)).2.entropy = whole.2 := by
  intro whole begun
  have hnone : s.calls.get? node = none := by
    rw [Table.contains] at hidle
    simpa using hidle
  have hbegun : begun = (s.enter node call challenge signature).2 := by
    show (s.step (.call node call challenge signature)).2 = _
    rw [step, hidle]
    rfl
  rcases hprepare : s.prepare node call challenge signature with
    ⟨⟨cause | admission, auth⟩, entropy⟩
  · have hwhole : whole = ((.error cause, auth), entropy) := by
      show Authenticator.finish _ _ _ = _
      rw [hprepare]
      rfl
    rw [hwhole, hbegun, enter, hprepare]
    simp only [step, hnone]
    exact ⟨rfl, trivial, trivial⟩
  · have hwhole : whole = (auth.complete s.clock fault admission, entropy) := by
      show Authenticator.finish _ _ _ = _
      rw [hprepare]
      rfl
    rw [hwhole, hbegun, enter, hprepare]
    simp only [step, Table.get?_set, if_true, finish]
    rcases auth.complete s.clock fault admission with ⟨_ | bundle, auth'⟩ <;>
      exact ⟨rfl, rfl, rfl⟩

end AuthRun

end SigningGateway
