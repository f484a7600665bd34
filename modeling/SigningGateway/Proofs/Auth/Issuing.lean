import SigningGateway.Proofs.Auth.Keeping
import SigningGateway.Proofs.Auth.Record

/-!
# Runs that issue credentials

A run of the authenticator in which credentials are issued to node processes too, and in which the
store may be opened again from its directory.  It keeps a record of the certificates that were
minted and of those that calls returned.

Each step is one of a few turns: nothing happens to the credentials, a call mints a certificate, a
call ends and is recorded or not, a node process is issued its certificate or not, or the store is
opened again.

    Turn s op (answer of step s op) (state of step s op)                          (turn_step)
-/

namespace SigningGateway

/-! ## Runs -/

/-- The calls that return a credential. -/
inductive CredentialKind
  | registration
  | recovery
  /-- The credential of a node process. -/
  | process
  deriving DecidableEq

namespace CredentialKind

def role : CredentialKind → Role
  | .registration | .recovery => .device
  | .process => .node

end CredentialKind

/-- The kind of credential that a call returns. -/
def Call.kind : Call → CredentialKind
  | .register _ => .registration
  | .recover => .recovery

/-- A certificate that a call returned. -/
structure Credential where
  kind : CredentialKind
  node : NodeId
  certificate : Certificate

inductive CredentialOp
  | auth (op : AuthOp)
  /-- A credential is issued to the process of a node; its write may fail. -/
  | issueNode (node : NodeId) (fault : Option WriteFault)
  /-- The gateway starts anew on the directory of its store. -/
  | reopen

/-- A run of the authenticator with the record of its certificates. -/
structure CredentialRun where
  state : AuthRun
  minted : List Certificate
  returned : List Credential

namespace CredentialRun

def store (s : CredentialRun) : Store := s.state.auth.store

def start (settings : AuthSettings) (store : Store) (verifier : Verifier) (clock : Clock)
    (blocks : Nat → Block) : CredentialRun :=
  ⟨.start settings store verifier clock blocks, [], []⟩

/-- What the call of a node returns, if one is under way. -/
def pending (s : CredentialRun) (node : NodeId) : Option Credential :=
  (s.state.calls.get? node).map fun o => ⟨o.call.kind, node, o.admission.certificate⟩

/-- Applies an operation on the authenticator: a call that is admitted has minted a certificate, and
one that is granted returns it. -/
def applyAuth (s : CredentialRun) (op : AuthOp) : AuthAnswer × CredentialRun :=
  let (answer, state) := s.state.step op
  let s' : CredentialRun := { s with state }
  match answer, op with
  | .admitted, .call node _ _ _ =>
    (answer, { s' with minted := s.minted ++ ((s'.pending node).map (·.certificate)).toList })
  | .granted _, .finish node _ =>
    (answer, { s' with returned := s.returned ++ (s.pending node).toList })
  | _, _ => (answer, s')

/-- The certificate that the process of a node is issued. -/
def processCertificate (s : CredentialRun) (node : NodeId) : Certificate :=
  (s.store.issuer.issue node .node "node" s.state.clock.wall s.state.entropy).1.1

/-- Issues a credential to the process of a node. -/
def issueNode (s : CredentialRun) (node : NodeId) (fault : Option WriteFault) :
    AuthAnswer × CredentialRun :=
  let c := s.processCertificate node
  let ((answer, auth), entropy) :=
    s.state.auth.issueNodeCredential s.state.clock fault node s.state.entropy
  let s' : CredentialRun :=
    { s with state := { s.state with auth, entropy }, minted := s.minted ++ [c] }
  match answer with
  | .ok bundle => (.granted bundle, { s' with returned := s.returned ++ [⟨.process, node, c⟩] })
  | .error cause => (.refused cause, s')

/-- The credential that an operation returns or, if it is refused, loses. -/
def atStake (s : CredentialRun) : CredentialOp → Option Credential
  | .auth (.finish node _) => s.pending node
  | .issueNode node _ => some ⟨.process, node, s.processCertificate node⟩
  | _ => none

/-- Opens the store again, if it has a directory; what the authenticator held in memory is lost. -/
def reopen (s : CredentialRun) : CredentialRun :=
  match s.store.disk.map (Store.openDisk s.store.issuer) with
  | some (.ok store) =>
    { s with
      state :=
        { s.state with
          auth := .start s.state.auth.settings store s.state.auth.verifier
          calls := .empty
          issues := []
          grants := [] } }
  | _ => s

def step (s : CredentialRun) : CredentialOp → AuthAnswer × CredentialRun
  | .auth op => s.applyAuth op
  | .issueNode node fault => s.issueNode node fault
  | .reopen => (.done, s.reopen)

def run (s : CredentialRun) (ops : List CredentialOp) : CredentialRun :=
  ops.foldl (fun s op => (s.step op).2) s

theorem run_append (s : CredentialRun) (ops more : List CredentialOp) :
    s.run (ops ++ more) = (s.run ops).run more := by
  simp [run]

end CredentialRun

/-! ## Certificates of an issuer -/

/-- The certificate was minted by the issuer at the time `now`. -/
structure IssuedBy (issuer : Issuer) (node : NodeId) (role : Role) (now : Moment)
    (c : Certificate) : Prop where
  signed : c = issuer.sign c.body
  issuer : c.body.issuer = issuer.name
  node : c.body.node = node
  role : c.body.role = role
  issuedAt : c.body.issuedAt = now

theorem issuedBy_issue (issuer : Issuer) (node : NodeId) (role : Role) (name : String)
    (now : Moment) (e : Entropy) :
    IssuedBy issuer node role now (issuer.issue node role name now e).1.1 :=
  ⟨rfl, rfl, rfl, rfl, rfl⟩

/-! ## Steps -/

namespace Authenticator

variable (a : Authenticator) (clock : Clock) (fault : Option WriteFault) (node : NodeId)
  (e : Entropy)

/-- The credential of a node process, when it is recorded. -/
theorem issueNodeCredential_of_ok (store : Store)
    (h : a.store.recordNodeCertificate fault node
      (a.store.issuer.issue node .node "node" clock.wall e).1.1 = .ok store) :
    a.issueNodeCredential clock fault node e =
      ((.ok (a.store.issuer.issue node .node "node" clock.wall e).1.2, { a with store }),
        (a.store.issuer.issue node .node "node" clock.wall e).2) := by
  simp only [issueNodeCredential, Store.issueNodeCredential, h, Except.map]

/-- The credential of a node process, when it is not recorded. -/
theorem issueNodeCredential_of_error (cause : Error)
    (h : a.store.recordNodeCertificate fault node
      (a.store.issuer.issue node .node "node" clock.wall e).1.1 = .error cause) :
    a.issueNodeCredential clock fault node e =
      ((.error cause, a), (a.store.issuer.issue node .node "node" clock.wall e).2) := by
  simp only [issueNodeCredential, Store.issueNodeCredential, h, Except.map]

end Authenticator

namespace AuthRun

/-- A call is admitted with the certificate minted for it, or leaves the store as it was. -/
theorem prepare_outcome (s : AuthRun) (node : NodeId) (call : Call) (challenge signature : Bytes) :
    s.prepare node call challenge signature =
        ((.ok (s.minted node call challenge).1, s.auth.lock node true),
          (s.minted node call challenge).2) ∨
      ∃ cause a, s.prepare node call challenge signature = ((.error cause, a), s.entropy) ∧
        a.store = s.auth.store := by
  have hcases := s.auth.prepare_cases s.clock node call.scope call.metadata challenge
    (call.message node challenge) signature (call.name challenge) s.entropy
  cases call with
  | register metadata =>
    rcases hcases with ⟨-, heq⟩ | ⟨-, cause, a, heq, hsheds⟩
    · exact Or.inl heq
    · exact Or.inr ⟨cause, a, heq, hsheds.store⟩
  | recover =>
    cases hregistered : s.auth.store.isRegistered node with
    | true =>
      have hprepare : s.prepare node .recover challenge signature = _ := if_pos hregistered
      rw [hprepare]
      rcases hcases with ⟨-, heq⟩ | ⟨-, cause, a, heq, hsheds⟩
      · exact Or.inl heq
      · exact Or.inr ⟨cause, a, heq, hsheds.store⟩
    | false =>
      right
      refine ⟨.unknownIdentity node, s.auth.lock node false, ?_, rfl⟩
      simp only [prepare, Authenticator.prepareRecover, hregistered, Bool.false_eq_true, if_false]

end AuthRun

namespace CredentialRun

/-- What a step can answer, and do to the store, the calls under way and the record. -/
inductive Turn (s : CredentialRun) : CredentialOp → AuthAnswer → CredentialRun → Prop
  /-- Nothing happens to the credentials. -/
  | quiet (op : CredentialOp) (answer : AuthAnswer) (s' : CredentialRun)
      (stake : (∃ cause, answer = .refused cause) → s.atStake op = none)
      (bundle : answer.bundle? = none) (store : s'.store = s.store) (minted : s'.minted = s.minted)
      (returned : s'.returned = s.returned) (calls : s'.state.calls = s.state.calls) :
      Turn s op answer s'
  /-- A call begins, and mints its certificate. -/
  | begun (node : NodeId) (call : Call) (challenge signature : Bytes) (o : OpenCall)
      (s' : CredentialRun)
      (issued : IssuedBy s.store.issuer node .device s.state.clock.wall o.admission.certificate)
      (admission : o.call = call ∧ o.admission.node = node ∧ o.admission.metadata = call.metadata)
      (bundle : o.admission.bundle.certificate = o.admission.certificate.toBytes)
      (store : s'.store = s.store) (minted : s'.minted = s.minted ++ [o.admission.certificate])
      (returned : s'.returned = s.returned) (calls : s'.state.calls = s.state.calls.set node o) :
      Turn s (.auth (.call node call challenge signature)) .admitted s'
  /-- A call ends and is recorded. -/
  | recorded (node : NodeId) (fault : Option WriteFault) (o : OpenCall) (s' : CredentialRun)
      (get : s.state.calls.get? node = some o)
      (record : s.state.auth.record fault s.state.clock.wall o.admission = .ok s'.store)
      (minted : s'.minted = s.minted)
      (returned :
        s'.returned = s.returned ++ [⟨o.call.kind, node, o.admission.certificate⟩])
      (calls : s'.state.calls = s.state.calls.erase node) :
      Turn s (.auth (.finish node fault)) (.granted o.admission.bundle) s'
  /-- A call ends and is not recorded. -/
  | failed (node : NodeId) (fault : Option WriteFault) (cause : Error) (s' : CredentialRun)
      (store : s'.store = s.store) (minted : s'.minted = s.minted)
      (returned : s'.returned = s.returned) (calls : s'.state.calls = s.state.calls.erase node) :
      Turn s (.auth (.finish node fault)) (.refused cause) s'
  /-- The process of a node gets its certificate. -/
  | issued (node : NodeId) (fault : Option WriteFault) (bundle : Bundle) (s' : CredentialRun)
      (issued : IssuedBy s.store.issuer node .node s.state.clock.wall (s.processCertificate node))
      (bundle_eq : bundle.certificate = (s.processCertificate node).toBytes)
      (record : s.store.recordNodeCertificate fault node (s.processCertificate node) =
        .ok s'.store)
      (minted : s'.minted = s.minted ++ [s.processCertificate node])
      (returned : s'.returned = s.returned ++ [⟨.process, node, s.processCertificate node⟩])
      (calls : s'.state.calls = s.state.calls) :
      Turn s (.issueNode node fault) (.granted bundle) s'
  /-- The certificate for the process of a node is minted, but not recorded. -/
  | lost (node : NodeId) (fault : Option WriteFault) (cause : Error) (s' : CredentialRun)
      (issued : IssuedBy s.store.issuer node .node s.state.clock.wall (s.processCertificate node))
      (store : s'.store = s.store) (minted : s'.minted = s.minted ++ [s.processCertificate node])
      (returned : s'.returned = s.returned) (calls : s'.state.calls = s.state.calls) :
      Turn s (.issueNode node fault) (.refused cause) s'
  /-- The store is opened again. -/
  | reopened (d : Disk) (s' : CredentialRun) (disk : s.store.disk = some d)
      (opened : Store.openDisk s.store.issuer d = .ok s'.store) (minted : s'.minted = s.minted)
      (returned : s'.returned = s.returned) (calls : s'.state.calls = .empty) :
      Turn s .reopen .done s'

theorem turn_finish (s : CredentialRun) (node : NodeId) (fault : Option WriteFault) :
    s.Turn (.auth (.finish node fault)) (s.applyAuth (.finish node fault)).1
      (s.applyAuth (.finish node fault)).2 := by
  cases ho : s.state.calls.get? node with
  | none =>
    have hstep : s.state.step (.finish node fault) = (.done, s.state) := by
      simp only [AuthRun.step, ho]
    rw [applyAuth, hstep]
    exact .quiet _ _ _ (by rintro ⟨_, ⟨⟩⟩) rfl rfl rfl rfl rfl
  | some o =>
    have hstep : s.state.step (.finish node fault) = s.state.finish node o fault := by
      simp only [AuthRun.step, ho]
    cases hrecord : s.state.auth.record fault s.state.clock.wall o.admission with
    | ok store =>
      rw [applyAuth, hstep, s.state.finish_of_ok node o fault store hrecord]
      have hstore := (({ s.state.auth.lock o.admission.node false with store } :
        Authenticator).useChallenge_frame s.state.clock.steady o.admission.node
          o.admission.scope).2.1
      refine .recorded node fault o _ ho ?_ rfl ?_ rfl
      · exact hrecord.trans (congrArg Except.ok hstore.symm)
      · simp only [pending, ho, Option.map_some, Option.toList_some]
    | error cause =>
      rw [applyAuth, hstep, s.state.finish_of_error node o fault cause hrecord]
      exact .failed node fault cause _ rfl rfl rfl rfl

theorem turn_call (s : CredentialRun) (node : NodeId) (call : Call)
    (challenge signature : Bytes) :
    s.Turn (.auth (.call node call challenge signature))
      (s.applyAuth (.call node call challenge signature)).1
      (s.applyAuth (.call node call challenge signature)).2 := by
  cases hidle : s.state.calls.contains node with
  | true =>
    have hstep : s.state.step (.call node call challenge signature) = (.busy, s.state) := by
      rw [AuthRun.step, hidle]
      rfl
    rw [applyAuth, hstep]
    exact .quiet _ _ _ (fun _ => rfl) rfl rfl rfl rfl rfl
  | false =>
    have hstep : s.state.step (.call node call challenge signature) =
        s.state.enter node call challenge signature := by
      rw [AuthRun.step, hidle]
      rfl
    rw [applyAuth, hstep, AuthRun.enter]
    rcases s.state.prepare_outcome node call challenge signature with
      heq | ⟨cause, a, heq, hstore⟩
    · let o : OpenCall := ⟨call, challenge, (s.state.minted node call challenge).1⟩
      have hissued : IssuedBy s.store.issuer node .device s.state.clock.wall
          o.admission.certificate := issuedBy_issue _ _ _ _ _ _
      rw [heq]
      refine .begun node call challenge signature o _ hissued ⟨rfl, rfl, rfl⟩ rfl rfl ?_ rfl rfl
      simp only [pending, Table.get?_set, if_true, Option.map_some, Option.toList_some, o]
    · rw [heq]
      exact .quiet _ _ _ (fun _ => rfl) rfl hstore rfl rfl rfl

theorem turn_issueNode (s : CredentialRun) (node : NodeId) (fault : Option WriteFault) :
    s.Turn (.issueNode node fault) (s.issueNode node fault).1 (s.issueNode node fault).2 := by
  have hissued : IssuedBy s.store.issuer node .node s.state.clock.wall
      (s.processCertificate node) := issuedBy_issue _ _ _ _ _ _
  cases hrecord : s.store.recordNodeCertificate fault node (s.processCertificate node) with
  | ok store =>
    have hanswer : s.state.auth.issueNodeCredential s.state.clock fault node s.state.entropy = _ :=
      s.state.auth.issueNodeCredential_of_ok _ _ _ _ _ hrecord
    rw [issueNode, hanswer]
    exact .issued node fault _ _ hissued rfl hrecord rfl rfl rfl
  | error cause =>
    have hanswer : s.state.auth.issueNodeCredential s.state.clock fault node s.state.entropy = _ :=
      s.state.auth.issueNodeCredential_of_error _ _ _ _ _ hrecord
    rw [issueNode, hanswer]
    exact .lost node fault cause _ hissued rfl rfl rfl rfl

theorem turn_reopen (s : CredentialRun) : s.Turn .reopen .done s.reopen := by
  unfold reopen
  split
  · next store hopen =>
    obtain ⟨d, hd, hopen⟩ := Option.map_eq_some_iff.1 hopen
    exact .reopened d _ hd hopen rfl rfl rfl
  · exact .quiet _ _ _ (fun _ => rfl) rfl rfl rfl rfl rfl

/-- A step is one of the turns. -/
theorem turn_step (s : CredentialRun) (op : CredentialOp) :
    s.Turn op (s.step op).1 (s.step op).2 := by
  cases op with
  | auth op =>
    cases op with
    | getChallenge node scope =>
      show s.Turn _ (s.applyAuth (.getChallenge node scope)).1
        (s.applyAuth (.getChallenge node scope)).2
      cases hbusy : s.state.calls.contains node <;>
        rw [applyAuth, AuthRun.step, hbusy] <;>
          exact .quiet _ _ _ (fun _ => rfl) rfl rfl rfl rfl rfl
    | call node call challenge signature => exact s.turn_call node call challenge signature
    | finish node fault => exact s.turn_finish node fault
    | cleanup => exact .quiet _ _ _ (fun _ => rfl) rfl rfl rfl rfl rfl
    | advance duration => exact .quiet _ _ _ (fun _ => rfl) rfl rfl rfl rfl rfl
  | issueNode node fault => exact s.turn_issueNode node fault
  | reopen => exact s.turn_reopen

end CredentialRun

end SigningGateway
