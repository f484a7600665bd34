import SigningGateway.Proofs.Auth.Calls
import SigningGateway.Proofs.Auth.Keeping
import SigningGateway.Proofs.Auth.Replay

/-!
# Calls that fail

A call to register or to recover may fail at many points, the last of them after its certificate was
minted and while the snapshot is written.  Wherever it fails, it leaves the store, the used
challenges and the live ones as they were, except that it drops the live challenge that it presents
if its time is over.  So calls that fail, whoever makes them, do not take a live challenge from its
node: until it is over or superseded, a correct call with it succeeds.

    a call fails → nothing changed but locks and a challenge that was over       (finish_of_fails)
    no call of a run succeeds → the live challenge stays                               (keeps_run)
-/

namespace SigningGateway

/-! ## Writing a snapshot -/

namespace Store

/-- Nothing stands in the way of a snapshot. -/
def IsWritable (s : Store) : Prop :=
  ∀ d, s.disk = some d → d.scratch ≠ .directory ∧ d.snapshot ≠ .directory

/-- A change is written if no fault meets it. -/
theorem commit_of_isWritable (s : Store) (h : s.IsWritable) (node : NodeId)
    (change : Option Registration → Except Error Registration) (r : Registration)
    (hchange : change (s.registration node) = .ok r) :
    ∃ s', s.commit none node change = .ok s' := by
  simp only [commit, hchange, bind, Except.bind]
  cases hdisk : s.disk with
  | none => exact ⟨_, rfl⟩
  | some d =>
    obtain ⟨hscratch, hsnapshot⟩ := h d hdisk
    obtain ⟨name, snapshot, scratch⟩ := d
    cases scratch <;> cases snapshot <;>
      first | exact absurd rfl hscratch | exact absurd rfl hsnapshot | exact ⟨_, rfl⟩

end Store

/-- What an admitted call changes in the store. -/
def Admission.op (now : Moment) (admission : Admission) : StoreOp :=
  match admission.metadata with
  | some metadata => .register now admission.node metadata admission.certificate
  | none => .recover admission.node admission.certificate

namespace Authenticator

theorem record_eq (a : Authenticator) (fault : Option WriteFault) (now : Moment)
    (admission : Admission) :
    a.record fault now admission = (admission.op now).apply a.store fault := by
  obtain ⟨node, scope, metadata, certificate, bundle⟩ := admission
  cases metadata <;> rfl

/-- The second half of a call with its write taken step by step; a write that fails leaves anything
in the scratch file. -/
def completeBySteps (a : Authenticator) (clock : Clock) (fault : Option WriteFault) (left : Bytes)
    (admission : Admission) : Except Error Bundle × Authenticator :=
  let a := a.lock admission.node false
  match a.store.perform fault left (admission.op clock.wall) with
  | (.error cause, store) => (.error cause, { a with store })
  | (.ok (), store) =>
    (.ok admission.bundle,
      { a with store }.useChallenge clock.steady admission.node admission.scope)

/-- Both halves of a call at one moment, with the write taken step by step. -/
def finishBySteps (clock : Clock) (fault : Option WriteFault) (left : Bytes)
    (prepared : (Except Error Admission × Authenticator) × Entropy) :
    (Except Error Bundle × Authenticator) × Entropy :=
  match prepared with
  | ((.error cause, a), e) => ((.error cause, a), e)
  | ((.ok admission, a), e) => (a.completeBySteps clock fault left admission, e)

/-- The authenticator with something else in the scratch file of its store. -/
def withScratch (a : Authenticator) (scratch : Slot) : Authenticator :=
  { a with store := a.store.withScratch scratch }

theorem exists_withScratch (a : Authenticator) : ∃ scratch, a.withScratch scratch = a := by
  obtain ⟨scratch, hscratch⟩ := a.store.exists_withScratch
  exact ⟨scratch, by rw [withScratch, hscratch]⟩

/-- Step by step a call comes to the same, but for what a failed write leaves in the scratch
file. -/
theorem finishBySteps_eq (clock : Clock) (fault : Option WriteFault) (left : Bytes)
    (prepared : (Except Error Admission × Authenticator) × Entropy) :
    ∃ scratch, finishBySteps clock fault left prepared =
      (((finish clock fault prepared).1.1, (finish clock fault prepared).1.2.withScratch scratch),
        (finish clock fault prepared).2) := by
  obtain ⟨⟨cause | admission, a⟩, e⟩ := prepared
  · obtain ⟨scratch, hscratch⟩ := a.exists_withScratch
    exact ⟨scratch, by rw [finish, hscratch]; rfl⟩
  · have hsame : (a.lock admission.node false).store = a.store := rfl
    simp only [finish, finishBySteps, complete, completeBySteps, record_eq, hsame]
    rcases a.store.perform_apply fault left (admission.op clock.wall) with
      ⟨store, happly, hperform⟩ | ⟨cause, scratch, happly, hperform⟩
    · rw [happly, hperform]
      obtain ⟨scratch, hscratch⟩ := Authenticator.exists_withScratch
        (({ a.lock admission.node false with store } : Authenticator).useChallenge clock.steady
          admission.node admission.scope)
      exact ⟨scratch, by rw [hscratch]⟩
    · rw [happly, hperform]
      exact ⟨scratch, rfl⟩

/-! ## What a call that fails leaves -/

/-- Whether a check drops the live challenge: it is the one presented, it was not used, and its time
is over. -/
def drops (a : Authenticator) (now : Nat) (node : NodeId) (scope : Scope) (presented : Bytes) :
    Bool :=
  presented.length = challengeSize && !a.used.contains presented &&
    (a.live.get? (node, scope)).any fun c => c.value = presented && c.isExpired now

/-- A check changes nothing but what it drops. -/
theorem snd_checkChallenge (a : Authenticator) (now : Nat) (node : NodeId) (scope : Scope)
    (presented : Bytes) :
    (a.checkChallenge now node scope presented).2 =
      if a.drops now node scope presented then { a with live := a.live.erase (node, scope) }
      else a := by
  unfold checkChallenge drops
  by_cases hlength : presented.length = challengeSize
  · cases a.used.contains presented with
    | true => simp [hlength]
    | false =>
      cases a.live.get? (node, scope) with
      | none => simp [hlength]
      | some c =>
        by_cases hvalue : presented = c.value
        · cases hover : c.isExpired now <;> simp [hlength, ← hvalue, hover]
        · simp [hlength, hvalue, Ne.symm hvalue]
  · cases a.live.get? (node, scope) <;> simp [hlength]

theorem drops_iff (a : Authenticator) (now : Nat) (node : NodeId) (scope : Scope)
    (presented : Bytes) :
    a.drops now node scope presented = true ↔
      presented.length = challengeSize ∧ a.used.contains presented = false ∧
        ∃ c, a.live.get? (node, scope) = some c ∧ c.value = presented ∧ c.expiresAt ≤ now := by
  simp only [drops, Bool.and_eq_true, decide_eq_true_eq, Bool.not_eq_true', Option.any_eq_true,
    Challenge.isExpired, and_assoc]

end Authenticator

namespace AuthRun

/-- Whether a call drops a live challenge: it gets to the check, and the check does. -/
def drops (s : AuthRun) (node : NodeId) (call : Call) (challenge : Bytes) : Bool :=
  (call ≠ .recover || s.auth.store.isRegistered node) &&
    s.auth.drops s.clock.steady node call.scope challenge

theorem drops_iff (s : AuthRun) (node : NodeId) (call : Call) (challenge : Bytes) :
    s.drops node call challenge = true ↔
      (call = .recover → s.auth.store.isRegistered node = true) ∧
        challenge.length = challengeSize ∧ s.auth.used.contains challenge = false ∧
        ∃ c, s.auth.live.get? (node, call.scope) = some c ∧ c.value = challenge ∧
          c.expiresAt ≤ s.clock.steady := by
  rw [drops, Bool.and_eq_true, Authenticator.drops_iff, Bool.or_eq_true, decide_eq_true_eq,
    ← imp_iff_not_or]

/-- The live challenges after a call that fails. -/
def liveAfter (s : AuthRun) (node : NodeId) (call : Call) (challenge : Bytes) :
    Table (NodeId × Scope) Challenge :=
  if s.drops node call challenge then s.auth.live.erase (node, call.scope) else s.auth.live

/-- The first half of a call changes nothing but locks and what it drops. -/
theorem snd_prepare (s : AuthRun) (node : NodeId) (call : Call) (challenge signature : Bytes) :
    ∃ locks, (s.prepare node call challenge signature).1.2 =
      { s.auth with live := s.liveAfter node call challenge, locks } := by
  have hchecked : ∀ held,
      (s.auth.checkChallenge s.clock.steady node call.scope challenge).2.lock node held =
        { s.auth with
          live := if s.auth.drops s.clock.steady node call.scope challenge then
            s.auth.live.erase (node, call.scope) else s.auth.live
          locks := s.auth.locks.set node held } := by
    intro held
    rw [Authenticator.snd_checkChallenge]
    split <;> rfl
  cases call with
  | register metadata =>
    obtain ⟨held, heq⟩ := s.auth.prepare_state s.clock node .register (some metadata) challenge
      (Message.registration challenge metadata) signature "device" s.entropy
    exact ⟨_, heq.trans (hchecked held)⟩
  | recover =>
    cases hregistered : s.auth.store.isRegistered node with
    | true =>
      obtain ⟨held, heq⟩ := s.auth.prepare_state s.clock node .recover none challenge
        (Message.recovery challenge node) signature (Authenticator.recoveredName challenge)
        s.entropy
      have hprepare : s.prepare node .recover challenge signature = _ := if_pos hregistered
      refine ⟨s.auth.locks.set node held, ?_⟩
      rw [hprepare, heq, liveAfter, drops, hregistered]
      exact hchecked held
    | false =>
      refine ⟨s.auth.locks.set node false, ?_⟩
      rw [liveAfter, drops, hregistered]
      simp only [prepare, Authenticator.prepareRecover, hregistered]
      rfl

/-- A live challenge that is not over is live after a call that fails. -/
theorem get?_liveAfter (s : AuthRun) (node : NodeId) (call : Call) (challenge : Bytes)
    (key : NodeId × Scope) (c : Challenge) (hlive : s.auth.live.get? key = some c)
    (hnow : s.clock.steady < c.expiresAt) :
    (s.liveAfter node call challenge).get? key = some c := by
  rw [liveAfter]
  split
  · next hdrops =>
    obtain ⟨-, -, -, c', hlive', -, hover⟩ := (s.drops_iff node call challenge).1 hdrops
    rw [Table.get?_erase, if_neg, hlive]
    rintro rfl
    rw [hlive] at hlive'
    obtain rfl := Option.some.inj hlive'
    omega
  · exact hlive

theorem clock_enter (s : AuthRun) (node : NodeId) (call : Call) (challenge signature : Bytes) :
    (s.enter node call challenge signature).2.clock = s.clock := by
  rw [enter]
  split <;> rfl

/-- A call that fails changes nothing but locks and what it drops. -/
theorem finish_of_fails (s : AuthRun) (node : NodeId) (call : Call) (challenge signature : Bytes)
    (clock : Clock) (fault : Option WriteFault) (cause : Error)
    (hfails : (Authenticator.finish clock fault
      (s.prepare node call challenge signature)).1.1 = .error cause) :
    ∃ locks, (Authenticator.finish clock fault
        (s.prepare node call challenge signature)).1.2 =
      { s.auth with live := s.liveAfter node call challenge, locks } := by
  obtain ⟨locks, hprepare⟩ := s.snd_prepare node call challenge signature
  rcases hprepared : s.prepare node call challenge signature with ⟨⟨cause' | admission, a⟩, e⟩
  · rw [hprepared] at hprepare
    exact ⟨locks, hprepare⟩
  · rw [hprepared] at hprepare hfails
    obtain rfl : a = _ := hprepare
    simp only [Authenticator.finish, Authenticator.complete] at hfails ⊢
    split at hfails
    · exact ⟨_, rfl⟩
    · cases hfails

/-! ## Runs in which no call succeeds -/

/-- An operation that grants nothing leaves the store as it is. -/
theorem store_step (s : AuthRun) (op : AuthOp) (hnone : (s.step op).1.bundle? = none) :
    (s.step op).2.auth.store = s.auth.store := by
  cases op with
  | getChallenge node scope =>
    rw [step]
    split <;> rfl
  | call node call challenge signature =>
    rw [step]
    split
    · rfl
    · obtain ⟨locks, hprepare⟩ := s.snd_prepare node call challenge signature
      rw [s.auth_enter node call challenge signature, hprepare]
  | finish node fault =>
    cases ho : s.calls.get? node with
    | none => simp only [step, ho]
    | some o =>
      simp only [step, ho] at hnone ⊢
      cases hrecord : s.auth.record fault s.clock.wall o.admission with
      | ok store =>
        rw [s.finish_of_ok node o fault store hrecord] at hnone
        cases hnone
      | error cause => rw [s.finish_of_error node o fault cause hrecord]; rfl
  | cleanup => rfl
  | advance duration => rfl

/-- What a run leaves of a live challenge and of its use, as long as it does not supersede it. -/
structure Keeps (s t : AuthRun) (key : NodeId × Scope) (c : Challenge) : Prop where
  verifier : t.auth.verifier = s.auth.verifier
  used : ∀ value, t.auth.used.contains value = true → s.auth.used.contains value = true
  clock : s.clock.steady ≤ t.clock.steady
  live : s.auth.live.get? key = some c → t.clock.steady < c.expiresAt →
    t.auth.live.get? key = some c

theorem Keeps.trans {s t u : AuthRun} {key : NodeId × Scope} {c : Challenge}
    (h : s.Keeps t key c) (h' : t.Keeps u key c) : s.Keeps u key c where
  verifier := h'.verifier.trans h.verifier
  used := fun value hused => h.used value (h'.used value hused)
  clock := Nat.le_trans h.clock h'.clock
  live := fun hlive hnow => h'.live (h.live hlive (Nat.lt_of_le_of_lt h'.clock hnow)) hnow

theorem Keeps.refl (s : AuthRun) (key : NodeId × Scope) (c : Challenge) : s.Keeps s key c :=
  ⟨rfl, fun _ hused => hused, Nat.le_refl _, fun hlive _ => hlive⟩

/-- An operation that grants nothing keeps a live challenge that it does not supersede. -/
theorem keeps_step (s : AuthRun) (op : AuthOp) (node : NodeId) (scope : Scope) (c : Challenge)
    (hnone : (s.step op).1.bundle? = none) (hop : op ≠ .getChallenge node scope) :
    s.Keeps (s.step op).2 (node, scope) c := by
  cases op with
  | getChallenge node' scope' =>
    rw [step]
    split
    · exact .refl s _ c
    · refine ⟨rfl, fun _ hused => hused, Nat.le_refl _, fun hlive _ => ?_⟩
      have hother : (node, scope) ≠ (node', scope') := by
        intro hkey
        obtain ⟨rfl, rfl⟩ := Prod.mk.inj hkey
        exact hop rfl
      exact (Table.get?_set _ _ _ _).trans ((if_neg hother).trans hlive)
  | call node' call challenge signature =>
    rw [step]
    split
    · exact .refl s _ c
    · obtain ⟨locks, hprepare⟩ := s.snd_prepare node' call challenge signature
      have hclock := s.clock_enter node' call challenge signature
      have hauth := (s.auth_enter node' call challenge signature).trans hprepare
      refine ⟨by rw [hauth], fun value hused => by rw [hauth] at hused; exact hused,
        Nat.le_of_eq (by rw [hclock]), fun hlive hnow => ?_⟩
      rw [hclock] at hnow
      rw [hauth]
      exact s.get?_liveAfter node' call challenge _ c hlive hnow
  | finish node' fault =>
    cases ho : s.calls.get? node' with
    | none =>
      simp only [step, ho]
      exact .refl s _ c
    | some o =>
      simp only [step, ho] at hnone ⊢
      cases hrecord : s.auth.record fault s.clock.wall o.admission with
      | ok store =>
        rw [s.finish_of_ok node' o fault store hrecord] at hnone
        cases hnone
      | error cause =>
        rw [s.finish_of_error node' o fault cause hrecord]
        exact ⟨rfl, fun _ hused => hused, Nat.le_refl _, fun hlive _ => hlive⟩
  | cleanup =>
    have hsheds := s.auth.sheds_cleanup s.clock.steady
    exact ⟨rfl, hsheds.used, Nat.le_refl _, fun hlive hnow => hsheds.kept _ c hlive hnow⟩
  | advance duration =>
    exact ⟨rfl, fun _ hused => hused, Nat.le_add_right _ _, fun hlive _ => hlive⟩

/-- No call of a run succeeds. -/
def GrantsNothing (s : AuthRun) (ops : List AuthOp) : Prop := ∀ granted ∈ s.successes ops,
  granted = none

theorem GrantsNothing.cons {s : AuthRun} {op : AuthOp} {ops : List AuthOp}
    (h : s.GrantsNothing (op :: ops)) :
    (s.step op).1.bundle? = none ∧ (s.step op).2.GrantsNothing ops := by
  cases op with
  | cleanup => exact ⟨rfl, h⟩
  | _ =>
    exact ⟨h _ List.mem_cons_self, fun granted hmem => h granted (List.mem_cons_of_mem _ hmem)⟩

theorem store_run (s : AuthRun) (ops : List AuthOp) (h : s.GrantsNothing ops) :
    (s.run ops).auth.store = s.auth.store := by
  induction ops generalizing s with
  | nil => rfl
  | cons op ops ih =>
    obtain ⟨hnone, hrest⟩ := h.cons
    exact (ih _ hrest).trans (s.store_step op hnone)

/-- A run in which no call succeeds keeps a live challenge that it does not supersede. -/
theorem keeps_run (s : AuthRun) (ops : List AuthOp) (h : s.GrantsNothing ops) (node : NodeId)
    (scope : Scope) (c : Challenge) (hops : AuthOp.getChallenge node scope ∉ ops) :
    s.Keeps (s.run ops) (node, scope) c := by
  induction ops generalizing s with
  | nil => exact .refl s _ c
  | cons op ops ih =>
    obtain ⟨hnone, hrest⟩ := h.cons
    rw [List.mem_cons, not_or] at hops
    exact (s.keeps_step op node scope c hnone (Ne.symm hops.1)).trans (ih _ hrest hops.2)

/-! ## Calls that are correct -/

/-- A call that passes its checks is admitted. -/
theorem prepare_of_checked (s : AuthRun) (node : NodeId) (call : Call)
    (challenge signature : Bytes)
    (hrecover : call = .recover → s.auth.store.isRegistered node = true)
    (hcheck : (s.auth.checkChallenge s.clock.steady node call.scope challenge).1 = .ok ())
    (hverify : s.auth.verifier node (call.message node challenge) signature = .ok ()) :
    s.prepare node call challenge signature =
      ((.ok (s.minted node call challenge).1, s.auth.lock node true),
        (s.minted node call challenge).2) := by
  have hprepare := (s.auth.prepare_cases s.clock node call.scope call.metadata challenge
    (call.message node challenge) signature (call.name challenge) s.entropy).resolve_right
      fun hnot => hnot.1 ⟨hcheck, hverify⟩
  cases call with
  | register metadata => exact hprepare.2
  | recover => exact (if_pos (hrecover rfl)).trans hprepare.2

/-- A call that passes its checks waits for its write. -/
theorem step_of_checked (s : AuthRun) (node : NodeId) (call : Call) (challenge signature : Bytes)
    (hidle : s.calls.contains node = false)
    (hrecover : call = .recover → s.auth.store.isRegistered node = true)
    (hcheck : (s.auth.checkChallenge s.clock.steady node call.scope challenge).1 = .ok ())
    (hverify : s.auth.verifier node (call.message node challenge) signature = .ok ()) :
    s.step (.call node call challenge signature) =
      (.admitted,
        { s with
          auth := s.auth.lock node true
          entropy := (s.minted node call challenge).2
          calls := s.calls.set node ⟨call, challenge, (s.minted node call challenge).1⟩ }) := by
  rw [step, hidle, if_neg Bool.false_ne_true, enter,
    s.prepare_of_checked node call challenge signature hrecover hcheck hverify]

/-- A call with a live challenge that is neither used nor over succeeds if the verifier accepts its
signature, nothing hinders the write, and no other call is granted before it ends. -/
theorem succeeds_of_live (s : AuthRun) (node : NodeId) (call : Call) (c : Challenge)
    (signature : Bytes) (between : List AuthOp)
    (hlive : s.auth.live.get? (node, call.scope) = some c) (hnow : s.clock.steady < c.expiresAt)
    (hlength : c.value.length = challengeSize) (hunused : s.auth.used.contains c.value = false)
    (hrecover : call = .recover → s.auth.store.isRegistered node = true)
    (hverify : s.auth.verifier node (call.message node c.value) signature = .ok ())
    (hwritable : s.auth.store.IsWritable) (hidle : s.calls.contains node = false)
    (hbetween : (s.step (.call node call c.value signature)).2.GrantsNothing between)
    (hfinish : ∀ fault, AuthOp.finish node fault ∉ between) :
    s.Succeeds node call c.value signature between none := by
  have hcheck := (s.auth.checkChallenge_ok_iff s.clock.steady node call.scope c.value).2
    ⟨hunused, hlength, c, hlive, rfl, hnow⟩
  have hstep := s.step_of_checked node call c.value signature hidle hrecover hcheck hverify
  have hopen : (s.step (.call node call c.value signature)).2.calls.get? node =
      some ⟨call, c.value, (s.minted node call c.value).1⟩ := by
    rw [hstep]
    exact (Table.get?_set _ _ _ _).trans (if_pos rfl)
  have hstore : (s.run (.call node call c.value signature :: between)).auth.store =
      s.auth.store := by
    rw [run_cons, store_run _ between hbetween, hstep]
    rfl
  refine ⟨by rw [hstep], ?_⟩
  rw [run_cons] at hstore ⊢
  rw [step_finish _ node _ none (calls_run _ between node _ hfinish hopen)]
  -- the store is the one before the call, so what is recorded can be written
  rw [Authenticator.record_eq, StoreOp.apply_eq, hstore]
  cases call with
  | register metadata => exact s.auth.store.commit_of_isWritable hwritable _ _ _ rfl
  | recover =>
    obtain ⟨r, hr⟩ := Option.isSome_iff_exists.1 (hrecover rfl)
    refine s.auth.store.commit_of_isWritable hwritable _ _
      { r with certificates := r.certificates ++
        [.ofCertificate (s.minted node .recover c.value).1.certificate] } ?_
    show Store.changeRegistered node _ (s.auth.store.registrations.get? node) = _
    rw [hr]
    rfl

/-- In every state, a call that fails leaves the store with its registrations, their certificates
and the snapshot, the used challenges and the live ones as they were; only a live challenge that it
presents is dropped if it is over, and a write taken step by step may leave something else in the
scratch file.  So through any run in which no call succeeds, whoever calls, a live challenge stays:
while it is neither over nor superseded, a correct call with it succeeds. -/
theorem live_through_failures (settings : AuthSettings) (store : Store) (verifier : Verifier)
    (clock : Clock) (blocks : Nat → Block) (before : List AuthOp) :
    let s := (start settings store verifier clock blocks).run before
    (∀ node call challenge signature fault left cause,
      let prepared := s.prepare node call challenge signature
      let finished := Authenticator.finish s.clock fault prepared
      (∃ scratch, Authenticator.finishBySteps s.clock fault left prepared =
          ((finished.1.1, finished.1.2.withScratch scratch), finished.2)) ∧
        (finished.1.1 = .error cause →
          ∃ locks, finished.1.2 =
            { s.auth with
              live := if s.drops node call challenge then s.auth.live.erase (node, call.scope)
                else s.auth.live
              locks })) ∧
      (∀ node call challenge, s.drops node call challenge = true ↔
        (call = .recover → s.auth.store.isRegistered node = true) ∧
          challenge.length = challengeSize ∧ s.auth.used.contains challenge = false ∧
          ∃ c, s.auth.live.get? (node, call.scope) = some c ∧ c.value = challenge ∧
            c.expiresAt ≤ s.clock.steady) ∧
      ∀ node scope c ops, (s.issues.map Issue.value).Nodup →
        s.auth.live.get? (node, scope) = some c → s.GrantsNothing ops →
        AuthOp.getChallenge node scope ∉ ops →
        let t := s.run ops
        t.auth.store = s.auth.store ∧
          (t.clock.steady < c.expiresAt →
            t.auth.live.get? (node, scope) = some c ∧
              ∀ call signature between, call.scope = scope →
                (call = .recover → s.auth.store.isRegistered node = true) →
                verifier node (call.message node c.value) signature = .ok () →
                s.auth.store.IsWritable → t.calls.contains node = false →
                (t.step (.call node call c.value signature)).2.GrantsNothing between →
                (∀ fault, AuthOp.finish node fault ∉ between) →
                t.Succeeds node call c.value signature between none) := by
  intro s
  refine ⟨?_, s.drops_iff, ?_⟩
  · intro node call challenge signature fault left cause prepared finished
    exact ⟨Authenticator.finishBySteps_eq s.clock fault left prepared,
      s.finish_of_fails node call challenge signature s.clock fault cause⟩
  · intro node scope c ops hdistinct hlive hnothing hops t
    have hs : s.Accurate (.start settings store verifier) :=
      accurate_run _ _ (accurate_start settings store verifier clock blocks) before hdistinct
    have hkeeps : s.Keeps t (node, scope) c := s.keeps_run ops hnothing node scope c hops
    have hstore : t.auth.store = s.auth.store := s.store_run ops hnothing
    refine ⟨hstore, fun hnow => ⟨hkeeps.live hlive hnow, ?_⟩⟩
    rintro call signature between rfl hrecover hverify hwritable hidle hbetween hfinish
    obtain ⟨i, hi, hunspent, rfl⟩ := hs.live node call.scope c hlive
    have hunused : t.auth.used.contains i.value = false := by
      rw [Bool.eq_false_iff]
      exact fun hused => hunspent (hs.used _ (hkeeps.used _ hused))
    have hverifier : t.auth.verifier = verifier := hkeeps.verifier.trans hs.verifier
    exact t.succeeds_of_live node call _ signature between (hkeeps.live hlive hnow) hnow
      (hs.sizes i (mem_of_latest hi).1) hunused (by rw [hstore]; exact hrecover)
      (by rw [hverifier]; exact hverify) (by rw [hstore]; exact hwritable) hidle hbetween hfinish

/-- Others present other bytes, no signature or the wrong call, and a write of the node itself fails;
then the node registers with its challenge. -/
theorem registered_after_failures :
    let node : NodeId := ⟨List.replicate 32 7, rfl⟩
    let other : NodeId := ⟨List.replicate 32 8, rfl⟩
    let blocks : Nat → Block := fun i => ⟨List.replicate 32 (UInt8.ofNat i), rfl⟩
    let verifier : Verifier := fun _ _ signature =>
      if signature = [1] then .ok () else .error (.authentication "bad signature")
    let store : Store := ⟨⟨[]⟩, .empty, some (.empty "data")⟩
    let register : Call := .register ⟨[], none, ""⟩
    let value : Bytes := List.replicate 32 0
    let ops := [AuthOp.call other register value [1], .call node register [0] [1],
      .call node register value [2], .call node .recover value [1], .call node register value [1],
      .finish node (some (.rename "no space")), .cleanup, .advance 9]
    let s := (start ⟨10, 100⟩ store verifier ⟨⟨0, 0⟩, 0⟩ blocks).run [.getChallenge node .register]
    (s.issues.map Issue.value).Nodup ∧ s.GrantsNothing ops ∧
      AuthOp.getChallenge node .register ∉ ops ∧ (s.run ops).auth.store = s.auth.store ∧
      (s.run ops).Succeeds node register value [1] [] none := by
  intro node other blocks verifier store register value ops
  have hall := (live_through_failures ⟨10, 100⟩ store verifier ⟨⟨0, 0⟩, 0⟩ blocks
    [.getChallenge node .register]).2.2 node .register ⟨value, 10⟩ ops
  -- what is needed of the state, which is not computed again below
  generalize hs : (start ⟨10, 100⟩ store verifier ⟨⟨0, 0⟩, 0⟩ blocks).run
    [.getChallenge node .register] = s at hall ⊢
  have hdistinct : (s.issues.map Issue.value).Nodup := by
    subst hs
    exact List.nodup_singleton _
  have hlive : s.auth.live.get? (node, .register) = some ⟨value, 10⟩ := by
    subst hs
    rfl
  have hwritable : s.auth.store.IsWritable := by
    subst hs
    rintro d ⟨⟩
    exact ⟨Slot.noConfusion, Slot.noConfusion⟩
  have hnone : (s.successes ops).all Option.isNone = true := by
    subst hs
    decide +kernel
  have hnow : (s.run ops).clock.steady < 10 := by
    subst hs
    decide +kernel
  have hidle : (s.run ops).calls.contains node = false := by
    subst hs
    decide +kernel
  have hnothing : s.GrantsNothing ops := fun granted hmem =>
    Option.isNone_iff_eq_none.1 (List.all_eq_true.1 hnone granted hmem)
  have hops : AuthOp.getChallenge node .register ∉ ops := by simp [ops]
  have hverify : verifier node (register.message node value) [1] = .ok () := if_pos rfl
  obtain ⟨hstore, hlater⟩ := hall hdistinct hlive hnothing hops
  refine ⟨hdistinct, hnothing, hops, hstore, ?_⟩
  apply (hlater hnow).2 register [1] [] rfl _ hverify hwritable hidle
  · intro granted hmem
    cases hmem
  · intro fault hmem
    cases hmem
  · exact fun hrecover => absurd hrecover (by simp [register])

end AuthRun

end SigningGateway
