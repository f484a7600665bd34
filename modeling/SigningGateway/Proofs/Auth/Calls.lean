import SigningGateway.Proofs.Auth.Record

/-!
# Which calls succeed

A call succeeds just if it presents the latest challenge handed out to its node for its scope, in
time and for the first time, with a signature that the verifier accepts, and if the store records
it; a recovery needs a registration before.  Cleanups have no part in it.

    succeeds ↔ latest, in time, unused, signed and recorded                   (call_succeeds_iff)
    successes of a run = successes of the run without cleanups                (successes_cleanup)
-/

namespace SigningGateway

namespace AuthRun

/-! ## Operations on other nodes -/

/-- A call under way stays under way until it ends. -/
theorem calls_step (s : AuthRun) (op : AuthOp) (node : NodeId) (o : OpenCall)
    (hfinish : ∀ fault, op ≠ .finish node fault) (ho : s.calls.get? node = some o) :
    (s.step op).2.calls.get? node = some o := by
  have hbusy : s.calls.contains node = true := by
    rw [Table.contains, ho]
    rfl
  cases op with
  | getChallenge node' scope =>
    rw [step]
    split <;> exact ho
  | call node' call challenge signature =>
    rw [step]
    split
    · exact ho
    · next hidle =>
      have hother : node ≠ node' := by
        rintro rfl
        exact hidle hbusy
      rw [enter]
      split
      · exact ho
      · rw [Table.get?_set, if_neg hother]
        exact ho
  | finish node' fault =>
    have hother : node ≠ node' := by
      rintro rfl
      exact hfinish fault rfl
    rw [step]
    split
    · rw [finish]
      split <;> rw [Table.get?_erase, if_neg hother] <;> exact ho
    · exact ho
  | cleanup => exact ho
  | advance duration => exact ho

theorem calls_run (s : AuthRun) (ops : List AuthOp) (node : NodeId) (o : OpenCall)
    (hfinish : ∀ fault, AuthOp.finish node fault ∉ ops) (ho : s.calls.get? node = some o) :
    (s.run ops).calls.get? node = some o := by
  induction ops generalizing s with
  | nil => exact ho
  | cons op ops ih =>
    apply ih
    · exact fun fault hmem => hfinish fault (List.mem_cons_of_mem _ hmem)
    · apply calls_step s op node o _ ho
      rintro fault rfl
      exact hfinish fault List.mem_cons_self

/-! ## One call -/

/-- The call is admitted, and granted when its write ends after the operations `between`. -/
def Succeeds (s : AuthRun) (node : NodeId) (call : Call) (challenge signature : Bytes)
    (between : List AuthOp) (fault : Option WriteFault) : Prop :=
  (s.step (.call node call challenge signature)).1 = .admitted ∧
    ∃ bundle, ((s.run (.call node call challenge signature :: between)).step
      (.finish node fault)).1 = .granted bundle

/-- A call of a node that holds its lock is admitted just if it passes. -/
theorem step_call (initial : Authenticator) (s : AuthRun) (h : s.Accurate initial)
    (node : NodeId) (call : Call) (challenge signature : Bytes)
    (hidle : s.calls.contains node = false) :
    ((s.step (.call node call challenge signature)).1 = .admitted ↔
        s.Passes node call challenge signature) ∧
      (s.Passes node call challenge signature →
        (s.step (.call node call challenge signature)).2.calls.get? node =
          some ⟨call, challenge, (s.minted node call challenge).1⟩) := by
  have hstep : s.step (.call node call challenge signature) =
      s.enter node call challenge signature := by
    rw [step, hidle]
    rfl
  rw [hstep, enter]
  rcases h.prepare_cases node call challenge signature with ⟨hpass, heq⟩ | ⟨hnot, cause, a, heq, -⟩
  · rw [heq]
    refine ⟨⟨fun _ => hpass, fun _ => rfl⟩, fun _ => ?_⟩
    exact (Table.get?_set _ _ _ _).trans (if_pos rfl)
  · rw [heq]
    refine ⟨⟨fun hadmitted => ?_, fun hpass => absurd hpass hnot⟩, fun hpass => absurd hpass hnot⟩
    cases hadmitted

/-- A call under way is granted just if the store records it. -/
theorem step_finish (s : AuthRun) (node : NodeId) (o : OpenCall) (fault : Option WriteFault)
    (ho : s.calls.get? node = some o) :
    (∃ bundle, (s.step (.finish node fault)).1 = .granted bundle) ↔
      ∃ store, s.auth.record fault s.clock.wall o.admission = .ok store := by
  have hstep : s.step (.finish node fault) = s.finish node o fault := by
    simp only [step, ho]
  rw [hstep]
  cases hrecord : s.auth.record fault s.clock.wall o.admission with
  | ok store => simp [s.finish_of_ok node o fault store hrecord]
  | error cause => simp [s.finish_of_error node o fault cause hrecord]

/-- A call succeeds just if it passes and the store records it. -/
theorem succeeds_iff (initial : Authenticator) (s : AuthRun) (h : s.Accurate initial)
    (node : NodeId) (call : Call) (challenge signature : Bytes) (between : List AuthOp)
    (fault : Option WriteFault) (hidle : s.calls.contains node = false)
    (hbetween : ∀ fault, AuthOp.finish node fault ∉ between) :
    let t := s.run (.call node call challenge signature :: between)
    s.Succeeds node call challenge signature between fault ↔
      s.Passes node call challenge signature ∧
        ∃ store, t.auth.record fault t.clock.wall (s.minted node call challenge).1 =
          .ok store := by
  intro t
  obtain ⟨hadmitted, hopen⟩ := step_call initial s h node call challenge signature hidle
  rw [Succeeds, hadmitted]
  apply and_congr_right
  intro hpass
  exact step_finish t node _ fault (calls_run _ between node _ hbetween (hopen hpass))

/-! ## Cleanups -/

/-- Two authenticators that differ at most in what a cleanup drops, and in their locks. -/
structure Alike (s s' : AuthRun) : Prop where
  settings : s'.auth.settings = s.auth.settings
  store : s'.auth.store = s.auth.store
  verifier : s'.auth.verifier = s.auth.verifier
  clock : s'.clock = s.clock
  entropy : s'.entropy = s.entropy
  calls : s'.calls = s.calls
  issues : s'.issues = s.issues
  grants : s'.grants = s.grants

theorem Alike.refl (s : AuthRun) : s.Alike s := ⟨rfl, rfl, rfl, rfl, rfl, rfl, rfl, rfl⟩

theorem Alike.trans {s s' s'' : AuthRun} (h : s.Alike s') (h' : s'.Alike s'') : s.Alike s'' :=
  ⟨h'.settings.trans h.settings, h'.store.trans h.store, h'.verifier.trans h.verifier,
    h'.clock.trans h.clock, h'.entropy.trans h.entropy, h'.calls.trans h.calls,
    h'.issues.trans h.issues, h'.grants.trans h.grants⟩

theorem Alike.symm {s s' : AuthRun} (h : s.Alike s') : s'.Alike s :=
  ⟨h.settings.symm, h.store.symm, h.verifier.symm, h.clock.symm, h.entropy.symm, h.calls.symm,
    h.issues.symm, h.grants.symm⟩

theorem alike_cleanup (s : AuthRun) : s.Alike (s.step .cleanup).2 :=
  ⟨rfl, rfl, rfl, rfl, rfl, rfl, rfl, rfl⟩

section
variable {initial : Authenticator} {s s' : AuthRun} (h : s.Accurate initial)
  (h' : s'.Accurate initial) (halike : s.Alike s')
include halike

theorem Alike.passes_iff (node : NodeId) (call : Call) (challenge signature : Bytes) :
    s'.Passes node call challenge signature ↔ s.Passes node call challenge signature := by
  rw [Passes, Passes, Fresh, Fresh, halike.settings, halike.store, halike.verifier, halike.clock,
    halike.issues, halike.grants]

theorem Alike.minted (node : NodeId) (call : Call) (challenge : Bytes) :
    s'.minted node call challenge = s.minted node call challenge := by
  rw [AuthRun.minted, AuthRun.minted, Authenticator.mint, Authenticator.mint, halike.store,
    halike.clock, halike.entropy]

theorem alike_issue (node : NodeId) (scope : Scope) :
    (s'.issue node scope).1 = (s.issue node scope).1 ∧
      (s.issue node scope).2.Alike (s'.issue node scope).2 := by
  rcases s with ⟨a, clock, entropy, calls, issues, grants⟩
  rcases s' with ⟨a', clock', entropy', calls', issues', grants'⟩
  obtain ⟨hsettings, hstore, hverifier, rfl, rfl, rfl, rfl, rfl⟩ := halike
  exact ⟨rfl, hsettings, hstore, hverifier, rfl, rfl, rfl, rfl, rfl⟩

theorem alike_finish (node : NodeId) (o : OpenCall) (fault : Option WriteFault) :
    (s'.finish node o fault).1.bundle? = (s.finish node o fault).1.bundle? ∧
      (s.finish node o fault).2.Alike (s'.finish node o fault).2 := by
  have hsame : s'.auth.record fault s'.clock.wall o.admission =
      s.auth.record fault s.clock.wall o.admission := by
    rw [Authenticator.record, Authenticator.record, halike.store, halike.clock]
  cases hrecord : s.auth.record fault s.clock.wall o.admission with
  | ok store =>
    have hframe := fun a : Authenticator =>
      a.useChallenge_frame s.clock.steady o.admission.node o.admission.scope
    rw [s.finish_of_ok node o fault store hrecord,
      s'.finish_of_ok node o fault store (hsame.trans hrecord), halike.clock, halike.calls,
      halike.grants]
    refine ⟨rfl, ?_, ?_, ?_, rfl, halike.entropy, rfl, halike.issues, rfl⟩
    · rw [(hframe _).1, (hframe _).1]
      exact halike.settings
    · rw [(hframe _).2.1, (hframe _).2.1]
    · rw [(hframe _).2.2, (hframe _).2.2]
      exact halike.verifier
  | error cause =>
    rw [s.finish_of_error node o fault cause hrecord,
      s'.finish_of_error node o fault cause (hsame.trans hrecord), halike.calls]
    exact ⟨rfl, halike.settings, halike.store, halike.verifier, halike.clock, halike.entropy, rfl,
      halike.issues, halike.grants⟩

include h h'

theorem alike_enter (node : NodeId) (call : Call) (challenge signature : Bytes) :
    (s'.enter node call challenge signature).1.bundle? =
        (s.enter node call challenge signature).1.bundle? ∧
      (s.enter node call challenge signature).2.Alike
        (s'.enter node call challenge signature).2 := by
  have hcases := h.prepare_cases node call challenge signature
  have hcases' := h'.prepare_cases node call challenge signature
  rw [halike.passes_iff, halike.minted] at hcases'
  rw [enter, enter]
  rcases hcases with ⟨hpass, heq⟩ | ⟨hnot, cause, a, heq, hsheds⟩ <;>
    rcases hcases' with ⟨hpass', heq'⟩ | ⟨hnot', cause', a', heq', hsheds'⟩
  · rw [heq, heq']
    refine ⟨rfl, halike.settings, halike.store, halike.verifier, halike.clock, rfl, ?_,
      halike.issues, halike.grants⟩
    rw [halike.calls]
  · exact absurd hpass hnot'
  · exact absurd hpass' hnot
  · rw [heq, heq']
    exact ⟨rfl, (hsheds'.settings.trans halike.settings).trans hsheds.settings.symm,
      (hsheds'.store.trans halike.store).trans hsheds.store.symm,
      (hsheds'.verifier.trans halike.verifier).trans hsheds.verifier.symm, halike.clock,
      halike.entropy, halike.calls, halike.issues, halike.grants⟩

/-- The same operation grants the same to both and leaves them alike. -/
theorem alike_step (op : AuthOp) :
    (s'.step op).1.bundle? = (s.step op).1.bundle? ∧ (s.step op).2.Alike (s'.step op).2 := by
  cases op with
  | getChallenge node scope =>
    rw [step, step, halike.calls]
    split
    · exact ⟨rfl, halike⟩
    · obtain ⟨hanswer, hissue⟩ := alike_issue halike node scope
      exact ⟨by rw [hanswer], hissue⟩
  | call node call challenge signature =>
    rw [step, step, halike.calls]
    split
    · exact ⟨rfl, halike⟩
    · exact alike_enter h h' halike node call challenge signature
  | finish node fault =>
    rw [step, step, halike.calls]
    split
    · exact alike_finish halike node _ fault
    · exact ⟨rfl, halike⟩
  | cleanup => exact ⟨rfl, ((alike_cleanup s).symm.trans halike).trans (alike_cleanup s')⟩
  | advance duration =>
    refine ⟨rfl, halike.settings, halike.store, halike.verifier, ?_, halike.entropy, halike.calls,
      halike.issues, halike.grants⟩
    show s'.clock.advance duration = s.clock.advance duration
    rw [halike.clock]

end

/-- The operations of a run other than its cleanups. -/
def withoutCleanups (ops : List AuthOp) : List AuthOp := ops.filter fun op => !op.isCleanup

/-- What a run grants does not depend on its cleanups. -/
theorem successes_cleanup (initial : Authenticator) (s s' : AuthRun) (h : s.Accurate initial)
    (h' : s'.Accurate initial) (halike : s.Alike s') (ops : List AuthOp)
    (hdistinct : ((s.run ops).issues.map Issue.value).Nodup ∨
      ((s'.run (withoutCleanups ops)).issues.map Issue.value).Nodup) :
    s'.successes (withoutCleanups ops) = s.successes ops ∧
      (s.run ops).Alike (s'.run (withoutCleanups ops)) := by
  induction ops generalizing s s' with
  | nil => exact ⟨rfl, halike⟩
  | cons op ops ih =>
    by_cases hcleanup : op = .cleanup
    · subst hcleanup
      have hafter := h.sheds _ (s.auth.sheds_cleanup s.clock.steady) s.entropy rfl s.calls
        fun _ _ ho => Or.inl ho
      exact ih _ s' hafter h' ((alike_cleanup s).symm.trans halike) hdistinct
    · obtain ⟨hanswer, hstep⟩ := alike_step h h' halike op
      have hkept : withoutCleanups (op :: ops) = op :: withoutCleanups ops := by
        cases op <;> first | rfl | exact absurd rfl hcleanup
      have hcons : ∀ (r : AuthRun) (rest : List AuthOp),
          r.successes (op :: rest) = (r.step op).1.bundle? :: (r.step op).2.successes rest := by
        intro r rest
        cases op <;> first | rfl | exact absurd rfl hcleanup
      rw [hkept] at hdistinct ⊢
      -- the challenges handed out so far are the same in both
      have hboth : ((s.step op).2.issues.map Issue.value).Nodup := by
        rcases hdistinct with hleft | hright
        · exact distinct_of_run _ ops hleft
        · rw [← hstep.issues]
          exact distinct_of_run _ (withoutCleanups ops) hright
      have hafter := accurate_step initial s h op hboth
      have hafter' := accurate_step initial s' h' op (by rw [hstep.issues]; exact hboth)
      obtain ⟨hrest, hrun⟩ := ih _ _ hafter hafter' hstep hdistinct
      exact ⟨by rw [hcons, hcons, hanswer, hrest], hrun⟩

/-- Runs that differ in their cleanups only grant the same. -/
theorem successes_congr (initial : Authenticator) (s : AuthRun) (h : s.Accurate initial)
    (ops ops' : List AuthOp) (hsame : withoutCleanups ops = withoutCleanups ops')
    (hdistinct : ((s.run ops).issues.map Issue.value).Nodup) :
    s.successes ops = s.successes ops' := by
  obtain ⟨hfirst, hrun⟩ := successes_cleanup initial s s h h (.refl s) ops (Or.inl hdistinct)
  have hwithout : ((s.run (withoutCleanups ops')).issues.map Issue.value).Nodup := by
    rw [← hsame, hrun.issues]
    exact hdistinct
  obtain ⟨hsecond, -⟩ := successes_cleanup initial s s h h (.refl s) ops' (Or.inr hwithout)
  rw [← hfirst, ← hsecond, hsame]

/-! ## Every run -/

/-- In a run whose challenges differ, a call of a node that holds its lock succeeds just if it
presents the latest challenge handed out to the node for its scope, within the time to live and
before any call for that scope succeeded with it, if the verifier accepts its signature, and if the
store records it in the end; a recovery needs a registered node.  So a challenge that was handed out
to another node, for another scope, or before the latest one is of no use, nor is one that is over
or used up; and cleanups change nothing about which calls succeed. -/
theorem call_succeeds_iff (settings : AuthSettings) (store : Store) (verifier : Verifier)
    (clock : Clock) (blocks : Nat → Block) :
    (∀ (before between : List AuthOp) (node : NodeId) (call : Call) (challenge signature : Bytes)
        (fault : Option WriteFault),
      let s := (start settings store verifier clock blocks).run before
      let t := s.run (.call node call challenge signature :: between)
      s.calls.contains node = false → (∀ fault, AuthOp.finish node fault ∉ between) →
      (s.issues.map Issue.value).Nodup →
      (s.Succeeds node call challenge signature between fault ↔
        (call = .recover → store.isRegistered node = true ∨
          ∃ g ∈ s.grants, g.node = node ∧ g.scope = .register) ∧
        (∃ i, latest s.issues node call.scope = some i ∧ i.value = challenge ∧
          s.clock.steady < i.time + settings.challengeTtl) ∧
        (∀ g ∈ s.grants, g.scope = call.scope → g.challenge ≠ challenge) ∧
        verifier node (call.message node challenge) signature = .ok () ∧
        ∃ recorded, t.auth.record fault t.clock.wall (s.minted node call challenge).1 =
          .ok recorded) ∧
      (∀ i ∈ s.issues, i.value = challenge →
        s.Succeeds node call challenge signature between fault →
        i.node = node ∧ i.scope = call.scope ∧ latest s.issues node call.scope = some i ∧
          s.clock.steady < i.time + settings.challengeTtl ∧
          ∀ g ∈ s.grants, g.challenge ≠ challenge)) ∧
    ∀ ops ops' : List AuthOp, withoutCleanups ops = withoutCleanups ops' →
      let s := start settings store verifier clock blocks
      ((s.run ops).issues.map Issue.value).Nodup → s.successes ops = s.successes ops' := by
  have hstart := accurate_start settings store verifier clock blocks
  refine ⟨?_, fun ops ops' hsame hdistinct => successes_congr _ _ hstart ops ops' hsame hdistinct⟩
  intro before between node call challenge signature fault s t hidle hbetween hdistinct
  have hs : s.Accurate (.start settings store verifier) := accurate_run _ _ hstart before hdistinct
  have hsettings : s.auth.settings = settings := hs.settings
  have hverifier : s.auth.verifier = verifier := hs.verifier
  have hsucceeds : s.Succeeds node call challenge signature between fault ↔ _ :=
    succeeds_iff _ s hs node call challenge signature between fault hidle hbetween
  have hregistered : s.auth.store.isRegistered node = true ↔ store.isRegistered node = true ∨
      ∃ g ∈ s.grants, g.node = node ∧ g.scope = .register := hs.registered node
  rw [hsucceeds, Passes, Fresh, hsettings, hverifier, hregistered]
  constructor
  · constructor
    · rintro ⟨⟨hrecover, ⟨i, hi, rfl, hunspent, hnow⟩, hverify⟩, hrecord⟩
      refine ⟨hrecover, ⟨i, hi, rfl, hnow⟩, ?_, hverify, hrecord⟩
      intro g hg _ hchallenge
      exact hunspent ⟨g, hg, hchallenge⟩
    · rintro ⟨hrecover, ⟨i, hi, rfl, hnow⟩, hunused, hverify, hrecord⟩
      refine ⟨⟨hrecover, ⟨i, hi, rfl, ?_, hnow⟩, hverify⟩, hrecord⟩
      rw [hs.spent_iff node call.scope i hi]
      rintro ⟨g, hg, hscope, hchallenge⟩
      exact hunused g hg hscope hchallenge
  · rintro i hi rfl ⟨⟨-, ⟨j, hj, hvalue, hunspent, hnow⟩, -⟩, -⟩
    obtain ⟨hmem, hnode, hscope⟩ := mem_of_latest hj
    obtain rfl := issue_of_value hs.distinct hmem hi hvalue
    refine ⟨hnode, hscope, hj, hnow, ?_⟩
    intro g hg hchallenge
    exact hunspent ⟨g, hg, hchallenge⟩

/-- A node that asks for a challenge and registers with it, when the verifier accepts everything and
the store is kept in memory. -/
theorem first_registration_succeeds :
    let node : NodeId := ⟨List.replicate 32 7, rfl⟩
    let blocks : Nat → Block := fun i => ⟨List.replicate 32 (UInt8.ofNat i), rfl⟩
    let s := (start ⟨10, 100⟩ (.inMemory ⟨[]⟩) (fun _ _ _ => .ok ()) ⟨⟨0, 0⟩, 0⟩ blocks).run
      [.getChallenge node .register, .advance 9]
    s.calls.contains node = false ∧ (∀ fault, AuthOp.finish node fault ∉ [AuthOp.cleanup]) ∧
      (s.issues.map Issue.value).Nodup ∧
      s.Succeeds node (.register ⟨[], none, ""⟩) (List.replicate 32 0) [] [.cleanup] none := by
  intro node blocks s
  have hidle : s.calls.contains node = false := rfl
  have hbetween : ∀ fault, AuthOp.finish node fault ∉ [AuthOp.cleanup] := by simp
  have hdistinct : (s.issues.map Issue.value).Nodup := List.nodup_singleton _
  refine ⟨hidle, hbetween, hdistinct, ?_⟩
  have hiff := ((call_succeeds_iff ⟨10, 100⟩ (.inMemory ⟨[]⟩) (fun _ _ _ => .ok ()) ⟨⟨0, 0⟩, 0⟩
    blocks).1 [.getChallenge node .register, .advance 9] [.cleanup] node (.register ⟨[], none, ""⟩)
    (List.replicate 32 0) [] none hidle hbetween hdistinct).1
  refine hiff.2 ⟨?_, ⟨_, rfl, rfl, by decide⟩, ?_, rfl, ?_⟩
  · intro hrecover
    cases hrecover
  · intro g hg
    cases hg
  · exact ⟨_, rfl⟩

end AuthRun

end SigningGateway
