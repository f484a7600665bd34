import SigningGateway.Proofs.Auth.Calls

/-!
# Challenges that were used up

A challenge with which a call succeeded is remembered until a cleanup finds its retention over.  Up
to then every call that presents it is told a replay, and after that it is refused like a challenge
that was never handed out: it never becomes live again.  Nothing else is told a replay.

    remembered after (run s ops) = remembered in s, less what late cleanups drop      (used_run)
    call succeeds with c → every later call with c is refused               (used_challenge_refused)
-/

namespace SigningGateway

namespace Authenticator

/-! ## Why a challenge is refused -/

/-- A challenge that was used up is told to be a replay; other refusals are told apart from it. -/
theorem checkChallenge_error (a : Authenticator) (now : Nat) (node : NodeId) (scope : Scope)
    (presented : Bytes) (cause : Error)
    (h : (a.checkChallenge now node scope presented).1 = .error cause) :
    if presented.length = challengeSize ∧ a.used.contains presented = true then cause = .replay
    else ∃ reason, cause = .authentication reason := by
  unfold checkChallenge at h
  split at h
  · next hused =>
    rw [if_pos (by simpa using hused)]
    exact (Except.error.inj h).symm
  · next hused =>
    rw [if_neg (by simpa using hused)]
    split at h
    · exact ⟨_, (Except.error.inj h).symm⟩
    · split at h
      · exact ⟨_, (Except.error.inj h).symm⟩
      · split at h
        · exact ⟨_, (Except.error.inj h).symm⟩
        · cases h

/-! ## What stays remembered -/

theorem used_checkChallenge (a : Authenticator) (now : Nat) (node : NodeId) (scope : Scope)
    (presented : Bytes) : (a.checkChallenge now node scope presented).2.used = a.used := by
  unfold checkChallenge
  split
  · rfl
  · split
    · rfl
    · split
      · rfl
      · split <;> rfl

theorem get?_live_checkChallenge (a : Authenticator) (now : Nat) (node : NodeId) (scope : Scope)
    (presented : Bytes) (key : NodeId × Scope) (hkey : key ≠ (node, scope)) :
    (a.checkChallenge now node scope presented).2.live.get? key = a.live.get? key := by
  unfold checkChallenge
  split
  · rfl
  · split
    · rfl
    · split
      · rfl
      · split
        · exact (Table.get?_erase _ _ _).trans (if_neg hkey)
        · rfl

/-- The first half of a call does no more than check the challenge and take the lock. -/
theorem prepare_state (a : Authenticator) (clock : Clock) (node : NodeId) (scope : Scope)
    (metadata : Option Metadata) (challenge message signature : Bytes) (name : String)
    (e : Entropy) :
    ∃ held, (a.prepare clock node scope metadata challenge message signature name e).1.2 =
      (a.checkChallenge clock.steady node scope challenge).2.lock node held := by
  unfold prepare
  split
  · next cause a' heq => exact ⟨false, by rw [heq]⟩
  · next a' heq =>
    rw [heq]
    split
    · exact ⟨false, rfl⟩
    · exact ⟨true, rfl⟩

/-- Using a challenge up remembers it. -/
theorem get?_used_useChallenge (a : Authenticator) (now : Nat) (node : NodeId) (scope : Scope)
    (value : Bytes) :
    (a.useChallenge now node scope).used.get? value =
      if (a.live.get? (node, scope)).map Challenge.value = some value then some ⟨node, now⟩
      else a.used.get? value := by
  unfold useChallenge
  cases a.live.get? (node, scope) with
  | none => simp
  | some c => simp [Table.get?_set, eq_comm]

end Authenticator

namespace AuthRun

variable {initial : Authenticator}

/-! ## Calls that are refused -/

/-- A call that begins leaves the authenticator as its first half does. -/
theorem auth_enter (s : AuthRun) (node : NodeId) (call : Call) (challenge signature : Bytes) :
    (s.enter node call challenge signature).2.auth =
      (s.prepare node call challenge signature).1.2 := by
  rw [enter]
  split <;> next heq => rw [heq]

/-- A call that begins does no more than check the challenge and take the lock. -/
theorem enter_state (s : AuthRun) (node : NodeId) (call : Call) (challenge signature : Bytes) :
    (s.enter node call challenge signature).2.auth.used = s.auth.used ∧
      ∀ key, key ≠ (node, call.scope) →
        (s.enter node call challenge signature).2.auth.live.get? key = s.auth.live.get? key := by
  have hprepare : (∃ held, (s.prepare node call challenge signature).1.2 =
        (s.auth.checkChallenge s.clock.steady node call.scope challenge).2.lock node held) ∨
      (s.prepare node call challenge signature).1.2 = s.auth.lock node false := by
    cases call with
    | register metadata => exact Or.inl (s.auth.prepare_state _ _ _ _ _ _ _ _ _)
    | recover =>
      simp only [prepare, Authenticator.prepareRecover]
      split
      · exact Or.inl (s.auth.prepare_state _ _ _ _ _ _ _ _ _)
      · exact Or.inr rfl
  rw [auth_enter]
  rcases hprepare with ⟨held, heq⟩ | heq
  · rw [heq]
    exact ⟨s.auth.used_checkChallenge _ _ _ _,
      fun key hkey => s.auth.get?_live_checkChallenge _ _ _ _ key hkey⟩
  · rw [heq]
    exact ⟨rfl, fun _ _ => rfl⟩

/-- A call that ends leaves everything as it was, or is recorded and uses its challenge up. -/
theorem finish_state (s : AuthRun) (h : s.Accurate initial) (node : NodeId) (o : OpenCall)
    (ho : s.calls.get? node = some o) (fault : Option WriteFault) :
    ((s.finish node o fault).2.auth.used = s.auth.used ∧
      (s.finish node o fault).2.auth.live = s.auth.live) ∨
    ∃ store, (s.finish node o fault).2.auth =
      ({ s.auth.lock node false with store } : Authenticator).useChallenge s.clock.steady node
        o.call.scope := by
  cases hrecord : s.auth.record fault s.clock.wall o.admission with
  | ok store =>
    right
    exact ⟨store, by rw [h.finish_granted node o ho fault store hrecord]⟩
  | error cause =>
    rw [s.finish_of_error node o fault cause hrecord]
    exact Or.inl ⟨rfl, rfl⟩

/-- A call whose challenge does not pass is refused for that reason. -/
theorem refused_of_check (s : AuthRun) (node : NodeId) (call : Call) (challenge signature : Bytes)
    (cause : Error) (hidle : s.calls.contains node = false)
    (hregistered : call = .recover → s.auth.store.isRegistered node = true)
    (hcheck : (s.auth.checkChallenge s.clock.steady node call.scope challenge).1 = .error cause) :
    (s.step (.call node call challenge signature)).1 = .refused cause := by
  have hprepare : (s.prepare node call challenge signature).1.1 = .error cause := by
    rcases heq : s.auth.checkChallenge s.clock.steady node call.scope challenge with ⟨_, a⟩
    rw [heq] at hcheck
    obtain rfl : _ = Except.error cause := hcheck
    cases call with
    | register metadata =>
      simp only [Call.scope] at heq
      simp only [prepare, Authenticator.prepareRegister, Authenticator.prepare, heq]
    | recover =>
      simp only [Call.scope] at heq
      simp only [prepare, Authenticator.prepareRecover, hregistered rfl, if_true,
        Authenticator.prepare, heq]
  rw [step, hidle, if_neg Bool.false_ne_true, enter]
  rcases heq : s.prepare node call challenge signature with ⟨⟨answer, a⟩, e⟩
  rw [heq] at hprepare
  obtain rfl : answer = .error cause := hprepare
  rfl

/-- A call that presents what was used up is refused, as a replay as long as this is remembered. -/
theorem refused_of_spent (s : AuthRun) (h : s.Accurate initial) (node : NodeId) (call : Call)
    (challenge signature : Bytes) (hidle : s.calls.contains node = false)
    (hregistered : call = .recover → s.auth.store.isRegistered node = true)
    (hspent : spent s.grants challenge) :
    if s.auth.used.contains challenge = true then
      (s.step (.call node call challenge signature)).1 = .refused .replay
    else ∃ reason, (s.step (.call node call challenge signature)).1 =
      .refused (.authentication reason) := by
  obtain ⟨g, hg, rfl⟩ := hspent
  have hsize : g.challenge.length = challengeSize := by
    obtain ⟨i, hi, -, -, hvalue⟩ := h.granted g hg
    rw [← hvalue]
    exact h.sizes i hi
  cases hcheck : (s.auth.checkChallenge s.clock.steady node call.scope g.challenge).1 with
  | ok _ =>
    obtain ⟨-, -, -, hunspent, -⟩ := (h.check_iff node call.scope g.challenge).1 hcheck
    exact absurd ⟨g, hg, rfl⟩ hunspent
  | error cause =>
    have hcause := s.auth.checkChallenge_error _ _ _ _ cause hcheck
    rw [s.refused_of_check node call g.challenge signature cause hidle hregistered hcheck]
    simp only [hsize, true_and] at hcause
    split at hcause
    · next hused => rw [if_pos hused, hcause]
    · next hforgotten =>
      obtain ⟨reason, rfl⟩ := hcause
      rw [if_neg hforgotten]
      exact ⟨reason, rfl⟩

/-- What is refused as a replay though no call has succeeded with it was live: the refusal is that
of the verifier. -/
theorem fresh_of_replay (s : AuthRun) (h : s.Accurate initial) (node : NodeId) (call : Call)
    (challenge signature : Bytes) (hunspent : ¬spent s.grants challenge)
    (hreplay : (s.step (.call node call challenge signature)).1 = .refused .replay) :
    s.Fresh node call.scope challenge := by
  cases hidle : s.calls.contains node with
  | true =>
    rw [step, hidle, if_pos rfl] at hreplay
    cases hreplay
  | false =>
    by_cases hregistered : call = .recover → s.auth.store.isRegistered node = true
    · rw [← h.check_iff]
      cases hcheck : (s.auth.checkChallenge s.clock.steady node call.scope challenge).1 with
      | ok _ => rfl
      | error cause =>
        rw [s.refused_of_check node call challenge signature cause hidle hregistered hcheck]
          at hreplay
        have hcause := s.auth.checkChallenge_error _ _ _ _ cause hcheck
        obtain rfl : cause = .replay := AuthAnswer.refused.inj hreplay
        split at hcause
        · next hused => exact absurd (h.used challenge hused.2) hunspent
        · obtain ⟨reason, hreason⟩ := hcause
          cases hreason
    · simp only [Classical.not_imp, Bool.not_eq_true] at hregistered
      obtain ⟨rfl, hnot⟩ := hregistered
      simp only [step, hidle, Bool.false_eq_true, if_false, enter, prepare,
        Authenticator.prepareRecover, hnot] at hreplay
      cases hreplay

/-! ## The live challenge of a call under way -/

/-- The times of the cleanups of a run. -/
def cleanups (s : AuthRun) : List AuthOp → List Nat
  | [] => []
  | .cleanup :: ops => s.clock.steady :: cleanups (s.step .cleanup).2 ops
  | op :: ops => cleanups (s.step op).2 ops

theorem cleanups_cons (s : AuthRun) (op : AuthOp) (ops : List AuthOp) :
    s.cleanups (op :: ops) =
      if op.isCleanup then s.clock.steady :: (s.step op).2.cleanups ops
      else (s.step op).2.cleanups ops := by
  cases op <;> rfl

/-- Some cleanup of a run finds the time to live of a challenge over. -/
def FindsOver (s : AuthRun) (ops : List AuthOp) (challenge : Bytes) : Prop :=
  ∃ time ∈ s.cleanups ops, ∃ i ∈ s.issues,
    i.value = challenge ∧ i.time + s.auth.settings.challengeTtl ≤ time

instance (s : AuthRun) (ops : List AuthOp) (challenge : Bytes) :
    Decidable (s.FindsOver ops challenge) :=
  inferInstanceAs (Decidable (∃ time ∈ s.cleanups ops, ∃ i ∈ s.issues,
    i.value = challenge ∧ i.time + s.auth.settings.challengeTtl ≤ time))

/-- Nothing but a cleanup touches the live challenges of a node whose call is under way, and a
cleanup drops them just if they are over. -/
theorem get?_live_step (s : AuthRun) (h : s.Accurate initial) (op : AuthOp) (node : NodeId)
    (scope : Scope) (hbusy : s.calls.contains node = true)
    (hfinish : ∀ fault, op ≠ .finish node fault) :
    (s.step op).2.auth.live.get? (node, scope) =
      (s.auth.live.get? (node, scope)).filter fun c =>
        !(op.isCleanup && c.isExpired s.clock.steady) := by
  have hkeep : op.isCleanup = false →
      (s.auth.live.get? (node, scope)).filter (fun c =>
        !(op.isCleanup && c.isExpired s.clock.steady)) = s.auth.live.get? (node, scope) := by
    intro hnone
    rw [hnone]
    cases s.auth.live.get? (node, scope) <;> rfl
  cases op with
  | getChallenge node' scope' =>
    rw [hkeep rfl, step]
    split
    · rfl
    · next hidle =>
      have hother : node ≠ node' := by
        rintro rfl
        exact hidle hbusy
      exact (Table.get?_set _ _ _ _).trans (if_neg fun hkey => hother (Prod.mk.inj hkey).1)
  | call node' call challenge signature =>
    rw [hkeep rfl, step]
    split
    · rfl
    · next hidle =>
      have hother : node ≠ node' := by
        rintro rfl
        exact hidle hbusy
      exact (s.enter_state node' call challenge signature).2 _
        fun hkey => hother (Prod.mk.inj hkey).1
  | finish node' fault =>
    have hother : node ≠ node' := by
      rintro rfl
      exact hfinish fault rfl
    rw [hkeep rfl, step]
    split
    · next o ho =>
      rcases s.finish_state h node' o ho fault with ⟨-, hsame⟩ | ⟨store, hauth⟩
      · rw [hsame]
      · rw [hauth, Authenticator.get?_live_useChallenge,
          if_neg fun hkey => hother (Prod.mk.inj hkey).1]
        rfl
    · rfl
  | cleanup => exact Table.get?_filter _ _ _
  | advance duration => exact (hkeep rfl).symm

/-- The live challenge of a call under way stays live just as long as no cleanup finds it over. -/
theorem get?_live_run (s : AuthRun) (h : s.Accurate initial) (ops : List AuthOp) (node : NodeId)
    (o : OpenCall) (scope : Scope) (hdistinct : ((s.run ops).issues.map Issue.value).Nodup)
    (ho : s.calls.get? node = some o) (hfinish : ∀ fault, AuthOp.finish node fault ∉ ops) :
    (s.run ops).auth.live.get? (node, scope) =
      (s.auth.live.get? (node, scope)).filter fun c =>
        (s.cleanups ops).all fun time => !c.isExpired time := by
  induction ops generalizing s with
  | nil =>
    rw [run_nil]
    cases s.auth.live.get? (node, scope) <;> rfl
  | cons op ops ih =>
    have hother : ∀ fault, op ≠ .finish node fault := by
      rintro fault rfl
      exact hfinish fault List.mem_cons_self
    have hbusy : s.calls.contains node = true := by rw [Table.contains, ho]; rfl
    have hafter := accurate_step initial s h op (distinct_of_run _ ops hdistinct)
    have hlater := ih (s.step op).2 hafter hdistinct (calls_step s op node o hother ho)
      fun fault hmem => hfinish fault (List.mem_cons_of_mem _ hmem)
    rw [run_cons, hlater, s.get?_live_step h op node scope hbusy hother, Option.filter_filter,
      cleanups_cons]
    cases op.isCleanup <;> simp

/-! ## What stays remembered -/

theorem grants_step (s : AuthRun) (op : AuthOp) : s.grants <+: (s.step op).2.grants := by
  cases op with
  | getChallenge node scope =>
    rw [step]
    split <;> exact List.prefix_rfl
  | call node call challenge signature =>
    rw [step]
    split
    · exact List.prefix_rfl
    · rw [enter]
      split <;> exact List.prefix_rfl
  | finish node fault =>
    rw [step]
    split
    · rw [finish]
      split
      · exact List.prefix_rfl
      · exact List.prefix_append _ _
    · exact List.prefix_rfl
  | cleanup => exact List.prefix_rfl
  | advance duration => exact List.prefix_rfl

theorem spent_step (s : AuthRun) (op : AuthOp) (value : Bytes) (h : spent s.grants value) :
    spent (s.step op).2.grants value := by
  obtain ⟨g, hg, hvalue⟩ := h
  exact ⟨g, (s.grants_step op).subset hg, hvalue⟩

theorem spent_run (s : AuthRun) (ops : List AuthOp) (value : Bytes) (h : spent s.grants value) :
    spent (s.run ops).grants value := by
  induction ops generalizing s with
  | nil => exact h
  | cons op ops ih => exact ih _ (s.spent_step op value h)

theorem steady_step (s : AuthRun) (op : AuthOp) :
    s.clock.steady ≤ (s.step op).2.clock.steady := by
  rcases s.clock_step op with heq | ⟨duration, heq⟩
  · exact Nat.le_of_eq (congrArg Clock.steady heq.symm)
  · rw [heq]
    exact Nat.le_add_right _ _

/-- What was used up stays remembered as it is, until a cleanup finds its retention over. -/
theorem used_step (s : AuthRun) (h : s.Accurate initial) (op : AuthOp) (value : Bytes)
    (hspent : spent s.grants value) :
    (s.step op).2.auth.used.get? value =
      if op.isCleanup then
        (s.auth.used.get? value).filter fun u =>
          s.clock.steady - u.usedAt < s.auth.settings.replayRetention
      else s.auth.used.get? value := by
  cases op with
  | getChallenge node scope =>
    rw [step]
    split <;> rfl
  | call node call challenge signature =>
    rw [step]
    split
    · rfl
    · rw [(s.enter_state node call challenge signature).1]
      rfl
  | finish node fault =>
    rw [step]
    split
    · next o ho =>
      rcases s.finish_state h node o ho fault with ⟨hsame, -⟩ | ⟨store, hauth⟩
      · rw [hsame]
        rfl
      · -- the challenge that is used up now was not used up before
        obtain ⟨-, i, -, -, hunspent⟩ := h.calls node o ho
        rw [hauth, Authenticator.get?_used_useChallenge, if_neg]
        · rfl
        · intro hvalue
          obtain ⟨c, hc, rfl⟩ := Option.map_eq_some_iff.1 hvalue
          rw [h.live_of_call node o ho c hc] at hspent
          exact hunspent hspent
    · rfl
  | cleanup => exact Table.get?_filter _ _ _
  | advance duration => rfl

/-- Nothing that was used up is remembered anew. -/
theorem used_of_run (s : AuthRun) (h : s.Accurate initial) (ops : List AuthOp) (value : Bytes)
    (hdistinct : ((s.run ops).issues.map Issue.value).Nodup) (hspent : spent s.grants value)
    (u : UsedChallenge) (hu : (s.run ops).auth.used.get? value = some u) :
    s.auth.used.get? value = some u := by
  induction ops generalizing s with
  | nil => exact hu
  | cons op ops ih =>
    have hafter := accurate_step initial s h op (distinct_of_run _ ops hdistinct)
    have hstep := ih _ hafter hdistinct (s.spent_step op value hspent) hu
    rw [s.used_step h op value hspent] at hstep
    split at hstep
    · exact (Option.filter_eq_some_iff.1 hstep).1
    · exact hstep

/-- What was used up is remembered just as long as no cleanup finds its retention over. -/
theorem used_run (s : AuthRun) (h : s.Accurate initial) (ops : List AuthOp) (value : Bytes)
    (hdistinct : ((s.run ops).issues.map Issue.value).Nodup) (hspent : spent s.grants value)
    (u : UsedChallenge) (hu : s.auth.used.get? value = some u) (hpast : u.usedAt ≤ s.clock.steady) :
    (s.run ops).auth.used.get? value =
      if ∃ time ∈ s.cleanups ops, u.usedAt + initial.settings.replayRetention ≤ time then none
      else some u := by
  induction ops generalizing s with
  | nil => simpa [cleanups] using hu
  | cons op ops ih =>
    have hafter := accurate_step initial s h op (distinct_of_run _ ops hdistinct)
    have hspent' := s.spent_step op value hspent
    have hstep := s.used_step h op value hspent
    rw [hu, h.settings] at hstep
    have hlater := ih _ hafter hdistinct hspent'
    rw [cleanups_cons, run_cons]
    cases hcleanup : op.isCleanup with
    | false =>
      rw [hcleanup, if_neg Bool.false_ne_true] at hstep
      rw [if_neg Bool.false_ne_true]
      exact hlater hstep (Nat.le_trans hpast (s.steady_step op))
    | true =>
      rw [hcleanup, if_pos rfl] at hstep
      simp only [if_true, List.mem_cons, exists_eq_or_imp]
      by_cases hover : u.usedAt + initial.settings.replayRetention ≤ s.clock.steady
      · rw [if_pos (Or.inl hover)]
        rw [Option.filter_some, if_neg (by simp only [decide_eq_true_eq]; omega)] at hstep
        cases hget : ((s.step op).2.run ops).auth.used.get? value with
        | none => rfl
        | some u' =>
          have hback := used_of_run _ hafter ops value hdistinct hspent' u' hget
          rw [hstep] at hback
          cases hback
      · rw [Option.filter_some, if_pos (by simp only [decide_eq_true_eq]; omega)] at hstep
        rw [hlater hstep (Nat.le_trans hpast (s.steady_step op))]
        simp only [hover, false_or]

/-! ## Calls that succeed -/

/-- A call that passes leaves its challenge live. -/
theorem live_of_passes (s : AuthRun) (h : s.Accurate initial) (node : NodeId) (call : Call)
    (challenge signature : Bytes) (hidle : s.calls.contains node = false)
    (hpass : s.Passes node call challenge signature) :
    ∃ i ∈ s.issues, i.value = challenge ∧
      (s.step (.call node call challenge signature)).2.auth.live.get? (node, call.scope) =
        some ⟨challenge, i.time + s.auth.settings.challengeTtl⟩ := by
  obtain ⟨i, hi, rfl, hunspent, hnow⟩ := hpass.2.1
  refine ⟨i, (mem_of_latest hi).1, rfl, ?_⟩
  rcases h.prepare_cases node call i.value signature with ⟨-, heq⟩ | ⟨hnot, -⟩
  · rw [step, hidle, if_neg Bool.false_ne_true, enter, heq]
    exact h.kept node call.scope i hi hunspent hnow
  · exact absurd hpass hnot

/-- The challenge of a call that waits for its write is live unless a cleanup found it over. -/
theorem live_iff_not_findsOver (s : AuthRun) (h : s.Accurate initial) (node : NodeId) (call : Call)
    (challenge signature : Bytes) (between : List AuthOp)
    (hidle : s.calls.contains node = false) (hfinish : ∀ fault, AuthOp.finish node fault ∉ between)
    (hpass : s.Passes node call challenge signature) :
    let written := s.run (.call node call challenge signature :: between)
    (written.issues.map Issue.value).Nodup →
      ((written.auth.live.get? (node, call.scope)).map Challenge.value = some challenge ↔
        ¬s.FindsOver (.call node call challenge signature :: between) challenge) := by
  intro written hdistinct
  have hbegun := accurate_step initial s h (.call node call challenge signature)
    (distinct_of_run _ between hdistinct)
  have ho := (step_call initial s h node call challenge signature hidle).2 hpass
  obtain ⟨i, hi, rfl, hbegins⟩ := s.live_of_passes h node call challenge signature hidle hpass
  have hrun : written.auth.live.get? (node, call.scope) = _ :=
    get?_live_run _ hbegun between node _ call.scope hdistinct ho hfinish
  rw [hbegins, Option.filter_some] at hrun
  have hall : (((s.step (.call node call i.value signature)).2.cleanups between).all fun time =>
        !(Challenge.mk i.value (i.time + s.auth.settings.challengeTtl)).isExpired time) = true ↔
      ¬s.FindsOver (.call node call i.value signature :: between) i.value := by
    simp only [List.all_eq_true, Challenge.isExpired, Bool.not_eq_true', decide_eq_false_iff_not]
    constructor
    · rintro hkept ⟨time, htime, j, hj, hvalue, hover⟩
      obtain rfl := issue_of_value h.distinct hj hi hvalue
      exact hkept time htime hover
    · exact fun hnever time htime hover => hnever ⟨time, htime, i, hi, rfl, hover⟩
  rw [hrun, ← hall]
  split
  · next hkept => exact ⟨fun _ => hkept, fun _ => rfl⟩
  · next hgone =>
    constructor
    · intro hsome
      cases hsome
    · exact fun hkept => absurd hkept hgone

/-- The challenge of a call under way is not remembered as used up. -/
theorem get?_used_of_call (s : AuthRun) (h : s.Accurate initial) (node : NodeId) (o : OpenCall)
    (ho : s.calls.get? node = some o) : s.auth.used.get? o.challenge = none := by
  obtain ⟨-, i, -, -, hunspent⟩ := h.calls node o ho
  cases hused : s.auth.used.get? o.challenge with
  | none => rfl
  | some u => exact absurd (h.used _ (by rw [Table.contains, hused]; rfl)) hunspent

/-- A call that succeeds has used its challenge up, and this is remembered unless a cleanup came
while the call waited for its write and found the challenge over. -/
theorem get?_used_of_succeeds (s : AuthRun) (h : s.Accurate initial) (node : NodeId) (call : Call)
    (challenge signature : Bytes) (between : List AuthOp) (fault : Option WriteFault)
    (hidle : s.calls.contains node = false) (hfinish : ∀ fault, AuthOp.finish node fault ∉ between)
    (hsucceeds : s.Succeeds node call challenge signature between fault) :
    let written := s.run (.call node call challenge signature :: between)
    let granted := (written.step (.finish node fault)).2
    (granted.issues.map Issue.value).Nodup → granted.Accurate initial ∧
      spent granted.grants challenge ∧ granted.clock = written.clock ∧
      granted.auth.used.get? challenge =
        if s.FindsOver (.call node call challenge signature :: between) challenge then none
        else some ⟨node, written.clock.steady⟩ := by
  intro written granted hdistinct
  obtain ⟨hadmitted, bundle, hgranted⟩ := hsucceeds
  obtain ⟨hiff, hopen⟩ := step_call initial s h node call challenge signature hidle
  have hpass := hiff.1 hadmitted
  have hwritten : (written.issues.map Issue.value).Nodup :=
    distinct_of_run written [.finish node fault] hdistinct
  have haccurate : written.Accurate initial := accurate_run initial s h _ hwritten
  have ho : written.calls.get? node =
      some ⟨call, challenge, (s.minted node call challenge).1⟩ :=
    calls_run _ between node _ hfinish (hopen hpass)
  obtain ⟨store, hrecord⟩ := (step_finish written node _ fault ho).1 ⟨bundle, hgranted⟩
  have hends : granted = (written.finish node
      ⟨call, challenge, (s.minted node call challenge).1⟩ fault).2 := by
    show (written.step (.finish node fault)).2 = _
    simp only [step, ho]
  have hstate := hends.trans (haccurate.finish_granted node _ ho fault store hrecord)
  refine ⟨accurate_step initial written haccurate (.finish node fault) hdistinct, ?_, ?_, ?_⟩
  · rw [hstate, spent_append]
    exact Or.inr rfl
  · rw [hstate]
  · have hlive := s.live_iff_not_findsOver h node call challenge signature between hidle hfinish
      hpass hwritten
    rw [hstate]
    refine (Authenticator.get?_used_useChallenge _ _ _ _ _).trans ?_
    split
    · next hsome => exact (if_neg (hlive.1 hsome)).symm
    · next hnone =>
      rw [if_pos (Classical.not_not.1 fun hnever => hnone (hlive.2 hnever))]
      exact written.get?_used_of_call haccurate node _ ho

/-- A call that succeeds while its challenge is live has used it up, and this is remembered. -/
theorem used_of_succeeds (s : AuthRun) (h : s.Accurate initial) (node : NodeId) (call : Call)
    (challenge signature : Bytes) (between : List AuthOp) (fault : Option WriteFault)
    (hidle : s.calls.contains node = false) (hfinish : ∀ fault, AuthOp.finish node fault ∉ between)
    (hcleanups : ∀ time ∈ s.cleanups (.call node call challenge signature :: between),
      ∀ i ∈ s.issues, i.value = challenge → time < i.time + initial.settings.challengeTtl)
    (hsucceeds : s.Succeeds node call challenge signature between fault) :
    let written := s.run (.call node call challenge signature :: between)
    let granted := (written.step (.finish node fault)).2
    (granted.issues.map Issue.value).Nodup → granted.Accurate initial ∧
      spent granted.grants challenge ∧ granted.clock = written.clock ∧
      granted.auth.used.get? challenge = some ⟨node, written.clock.steady⟩ := by
  intro written granted hdistinct
  obtain ⟨haccurate, hspent, hclock, hused⟩ := s.get?_used_of_succeeds h node call challenge
    signature between fault hidle hfinish hsucceeds hdistinct
  refine ⟨haccurate, hspent, hclock, hused.trans (if_neg ?_)⟩
  rintro ⟨time, htime, i, hi, hvalue, hover⟩
  rw [h.settings] at hover
  exact absurd (hcleanups time htime i hi hvalue) (Nat.not_lt_of_le hover)

/-! ## Every run -/

/-- In a run whose challenges differ, once a call has succeeded with a challenge, every later call
that presents it is refused, whatever the node, the metadata and the signature (a recovery needs a
registered node): as a replay as long as no cleanup finds its retention over, and after such a
cleanup for the reasons of a challenge that is not live.  The challenge of the call that succeeds
must not be dropped as over while its write is waited for.  And a challenge with which no call
succeeded, and which is not both the latest one and in time, is never told to be a replay. -/
theorem used_challenge_refused (settings : AuthSettings) (store : Store) (verifier : Verifier)
    (clock : Clock) (blocks : Nat → Block) :
    (∀ (before between after : List AuthOp) (node : NodeId) (call : Call)
        (challenge signature : Bytes) (fault : Option WriteFault),
      let s := (start settings store verifier clock blocks).run before
      let written := s.run (.call node call challenge signature :: between)
      let granted := (written.step (.finish node fault)).2
      let later := granted.run after
      s.calls.contains node = false → (∀ fault, AuthOp.finish node fault ∉ between) →
      (∀ time ∈ s.cleanups (.call node call challenge signature :: between),
        ∀ i ∈ s.issues, i.value = challenge → time < i.time + settings.challengeTtl) →
      (later.issues.map Issue.value).Nodup →
      s.Succeeds node call challenge signature between fault →
      ∀ (node' : NodeId) (call' : Call) (signature' : Bytes), later.calls.contains node' = false →
        (call' = .recover → later.auth.store.isRegistered node' = true) →
        ((∀ time ∈ granted.cleanups after,
            time < written.clock.steady + settings.replayRetention) →
          (later.step (.call node' call' challenge signature')).1 = .refused .replay) ∧
        ((∃ time ∈ granted.cleanups after,
            written.clock.steady + settings.replayRetention ≤ time) →
          ∃ reason, (later.step (.call node' call' challenge signature')).1 =
            .refused (.authentication reason))) ∧
    ∀ ops : List AuthOp,
      let s := (start settings store verifier clock blocks).run ops
      (s.issues.map Issue.value).Nodup →
      ∀ (node : NodeId) (call : Call) (challenge signature : Bytes),
        (∀ g ∈ s.grants, g.challenge ≠ challenge) →
        (∀ i ∈ s.issues, i.value = challenge → latest s.issues i.node i.scope = some i →
          i.time + settings.challengeTtl ≤ s.clock.steady) →
        (s.step (.call node call challenge signature)).1 ≠ .refused .replay := by
  have hstart := accurate_start settings store verifier clock blocks
  constructor
  · intro before between after node call challenge signature fault s written granted later hidle
      hfinish hcleanups hdistinct hsucceeds node' call' signature' hidle' hregistered
    have hgranted : (granted.issues.map Issue.value).Nodup :=
      distinct_of_run granted after hdistinct
    have hbefore : (s.issues.map Issue.value).Nodup :=
      distinct_of_run s _ (distinct_of_run written [.finish node fault] hgranted)
    have hs : s.Accurate (.start settings store verifier) :=
      accurate_run _ _ hstart before hbefore
    obtain ⟨haccurate, hspent, hclock, hused⟩ := s.used_of_succeeds hs node call challenge signature
      between fault hidle hfinish hcleanups hsucceeds hgranted
    have hrefused := refused_of_spent later (accurate_run _ _ haccurate after hdistinct) node' call'
      challenge signature' hidle' hregistered (granted.spent_run after challenge hspent)
    have hremembered := granted.used_run haccurate after challenge hdistinct hspent _ hused
      (Nat.le_of_eq (congrArg Clock.steady hclock.symm))
    constructor
    · intro hkept
      have hnone : ¬∃ time ∈ granted.cleanups after,
          written.clock.steady + settings.replayRetention ≤ time := by
        rintro ⟨time, htime, hover⟩
        exact absurd hover (Nat.not_le_of_lt (hkept time htime))
      rw [if_pos] at hrefused
      · exact hrefused
      · exact congrArg Option.isSome (hremembered.trans (if_neg hnone))
    · intro hforgotten
      rw [if_neg] at hrefused
      · exact hrefused
      · rw [Table.contains, hremembered.trans (if_pos hforgotten)]
        exact Bool.false_ne_true
  · intro ops s hdistinct node call challenge signature hunused hover hreplay
    have hs := accurate_run _ _ hstart ops hdistinct
    have hunspent : ¬spent s.grants challenge := by
      rintro ⟨g, hg, hvalue⟩
      exact hunused g hg hvalue
    obtain ⟨i, hi, rfl, -, hnow⟩ := s.fresh_of_replay hs node call challenge signature hunspent
      hreplay
    obtain ⟨hmem, rfl, hscope⟩ := mem_of_latest hi
    have htime := hover i hmem rfl (by rw [hscope]; exact hi)
    rw [hs.settings] at hnow
    exact absurd htime (Nat.not_le_of_lt hnow)

/-- Another node that presents the challenge with which a node registered is told a replay while the
challenge is remembered, and one millisecond later that it has no challenge. -/
theorem replay_by_another_node :
    let node : NodeId := ⟨List.replicate 32 7, rfl⟩
    let other : NodeId := ⟨List.replicate 32 8, rfl⟩
    let blocks : Nat → Block := fun i => ⟨List.replicate 32 (UInt8.ofNat i), rfl⟩
    let call : Call := .register ⟨[], none, ""⟩
    let challenge : Bytes := List.replicate 32 0
    let s := (start ⟨10, 100⟩ (.inMemory ⟨[]⟩) (fun _ _ _ => .ok ()) ⟨⟨0, 0⟩, 0⟩ blocks).run
      [.getChallenge node .register, .advance 9]
    let granted := ((s.run [.call node call challenge [], .advance 20]).step (.finish node none)).2
    s.Succeeds node call challenge [] [.advance 20] none ∧
      ((granted.run [.advance 99, .cleanup]).step (.call other call challenge [])).1 =
        .refused .replay ∧
      ∃ reason, ((granted.run [.advance 100, .cleanup]).step (.call other call challenge [])).1 =
        .refused (.authentication reason) := by
  intro node other blocks call challenge s granted
  have hstart := accurate_start ⟨10, 100⟩ (.inMemory ⟨[]⟩) (fun _ _ _ => .ok ()) ⟨⟨0, 0⟩, 0⟩ blocks
  have hdistinct : (s.issues.map Issue.value).Nodup := List.nodup_singleton _
  have hs := accurate_run _ _ hstart [.getChallenge node .register, .advance 9] hdistinct
  have hfinish : ∀ fault, AuthOp.finish node fault ∉ [AuthOp.advance 20] := by simp
  have hcall : call ≠ .recover := fun hrecover => Call.noConfusion hrecover
  have hsucceeds : s.Succeeds node call challenge [] [.advance 20] none := by
    apply (succeeds_iff _ s hs node call challenge [] [.advance 20] none rfl hfinish).2
    refine ⟨⟨?_, ⟨_, rfl, rfl, ?_, by decide⟩, rfl⟩, _, rfl⟩
    · exact fun hrecover => absurd hrecover hcall
    · rintro ⟨g, hg, -⟩
      cases hg
  have hrefused := fun duration => (used_challenge_refused ⟨10, 100⟩ (.inMemory ⟨[]⟩)
    (fun _ _ _ => .ok ()) ⟨⟨0, 0⟩, 0⟩ blocks).1 [.getChallenge node .register, .advance 9]
    [.advance 20] [.advance duration, .cleanup] node call challenge [] none rfl hfinish
    (by intro time htime; cases htime) (List.nodup_singleton _) hsucceeds other call [] rfl
    (fun hrecover => absurd hrecover hcall)
  refine ⟨hsucceeds, (hrefused 99).1 ?_, (hrefused 100).2 ?_⟩
  · decide
  · decide

end AuthRun

end SigningGateway
