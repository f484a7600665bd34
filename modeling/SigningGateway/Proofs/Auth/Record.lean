import Mathlib.Data.List.Nodup
import SigningGateway.Proofs.Auth.Checking
import SigningGateway.Proofs.Auth.Run

/-!
# What the record of a run tells

As long as no challenge is drawn twice, the tables of the authenticator hold what the record says:
the live challenge of a node for a scope is the latest one handed out, until a call uses it up or
its time is over, and a node is registered if it was so at the start or a registration was granted.

    Accurate s → the challenges of (run s ops) differ → Accurate (run s ops)      (accurate_run)
-/

namespace SigningGateway

/-! ## Challenges of a record -/

theorem mem_of_latest {issues : List Issue} {node : NodeId} {scope : Scope} {i : Issue}
    (h : latest issues node scope = some i) : i ∈ issues ∧ i.node = node ∧ i.scope = scope := by
  have hmem := List.mem_of_getLast? h
  rw [List.mem_filter, Bool.and_eq_true, decide_eq_true_eq, decide_eq_true_eq] at hmem
  exact hmem

theorem latest_append (issues : List Issue) (i : Issue) (node : NodeId) (scope : Scope) :
    latest (issues ++ [i]) node scope =
      if (node, scope) = (i.node, i.scope) then some i else latest issues node scope := by
  rw [latest, List.filter_append]
  by_cases h : (node, scope) = (i.node, i.scope)
  · obtain ⟨rfl, rfl⟩ := Prod.mk.inj h
    simp
  · have hother : ¬(i.node = node ∧ i.scope = scope) := by
      rintro ⟨rfl, rfl⟩
      exact h rfl
    rw [if_neg h]
    simp [latest, hother]

/-- Challenges that differ tell what was handed out when. -/
theorem issue_of_value {issues : List Issue} (hdistinct : (issues.map Issue.value).Nodup)
    {i j : Issue} (hi : i ∈ issues) (hj : j ∈ issues) (h : i.value = j.value) : i = j :=
  List.inj_on_of_nodup_map hdistinct hi hj h

theorem spent_append (grants : List Grant) (g : Grant) (challenge : Bytes) :
    spent (grants ++ [g]) challenge ↔ spent grants challenge ∨ g.challenge = challenge := by
  simp only [spent, List.mem_append, List.mem_singleton, or_and_right, exists_or, exists_eq_left]

namespace AuthRun

/-- The tables hold what the record tells. -/
structure Accurate (initial : Authenticator) (s : AuthRun) : Prop where
  settings : s.auth.settings = initial.settings
  verifier : s.auth.verifier = initial.verifier
  draws : ∀ i, (s.entropy.draws i).length = challengeSize
  sizes : ∀ i ∈ s.issues, i.value.length = challengeSize
  distinct : (s.issues.map Issue.value).Nodup
  live : ∀ node scope c, s.auth.live.get? (node, scope) = some c →
    ∃ i, latest s.issues node scope = some i ∧ ¬spent s.grants i.value ∧
      c = ⟨i.value, i.time + s.auth.settings.challengeTtl⟩
  kept : ∀ node scope i, latest s.issues node scope = some i → ¬spent s.grants i.value →
    s.clock.steady < i.time + s.auth.settings.challengeTtl →
    s.auth.live.get? (node, scope) = some ⟨i.value, i.time + s.auth.settings.challengeTtl⟩
  used : ∀ value, s.auth.used.contains value = true → spent s.grants value
  granted : ∀ g ∈ s.grants, ∃ i ∈ s.issues,
    i.node = g.node ∧ i.scope = g.scope ∧ i.value = g.challenge
  calls : ∀ node o, s.calls.get? node = some o →
    (o.admission.node = node ∧ o.admission.scope = o.call.scope ∧
      o.admission.metadata = o.call.metadata) ∧
    ∃ i, latest s.issues node o.call.scope = some i ∧ i.value = o.challenge ∧
      ¬spent s.grants o.challenge
  registered : ∀ node, s.auth.store.isRegistered node = true ↔
    initial.store.isRegistered node = true ∨ ∃ g ∈ s.grants, g.node = node ∧ g.scope = .register

theorem accurate_start (settings : AuthSettings) (store : Store) (verifier : Verifier)
    (clock : Clock) (blocks : Nat → Block) :
    (start settings store verifier clock blocks).Accurate (.start settings store verifier) where
  settings := rfl
  verifier := rfl
  draws := fun i => (blocks i).length_bytes
  sizes := by intro i hi; cases hi
  distinct := List.nodup_nil
  live := by intro node scope c h; cases h
  kept := by intro node scope i h; cases h
  used := by intro value h; cases h
  granted := by intro g hg; cases hg
  calls := by intro node o h; cases h
  registered := by simp [start, Authenticator.start]

/-! ## Checks -/

/-- What a challenge has to be for a call at this moment: the latest one for the scope, not used up,
and not over. -/
def Fresh (s : AuthRun) (node : NodeId) (scope : Scope) (challenge : Bytes) : Prop :=
  ∃ i, latest s.issues node scope = some i ∧ i.value = challenge ∧ ¬spent s.grants challenge ∧
    s.clock.steady < i.time + s.auth.settings.challengeTtl

namespace Accurate

variable {initial : Authenticator} {s : AuthRun} (h : s.Accurate initial)
include h

/-- The check of a challenge decides whether it is fresh. -/
theorem check_iff (node : NodeId) (scope : Scope) (challenge : Bytes) :
    (s.auth.checkChallenge s.clock.steady node scope challenge).1 = .ok () ↔
      s.Fresh node scope challenge := by
  rw [Authenticator.checkChallenge_ok_iff]
  constructor
  · rintro ⟨-, -, c, hlive, rfl, hnow⟩
    obtain ⟨i, hi, hunspent, rfl⟩ := h.live node scope c hlive
    exact ⟨i, hi, rfl, hunspent, hnow⟩
  · rintro ⟨i, hi, rfl, hunspent, hnow⟩
    refine ⟨?_, h.sizes i (mem_of_latest hi).1, _, h.kept node scope i hi hunspent hnow, rfl, hnow⟩
    rw [Bool.eq_false_iff]
    exact fun hused => hunspent (h.used _ hused)

/-- Dropping what is over keeps the tables accurate. -/
theorem sheds (a : Authenticator) (hsheds : Authenticator.Sheds s.clock.steady s.auth a)
    (entropy : Entropy) (hdraws : entropy.draws = s.entropy.draws) (calls : Table NodeId OpenCall)
    (hcalls : ∀ node o, calls.get? node = some o → s.calls.get? node = some o ∨
      (o.admission.node = node ∧ o.admission.scope = o.call.scope ∧
        o.admission.metadata = o.call.metadata) ∧ s.Fresh node o.call.scope o.challenge) :
    ({ s with auth := a, entropy, calls } : AuthRun).Accurate initial where
  settings := hsheds.settings.trans h.settings
  verifier := hsheds.verifier.trans h.verifier
  draws := by
    rw [hdraws]
    exact h.draws
  sizes := h.sizes
  distinct := h.distinct
  live := by
    intro node scope c hlive
    rw [hsheds.settings]
    exact h.live node scope c (hsheds.live _ _ hlive)
  kept := by
    intro node scope i hi hunspent hnow
    rw [hsheds.settings] at hnow ⊢
    exact hsheds.kept _ _ (h.kept node scope i hi hunspent hnow) hnow
  used := fun value hused => h.used value (hsheds.used value hused)
  granted := h.granted
  calls := by
    intro node o ho
    rcases hcalls node o ho with hold | ⟨hadmission, i, hi, hvalue, hunspent, -⟩
    · exact h.calls node o hold
    · exact ⟨hadmission, i, hi, hvalue, hunspent⟩
  registered := by
    intro node
    rw [← h.registered, hsheds.store]

/-- The live challenge of a call under way, if it is still there, is the one presented. -/
theorem live_of_call (node : NodeId) (o : OpenCall) (ho : s.calls.get? node = some o)
    (c : Challenge) (hc : s.auth.live.get? (node, o.call.scope) = some c) :
    c.value = o.challenge := by
  obtain ⟨-, i, hi, hvalue, -⟩ := h.calls node o ho
  obtain ⟨j, hj, -, rfl⟩ := h.live node o.call.scope c hc
  rw [hi] at hj
  rw [← Option.some.inj hj]
  exact hvalue

/-- Only the node and the scope to which a challenge was handed out have it as their latest. -/
theorem latest_inj (node node' : NodeId) (scope scope' : Scope) (i j : Issue)
    (hi : latest s.issues node scope = some i) (hj : latest s.issues node' scope' = some j)
    (hvalue : i.value = j.value) : node = node' ∧ scope = scope' := by
  obtain ⟨hmem, rfl, rfl⟩ := mem_of_latest hi
  obtain ⟨hmem', rfl, rfl⟩ := mem_of_latest hj
  obtain rfl := issue_of_value h.distinct hmem hmem' hvalue
  exact ⟨rfl, rfl⟩

/-- Only a call for its own scope uses the latest challenge for a scope up. -/
theorem spent_iff (node : NodeId) (scope : Scope) (i : Issue)
    (hi : latest s.issues node scope = some i) :
    spent s.grants i.value ↔ ∃ g ∈ s.grants, g.scope = scope ∧ g.challenge = i.value := by
  constructor
  · rintro ⟨g, hg, hvalue⟩
    obtain ⟨hmem, -, rfl⟩ := mem_of_latest hi
    obtain ⟨j, hj, -, hscope, hvalue'⟩ := h.granted g hg
    obtain rfl := issue_of_value h.distinct hj hmem (hvalue'.trans hvalue)
    exact ⟨g, hg, hscope.symm, hvalue⟩
  · rintro ⟨g, hg, -, hvalue⟩
    exact ⟨g, hg, hvalue⟩

end Accurate

/-! ## Calls that begin -/

/-- The admission of a call that passes, with what is left to draw. -/
def minted (s : AuthRun) (node : NodeId) (call : Call) (challenge : Bytes) : Admission × Entropy :=
  s.auth.mint s.clock node call.scope call.metadata (call.name challenge) s.entropy

/-- What a call has to pass to be admitted. -/
def Passes (s : AuthRun) (node : NodeId) (call : Call) (challenge signature : Bytes) : Prop :=
  (call = .recover → s.auth.store.isRegistered node = true) ∧
    s.Fresh node call.scope challenge ∧
    s.auth.verifier node (call.message node challenge) signature = .ok ()

namespace Accurate

variable {initial : Authenticator} {s : AuthRun} (h : s.Accurate initial)
include h

/-- A call is admitted if it passes, and otherwise drops at most what is over. -/
theorem prepare_cases (node : NodeId) (call : Call) (challenge signature : Bytes) :
    (s.Passes node call challenge signature ∧
        s.prepare node call challenge signature =
          ((.ok (s.minted node call challenge).1, s.auth.lock node true),
            (s.minted node call challenge).2)) ∨
      (¬s.Passes node call challenge signature ∧
        ∃ cause a, s.prepare node call challenge signature = ((.error cause, a), s.entropy) ∧
          Authenticator.Sheds s.clock.steady s.auth a) := by
  have hcases := s.auth.prepare_cases s.clock node call.scope call.metadata challenge
    (call.message node challenge) signature (call.name challenge) s.entropy
  rw [h.check_iff] at hcases
  cases call with
  | register metadata =>
    rcases hcases with ⟨hpass, heq⟩ | ⟨hnot, cause, a, heq, hsheds⟩
    · refine Or.inl ⟨⟨?_, hpass⟩, heq⟩
      intro hrecover
      cases hrecover
    · exact Or.inr ⟨fun hpass => hnot hpass.2, cause, a, heq, hsheds⟩
  | recover =>
    cases hregistered : s.auth.store.isRegistered node with
    | true =>
      have hprepare : s.prepare node .recover challenge signature = _ :=
        if_pos hregistered
      rw [hprepare]
      rcases hcases with ⟨hpass, heq⟩ | ⟨hnot, cause, a, heq, hsheds⟩
      · exact Or.inl ⟨⟨fun _ => hregistered, hpass⟩, heq⟩
      · exact Or.inr ⟨fun hpass => hnot hpass.2, cause, a, heq, hsheds⟩
    | false =>
      right
      refine ⟨?_, .unknownIdentity node, s.auth.lock node false, ?_,
        (Authenticator.Sheds.refl _ _).lock _ _⟩
      · rintro ⟨hpass, -⟩
        rw [hregistered] at hpass
        cases hpass rfl
      · simp only [prepare, Authenticator.prepareRecover, hregistered, Bool.false_eq_true, if_false]

/-! ## Operations -/

theorem enter (node : NodeId) (call : Call) (challenge signature : Bytes) :
    (s.enter node call challenge signature).2.Accurate initial := by
  unfold AuthRun.enter
  rcases h.prepare_cases node call challenge signature with
    ⟨hpass, heq⟩ | ⟨-, cause, a, heq, hsheds⟩
  · rw [heq]
    apply h.sheds _ ((Authenticator.Sheds.refl _ _).lock _ _) (s.minted node call challenge).2 rfl
    intro node' o ho
    rw [Table.get?_set] at ho
    split at ho
    · next hnode =>
      obtain rfl := Option.some.inj ho
      exact Or.inr ⟨⟨hnode.symm, rfl, rfl⟩, hnode ▸ hpass.2.1⟩
    · exact Or.inl ho
  · rw [heq]
    exact h.sheds a hsheds s.entropy rfl s.calls fun _ _ ho => Or.inl ho

/-- A challenge that was not drawn before becomes the latest one. -/
theorem issue (node : NodeId) (scope : Scope) (hidle : s.calls.contains node = false)
    (hdistinct : ((s.issue node scope).2.issues.map Issue.value).Nodup) :
    (s.issue node scope).2.Accurate initial := by
  have hlength : (s.auth.getChallenge s.clock.steady node scope s.entropy).1.1.length =
      challengeSize := by
    show ((s.entropy.draws s.entropy.taken).take challengeSize).length = challengeSize
    rw [List.length_take, h.draws, Nat.min_self]
  generalize hvalue : (s.auth.getChallenge s.clock.steady node scope s.entropy).1.1 = value
    at hlength
  have hissues : (s.issue node scope).2.issues =
      s.issues ++ [⟨node, scope, value, s.clock.steady⟩] := by
    rw [← hvalue]
    rfl
  have hlive : (s.issue node scope).2.auth.live =
      s.auth.live.set (node, scope)
        ⟨value, s.clock.steady + s.auth.settings.challengeTtl⟩ := by
    rw [← hvalue]
    rfl
  -- the new challenge was used up by nobody
  have hnew : ¬spent s.grants value := by
    rintro ⟨g, hg, rfl⟩
    obtain ⟨i, hi, -, -, hsame⟩ := h.granted g hg
    rw [hissues, List.map_append, List.nodup_append] at hdistinct
    exact hdistinct.2.2 _ (List.mem_map.2 ⟨i, hi, hsame⟩) _ (by simp) rfl
  have hlatest := latest_append s.issues ⟨node, scope, value, s.clock.steady⟩
  refine ⟨h.settings, h.verifier, h.draws, ?_, hdistinct, ?_, ?_, h.used, ?_, ?_, h.registered⟩
  · intro i hi
    rw [hissues, List.mem_append, List.mem_singleton] at hi
    rcases hi with hi | rfl
    · exact h.sizes i hi
    · exact hlength
  · intro node' scope' c hc
    rw [hlive, Table.get?_set] at hc
    rw [hissues, hlatest]
    split at hc
    · next hkey =>
      rw [if_pos hkey]
      exact ⟨_, rfl, hnew, (Option.some.inj hc).symm⟩
    · next hkey =>
      rw [if_neg hkey]
      exact h.live node' scope' c hc
  · intro node' scope' i hi hunspent hnow
    rw [hlive, Table.get?_set]
    rw [hissues, hlatest] at hi
    split at hi
    · next hkey =>
      obtain rfl := Option.some.inj hi
      rw [if_pos hkey]
      rfl
    · next hkey =>
      rw [if_neg hkey]
      exact h.kept node' scope' i hi hunspent hnow
  · intro g hg
    obtain ⟨i, hi, hsame⟩ := h.granted g hg
    exact ⟨i, by rw [hissues]; exact List.mem_append_left _ hi, hsame⟩
  · intro node' o ho
    obtain ⟨hadmission, i, hi, hsame⟩ := h.calls node' o ho
    refine ⟨hadmission, i, ?_, hsame⟩
    rw [hissues, hlatest, if_neg, hi]
    intro hkey
    obtain rfl : node' = node := (Prod.mk.inj hkey).1
    have hget : s.calls.get? node' = some o := ho
    rw [Table.contains, hget] at hidle
    cases hidle

/-- A call that ends without being recorded leaves no trace. -/
theorem finish_error (node : NodeId) (o : OpenCall) (fault : Option WriteFault) (cause : Error)
    (hrecord : s.auth.record fault s.clock.wall o.admission = .error cause) :
    (s.finish node o fault).2.Accurate initial := by
  rw [s.finish_of_error node o fault cause hrecord]
  apply h.sheds _ ((Authenticator.Sheds.refl _ _).lock _ _) s.entropy rfl
  intro node' o' ho'
  rw [Table.get?_erase] at ho'
  split at ho'
  · cases ho'
  · exact Or.inl ho'

/-- The nodes that are registered when a call is recorded. -/
theorem registered_record (node : NodeId) (o : OpenCall) (ho : s.calls.get? node = some o)
    (fault : Option WriteFault) (store : Store)
    (hrecord : s.auth.record fault s.clock.wall o.admission = .ok store) (node' : NodeId) :
    store.isRegistered node' = true ↔ initial.store.isRegistered node' = true ∨
      ∃ g ∈ s.grants ++ [⟨node, o.call.scope, o.challenge⟩],
        g.node = node' ∧ g.scope = .register := by
  obtain ⟨⟨hnode, hscope, hmetadata⟩, -⟩ := h.calls node o ho
  obtain ⟨hrecover, hregistered⟩ := s.auth.isRegistered_record fault _ _ _ hrecord
  rw [hregistered, h.registered, hnode]
  simp only [List.mem_append, List.mem_singleton, or_and_right, exists_or, exists_eq_left]
  cases hcall : o.call with
  | register metadata =>
    simp only [Call.scope, and_true]
    constructor
    · rintro (rfl | hinitial | hgrant)
      · exact Or.inr (Or.inr rfl)
      · exact Or.inl hinitial
      · exact Or.inr (Or.inl hgrant)
    · rintro (hinitial | hgrant | rfl)
      · exact Or.inr (Or.inl hinitial)
      · exact Or.inr (Or.inr hgrant)
      · exact Or.inl rfl
  | recover =>
    -- only a registered node gets here, so nothing new is registered
    have hold := hrecover (by rw [hmetadata, hcall]; rfl)
    rw [hnode, h.registered] at hold
    simp only [Call.scope, reduceCtorEq, and_false, or_false]
    constructor
    · rintro (rfl | hregistered)
      · exact hold
      · exact hregistered
    · exact Or.inr

/-- What a call that is recorded leaves. -/
theorem finish_granted (node : NodeId) (o : OpenCall) (ho : s.calls.get? node = some o)
    (fault : Option WriteFault) (store : Store)
    (hrecord : s.auth.record fault s.clock.wall o.admission = .ok store) :
    (s.finish node o fault).2 =
      { s with
        auth := ({ s.auth.lock node false with store } : Authenticator).useChallenge
          s.clock.steady node o.call.scope
        calls := s.calls.erase node
        grants := s.grants ++ [⟨node, o.call.scope, o.challenge⟩] } := by
  obtain ⟨⟨hnode, hscope, -⟩, -⟩ := h.calls node o ho
  rw [s.finish_of_ok node o fault store hrecord, hnode, hscope]

/-- A call that is recorded uses its challenge up. -/
theorem finish_ok (node : NodeId) (o : OpenCall) (ho : s.calls.get? node = some o)
    (fault : Option WriteFault) (store : Store)
    (hrecord : s.auth.record fault s.clock.wall o.admission = .ok store) :
    (s.finish node o fault).2.Accurate initial := by
  obtain ⟨-, i, hi, hvalue, hunspent⟩ := h.calls node o ho
  let held : Authenticator := { s.auth.lock node false with store }
  have hframe := held.useChallenge_frame s.clock.steady node o.call.scope
  have hlive := held.get?_live_useChallenge s.clock.steady node o.call.scope
  have hspent : ∀ value, spent (s.grants ++ [⟨node, o.call.scope, o.challenge⟩]) value ↔
      spent s.grants value ∨ o.challenge = value := fun value => spent_append _ _ value
  rw [h.finish_granted node o ho fault store hrecord]
  refine ⟨hframe.1.trans h.settings, hframe.2.2.trans h.verifier, h.draws, h.sizes, h.distinct, ?_,
    ?_, ?_, ?_, ?_, ?_⟩
  · intro node' scope' c hc
    rw [hlive] at hc
    split at hc
    · cases hc
    · next hkey =>
      obtain ⟨j, hj, hunspent', rfl⟩ := h.live node' scope' c hc
      refine ⟨j, hj, ?_, by rw [hframe.1]; rfl⟩
      rw [hspent]
      rintro (hold | hnew)
      · exact hunspent' hold
      · obtain ⟨rfl, rfl⟩ := h.latest_inj node node' _ _ i j hi hj (hvalue.trans hnew)
        exact hkey rfl
  · intro node' scope' j hj hunspent' hnow
    rw [hspent, not_or] at hunspent'
    rw [hframe.1] at hnow ⊢
    rw [hlive, if_neg]
    · exact h.kept node' scope' j hj hunspent'.1 hnow
    · intro hkey
      obtain ⟨rfl, rfl⟩ := Prod.mk.inj hkey
      rw [hi] at hj
      obtain rfl := Option.some.inj hj
      exact hunspent'.2 hvalue.symm
  · intro value hused
    rw [hspent]
    rcases held.used_useChallenge _ _ _ value hused with hold | ⟨c, hc, rfl⟩
    · exact Or.inl (h.used value hold)
    · exact Or.inr (h.live_of_call node o ho c hc).symm
  · intro g hg
    rcases List.mem_append.1 hg with hg | hg
    · exact h.granted g hg
    · obtain rfl := List.mem_singleton.1 hg
      obtain ⟨hmem, hinode, hiscope⟩ := mem_of_latest hi
      exact ⟨i, hmem, hinode, hiscope, hvalue⟩
  · intro node' o' ho'
    rw [Table.get?_erase] at ho'
    split at ho'
    · cases ho'
    · next hother =>
      obtain ⟨hadmission, j, hj, hvalue', hunspent'⟩ := h.calls node' o' ho'
      refine ⟨hadmission, j, hj, hvalue', ?_⟩
      rw [hspent]
      rintro (hold | hnew)
      · exact hunspent' hold
      · have hsame := h.latest_inj node node' _ _ i j hi hj (by rw [hvalue, hvalue', hnew])
        exact hother hsame.1.symm
  · intro node'
    rw [hframe.2.1]
    exact h.registered_record node o ho fault store hrecord node'

end Accurate

/-- An operation keeps the tables accurate as long as no challenge is drawn twice. -/
theorem accurate_step (initial : Authenticator) (s : AuthRun) (h : s.Accurate initial) (op : AuthOp)
    (hdistinct : ((s.step op).2.issues.map Issue.value).Nodup) :
    (s.step op).2.Accurate initial := by
  cases op with
  | getChallenge node scope =>
    rw [step] at hdistinct ⊢
    cases hidle : s.calls.contains node with
    | true => exact h
    | false =>
      rw [hidle] at hdistinct
      exact h.issue node scope hidle hdistinct
  | call node call challenge signature =>
    rw [step]
    split
    · exact h
    · exact h.enter node call challenge signature
  | finish node fault =>
    rw [step]
    split
    · next o ho =>
      cases hrecord : s.auth.record fault s.clock.wall o.admission with
      | ok store => exact h.finish_ok node o ho fault store hrecord
      | error cause => exact h.finish_error node o fault cause hrecord
    · exact h
  | cleanup =>
    exact h.sheds _ (s.auth.sheds_cleanup _) s.entropy rfl s.calls fun _ _ ho => Or.inl ho
  | advance duration =>
    refine ⟨h.settings, h.verifier, h.draws, h.sizes, h.distinct, h.live, ?_, h.used, h.granted,
      h.calls, h.registered⟩
    intro node scope i hi hunspent hnow
    apply h.kept node scope i hi hunspent
    have hlater : (s.clock.advance duration).steady = s.clock.steady + duration := rfl
    have hnow' : (s.clock.advance duration).steady <
        i.time + s.auth.settings.challengeTtl := hnow
    omega

/-! ## Runs -/

theorem issues_step (s : AuthRun) (op : AuthOp) : s.issues <+: (s.step op).2.issues := by
  cases op with
  | getChallenge node scope =>
    rw [step]
    split
    · exact List.prefix_rfl
    · exact List.prefix_append _ _
  | call node call challenge signature =>
    rw [step]
    split
    · exact List.prefix_rfl
    · rw [enter]
      split <;> exact List.prefix_rfl
  | finish node fault =>
    rw [step]
    split
    · rw [finish]
      split <;> exact List.prefix_rfl
    · exact List.prefix_rfl
  | cleanup => exact List.prefix_rfl
  | advance duration => exact List.prefix_rfl

theorem issues_run (s : AuthRun) (ops : List AuthOp) : s.issues <+: (s.run ops).issues := by
  induction ops generalizing s with
  | nil => exact List.prefix_rfl
  | cons op ops ih => exact (s.issues_step op).trans (ih _)

/-- Challenges that differ at the end of a run differ before. -/
theorem distinct_of_run (s : AuthRun) (ops : List AuthOp)
    (hdistinct : ((s.run ops).issues.map Issue.value).Nodup) :
    (s.issues.map Issue.value).Nodup :=
  (((s.issues_run ops).map Issue.value).sublist).nodup hdistinct

/-- A run keeps the tables accurate. -/
theorem accurate_run (initial : Authenticator) (s : AuthRun) (h : s.Accurate initial)
    (ops : List AuthOp) (hdistinct : ((s.run ops).issues.map Issue.value).Nodup) :
    (s.run ops).Accurate initial := by
  induction ops generalizing s with
  | nil => exact h
  | cons op ops ih =>
    exact ih _ (accurate_step initial s h op (distinct_of_run _ ops hdistinct)) hdistinct

end AuthRun

end SigningGateway
