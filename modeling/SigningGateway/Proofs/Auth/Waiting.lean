import SigningGateway.Proofs.Auth.Replay

/-!
# Challenges of calls that wait for the disk

Between the check of its challenge and the use of it a call waits for its write to the store.  The
lock of its node keeps other calls of the node away meanwhile, but not the clock and the cleanups.
A call that succeeds has used its challenge up for good in any case.  It is remembered as used up,
though, only if no cleanup found it over during the wait: such a cleanup drops the live challenge,
and then nothing is left to remember.

    remembered later ↔ not found over in the wait ∧ retention not found over   (remembered_iff)
    presented again → refused, as a replay just if it is remembered           (presented_again)
-/

namespace SigningGateway

namespace AuthRun

variable {initial : Authenticator}

/-! ## What is left of a challenge that was used up -/

/-- A challenge that was used up is not live any more. -/
theorem not_live_of_spent (s : AuthRun) (h : s.Accurate initial) (challenge : Bytes)
    (hspent : spent s.grants challenge) (key : NodeId × Scope) (c : Challenge)
    (hc : s.auth.live.get? key = some c) : c.value ≠ challenge := by
  rintro rfl
  obtain ⟨i, -, hunspent, rfl⟩ := h.live key.1 key.2 c hc
  exact hunspent hspent

/-- A node that is not registered is told so, whatever it presents. -/
theorem refused_unregistered (s : AuthRun) (node : NodeId) (challenge signature : Bytes)
    (hidle : s.calls.contains node = false) (hnot : s.auth.store.isRegistered node = false) :
    (s.step (.call node .recover challenge signature)).1 = .refused (.unknownIdentity node) := by
  simp only [step, hidle, Bool.false_eq_true, if_false, enter, prepare,
    Authenticator.prepareRecover, hnot]

/-- A call that is admitted found no other call of its node under way. -/
theorem idle_of_admitted (s : AuthRun) (node : NodeId) (call : Call) (challenge signature : Bytes)
    (hadmitted : (s.step (.call node call challenge signature)).1 = .admitted) :
    s.calls.contains node = false := by
  cases hidle : s.calls.contains node with
  | false => rfl
  | true =>
    rw [step, hidle, if_pos rfl] at hadmitted
    cases hadmitted

/-- What was used up is remembered after a run just if it was so before, and no cleanup found its
retention over. -/
theorem contains_used_run (s : AuthRun) (h : s.Accurate initial) (ops : List AuthOp)
    (challenge : Bytes) (hdistinct : ((s.run ops).issues.map Issue.value).Nodup)
    (hspent : spent s.grants challenge)
    (hpast : ∀ u, s.auth.used.get? challenge = some u → u.usedAt ≤ s.clock.steady) :
    (s.run ops).auth.used.contains challenge = true ↔
      ∃ u, s.auth.used.get? challenge = some u ∧
        ∀ time ∈ s.cleanups ops, time < u.usedAt + initial.settings.replayRetention := by
  rw [Table.contains]
  cases hbefore : s.auth.used.get? challenge with
  | none =>
    cases hafter : (s.run ops).auth.used.get? challenge with
    | none => simp
    | some u =>
      rw [s.used_of_run h ops challenge hdistinct hspent u hafter] at hbefore
      cases hbefore
  | some u =>
    rw [s.used_run h ops challenge hdistinct hspent u hbefore (hpast u hbefore)]
    simp only [Option.some.injEq, exists_eq_left']
    split
    · next hover =>
      obtain ⟨time, htime, hover⟩ := hover
      simp only [Option.isSome_none, Bool.false_eq_true, false_iff]
      exact fun hkept => absurd hover (Nat.not_le_of_lt (hkept time htime))
    · next hnever =>
      simp only [Option.isSome_some, true_iff]
      exact fun time htime => Nat.lt_of_not_le fun hover => hnever ⟨time, htime, hover⟩

/-- The challenge of a call that succeeded is remembered later just if no cleanup of the wait found
its time to live over, and none since found its retention over. -/
theorem remembered_iff (s : AuthRun) (h : s.Accurate initial) (node : NodeId) (call : Call)
    (challenge signature : Bytes) (between after : List AuthOp) (fault : Option WriteFault)
    (hfinish : ∀ fault, AuthOp.finish node fault ∉ between)
    (hsucceeds : s.Succeeds node call challenge signature between fault) :
    let wait := AuthOp.call node call challenge signature :: between
    let written := s.run wait
    let granted := (written.step (.finish node fault)).2
    ((granted.run after).issues.map Issue.value).Nodup →
      ((granted.run after).auth.used.contains challenge = true ↔
        ¬s.FindsOver wait challenge ∧ ∀ time ∈ granted.cleanups after,
          time < written.clock.steady + initial.settings.replayRetention) := by
  intro wait written granted hdistinct
  have hidle := s.idle_of_admitted node call challenge signature hsucceeds.1
  obtain ⟨haccurate, hspent, hclock, hused⟩ := s.get?_used_of_succeeds h node call challenge
    signature between fault hidle hfinish hsucceeds (distinct_of_run granted after hdistinct)
  have hpast : ∀ u, granted.auth.used.get? challenge = some u →
      u.usedAt ≤ granted.clock.steady := by
    intro u hu
    rw [hused] at hu
    split at hu
    · cases hu
    · obtain rfl := Option.some.inj hu
      exact Nat.le_of_eq (congrArg Clock.steady hclock.symm)
  rw [granted.contains_used_run haccurate after challenge hdistinct hspent hpast, hused]
  split
  · next hover =>
    constructor
    · rintro ⟨u, hu, -⟩
      cases hu
    · exact fun hkept => absurd hover hkept.1
  · next hnever =>
    constructor
    · rintro ⟨u, hu, hkept⟩
      obtain rfl := Option.some.inj hu
      exact ⟨hnever, hkept⟩
    · exact fun hkept => ⟨_, rfl, hkept.2⟩

/-! ## Every run -/

/-- In a run whose challenges differ, a call succeeds after a wait for its write in which anything
may have happened: time has passed, cleanups have come, calls of other nodes have begun and ended.
From then on its challenge is live for no node and no scope.  Right after the call it is remembered
as used up just if no cleanup of the wait found its time to live over.  And every later call that
presents it is refused: a recovery of a node that is not registered for that reason, and any other
call as a replay if the challenge was remembered right after the call that succeeded and no cleanup
has found its retention over since, and otherwise like a challenge that was never handed out. -/
theorem presented_again (settings : AuthSettings) (store : Store) (verifier : Verifier)
    (clock : Clock) (blocks : Nat → Block) (before between after : List AuthOp) (node : NodeId)
    (call : Call) (challenge signature : Bytes) (fault : Option WriteFault) :
    let s := (start settings store verifier clock blocks).run before
    let wait := AuthOp.call node call challenge signature :: between
    let written := s.run wait
    let granted := (written.step (.finish node fault)).2
    let later := granted.run after
    let remembered := ¬s.FindsOver wait challenge ∧
      ∀ time ∈ granted.cleanups after, time < written.clock.steady + settings.replayRetention
    (∀ fault, AuthOp.finish node fault ∉ between) →
    (later.issues.map Issue.value).Nodup →
    s.Succeeds node call challenge signature between fault →
    (∀ key c, later.auth.live.get? key = some c → c.value ≠ challenge) ∧
      (granted.auth.used.contains challenge = true ↔ ¬s.FindsOver wait challenge) ∧
      ∀ (node' : NodeId) (call' : Call) (signature' : Bytes), later.calls.contains node' = false →
        (call' = .recover → later.auth.store.isRegistered node' = false →
          (later.step (.call node' call' challenge signature')).1 =
            .refused (.unknownIdentity node')) ∧
        ((call' = .recover → later.auth.store.isRegistered node' = true) →
          (remembered →
            (later.step (.call node' call' challenge signature')).1 = .refused .replay) ∧
          (¬remembered → ∃ reason,
            (later.step (.call node' call' challenge signature')).1 =
              .refused (.authentication reason))) := by
  intro s wait written granted later remembered hfinish hdistinct hsucceeds
  have hgranted : (granted.issues.map Issue.value).Nodup := distinct_of_run granted after hdistinct
  have hs : s.Accurate (.start settings store verifier) :=
    accurate_run _ _ (accurate_start settings store verifier clock blocks) before
      (distinct_of_run s wait (distinct_of_run written [.finish node fault] hgranted))
  have hidle := s.idle_of_admitted node call challenge signature hsucceeds.1
  obtain ⟨haccurate, hspent, -, -⟩ := s.get?_used_of_succeeds hs node call challenge signature
    between fault hidle hfinish hsucceeds hgranted
  have hlater : later.Accurate (.start settings store verifier) :=
    accurate_run _ _ haccurate after hdistinct
  have hspent' := granted.spent_run after challenge hspent
  have hremembered : later.auth.used.contains challenge = true ↔ remembered :=
    s.remembered_iff hs node call challenge signature between after fault hfinish hsucceeds
      hdistinct
  refine ⟨later.not_live_of_spent hlater challenge hspent', ?_, ?_⟩
  · have hnow := s.remembered_iff hs node call challenge signature between [] fault hfinish
      hsucceeds hgranted
    refine hnow.trans (and_iff_left ?_)
    intro time htime
    cases htime
  · intro node' call' signature' hidle'
    constructor
    · rintro rfl hnot
      exact later.refused_unregistered node' challenge signature' hidle' hnot
    · intro hregistered
      have hrefused := later.refused_of_spent hlater node' call' challenge signature' hidle'
        hregistered hspent'
      constructor
      · intro hkept
        rwa [if_pos (hremembered.2 hkept)] at hrefused
      · intro hforgotten
        rwa [if_neg fun hcontains => hforgotten (hremembered.1 hcontains)] at hrefused

/-! ## A call at the last moment -/

namespace LateCleanup

/-- The node that registers, and another one. -/
def punctual : NodeId := ⟨List.replicate 32 5, rfl⟩

def stranger : NodeId := ⟨List.replicate 32 6, rfl⟩

def registers : Call := .register ⟨[], none, ""⟩

def firstDraw : Bytes := List.replicate 32 0

/-- A run up to one millisecond before the challenge is over. -/
def lastMoment : AuthRun :=
  (start ⟨10, 100⟩ (.inMemory ⟨[]⟩) (fun _ _ _ => .ok ()) ⟨⟨0, 0⟩, 0⟩
    fun i => ⟨List.replicate 32 (UInt8.ofNat i), rfl⟩).run
    [.getChallenge punctual .register, .advance 9]

theorem accurate_lastMoment :
    lastMoment.Accurate (.start ⟨10, 100⟩ (.inMemory ⟨[]⟩) fun _ _ _ => .ok ()) :=
  accurate_run _ _ (accurate_start _ _ _ _ _) _ (List.nodup_singleton _)

/-- The registration succeeds, whatever its write waits for, if the store records it in the end. -/
theorem succeeds_lastMoment (between : List AuthOp)
    (hfinish : ∀ fault, AuthOp.finish punctual fault ∉ between)
    (hrecord : ∃ store,
      let t := lastMoment.run (.call punctual registers firstDraw [] :: between)
      t.auth.record none t.clock.wall (lastMoment.minted punctual registers firstDraw).1 =
        .ok store) :
    lastMoment.Succeeds punctual registers firstDraw [] between none := by
  apply (succeeds_iff _ lastMoment accurate_lastMoment punctual registers firstDraw [] between none
    rfl hfinish).2
  refine ⟨⟨fun hrecover => Call.noConfusion hrecover, ⟨_, rfl, rfl, ?_, by decide⟩, rfl⟩, hrecord⟩
  rintro ⟨g, hg, -⟩
  cases hg

end LateCleanup

section
open LateCleanup

/-- A cleanup that comes while the challenge is in time does no harm: though its time is over when
the write ends, the challenge is told a replay.  Only the recovery of another node, which is not
registered, fails for that reason. -/
theorem replay_after_early_cleanup :
    let granted := ((lastMoment.run
      [.call punctual registers firstDraw [], .cleanup, .advance 20]).step
        (.finish punctual none)).2
    let later := granted.run [.advance 99, .cleanup]
    lastMoment.Succeeds punctual registers firstDraw [] [.cleanup, .advance 20] none ∧
      (later.step (.call punctual registers firstDraw [])).1 = .refused .replay ∧
      (later.step (.call stranger .recover firstDraw [])).1 =
        .refused (.unknownIdentity stranger) := by
  intro granted later
  have hfinish : ∀ fault, AuthOp.finish punctual fault ∉ [AuthOp.cleanup, .advance 20] := by simp
  have hsucceeds := succeeds_lastMoment _ hfinish ⟨_, rfl⟩
  obtain ⟨-, -, hrefused⟩ := presented_again ⟨10, 100⟩ (.inMemory ⟨[]⟩) (fun _ _ _ => .ok ())
    ⟨⟨0, 0⟩, 0⟩ (fun i => ⟨List.replicate 32 (UInt8.ofNat i), rfl⟩)
    [.getChallenge punctual .register, .advance 9] [.cleanup, .advance 20]
    [.advance 99, .cleanup] punctual registers firstDraw [] none hfinish
    (List.nodup_singleton _) hsucceeds
  refine ⟨hsucceeds, ?_, ?_⟩
  · refine ((hrefused punctual registers [] rfl).2 fun hrecover => Call.noConfusion hrecover).1 ?_
    constructor <;> decide
  · exact (hrefused stranger .recover [] rfl).1 rfl rfl

/-- A cleanup that comes during the wait when the challenge is over drops it: the registration
succeeds all the same, but its challenge is not remembered, and presenting it again is not told a
replay.  Nor is it, though remembered, when a node that is not registered asks for a recovery. -/
theorem late_cleanup_forgets :
    let late : List AuthOp := [.advance 20, .cleanup]
    let granted := ((lastMoment.run (.call punctual registers firstDraw [] :: late)).step
      (.finish punctual none)).2
    let timely := ((lastMoment.run [.call punctual registers firstDraw []]).step
      (.finish punctual none)).2
    lastMoment.Succeeds punctual registers firstDraw [] late none ∧
      granted.auth.used.contains firstDraw = false ∧
      (∃ reason, (granted.step (.call punctual registers firstDraw [])).1 =
        .refused (.authentication reason)) ∧
      lastMoment.Succeeds punctual registers firstDraw [] [] none ∧
      timely.auth.used.contains firstDraw = true ∧
      (timely.step (.call stranger .recover firstDraw [])).1 =
        .refused (.unknownIdentity stranger) := by
  intro late granted timely
  have hfinish : ∀ fault, AuthOp.finish punctual fault ∉ late := by simp [late]
  have hnone : ∀ fault, AuthOp.finish punctual fault ∉ ([] : List AuthOp) := by simp
  have hlate := succeeds_lastMoment late hfinish ⟨_, rfl⟩
  have htimely := succeeds_lastMoment [] hnone ⟨_, rfl⟩
  obtain ⟨haccurate, hspent, -, hforgotten⟩ := lastMoment.get?_used_of_succeeds accurate_lastMoment
    punctual registers firstDraw [] late none rfl hfinish hlate (List.nodup_singleton _)
  obtain ⟨-, -, -, hkept⟩ := lastMoment.get?_used_of_succeeds accurate_lastMoment
    punctual registers firstDraw [] [] none rfl hnone htimely (List.nodup_singleton _)
  rw [if_pos (by decide)] at hforgotten
  rw [if_neg (by decide)] at hkept
  have hgone : granted.auth.used.contains firstDraw = false :=
    congrArg Option.isSome hforgotten
  have hrefused := granted.refused_of_spent haccurate punctual registers firstDraw [] rfl
    (fun hrecover => Call.noConfusion hrecover) hspent
  rw [hgone, if_neg Bool.false_ne_true] at hrefused
  exact ⟨hlate, hgone, hrefused, htimely, congrArg Option.isSome hkept,
    timely.refused_unregistered stranger firstDraw [] rfl rfl⟩

end

end AuthRun

end SigningGateway
