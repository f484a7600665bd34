import SigningGateway.Proofs.Scheduler.History

/-!
# Lookups that wait

Who asks where the process of a node runs, and waits, has a number.  Other steps leave that alone,
whoever else waits, so every poll of a lookup tells what holds at that moment: an assignment that
stands, or that none does and the time is over, or nothing yet.

    steps of others commute with a change of who waits                        (after_withLookups)
    poll = some (some a) ↔ a stands;  poll = some none ↔ nothing stands, and it is late  (poll_tells)
    runs with and without the lookups that are given up are alike                        (Alike.run)
-/

namespace SigningGateway

namespace SchedulerRun

/-! ## Answers -/

/-- The lookup that an operation answers, with its answer. -/
def answered (s : SchedulerRun) : LookupOp → Option (Nat × Option Assignment)
  | .call (.step (.pollLookup call)) =>
    (s.scheduler.pollLookup s.clock.steady call).1.map fun a => (call, a)
  | _ => none

/-- The answers that lookups get in a run. -/
def answers (s : SchedulerRun) : List LookupOp → List (Nat × Option Assignment)
  | [] => []
  | op :: ops => (s.answered op).toList ++ (s.after op).answers ops

/-! ## Who waits -/

/-- The scheduler with other lookups waiting. -/
def withLookups (s : SchedulerRun) (lookups : Table Nat Lookup) : SchedulerRun :=
  { s with scheduler := { s.scheduler with lookups } }

/-- Whether an operation begins, polls or gives up a lookup. -/
def ofLookups : LookupOp → Bool
  | .call (.step (.locate ..)) | .call (.step (.pollLookup _)) | .call (.step (.dropLookup _)) =>
    true
  | _ => false

/-- A caller that enters finds or joins the same, whoever waits for a process. -/
theorem enter_withLookups (s : Scheduler) (lookups : Table Nat Lookup) (node : NodeId) :
    ({ s with lookups } : Scheduler).enter node =
      ((s.enter node).1, { (s.enter node).2 with lookups }) := by
  unfold Scheduler.enter
  cases hflight : s.inFlight.get? node with
  | some launch => rfl
  | none =>
    cases s.registry.get? node with
    | some a => rfl
    | none =>
      simp only [Scheduler.launchOf, hflight]
      rfl

/-- Steps that concern no lookup do not look at who waits. -/
theorem after_withLookups (s : SchedulerRun) (lookups : Table Nat Lookup) (op : LookupOp)
    (hop : ofLookups op = false) :
    (s.withLookups lookups).after op = (s.after op).withLookups lookups ∧
      (s.after op).scheduler.lookups = s.scheduler.lookups := by
  cases op with
  | record a => exact ⟨rfl, rfl⟩
  | clear node instanceId => exact ⟨rfl, rfl⟩
  | call op =>
    cases op with
    | breakOff launch reason =>
      simp only [after, next, breakOff, withLookups, Scheduler.breakOff]
      split
      · split <;> exact ⟨rfl, rfl⟩
      · exact ⟨rfl, rfl⟩
    | step op =>
      cases op with
      | locate caller node wait => cases hop
      | pollLookup call => cases hop
      | dropLookup call => cases hop
      | look caller node =>
        simp only [after, next, step, withLookups]
        cases Scheduler.authorize caller node with
        | error cause => exact ⟨rfl, rfl⟩
        | ok _ => cases s.scheduler.registry.get? node <;> exact ⟨rfl, rfl⟩
      | enter node =>
        by_cases hasking : node ∈ s.asking
        · simp only [after, next, step, if_pos hasking, withLookups, enter_withLookups,
            lookups_enter, and_self]
        · have hasking' : node ∉ (s.withLookups lookups).asking := hasking
          simp only [after, next, step, if_neg hasking, if_neg hasking', and_self]
      | pollJoin call =>
        simp only [after, next, step, withLookups, Scheduler.pollJoin]
        split
        · exact ⟨rfl, rfl⟩
        · split <;> exact ⟨rfl, rfl⟩
      | dropJoin call => exact ⟨rfl, rfl⟩
      | begin launch =>
        simp only [after, next, step, withLookups, Scheduler.begin]
        split <;> exact ⟨rfl, rfl⟩
      | returned launch outcome =>
        simp only [after, next, step, withLookups, settle]
        split
        · next node deadline _ _ =>
          cases outcome with
          | up endpoint => exact ⟨rfl, rfl⟩
          | refused cause => exact ⟨rfl, rfl⟩
          | late => by_cases hlate : deadline ≤ s.clock.steady <;> simp [hlate]
        · exact ⟨rfl, rfl⟩
      | update launch =>
        simp only [after, next, step, withLookups]
        split
        · next r _ =>
          rcases r with ⟨node, stage⟩
          cases stage <;> exact ⟨rfl, rfl⟩
        · exact ⟨rfl, rfl⟩
      | report launch =>
        have hsame : (s.withLookups lookups).hasProcess launch = s.hasProcess launch := rfl
        simp only [after, next, step, hsame]
        split <;> exact ⟨rfl, rfl⟩
      | clear launch =>
        have hexited : (s.withLookups lookups).scheduler.exited launch =
            { s.scheduler.exited launch with lookups } ∧
            (s.scheduler.exited launch).lookups = s.scheduler.lookups := by
          simp only [withLookups, Scheduler.exited]
          split <;> exact ⟨rfl, rfl⟩
        by_cases hreported : launch ∈ s.reported
        · have hreported' : launch ∈ (s.withLookups lookups).reported := hreported
          simp only [after, next, step, if_pos hreported, if_pos hreported', hexited.1, hexited.2]
          exact ⟨rfl, trivial⟩
        · have hreported' : launch ∉ (s.withLookups lookups).reported := hreported
          simp only [after, next, step, if_neg hreported, if_neg hreported', and_self]
      | advance duration => exact ⟨rfl, rfl⟩

/-! ## Polls -/

/-- A poll answers with the assignment of the node, or with nothing when the time is over. -/
theorem pollLookup_fst (s : Scheduler) (now call : Nat) (l : Lookup)
    (hl : s.lookups.get? call = some l) : (s.pollLookup now call).1 =
      match s.registry.get? l.node with
      | some a => some (some a)
      | none => if l.deadline ≤ now then some none else none := by
  simp only [Scheduler.pollLookup, hl]
  cases s.registry.get? l.node with
  | some a => rfl
  | none =>
    dsimp only
    split <;> rfl

/-- Nobody is answered who does not wait. -/
theorem pollLookup_of_none (s : Scheduler) (now call : Nat) (hl : s.lookups.get? call = none) :
    s.pollLookup now call = (none, s) := by
  simp only [Scheduler.pollLookup, hl]

/-- A poll changes nothing but that a lookup that is answered waits no longer. -/
theorem pollLookup_snd (s : Scheduler) (now call : Nat) : (s.pollLookup now call).2 =
    { s with lookups := if (s.pollLookup now call).1.isSome then s.lookups.erase call
                        else s.lookups } := by
  cases hl : s.lookups.get? call with
  | none => simp [pollLookup_of_none s now call hl]
  | some l =>
    cases hr : s.registry.get? l.node with
    | some a => simp [Scheduler.pollLookup, hl, hr]
    | none => by_cases hdue : l.deadline ≤ now <;> simp [Scheduler.pollLookup, hl, hr, hdue]

theorem get?_lookups_pollLookup (s : Scheduler) (now call call' : Nat) :
    (s.pollLookup now call).2.lookups.get? call' =
      if call' = call ∧ (s.pollLookup now call).1.isSome then none else s.lookups.get? call' := by
  rw [pollLookup_snd]
  cases (s.pollLookup now call).1.isSome with
  | true => simp [Table.get?_erase]
  | false => simp

/-! ## Lookups that go on waiting -/

/-- The number of the next caller never goes back. -/
theorem nextCall_after (s : SchedulerRun) (op : LookupOp) :
    s.scheduler.nextCall ≤ (s.after op).scheduler.nextCall := by
  cases op with
  | call op => exact (ages_next s op).1
  | record a => exact Nat.le_refl _
  | clear node instanceId => exact Nat.le_refl _

/-- A lookup waits until it is answered or given up, whatever else happens. -/
theorem waits_after (s : SchedulerRun) (op : LookupOp) {call : Nat} {l : Lookup}
    (hl : s.scheduler.lookups.get? call = some l) (hcall : call < s.scheduler.nextCall)
    (hkeeps : op ≠ .call (.step (.dropLookup call))) (hsilent : ∀ r, s.answered op ≠ some (call, r)) :
    (s.after op).scheduler.lookups.get? call = some l := by
  cases hop : ofLookups op with
  | false => rw [(after_withLookups s s.scheduler.lookups op hop).2, hl]
  | true =>
    unfold ofLookups at hop
    split at hop
    · next caller node wait =>
      simp only [after, next, step, Scheduler.locate]
      cases Scheduler.authorize caller node with
      | error cause => exact hl
      | ok _ =>
        cases wait with
        | false => exact hl
        | true =>
          simp only [bind, Except.bind, pure, Except.pure, if_true]
          rw [Table.get?_set, if_neg (Nat.ne_of_lt hcall), hl]
    · next polled =>
      simp only [after, next, step, get?_lookups_pollLookup]
      rw [if_neg, hl]
      rintro ⟨rfl, hsome⟩
      obtain ⟨r, hr⟩ := Option.isSome_iff_exists.1 hsome
      exact hsilent r (by simp only [answered, hr, Option.map_some])
    · next dropped =>
      have hne : call ≠ dropped := by
        rintro rfl
        exact hkeeps rfl
      simp only [after, next, step, Scheduler.dropLookup, Table.get?_erase]
      rw [if_neg hne, hl]
    · cases hop

theorem waits_run (s : SchedulerRun) (ops : List LookupOp) {call : Nat} {l : Lookup}
    (hl : s.scheduler.lookups.get? call = some l) (hcall : call < s.scheduler.nextCall)
    (hkeeps : .call (.step (.dropLookup call)) ∉ ops) (hsilent : ∀ r, (call, r) ∉ s.answers ops) :
    (s.runLookups ops).scheduler.lookups.get? call = some l := by
  induction ops generalizing s with
  | nil => exact hl
  | cons op ops ih =>
    refine ih (s.after op) ?_ (Nat.lt_of_lt_of_le hcall (s.nextCall_after op))
      (fun hmem => hkeeps (List.mem_cons_of_mem _ hmem))
      fun r hr => hsilent r (List.mem_append_right _ hr)
    refine s.waits_after op hl hcall (fun heq => hkeeps (heq ▸ List.mem_cons_self)) fun r hr => ?_
    exact hsilent r (List.mem_append_left _ (by rw [hr]; exact List.mem_cons_self))

/-- Who asks for a process and waits has a number of its own, and waits for so long. -/
theorem waits_of_locate (s : SchedulerRun) (node : NodeId) :
    let asked := s.after (.call (.step (.locate node node true)))
    asked.scheduler.lookups.get? s.scheduler.nextCall =
        some ⟨node, s.clock.steady + s.scheduler.settings.maxWait⟩ ∧
      s.scheduler.nextCall < asked.scheduler.nextCall := by
  simp only [after, next, step, Scheduler.locate, Scheduler.authorize, if_true, bind, Except.bind,
    pure, Except.pure]
  exact ⟨by rw [Table.get?_set, if_pos rfl], Nat.lt_succ_self _⟩

/-- A poll of a lookup that waits tells what stands for its node at that moment. -/
theorem poll_tells (settings : SchedulerSettings) (clock : Clock) (entropy : Entropy)
    (ops : List LookupOp) {call : Nat} {l : Lookup}
    (hl : ((start settings clock entropy).runLookups ops).scheduler.lookups.get? call = some l) :
    let t := (start settings clock entropy).runLookups ops
    let stands := Stands ((start settings clock entropy).history ops) l.node
    let poll := (t.scheduler.pollLookup t.clock.steady call).1
    (∀ a, poll = some (some a) ↔ stands a) ∧
      (poll = some none ↔ l.deadline ≤ t.clock.steady ∧ ∀ a, ¬stands a) ∧
      (poll = none ↔ ¬l.deadline ≤ t.clock.steady ∧ ∀ a, ¬stands a) := by
  intro t stands poll
  have hstands : ∀ a, t.scheduler.registry.get? l.node = some a ↔ stands a := by
    intro a
    rw [((start settings clock entropy).registry_run ops).1]
    exact Registry.get?_eq_some_iff_stands _ _ _
  have hpoll : poll = _ := pollLookup_fst t.scheduler t.clock.steady call l hl
  cases hr : t.scheduler.registry.get? l.node with
  | some a =>
    rw [hr] at hpoll
    have ha := (hstands a).1 hr
    refine ⟨fun b => ?_, ?_, ?_⟩
    · rw [← hstands, hr, hpoll, Option.some_inj]
    · simp only [hpoll, Option.some_inj, reduceCtorEq, false_iff, not_and, not_forall, not_not]
      exact fun _ => ⟨a, ha⟩
    · simp only [hpoll, reduceCtorEq, false_iff, not_and, not_forall, not_not]
      exact fun _ => ⟨a, ha⟩
  | none =>
    rw [hr] at hpoll
    have hnone : ∀ a, ¬stands a := by
      intro a ha
      cases hr.symm.trans ((hstands a).2 ha)
    by_cases hlate : l.deadline ≤ t.clock.steady
    · simp [hpoll, hlate, hnone]
    · simp [hpoll, hlate, hnone]

/-! ## Runs that differ in who waits -/

/-- Whether an operation gives up one of some lookups. -/
def givesUp (lookups : Nat → Bool) : LookupOp → Bool
  | .call (.step (.dropLookup call)) => lookups call
  | _ => false

/-- Two schedulers differ in nothing but which of some lookups wait. -/
structure Alike (lookups : Nat → Bool) (s s' : SchedulerRun) : Prop where
  same : s' = s.withLookups s'.scheduler.lookups
  others : ∀ call, lookups call = false →
    s'.scheduler.lookups.get? call = s.scheduler.lookups.get? call

theorem events_withLookups (s : SchedulerRun) (lookups : Table Nat Lookup) (op : LookupOp) :
    (s.withLookups lookups).events op = s.events op := by
  cases op with
  | call op =>
    cases op with
    | step op => cases op <;> rfl
    | breakOff launch reason => rfl
  | record a => rfl
  | clear node instanceId => rfl

theorem answered_of_not_ofLookups (s : SchedulerRun) (op : LookupOp) (hop : ofLookups op = false) :
    s.answered op = none := by
  unfold answered
  split
  · cases hop
  · rfl

variable {lookups : Nat → Bool} {s s' : SchedulerRun}

theorem Alike.refl (lookups : Nat → Bool) (s : SchedulerRun) : Alike lookups s s :=
  ⟨rfl, fun _ _ => rfl⟩

/-- Giving one of the lookups up changes nothing but that it waits no longer. -/
theorem Alike.giveUp (h : Alike lookups s s') (op : LookupOp) (hop : givesUp lookups op = true) :
    Alike lookups (s.after op) s' ∧ s.events op = [] ∧ s.answered op = none := by
  unfold givesUp at hop
  split at hop
  · next call =>
    refine ⟨⟨h.same, fun other hother => ?_⟩, rfl, rfl⟩
    have hne : other ≠ call := by
      rintro rfl
      exact Bool.false_ne_true (hother.symm.trans hop)
    simp only [SchedulerRun.after, next, step, Scheduler.dropLookup, Table.get?_erase]
    rw [if_neg hne, h.others other hother]
  · cases hop

/-- A poll of one of the other lookups is answered alike. -/
theorem Alike.poll (h : Alike lookups s s') (call : Nat) :
    Alike lookups (s.after (.call (.step (.pollLookup call))))
        (s'.after (.call (.step (.pollLookup call)))) ∧
      (lookups call = false → (s'.scheduler.pollLookup s'.clock.steady call).1 =
        (s.scheduler.pollLookup s.clock.steady call).1) := by
  obtain ⟨hsame, hothers⟩ := h
  generalize s'.scheduler.lookups = waiting at hsame hothers
  subst hsame
  have hanswer : lookups call = false →
      ((s.withLookups waiting).scheduler.pollLookup (s.withLookups waiting).clock.steady call).1 =
        (s.scheduler.pollLookup s.clock.steady call).1 := by
    intro hcall
    have hget := hothers call hcall
    cases hl : s.scheduler.lookups.get? call with
    | none =>
      rw [pollLookup_of_none _ _ _ hl, pollLookup_of_none _ _ _ (hget.trans hl)]
    | some l =>
      rw [pollLookup_fst _ _ _ l hl, pollLookup_fst _ _ _ l (hget.trans hl)]
      rfl
  refine ⟨⟨?_, fun other hother => ?_⟩, hanswer⟩
  · simp only [SchedulerRun.after, next, step, withLookups]
    rw [pollLookup_snd, pollLookup_snd s.scheduler]
  · simp only [SchedulerRun.after, next, step, get?_lookups_pollLookup]
    by_cases hcall : other = call
    · subst hcall
      rw [hanswer hother]
      split
      · rfl
      · exact hothers other hother
    · rw [if_neg fun hboth => hcall hboth.1, if_neg fun hboth => hcall hboth.1]
      exact hothers other hother

/-- A caller that begins to wait takes the same number and waits for the same. -/
theorem Alike.locate (h : Alike lookups s s') (caller node : NodeId) (wait : Bool) :
    Alike lookups (s.after (.call (.step (.locate caller node wait))))
      (s'.after (.call (.step (.locate caller node wait)))) := by
  obtain ⟨hsame, hothers⟩ := h
  generalize s'.scheduler.lookups = waiting at hsame hothers
  subst hsame
  simp only [SchedulerRun.after, next, step, Scheduler.locate]
  cases Scheduler.authorize caller node with
  | error cause => exact ⟨rfl, hothers⟩
  | ok _ =>
    cases wait with
    | false => exact ⟨rfl, hothers⟩
    | true =>
      refine ⟨rfl, fun other hother => ?_⟩
      simp only [bind, Except.bind, pure, Except.pure, if_true, withLookups, Table.get?_set]
      rw [hothers other hother]

/-- Schedulers that differ in who waits record and clear the same, and answer the other lookups
alike. -/
theorem Alike.after (h : Alike lookups s s') (op : LookupOp) (hkeeps : givesUp lookups op = false) :
    Alike lookups (s.after op) (s'.after op) ∧ s'.events op = s.events op ∧
      (s'.answered op).toList.filter (fun e => !lookups e.1) =
        (s.answered op).toList.filter fun e => !lookups e.1 := by
  have hevents : s'.events op = s.events op := by rw [h.same, events_withLookups]
  cases hop : ofLookups op with
  | false =>
    rw [answered_of_not_ofLookups s op hop, answered_of_not_ofLookups s' op hop]
    obtain ⟨hsame, hothers⟩ := h
    generalize s'.scheduler.lookups = waiting at hsame hothers
    subst hsame
    obtain ⟨hafter, hlookups⟩ := after_withLookups s waiting op hop
    refine ⟨⟨by rw [hafter]; rfl, fun call hcall => ?_⟩, hevents, rfl⟩
    rw [hafter, hlookups]
    exact hothers call hcall
  | true =>
    unfold ofLookups at hop
    split at hop
    · next caller node wait => exact ⟨h.locate caller node wait, hevents, rfl⟩
    · next call =>
      obtain ⟨hafter, hanswer⟩ := h.poll call
      refine ⟨hafter, hevents, ?_⟩
      simp only [answered]
      cases hcall : lookups call with
      | false => rw [hanswer hcall]
      | true =>
        have hnone : ∀ answer : Option (Option Assignment),
            (answer.map fun a => (call, a)).toList.filter (fun e => !lookups e.1) = [] := by
          intro answer
          cases answer <;> simp [hcall]
        rw [hnone, hnone]
    · next call =>
      refine ⟨⟨?_, fun other hother => ?_⟩, hevents, rfl⟩
      · rw [h.same]
        rfl
      · simp only [SchedulerRun.after, next, step, Scheduler.dropLookup, Table.get?_erase]
        rw [h.others other hother]
    · cases hop

/-- A run without the giving up of some lookups goes like the run with it, but for who waits. -/
theorem Alike.run (h : Alike lookups s s') (ops : List LookupOp) :
    let kept := ops.filter fun op => !givesUp lookups op
    Alike lookups (s.runLookups ops) (s'.runLookups kept) ∧ s'.history kept = s.history ops ∧
      (s'.answers kept).filter (fun e => !lookups e.1) =
        (s.answers ops).filter fun e => !lookups e.1 := by
  induction ops generalizing s s' with
  | nil => exact ⟨h, rfl, rfl⟩
  | cons op ops ih =>
    intro kept
    cases hop : givesUp lookups op with
    | true =>
      obtain ⟨hafter, hevents, hanswered⟩ := h.giveUp op hop
      have hkept : kept = ops.filter fun op => !givesUp lookups op :=
        List.filter_cons_of_neg (by simp [hop])
      rw [hkept, history, answers, hevents, hanswered]
      exact ih hafter
    | false =>
      obtain ⟨hafter, hevents, hanswered⟩ := h.after op hop
      obtain ⟨hrun, hhistory, hanswers⟩ := ih hafter
      have hkept : kept = op :: ops.filter fun op => !givesUp lookups op :=
        List.filter_cons_of_pos (by simp [hop])
      rw [hkept, history, history, answers, answers, List.filter_append, List.filter_append, hevents,
        hanswered, hhistory, hanswers]
      exact ⟨hrun, rfl, rfl⟩

end SchedulerRun

end SigningGateway
