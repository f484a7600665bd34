import SigningGateway.Operation.Basic
import SigningGateway.Proofs.Scheduler.Lookups

/-!
# No lookup is overlooked

A gateway in operation polls a call that waits only when the call has a turn.  Whoever records an
assignment gives a turn to all who wait for its node, and a timer gives one when the time of a call
is over.  Turns that come together count once.  Still no turn is missing: while an assignment stands
that a call waits for, or its time is over, the call has a turn, or the timer that gives it one.

    Attended o → Attended (a step of o)                                        (Attended.step)
    a poll tells what stands, and no poll is missing                      (lookup_answered_iff)
-/

namespace SigningGateway

namespace Operation

/-! ## Runs -/

/-- What happens to a gateway in operation, as far as its calls and launches are concerned. -/
inductive OperationOp
  /-- A call comes in. -/
  | enter (question : Question) (caller node : NodeId)
  /-- The first of the turns is taken. -/
  | turn
  | giveUp (call : Nat)
  | exit (launch : Nat)
  | record (a : Assignment)
  | clear (node : NodeId) (instanceId : Uuid)
  /-- Time goes on. -/
  | tick (duration : Nat)
  /-- The timers that have come due give their turns. -/
  | fire

def takeTurn (o : Operation) : Operation :=
  match o.turns with
  | [] => o
  | t :: rest => { o with turns := rest }.run t

def step (o : Operation) : OperationOp → Operation
  | .enter question caller node => (o.enter question caller node).2
  | .turn => o.takeTurn
  | .giveUp call => (o.giveUp call).2
  | .exit launch => (o.exit launch).2
  | .record a => o.record a
  | .clear node instanceId => (o.clear node instanceId).2
  | .tick duration => { o with clock := o.clock.advance duration }
  | .fire => o.fireTimers

def steps (o : Operation) (ops : List OperationOp) : Operation := ops.foldl step o

/-- The turns are taken one after the other. -/
theorem runTurns_eq (fuel : Nat) (o : Operation) :
    runTurns fuel o = o.steps (List.replicate fuel .turn) := by
  induction fuel generalizing o with
  | zero => rfl
  | succ fuel ih =>
    rw [List.replicate_succ]
    show _ = (o.takeTurn).steps (List.replicate fuel .turn)
    rw [← ih]
    cases h : o.turns with
    | nil =>
      have hquiet : ∀ fuel, runTurns fuel o = o := by
        intro fuel
        cases fuel <;> simp [runTurns, h]
      simp [takeTurn, h, hquiet]
    | cons t rest => simp [runTurns, takeTurn, h]

/-! ## Turns -/

/-- Turns are added, and nothing else is changed. -/
structure Woken (o o' : Operation) : Prop where
  same : o' = { o with turns := o'.turns }
  turns : o.turns ⊆ o'.turns

theorem Woken.refl (o : Operation) : Woken o o := ⟨rfl, fun _ h => h⟩

/-- Those who wait, the scheduler, the time and the timers are the same. -/
theorem Woken.fields {o o' : Operation} (h : Woken o o') :
    o'.calls = o.calls ∧ o'.scheduler = o.scheduler ∧ o'.now = o.now ∧ o'.timers = o.timers := by
  rw [h.same]
  exact ⟨rfl, rfl, rfl, rfl⟩

theorem Woken.trans {o o' o'' : Operation} (h : Woken o o') (h' : Woken o' o'') : Woken o o'' := by
  refine ⟨?_, fun t ht => h'.turns (h.turns ht)⟩
  rw [h'.same, h.same]

theorem woken_wake (o : Operation) (t : Turn) : Woken o (o.wake t) ∧ t ∈ (o.wake t).turns := by
  unfold wake
  split
  · next hmem => exact ⟨.refl o, hmem⟩
  · exact ⟨⟨rfl, List.subset_append_left _ _⟩, by simp⟩

theorem woken_wakeAll (o : Operation) (ts : List Turn) :
    Woken o (o.wakeAll ts) ∧ ts ⊆ (o.wakeAll ts).turns := by
  induction ts generalizing o with
  | nil => exact ⟨.refl o, List.nil_subset _⟩
  | cons t ts ih =>
    obtain ⟨hwoken, hmem⟩ := o.woken_wake t
    obtain ⟨hrest, hsub⟩ := ih (o.wake t)
    exact ⟨hwoken.trans hrest, List.cons_subset.2 ⟨hrest.turns hmem, hsub⟩⟩

/-- Taking over a scheduler adds turns for its new launches. -/
theorem woken_adopt (o : Operation) (scheduler : Scheduler) :
    Woken { o with gateway := { o.gateway with scheduler } } (o.adopt scheduler) :=
  (woken_wakeAll _ _).1

theorem woken_wakeLookups (o : Operation) (node : NodeId) : Woken o (o.wakeLookups node) := by
  unfold wakeLookups
  split
  · exact (o.woken_wakeAll _).1
  · exact .refl o

/-- All who wait for a process of a node that runs get a turn. -/
theorem mem_wakeLookups (o : Operation) (node : NodeId) (n ticket : Nat)
    (hn : o.calls.get? n = some (.locating node ticket))
    (hsome : (o.scheduler.registry.get? node).isSome) : .call n ∈ (o.wakeLookups node).turns := by
  rw [wakeLookups, if_pos hsome]
  refine (o.woken_wakeAll _).2 ?_
  rw [callsWhere, List.mem_map]
  refine ⟨(n, .locating node ticket), List.mem_filter.2 ⟨?_, ?_⟩, rfl⟩
  · exact (Table.get?_eq_some_iff _ _ _).1 hn
  · simp [isLocating]

/-! ## Calls that wait -/

/-- A call waits under a number for a process of a node. -/
def Locates (o : Operation) (n : Nat) (node : NodeId) (ticket : Nat) : Prop :=
  o.calls.get? n = some (.locating node ticket)

/-- A call has a turn, or its turn was taken just now. -/
def InTurn (o : Operation) (taken : Option Nat) (n : Nat) : Prop :=
  taken = some n ∨ .call n ∈ o.turns

/-- A call that waits has a turn when something runs for its node, and a timer until its time is
over and then a turn. -/
structure Tended (o : Operation) (taken : Option Nat) (n : Nat) (node : NodeId)
    (ticket deadline : Nat) : Prop where
  number : ticket < o.scheduler.nextCall
  lookup : o.scheduler.lookups.get? ticket = some ⟨node, deadline⟩
  assigned : (o.scheduler.registry.get? node).isSome → o.InTurn taken n
  timer : ⟨deadline, .call n⟩ ∈ o.timers ∨ deadline ≤ o.now ∧ o.InTurn taken n

/-- Every call that waits is tended, under a number of its own; the turn of one may just have been
taken. -/
structure Attended (o : Operation) (taken : Option Nat) : Prop where
  distinct : ∀ n n' node node' ticket, o.Locates n node ticket → o.Locates n' node' ticket → n = n'
  tended : ∀ n node ticket, o.Locates n node ticket →
    ∃ deadline, o.Tended taken n node ticket deadline

/-- A gateway at its start, where nobody waits. -/
theorem attended_start (gateway : Gateway) (clock : Clock) (entropy : Entropy)
    (plans : LaunchPlans) : (start gateway clock entropy plans).Attended none := by
  refine ⟨?_, ?_⟩
  · rintro n n' node node' ticket ⟨⟩
  · rintro n node ticket ⟨⟩

/-- Whoever waits in the second state waits in the first, and keeps a turn and a timer, unless that
gives a turn. -/
structure Follows (o : Operation) (taken : Option Nat) (o' : Operation) (taken' : Option Nat) :
    Prop where
  calls : ∀ n node ticket, o'.Locates n node ticket → o.Locates n node ticket
  lookups : ∀ n node ticket, o'.Locates n node ticket →
    o'.scheduler.lookups.get? ticket = o.scheduler.lookups.get? ticket
  turns : ∀ n node ticket, o'.Locates n node ticket → o.InTurn taken n → o'.InTurn taken' n
  registry : ∀ n node ticket, o'.Locates n node ticket →
    (o'.scheduler.registry.get? node).isSome →
      (o.scheduler.registry.get? node).isSome ∨ o'.InTurn taken' n
  timers : ∀ n deadline, ⟨deadline, .call n⟩ ∈ o.timers →
    ⟨deadline, .call n⟩ ∈ o'.timers ∨ deadline ≤ o'.now ∧ o'.InTurn taken' n
  now : o.now ≤ o'.now
  nextCall : o.scheduler.nextCall ≤ o'.scheduler.nextCall

namespace Attended

variable {o o' : Operation} {taken taken' : Option Nat}

theorem follows (h : o.Attended taken) (hf : Follows o taken o' taken') : o'.Attended taken' := by
  refine ⟨fun n n' node node' ticket hn hn' => ?_, fun n node ticket hn => ?_⟩
  · exact h.distinct n n' node node' ticket (hf.calls _ _ _ hn) (hf.calls _ _ _ hn')
  · obtain ⟨deadline, ht⟩ := h.tended n node ticket (hf.calls _ _ _ hn)
    refine ⟨deadline, Nat.lt_of_lt_of_le ht.number hf.nextCall,
      (hf.lookups _ _ _ hn).trans ht.lookup, fun hsome => ?_, ?_⟩
    · rcases hf.registry _ _ _ hn hsome with hbefore | hnew
      · exact hf.turns _ _ _ hn (ht.assigned hbefore)
      · exact hnew
    · rcases ht.timer with hmem | ⟨hover, hturn⟩
      · exact hf.timers n deadline hmem
      · exact Or.inr ⟨Nat.le_trans hover hf.now, hf.turns _ _ _ hn hturn⟩

/-- Those who wait do not look at the rest of the state, and more turns and timers do no harm. -/
theorem frame (h : o.Attended taken) (o' : Operation)
    (hcalls : ∀ n node ticket, o'.Locates n node ticket → o.Locates n node ticket)
    (hgateway : o'.gateway = o.gateway) (hturns : o.turns ⊆ o'.turns)
    (htimers : o.timers ⊆ o'.timers) (hnow : o.now ≤ o'.now) : o'.Attended taken := by
  have hscheduler : o'.scheduler = o.scheduler := congrArg Gateway.scheduler hgateway
  refine h.follows ⟨hcalls, fun _ _ _ _ => by rw [hscheduler], fun _ _ _ _ hturn => ?_,
    fun _ _ _ _ hsome => Or.inl (hscheduler ▸ hsome), fun _ _ hmem => Or.inl (htimers hmem), hnow,
    Nat.le_of_eq (congrArg Scheduler.nextCall hscheduler.symm)⟩
  exact hturn.imp_right fun hmem => hturns hmem

theorem woken (h : o.Attended taken) (hwoken : Woken o o') : o'.Attended taken := by
  obtain ⟨hcalls, -, hnow, htimers⟩ := hwoken.fields
  refine h.frame o' (fun n node ticket hn => ?_) (by rw [hwoken.same]) hwoken.turns
    (fun _ hmem => htimers ▸ hmem) (Nat.le_of_eq hnow.symm)
  rwa [Locates, hcalls] at hn

/-- Turns are taken, but none of a call that waits and loses it. -/
theorem retake (h : o.Attended taken) (turns : List Turn)
    (hturns : ∀ n node ticket, o.Locates n node ticket → o.InTurn taken n →
      taken' = some n ∨ .call n ∈ turns) : ({ o with turns }).Attended taken' :=
  h.follows ⟨fun _ _ _ hn => hn, fun _ _ _ _ => rfl, hturns, fun _ _ _ _ hsome => Or.inl hsome,
    fun _ _ hmem => Or.inl hmem, Nat.le_refl _, Nat.le_refl _⟩

/-- A call that does not wait needs no turn. -/
theorem settle {n : Nat} (h : o.Attended (some n)) (hn : ∀ node ticket, ¬o.Locates n node ticket) :
    o.Attended none := by
  refine h.retake o.turns fun n' node ticket hn' hturn => Or.inr (hturn.resolve_left ?_)
  rintro ⟨⟩
  exact hn node ticket hn'

theorem weaken (h : o.Attended none) (n : Nat) : o.Attended (some n) :=
  h.retake o.turns fun _ _ _ _ hturn => Or.inr (hturn.resolve_left nofun)

/-- The first turn is taken. -/
theorem pop (h : o.Attended none) {t : Turn} {rest : List Turn} (hturns : o.turns = t :: rest)
    (taken : Option Nat) (ht : ∀ n, t = .call n → taken = some n) :
    ({ o with turns := rest }).Attended taken := by
  refine h.retake rest fun n _ _ _ hturn => ?_
  have hmem : .call n ∈ t :: rest := hturns ▸ hturn.resolve_left nofun
  exact (List.mem_cons.1 hmem).imp_left fun heq => ht n heq.symm

/-- Those whose time is over get a turn when their timer is taken away. -/
theorem fireTimers (h : o.Attended none) : o.fireTimers.Attended none := by
  generalize hdue : (o.timers.filter fun t => t.due ≤ o.now).mergeSort
    (fun a b => a.due ≤ b.due) = due
  obtain ⟨hwoken, hmem⟩ := woken_wakeAll
    { o with timers := o.timers.filter fun t => !(t.due ≤ o.now) } (due.map Timer.turn)
  have hfired : o.fireTimers =
      { o with timers := o.timers.filter fun t => !(t.due ≤ o.now) }.wakeAll
        (due.map Timer.turn) := by
    rw [← hdue]
    rfl
  rw [← hfired] at hwoken hmem
  obtain ⟨hcalls, hscheduler, hnow, htimers⟩ := hwoken.fields
  change o.fireTimers.scheduler = o.scheduler at hscheduler
  change o.fireTimers.now = o.now at hnow
  refine h.follows ⟨fun n node ticket hn => ?_, fun _ _ _ _ => by rw [hscheduler],
    fun _ _ _ _ hturn => hturn.imp_right fun hturn => hwoken.turns hturn,
    fun _ _ _ _ hsome => Or.inl (hscheduler ▸ hsome), fun n deadline hn => ?_,
    Nat.le_of_eq hnow.symm, Nat.le_of_eq (congrArg Scheduler.nextCall hscheduler.symm)⟩
  · rwa [Locates, hcalls] at hn
  · by_cases hover : deadline ≤ o.now
    · refine Or.inr ⟨hnow ▸ hover, Or.inr (hmem (List.mem_map.2 ⟨⟨deadline, .call n⟩, ?_, rfl⟩))⟩
      rw [← hdue, List.mem_mergeSort, List.mem_filter]
      exact ⟨hn, decide_eq_true hover⟩
    · refine Or.inl ?_
      rw [htimers, List.mem_filter]
      exact ⟨hn, by simp [hover]⟩

end Attended

/-- A call is there no longer. -/
def without (o : Operation) (n : Nat) (ended : List (Nat × CallEnd)) : Operation :=
  { o with calls := o.calls.erase n, ended }

theorem locates_without (o : Operation) (n : Nat) (ended : List (Nat × CallEnd)) (n' : Nat)
    (node : NodeId) (ticket : Nat) (h : (o.without n ended).Locates n' node ticket) :
    n' ≠ n ∧ o.Locates n' node ticket := by
  rw [Locates, without, Table.get?_erase] at h
  split at h
  · cases h
  · next hne => exact ⟨hne, h⟩

/-- A call that ends is attended to. -/
theorem Attended.without {o : Operation} {n : Nat} (h : o.Attended (some n))
    (ended : List (Nat × CallEnd)) : (o.without n ended).Attended none := by
  refine settle (n := n) (h.frame (o.without n ended) (fun n' _ _ hn' => ?_) rfl
    (List.Subset.refl _) (List.Subset.refl _) (Nat.le_refl _)) fun _ _ hn => ?_
  · exact (o.locates_without n ended n' _ _ hn').2
  · exact (o.locates_without n ended n _ _ hn).1 rfl

theorem wakeAll_finish (o : Operation) (ts : List Turn) (n : Nat) (r : CallEnd) :
    (o.wakeAll ts).finish n r = (o.finish n r).wakeAll ts := by
  induction ts generalizing o with
  | nil => rfl
  | cons t ts ih =>
    have hwake : (o.wake t).finish n r = (o.finish n r).wake t := by
      by_cases ht : t ∈ o.turns
      · have ht' : t ∈ (o.finish n r).turns := ht
        rw [wake, wake, if_pos ht, if_pos ht']
      · have ht' : t ∉ (o.finish n r).turns := ht
        rw [wake, wake, if_neg ht, if_neg ht']
        rfl
    exact (ih (o.wake t)).trans (congrArg (wakeAll · ts) hwake)

/-- It does not matter whether a call ends before or after a scheduler is taken over. -/
theorem adopt_finish (o : Operation) (scheduler : Scheduler) (n : Nat) (r : CallEnd) :
    (o.adopt scheduler).finish n r = (o.finish n r).adopt scheduler :=
  wakeAll_finish _ _ n r

/-- The same lookups wait, and nothing runs that did not run before. -/
structure Calm (s s' : Scheduler) : Prop where
  lookups : s'.lookups = s.lookups
  nextCall : s.nextCall ≤ s'.nextCall
  registry : ∀ node, (s'.registry.get? node).isSome → (s.registry.get? node).isSome

theorem Calm.of_eq {s s' : Scheduler} (hlookups : s'.lookups = s.lookups)
    (hnextCall : s.nextCall ≤ s'.nextCall) (hregistry : s'.registry = s.registry) : Calm s s' :=
  ⟨hlookups, hnextCall, fun _ hsome => hregistry ▸ hsome⟩

theorem calm_enter (s : Scheduler) (node : NodeId) : Calm s (s.enter node).2 := by
  refine .of_eq (SchedulerRun.lookups_enter s node) (SchedulerRun.nextCall_enter s node) ?_
  rcases s.enter_cases node with ⟨_, _, henter⟩ | ⟨-, -, _, _, henter⟩ <;> rw [henter]

theorem calm_pollJoin (s : Scheduler) (ticket : Nat) : Calm s (s.pollJoin ticket).2 := by
  rw [SchedulerRun.pollJoin_frame]
  exact .of_eq rfl (Nat.le_refl _) rfl

theorem calm_begin (s : Scheduler) (now launch : Nat) : Calm s (s.begin now launch) := by
  rcases s.begin_cases now launch with hbegin | ⟨_, -, hbegin⟩ <;> rw [hbegin] <;>
    exact .of_eq rfl (Nat.le_refl _) rfl

theorem calm_breakOff (s : Scheduler) (launch : Nat) (reason : String) :
    Calm s (s.breakOff launch reason) := by
  rcases SchedulerRun.breakOff_cases s launch reason with hsame | ⟨_, _, -, -, hclose⟩
  · rw [hsame]
    exact .of_eq rfl (Nat.le_refl _) rfl
  · rw [hclose]
    exact .of_eq rfl (Nat.le_refl _) rfl

theorem calm_clear (s : Scheduler) (node : NodeId) (instanceId : Uuid)
    (watched : Table Nat Assignment) :
    Calm s { s with registry := (s.registry.clear node instanceId).2, watched } := by
  refine ⟨rfl, Nat.le_refl _, fun node' hsome => ?_⟩
  rw [Registry.get?_clear] at hsome
  split at hsome
  · cases hsome
  · exact hsome

theorem calm_exited (s : Scheduler) (launch : Nat) : Calm s (s.exited launch) := by
  unfold Scheduler.exited
  split
  · exact .of_eq rfl (Nat.le_refl _) rfl
  · exact calm_clear s _ _ _

namespace Attended

variable {o : Operation} {taken : Option Nat} {n : Nat} {node : NodeId} {ticket : Nat}

/-- A scheduler is taken over in which those who wait are listed as before. -/
theorem adopt_of (h : o.Attended taken) (scheduler : Scheduler)
    (hlookups : ∀ n node ticket, o.Locates n node ticket →
      scheduler.lookups.get? ticket = o.scheduler.lookups.get? ticket)
    (hnext : o.scheduler.nextCall ≤ scheduler.nextCall)
    (hregistry : ∀ node, (scheduler.registry.get? node).isSome →
      (o.scheduler.registry.get? node).isSome) : (o.adopt scheduler).Attended taken := by
  have hadopted : Follows o taken { o with gateway := { o.gateway with scheduler } } taken :=
    ⟨fun _ _ _ hn => hn, hlookups, fun _ _ _ _ hturn => hturn,
      fun _ _ _ _ hsome => Or.inl (hregistry _ hsome), fun _ _ hmem => Or.inl hmem,
      Nat.le_refl _, hnext⟩
  exact (h.follows hadopted).woken (o.woken_adopt _)

theorem adopt (h : o.Attended taken) {scheduler : Scheduler} (hcalm : Calm o.scheduler scheduler) :
    (o.adopt scheduler).Attended taken :=
  h.adopt_of scheduler (fun _ _ ticket _ => congrArg (Table.get? · ticket) hcalm.lookups)
    hcalm.nextCall hcalm.registry

/-- A call that waits ends, and its lookup with it: the others wait under other numbers. -/
theorem erase (h : o.Attended (some n)) (hn : o.Locates n node ticket)
    (ended : List (Nat × CallEnd)) :
    ((o.without n ended).adopt
      { o.scheduler with lookups := o.scheduler.lookups.erase ticket }).Attended none := by
  refine (h.without ended).adopt_of _ (fun n' node' ticket' hn' => ?_) (Nat.le_refl _)
    fun _ hsome => hsome
  obtain ⟨hne, hother⟩ := o.locates_without n ended n' node' ticket' hn'
  have hticket : ticket' ≠ ticket := by
    rintro rfl
    exact hne (h.distinct n' n node' node ticket' hother hn)
  exact (Table.get?_erase _ _ _).trans (if_neg hticket)

/-- Something may run for a node that did not run before: those who wait for it get a turn. -/
theorem adopt_wakeLookups (h : o.Attended taken) {scheduler : Scheduler} (node : NodeId)
    (hlookups : scheduler.lookups = o.scheduler.lookups)
    (hnext : o.scheduler.nextCall ≤ scheduler.nextCall)
    (hregistry : ∀ node', (scheduler.registry.get? node').isSome →
      (o.scheduler.registry.get? node').isSome ∨ node' = node) :
    ((o.adopt scheduler).wakeLookups node).Attended taken := by
  have hadopt := o.woken_adopt scheduler
  have hwake := (o.adopt scheduler).woken_wakeLookups node
  obtain ⟨hcalls, hscheduler, hnow, htimers⟩ := (hadopt.trans hwake).fields
  change ((o.adopt scheduler).wakeLookups node).scheduler = scheduler at hscheduler
  have hlocates : ∀ n node' ticket, ((o.adopt scheduler).wakeLookups node).Locates n node' ticket →
      o.Locates n node' ticket := by
    intro n node' ticket hn
    rwa [Locates, hcalls] at hn
  refine h.follows ⟨hlocates, fun _ _ _ _ => by rw [hscheduler, hlookups],
    fun _ _ _ _ hturn => hturn.imp_right fun hmem => (hadopt.trans hwake).turns hmem,
    fun n node' ticket hn hsome => ?_, fun _ _ hmem => Or.inl (htimers ▸ hmem),
    Nat.le_of_eq hnow.symm, by rwa [hscheduler]⟩
  rw [hscheduler] at hsome
  refine (hregistry node' hsome).imp_right fun heq => Or.inr ?_
  subst heq
  obtain ⟨hcalls', hscheduler', -, -⟩ := hadopt.fields
  refine (o.adopt scheduler).mem_wakeLookups node' n ticket ?_ ?_
  · rw [hcalls']
    exact hlocates n node' ticket hn
  · rw [hscheduler']
    exact hsome

/-- A poll that tells nothing takes a turn that was not needed: nothing runs, and the timer is still
to come. -/
theorem unanswered (h : o.Attended (some n)) (hn : o.Locates n node ticket)
    (hpoll : (o.scheduler.pollLookup o.now ticket).1 = none) : o.Attended none := by
  obtain ⟨deadline, ht⟩ := h.tended n node ticket hn
  have hquiet : ¬(o.scheduler.registry.get? node).isSome ∧ ¬deadline ≤ o.now := by
    rw [SchedulerRun.pollLookup_fst o.scheduler o.now ticket _ ht.lookup] at hpoll
    cases hr : o.scheduler.registry.get? node with
    | some a => simp [hr] at hpoll
    | none => exact ⟨nofun, fun hover => by simp [hr, hover] at hpoll⟩
  refine ⟨h.distinct, fun n' node' ticket' hn' => ?_⟩
  by_cases hne : n' = n
  · subst hne
    cases hn.symm.trans hn'
    exact ⟨deadline, ht.number, ht.lookup, fun hsome => absurd hsome hquiet.1,
      ht.timer.imp_right fun hlate => absurd hlate.1 hquiet.2⟩
  · obtain ⟨deadline', ht'⟩ := h.tended n' node' ticket' hn'
    have hturn : o.InTurn (some n) n' → o.InTurn none n' := fun hturn =>
      Or.inr (hturn.resolve_left fun heq => hne (Option.some.inj heq).symm)
    exact ⟨deadline', ht'.number, ht'.lookup, fun hsome => hturn (ht'.assigned hsome),
      ht'.timer.imp_right fun hlate => ⟨hlate.1, hturn hlate.2⟩⟩

/-- A poll attends to the call whose turn was taken. -/
theorem pollCall (h : o.Attended (some n)) : (o.pollCall n).Attended none := by
  unfold Operation.pollCall
  cases hn : o.calls.get? n with
  | none => exact h.settle fun node ticket hl => by cases hn.symm.trans hl
  | some state =>
    cases state with
    | fresh question caller node =>
      exact h.settle fun node ticket hl => by cases hn.symm.trans hl
    | scheduling ticket =>
      dsimp only
      have hcalm := calm_pollJoin o.scheduler ticket
      rcases heq : o.scheduler.pollJoin ticket with ⟨_ | r, scheduler⟩
      · exact h.settle fun node ticket hl => by cases hn.symm.trans hl
      · rw [heq] at hcalm
        exact (h.adopt hcalm).without _
    | locating node ticket =>
      dsimp only
      have hafter := SchedulerRun.pollLookup_snd o.scheduler o.now ticket
      rcases heq : o.scheduler.pollLookup o.now ticket with ⟨_ | r, scheduler⟩
      · exact h.unanswered hn (congrArg Prod.fst heq)
      · -- the call is answered, and its lookup is gone
        rw [heq] at hafter
        simp only [Option.isSome_some, if_true] at hafter
        subst hafter
        dsimp only
        rw [adopt_finish]
        exact h.erase hn _

theorem awaitLaunch (h : o.Attended (some n)) (ticket : Nat) :
    (o.awaitLaunch n ticket).Attended none := by
  refine pollCall (h.frame _ (fun n' node ticket' hn' => ?_) rfl (List.Subset.refl _)
    (List.Subset.refl _) (Nat.le_refl _))
  rw [Locates, Table.get?_set] at hn'
  split at hn'
  · cases hn'
  · exact hn'

/-- A call that begins to wait under a number of its own, with a timer for its deadline. -/
theorem await (h : o.Attended (some n)) (node : NodeId) {ticket deadline : Nat}
    (hlookup : o.scheduler.lookups.get? ticket = some ⟨node, deadline⟩)
    (hticket : ticket < o.scheduler.nextCall)
    (hnew : ∀ n' node' ticket', o.Locates n' node' ticket' → ticket' ≠ ticket) :
    ({ o with calls := o.calls.set n (.locating node ticket) }.setTimer deadline
      (.call n)).Attended (some n) := by
  have hcases : ∀ n' node' ticket',
      ({ o with calls := o.calls.set n (.locating node ticket) }.setTimer deadline
        (.call n)).Locates n' node' ticket' →
      (n' = n ∧ node' = node ∧ ticket' = ticket) ∨ (n' ≠ n ∧ o.Locates n' node' ticket') := by
    intro n' node' ticket' hn'
    rw [Locates, setTimer, Table.get?_set] at hn'
    split at hn'
    · next heq =>
      cases hn'
      exact Or.inl ⟨heq, rfl, rfl⟩
    · next hne => exact Or.inr ⟨hne, hn'⟩
  refine ⟨fun n₁ n₂ node₁ node₂ ticket' h₁ h₂ => ?_, fun n' node' ticket' hn' => ?_⟩
  · rcases hcases _ _ _ h₁ with ⟨hn₁, -, ht₁⟩ | ⟨-, hold₁⟩ <;>
      rcases hcases _ _ _ h₂ with ⟨hn₂, -, ht₂⟩ | ⟨-, hold₂⟩
    · exact hn₁.trans hn₂.symm
    · exact absurd ht₁ (hnew _ _ _ hold₂)
    · exact absurd ht₂ (hnew _ _ _ hold₁)
    · exact h.distinct _ _ _ _ _ hold₁ hold₂
  · rcases hcases _ _ _ hn' with ⟨rfl, rfl, rfl⟩ | ⟨-, hold⟩
    · exact ⟨deadline, hticket, hlookup, fun _ => Or.inl rfl,
        Or.inl (List.mem_append_right _ List.mem_cons_self)⟩
    · obtain ⟨deadline', ht⟩ := h.tended _ _ _ hold
      exact ⟨deadline', ht.number, ht.lookup, ht.assigned,
        ht.timer.imp_left (List.mem_append_left _)⟩

/-- A call that asks and waits takes the next number, which nobody has. -/
theorem awaitProcess (h : o.Attended (some n)) (node : NodeId) {scheduler : Scheduler}
    (hscheduler : scheduler =
      { o.scheduler with
        lookups := o.scheduler.lookups.set o.scheduler.nextCall
          ⟨node, o.now + o.scheduler.settings.maxWait⟩
        nextCall := o.scheduler.nextCall + 1 }) :
    ((o.adopt scheduler).awaitProcess n node o.scheduler.nextCall).Attended none := by
  have hlookups : scheduler.lookups = o.scheduler.lookups.set o.scheduler.nextCall
      ⟨node, o.now + o.scheduler.settings.maxWait⟩ := by rw [hscheduler]
  have hnext : scheduler.nextCall = o.scheduler.nextCall + 1 := by rw [hscheduler]
  have hregistry : scheduler.registry = o.scheduler.registry := by rw [hscheduler]
  have hsettings : scheduler.settings = o.scheduler.settings := by rw [hscheduler]
  obtain ⟨hcalls, hadopts, hnow, -⟩ := (o.woken_adopt scheduler).fields
  change (o.adopt scheduler).scheduler = scheduler at hadopts
  change (o.adopt scheduler).now = o.now at hnow
  have hne : ∀ n' node' ticket', o.Locates n' node' ticket' →
      ticket' ≠ o.scheduler.nextCall := by
    intro n' node' ticket' hn'
    obtain ⟨deadline, ht⟩ := h.tended n' node' ticket' hn'
    exact Nat.ne_of_lt ht.number
  have hadopt : (o.adopt scheduler).Attended (some n) := by
    refine h.adopt_of scheduler (fun n' node' ticket' hn' => ?_) (by omega)
      fun node' hsome => hregistry ▸ hsome
    rw [hlookups, Table.get?_set, if_neg (hne n' node' ticket' hn')]
  rw [Operation.awaitProcess, hadopts, hsettings, hnow]
  refine (hadopt.await node ?_ ?_ fun n' node' ticket' hn' => ?_).pollCall
  · rw [hadopts, hlookups, Table.get?_set, if_pos rfl]
  · rw [hadopts, hnext]
    exact Nat.lt_succ_self _
  · rw [Locates, hcalls] at hn'
    exact hne n' node' ticket' hn'

/-- The first turn of a call. -/
theorem ask (h : o.Attended (some n)) (caller node : NodeId) (question : Question) :
    (o.ask n caller node question).Attended none := by
  cases question with
  | schedule =>
    rw [Operation.ask, Scheduler.schedule_eq]
    cases Scheduler.authorize caller node with
    | error cause => exact h.without _
    | ok _ =>
      dsimp only [Except.bind]
      cases o.scheduler.registry.get? node with
      | some a => exact h.without _
      | none =>
        have hcalm := calm_enter o.scheduler node
        rcases heq : o.scheduler.enter node with ⟨a | ticket, scheduler⟩
        · exact h.without _
        · rw [heq] at hcalm
          exact (h.adopt hcalm).awaitLaunch ticket
  | locate wait =>
    rw [Operation.ask, Scheduler.locate]
    cases Scheduler.authorize caller node with
    | error cause => exact h.without _
    | ok _ =>
      cases wait with
      | false => exact h.without _
      | true => exact h.awaitProcess node rfl

/-! ### Launches -/

/-- Only a process that is up is recorded, and for the node of its launch. -/
theorem conclude_cases (o : Operation) (launch : Nat) (outcome : LaunchOutcome) :
    Calm o.scheduler (o.concludeLaunch launch outcome).1 ∨ ∃ a : Assignment,
      (o.concludeLaunch launch outcome).1 = o.scheduler.succeed launch a := by
  have hfinish : ∀ now outcome, Calm o.scheduler
      (o.scheduler.finish now launch outcome o.entropy).1 ∨ ∃ a,
        (o.scheduler.finish now launch outcome o.entropy).1 = o.scheduler.succeed launch a := by
    intro now outcome
    unfold Scheduler.finish
    split
    · cases outcome with
      | up endpoint => exact Or.inr ⟨_, rfl⟩
      | refused cause => exact Or.inl (.of_eq rfl (Nat.le_refl _) rfl)
      | late => exact Or.inl (.of_eq rfl (Nat.le_refl _) rfl)
    · exact Or.inl (.of_eq rfl (Nat.le_refl _) rfl)
  cases outcome with
  | up endpoint =>
    rw [concludeLaunch]
    split
    · exact hfinish _ _
    · exact Or.inl (calm_breakOff _ _ _)
  | refused cause => exact hfinish _ _
  | late => exact hfinish _ _

theorem endLaunch (h : o.Attended taken) (launch : Nat) (outcome : LaunchOutcome) :
    (o.endLaunch launch outcome).Attended taken := by
  have hcases := conclude_cases o launch outcome
  rcases heq : o.concludeLaunch launch outcome with ⟨scheduler, entropy⟩
  rw [heq] at hcases
  have hworking : ({ o with entropy, working := o.working.erase launch }).Attended taken :=
    h.frame _ (fun _ _ _ hn => hn) rfl (List.Subset.refl _) (List.Subset.refl _) (Nat.le_refl _)
  rw [Operation.endLaunch, heq]
  dsimp only
  refine woken ?_ (woken_wakeAll _ _).1
  rcases hcases with hcalm | ⟨a, rfl⟩
  · have hadopt := hworking.adopt hcalm
    split
    · exact hadopt.woken (woken_wakeLookups _ _)
    · exact hadopt
  · have hlaunch : (o.scheduler.succeed launch a).launches.get? launch =
        some ⟨a.node, .ended (.ok a)⟩ := by
      rw [Scheduler.succeed, Scheduler.conclude, Table.get?_set, if_pos rfl]
    rw [hlaunch]
    refine hworking.adopt_wakeLookups a.node rfl (Nat.le_refl _) fun node hsome => ?_
    rw [Scheduler.succeed, Registry.get?_record] at hsome
    split at hsome
    · next heq => exact Or.inr heq
    · exact Or.inl hsome

theorem checkLaunch (h : o.Attended taken) (launch : Nat) :
    (o.checkLaunch launch).Attended taken := by
  unfold Operation.checkLaunch
  split
  · exact h
  · split
    · exact h.endLaunch launch _
    · split
      · exact h.endLaunch launch _
      · exact h

theorem setTimer (h : o.Attended taken) (due : Nat) (t : Turn) :
    (o.setTimer due t).Attended taken :=
  h.frame _ (fun _ _ _ hn => hn) rfl (List.Subset.refl _) (List.subset_append_left _ _)
    (Nat.le_refl _)

theorem beginLaunch (h : o.Attended taken) (launch : Nat) (node : NodeId) :
    (o.beginLaunch launch node).Attended taken := by
  rw [Operation.beginLaunch]
  rcases takePlan o.plans node with ⟨plan, plans⟩
  dsimp only
  refine (((adopt ?_ (calm_begin _ _ _)).setTimer _ _).setTimer _ _).checkLaunch launch
  exact h.frame _ (fun _ _ _ hn => hn) rfl (List.Subset.refl _) (List.Subset.refl _) (Nat.le_refl _)

/-! ### Steps -/

theorem takeTurn (h : o.Attended none) : o.takeTurn.Attended none := by
  rw [Operation.takeTurn]
  cases hturns : o.turns with
  | nil => exact h
  | cons t rest =>
    dsimp only
    cases t with
    | call n =>
      have hrest := h.pop hturns (some n) fun n' heq => congrArg some (Turn.call.inj heq)
      rw [run]
      split
      · exact hrest.ask _ _ _
      · exact hrest.pollCall
    | launch launch =>
      have hrest := h.pop hturns none nofun
      rw [run]
      split
      · exact hrest.beginLaunch _ _
      · exact hrest.checkLaunch _
    | exit launch =>
      have hrest := h.pop hturns none nofun
      exact hrest.adopt (calm_exited _ _)

/-- A call that is given up waits no longer, and the others wait on. -/
theorem giveUp (h : o.Attended none) (n : Nat) : (o.giveUp n).2.Attended none := by
  rw [Operation.giveUp]
  cases hn : o.calls.get? n with
  | none => exact h
  | some state =>
    cases state with
    | fresh question caller node => exact (h.weaken n).without o.ended
    | scheduling ticket =>
      exact ((h.weaken n).without o.ended).adopt (.of_eq rfl (Nat.le_refl _) rfl)
    | locating node ticket => exact (h.weaken n).erase hn o.ended

/-- No step overlooks a call that waits. -/
theorem step (h : o.Attended none) (op : OperationOp) : (o.step op).Attended none := by
  cases op with
  | enter question caller node =>
    refine woken ?_ (woken_wake _ _).1
    refine h.frame _ (fun n node' ticket hn => ?_) rfl (List.Subset.refl _) (List.Subset.refl _)
      (Nat.le_refl _)
    rw [Locates, Table.get?_set] at hn
    split at hn
    · cases hn
    · exact hn
  | turn => exact h.takeTurn
  | giveUp call => exact h.giveUp call
  | exit launch =>
    rw [Operation.step, Operation.exit]
    split
    · exact h.woken (o.woken_wake _).1
    · exact h
  | record a =>
    refine h.adopt_wakeLookups a.node rfl (Nat.le_refl _) fun node hsome => ?_
    rw [Registry.get?_record] at hsome
    split at hsome
    · next heq => exact Or.inr heq
    · exact Or.inl hsome
  | clear node instanceId => exact h.adopt (calm_clear _ _ _ _)
  | tick duration =>
    exact h.frame _ (fun _ _ _ hn => hn) rfl (List.Subset.refl _) (List.Subset.refl _)
      (Nat.le_add_right _ _)
  | fire => exact h.fireTimers

theorem steps (h : o.Attended none) (ops : List OperationOp) : (o.steps ops).Attended none := by
  induction ops generalizing o with
  | nil => exact h
  | cons op ops ih => exact ih (h.step op)

end Attended

end Operation

/-! ## Lookups -/

namespace SchedulerRun

/-- Whatever is recorded and cleared, and whoever else waits, a poll of a lookup that is under way
gives the assignment that stands for its node; nothing, exactly when none stands and the time is
over; and is not answered, exactly when none stands and there is time left.  A run without the
giving up of some lookups records, clears and answers the others alike.  In operation a call that
waits has a turn whenever something runs for its node, and a turn or a timer for its deadline. -/
theorem lookup_answered_iff (settings : SchedulerSettings) (clock : Clock) (entropy : Entropy)
    (before after : List LookupOp) (node : NodeId) :
    let s₀ := start settings clock entropy
    let s := s₀.runLookups before
    let ask : LookupOp := .call (.step (.locate node node true))
    let call := s.scheduler.nextCall
    let ops := before ++ ask :: after
    let t := s₀.runLookups ops
    let poll := (t.scheduler.pollLookup t.clock.steady call).1
    let stands := Stands (s₀.history ops) node
    let late := s.clock.steady + settings.maxWait ≤ t.clock.steady
    (.call (.step (.dropLookup call)) ∉ after → (∀ r, (call, r) ∉ (s.after ask).answers after) →
      (∀ a, poll = some (some a) ↔ stands a) ∧
      (poll = some none ↔ late ∧ ∀ a, ¬stands a) ∧
      (poll = none ↔ ¬late ∧ ∀ a, ¬stands a)) ∧
    (∀ given : Nat → Bool,
      let kept := ops.filter fun op => !givesUp given op
      Alike given t (s₀.runLookups kept) ∧ s₀.history kept = s₀.history ops ∧
        (s₀.answers kept).filter (fun e => !given e.1) =
          (s₀.answers ops).filter fun e => !given e.1) ∧
    ∀ (gateway : Gateway) (plans : LaunchPlans) (steps : List Operation.OperationOp)
      (n ticket : Nat),
      let o := (Operation.start gateway clock entropy plans).steps steps
      o.calls.get? n = some (.locating node ticket) → ∃ deadline,
        o.scheduler.lookups.get? ticket = some ⟨node, deadline⟩ ∧
          ((o.scheduler.registry.get? node).isSome → .call n ∈ o.turns) ∧
          (⟨deadline, .call n⟩ ∈ o.timers ∨ .call n ∈ o.turns) := by
  intro s₀ s ask call ops t poll stands late
  refine ⟨fun hkeeps hsilent => ?_, fun given => ?_, fun gateway plans steps n ticket => ?_⟩
  · obtain ⟨hasked, hnumber⟩ := s.waits_of_locate node
    have hsettings : s.scheduler.settings = settings := (s₀.registry_run before).2
    have hrun : t = (s.after ask).runLookups after := s₀.runLookups_append before (ask :: after)
    have hl : t.scheduler.lookups.get? call = some ⟨node, s.clock.steady + settings.maxWait⟩ := by
      rw [hrun, ← hsettings]
      exact (s.after ask).waits_run after hasked hnumber hkeeps hsilent
    exact poll_tells settings clock entropy ops hl
  · exact (Alike.refl given s₀).run ops
  · intro o hn
    have ho : o.Attended none :=
      (Operation.attended_start gateway clock entropy plans).steps steps
    obtain ⟨deadline, ht⟩ := ho.tended n node ticket hn
    have hturn : o.InTurn none n → .call n ∈ o.turns := fun hturn => hturn.resolve_left nofun
    exact ⟨deadline, ht.lookup, fun hsome => hturn (ht.assigned hsome),
      ht.timer.imp_right fun hlate => hturn hlate.2⟩

/-- Two processes are recorded, and the first is gone before the lookup is polled.  The second is
found even when the time is over, and the call that waits has a turn. -/
theorem lookup_finds_second :
    let node : NodeId := ⟨List.replicate 32 7, rfl⟩
    let id (b : UInt8) : Uuid := ⟨List.replicate 16 b, List.length_replicate⟩
    let first : Assignment := ⟨node, "localhost:1", id 1, ⟨0, 0⟩⟩
    let second : Assignment := ⟨node, "localhost:2", id 2, ⟨0, 0⟩⟩
    let settings : SchedulerSettings := ⟨10, 5⟩
    let clock : Clock := ⟨⟨0, 0⟩, 0⟩
    let entropy : Entropy := ⟨fun _ => [], 0⟩
    let ask : LookupOp := .call (.step (.locate node node true))
    let rest := [LookupOp.record first, .clear node (id 1), .record second,
      .call (.step (.advance 5))]
    let t := (start settings clock entropy).runLookups (ask :: rest)
    let gateway : Gateway := ⟨.start ⟨10, 100⟩ (.inMemory ⟨[]⟩) fun _ _ _ => .ok (),
      .start settings, .start ⟨100, 10⟩⟩
    let o := (Operation.start gateway clock entropy .empty).steps
      [.enter (.locate true) node node, .turn, .record first, .clear node (id 1), .record second]
    (t.scheduler.pollLookup t.clock.steady 0).1 = some (some second) ∧ .call 0 ∈ o.turns := by
  intro node id first second settings clock entropy ask rest t gateway o
  obtain ⟨hpoll, -, hturns⟩ := lookup_answered_iff settings clock entropy [] rest node
  constructor
  · refine ((hpoll ?_ ?_).1 second).2 ?_
    · simp [rest]
    · rintro r ⟨⟩
    · exact ⟨rfl, [.recorded first, .cleared node (id 1)], [], rfl, by simp⟩
  · have hwaits : (o.calls.get? 0).any (Operation.isLocating node) = true := by decide +kernel
    obtain ⟨state, hstate, hnode⟩ := (Option.any_eq_true _ _).1 hwaits
    cases state with
    | locating node' ticket =>
      obtain rfl : node' = node := of_decide_eq_true hnode
      obtain ⟨deadline, -, hassigned, -⟩ := hturns gateway .empty _ 0 ticket hstate
      exact hassigned (by decide +kernel)
    | _ => cases hnode

end SchedulerRun

end SigningGateway
