import SigningGateway.Proofs.Scheduler.Updates

/-!
# Steps of callers and tasks

A caller that finds neither a launch nor an assignment enters a new launch, and the end of a process
that was reported clears its assignment.  With the updates of launches these are all the steps that
change what runs where, so every run keeps the invariant.

    Single s → Single (s.step op)                                                  (single_step)
    Single s → Single (s.run ops)                                                   (single_run)
-/

namespace SigningGateway

namespace SchedulerRun

/-! ## Steps that change no launch -/

/-- What the invariant speaks of stays as it is; ends may be reported. -/
theorem Single.frame {s : SchedulerRun} (h : s.Single) (s' : SchedulerRun)
    (hlaunches : s'.scheduler.launches = s.scheduler.launches)
    (hreturned : s'.returned = s.returned)
    (hinFlight : s'.scheduler.inFlight = s.scheduler.inFlight) (hkeeps : s.scheduler.nextLaunch =
      s'.scheduler.nextLaunch ∧ s'.scheduler.registry = s.scheduler.registry ∧
      s'.scheduler.watched = s.scheduler.watched ∧ s'.recorded = s.recorded)
    (hreported : ∀ launch ∈ s.reported, launch ∈ s'.reported) : s'.Single := by
  obtain ⟨hnext, hregistry, hwatched, hrecorded⟩ := hkeeps
  have hstanding : ∀ launch, s'.standing launch = s.standing launch := by
    intro launch
    exact standing_congr s s' launch (by rw [hlaunches]) (by rw [hreturned])
  have huncleared : ∀ launch a, s'.Uncleared launch a ↔ s.Uncleared launch a := by
    intro launch a
    rw [Uncleared, Uncleared, hstanding, hwatched]
  obtain ⟨hcurrent, hregistered, hcleared, hearlier⟩ :=
    h.assigned s' huncleared hregistry hrecorded hreported
  refine ⟨?_, ?_, ?_, ?_, ?_, ?_, hcurrent, hregistered, hcleared, hearlier⟩
  · intro launch x
    rw [hstanding, ← hnext]
    exact h.numbers launch x
  · intro launch r
    rw [hreturned, hstanding]
    exact h.returned launch r
  · intro launch node st a
    rw [hstanding]
    exact h.fits launch node st a
  · intro node launch
    rw [hinFlight, Holds, hstanding]
    exact h.inFlight node launch
  · intro launch node
    rw [Unrecorded, hstanding, hregistry]
    exact h.vacant launch node
  · intro launch a
    rw [hwatched, hstanding]
    exact h.watched launch a

/-! ## Entering a launch -/

/-- A new launch of a node that has none in flight and no assignment keeps the invariant. -/
theorem Single.launched {s : SchedulerRun} (h : s.Single) (s' : SchedulerRun) (node : NodeId)
    (hfree : s.scheduler.inFlight.get? node = none)
    (hvacant : s.scheduler.registry.get? node = none)
    (hlaunches : s'.scheduler.launches =
      s.scheduler.launches.set s.scheduler.nextLaunch ⟨node, .ready⟩)
    (hinFlight : s'.scheduler.inFlight =
      s.scheduler.inFlight.set node s.scheduler.nextLaunch)
    (hnext : s'.scheduler.nextLaunch = s.scheduler.nextLaunch + 1)
    (hreturned : s'.returned = s.returned)
    (hkeeps : s'.scheduler.registry = s.scheduler.registry ∧
      s'.scheduler.watched = s.scheduler.watched ∧ s'.recorded = s.recorded ∧
      s'.reported = s.reported) : s'.Single := by
  obtain ⟨hregistry, hwatched, hrecorded, hreported⟩ := hkeeps
  have hbefore : s.standing s.scheduler.nextLaunch = none := by
    cases hst : s.standing s.scheduler.nextLaunch with
    | none => rfl
    | some x => exact absurd (h.numbers _ x hst) (Nat.lt_irrefl _)
  have hnew : s.Reaches s' s.scheduler.nextLaunch node .ready := by
    refine ⟨standing_ready (by rw [hlaunches, Table.get?_set, if_pos rfl]), ?_⟩
    intro launch hne
    exact standing_congr s s' launch (by rw [hlaunches, Table.get?_set, if_neg hne])
      (by rw [hreturned])
  have hold : ∀ launch x, s.standing launch = some x → s'.standing launch = some x := by
    intro launch x hx
    rw [hnew.others launch, hx]
    rintro rfl
    rw [hbefore] at hx
    cases hx
  have huncleared : ∀ launch a, s'.Uncleared launch a ↔ s.Uncleared launch a := by
    intro launch a
    rw [Uncleared, Uncleared, hwatched]
    apply or_congr_left
    by_cases hlaunch : launch = s.scheduler.nextLaunch
    · subst hlaunch
      simp [hbefore, hnew.after]
    · rw [hnew.others launch hlaunch]
  obtain ⟨hcurrent, hregistered, hcleared, hearlier⟩ :=
    h.assigned s' huncleared hregistry hrecorded (by rw [hreported]; exact fun _ hmem => hmem)
  refine ⟨?_, ?_, ?_, ?_, ?_, ?_, hcurrent, hregistered, hcleared, hearlier⟩
  · intro launch x hx
    rw [hnext]
    rcases hnew.standing_cases hx with ⟨rfl, -, -⟩ | ⟨-, hx⟩
    · omega
    · have := h.numbers launch x hx
      omega
  · intro launch r hr
    rw [hreturned] at hr
    exact hold launch _ (h.returned launch r hr)
  · intro launch node' st a hst ha
    rcases hnew.standing_cases hst with ⟨-, -, rfl⟩ | ⟨-, hst⟩
    · cases ha
    · exact h.fits launch node' st a hst ha
  · intro node' launch
    rw [hinFlight, Table.get?_set]
    constructor
    · intro hget
      split at hget
      · next hnode =>
        obtain rfl := Option.some.inj hget
        exact ⟨.ready, hnode ▸ hnew.after, rfl⟩
      · obtain ⟨st, hst, hholds⟩ := (h.inFlight node' launch).1 hget
        exact ⟨st, hold launch _ hst, hholds⟩
    · rintro ⟨st, hst, hholds⟩
      rcases hnew.standing_cases hst with ⟨rfl, rfl, -⟩ | ⟨-, hst⟩
      · exact if_pos rfl
      · have hget := (h.inFlight node' launch).2 ⟨st, hst, hholds⟩
        rw [if_neg]
        · exact hget
        · rintro rfl
          rw [hfree] at hget
          cases hget
  · rintro launch node' ⟨st, hst, hunrecorded⟩
    rw [hregistry]
    rcases hnew.standing_cases hst with ⟨-, rfl, -⟩ | ⟨-, hst⟩
    · exact hvacant
    · exact h.vacant launch node' ⟨st, hst, hunrecorded⟩
  · intro launch a ha
    rw [hwatched] at ha
    obtain ⟨node', st, hst, hpast⟩ := h.watched launch a ha
    exact ⟨node', st, hold launch _ hst, hpast⟩

/-- A caller that enters a launch finds the entry of its node free and no assignment. -/
theorem single_enter (s : SchedulerRun) (h : s.Single) (node : NodeId) :
    (s.step (.enter node)).Single := by
  rw [step]
  split
  · rcases s.scheduler.enter_cases node with
      ⟨joins, nextCall, henter⟩ | ⟨hfree, hvacant, joins, nextCall, henter⟩
    · rw [henter]
      exact h.frame _ rfl rfl rfl ⟨rfl, rfl, rfl, rfl⟩ fun _ hmem => hmem
    · rw [henter]
      exact h.launched _ node hfree hvacant rfl rfl rfl rfl ⟨rfl, rfl, rfl, rfl⟩
  · exact h

/-! ## Ends of processes -/

/-- The end of a process clears its assignment, which is still the current one of its node. -/
theorem single_clear (s : SchedulerRun) (h : s.Single) (launch : Nat) :
    (s.step (.clear launch)).Single := by
  rw [step]
  split
  · next hreported =>
    unfold Scheduler.exited
    split
    · exact h
    · next a hwatched =>
      obtain ⟨hregistry, hlast⟩ := h.current launch a (Or.inr hwatched)
      have hnames : s.scheduler.registry.names a.node a.instanceId = true := by
        simp [Registry.names, hregistry]
      have hget : ∀ node, (s.scheduler.registry.clear a.node a.instanceId).2.get? node =
          if node = a.node then none else s.scheduler.registry.get? node := by
        intro node
        rw [Registry.get?_clear]
        simp [hnames]
      have hwatchedGet : ∀ other, (s.scheduler.watched.erase launch).get? other =
          if other = launch then none else s.scheduler.watched.get? other :=
        Table.get?_erase s.scheduler.watched launch
      obtain ⟨node₀, st₀, hst₀, hpast₀⟩ := h.watched launch a hwatched
      have hnotWatching : ∀ node' a', s.standing launch ≠
          some (node', .returned (.watching a')) := by
        intro node' a' heq
        rw [(standing_inj heq hst₀).2] at hpast₀
        cases hpast₀
      refine ⟨h.numbers, h.returned, h.fits, h.inFlight, ?_, ?_, ?_, ?_, ?_, h.earlier⟩
      · intro other node hunrecorded
        show (s.scheduler.registry.clear a.node a.instanceId).2.get? node = none
        rw [hget]
        split
        · rfl
        · exact h.vacant other node hunrecorded
      · intro other a' ha'
        have ha'' := (hwatchedGet other).symm.trans ha'
        split at ha''
        · cases ha''
        · exact h.watched other a' ha''
      · intro other a' huncleared
        have hother : other ≠ launch ∧ s.Uncleared other a' := by
          rcases huncleared with ⟨node', hst⟩ | hget'
          · refine ⟨?_, Or.inl ⟨node', hst⟩⟩
            rintro rfl
            exact hnotWatching node' a' hst
          · have hget'' := (hwatchedGet other).symm.trans hget'
            split at hget''
            · cases hget''
            · next hne => exact ⟨hne, Or.inr hget''⟩
        obtain ⟨hregistry', hlast'⟩ := h.current other a' hother.2
        refine ⟨?_, hlast'⟩
        show (s.scheduler.registry.clear a.node a.instanceId).2.get? a'.node = some a'
        rw [hget, if_neg]
        · exact hregistry'
        · intro hnode
          rw [hnode, hlast] at hlast'
          exact hother.1 (congrArg Prod.fst (Option.some.inj hlast')).symm
      · intro node a' ha'
        have ha'' := (hget node).symm.trans ha'
        split at ha''
        · cases ha''
        · next hnode =>
          obtain ⟨other, hlast', huncleared⟩ := h.registered node a' ha''
          refine ⟨other, hlast', ?_⟩
          rcases huncleared with hwatching | hget'
          · exact Or.inl hwatching
          · refine Or.inr ((hwatchedGet other).trans ((if_neg ?_).trans hget'))
            rintro rfl
            rw [hwatched] at hget'
            obtain rfl := Option.some.inj hget'
            exact hnode (mem_of_lastRecorded _ _ _ hlast').2.symm
      · intro node e he hnone
        have hnone' := (hget node).symm.trans hnone
        split at hnone'
        · next hnode =>
          rw [hnode, show lastRecorded _ _ = _ from hlast] at he
          rw [← Option.some.inj he]
          exact hreported
        · exact h.cleared node e he hnone'
  · exact h

/-! ## Runs -/

/-- Every step keeps the invariant. -/
theorem single_step (s : SchedulerRun) (h : s.Single) (op : SchedulerOp) : (s.step op).Single := by
  by_cases hop : ofCallers op = true
  · obtain ⟨asking, clock, joins, lookups, nextCall, hstep⟩ := step_ofCallers s op hop
    rw [hstep]
    exact h.frame _ rfl rfl rfl ⟨rfl, rfl, rfl, rfl⟩ fun _ hmem => hmem
  cases op with
  | enter node => exact single_enter s h node
  | begin launch => exact single_begin s h launch
  | returned launch outcome => exact single_settle s h launch outcome
  | update launch =>
    rw [step]
    split
    · next r hr => exact single_update h launch r hr
    · exact h
  | report launch =>
    rw [step]
    split
    · exact h.frame _ rfl rfl rfl ⟨rfl, rfl, rfl, rfl⟩ fun _ hmem => List.mem_append_left _ hmem
    · exact h
  | clear launch => exact single_clear s h launch
  | _ => exact absurd rfl hop

/-- Every run keeps the invariant. -/
theorem single_run (s : SchedulerRun) (h : s.Single) (ops : List SchedulerOp) :
    (s.run ops).Single := by
  induction ops generalizing s with
  | nil => exact h
  | cons op ops ih => exact ih _ (single_step s h op)

end SchedulerRun

end SigningGateway
