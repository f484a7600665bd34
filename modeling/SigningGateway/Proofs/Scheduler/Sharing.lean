import SigningGateway.Proofs.Scheduler.Calls

/-!
# What the callers of a launch share

All calls that arrive while a launch is in flight return the same: the assignment that the launch
has recorded, or the scheduling error with which it ended.  `s.progress launch` is how far a launch
has come, and `Backed` what it has recorded by then.

    Shared s → Shared (s.next op)                                              (shared_next)
    Shared s → Shared (s.runCalls ops)                                     (shared_runCalls)
-/

namespace SigningGateway

/-- How far a launch has come, with its result once there is one. -/
inductive Progress
  /-- The launcher is not done with the launch. -/
  | begun
  | returned (stage : Stage)
  | ended (result : Except Error Assignment)

/-- The result of a launch of a node that has recorded the assignments: one of the node for a
success, and none for a scheduling error. -/
def Tells (recorded : List Assignment) (node : NodeId) : Except Error Assignment → Prop
  | .ok a => recorded = [a] ∧ a.node = node
  | .error cause => recorded = [] ∧ ∃ reason, cause = .scheduling reason

namespace Progress

/-- Whether the launch is the one in flight. -/
def holds : Progress → Bool
  | .begun => true
  | .returned (.closing _) => false
  | .returned _ => true
  | .ended _ => false

/-- What a launch has recorded when it has come so far. -/
def Backed (recorded : List Assignment) (node : NodeId) : Progress → Prop
  | .begun => recorded = []
  | .returned (.recording a) => recorded = [] ∧ a.node = node
  | .returned (.watching a) => recorded = [a] ∧ a.node = node
  | .returned (.counting cause) => Tells recorded node (.error cause)
  | .returned (.leaving result) | .returned (.closing result) | .ended result =>
    Tells recorded node result

theorem length_of_backed {recorded : List Assignment} {node : NodeId} {p : Progress}
    (h : p.Backed recorded node) : recorded.length ≤ 1 := by
  have htells : ∀ result, Tells recorded node result → recorded.length ≤ 1 := by
    intro result hresult
    cases result with
    | ok a => rw [hresult.1]; exact Nat.le_refl 1
    | error cause => rw [hresult.1]; exact Nat.zero_le 1
  unfold Backed at h
  split at h
  · simp [h]
  · simp [h.1]
  · simp [h.1]
  all_goals exact htells _ h

/-- What a launch records is of its node. -/
theorem node_of_backed {recorded : List Assignment} {node : NodeId} {p : Progress}
    (h : p.Backed recorded node) {a : Assignment} (ha : a ∈ recorded) : a.node = node := by
  have htells : ∀ result, Tells recorded node result → a.node = node := by
    intro result hresult
    cases result with
    | ok a' =>
      rw [hresult.1] at ha
      rw [List.mem_singleton.1 ha]
      exact hresult.2
    | error cause =>
      rw [hresult.1] at ha
      cases ha
  unfold Backed at h
  split at h
  · rw [h] at ha
    cases ha
  · rw [h.1] at ha
    cases ha
  · exact htells (.ok _) h
  all_goals exact htells _ h

end Progress

namespace SchedulerRun

/-- The node of a launch and how far it has come. -/
def progress (s : SchedulerRun) (launch : Nat) : Option (NodeId × Progress) :=
  match s.scheduler.launches.get? launch with
  | none => none
  | some ⟨node, .ended result⟩ => some (node, .ended result)
  | some ⟨node, _⟩ =>
    match s.returned.get? launch with
    | none => some (node, .begun)
    | some r => some (node, .returned r.stage)

/-- The assignments that a launch has recorded. -/
def assignmentsOf (s : SchedulerRun) (launch : Nat) : List Assignment :=
  (s.recorded.filter fun e => e.1 = launch).map Prod.snd

/-- What holds of launches, assignments and the launches in flight in a run. -/
structure Shared (s : SchedulerRun) : Prop where
  numbers : ∀ launch x, s.progress launch = some x → launch < s.scheduler.nextLaunch
  untouched : ∀ launch, s.progress launch = none → s.assignmentsOf launch = []
  returned : ∀ launch r, s.returned.get? launch = some r →
    s.progress launch = some (r.node, .returned r.stage)
  backed : ∀ launch node p, s.progress launch = some (node, p) →
    p.Backed (s.assignmentsOf launch) node
  holds : ∀ launch node p, s.progress launch = some (node, p) → p.holds = true →
    s.scheduler.inFlight.get? node = some launch
  within : ∀ node launch, s.scheduler.inFlight.get? node = some launch →
    ∃ p, s.progress launch = some (node, p)
  found : ∀ node launch a, s.scheduler.inFlight.get? node = some launch →
    s.scheduler.registry.get? node = some a → s.assignmentsOf launch = [a]
  registered : ∀ node a, s.scheduler.registry.get? node = some a → a.node = node

theorem shared_start (settings : SchedulerSettings) (clock : Clock) (entropy : Entropy) :
    (start settings clock entropy).Shared where
  numbers := by intro launch x h; cases h
  untouched := by intro launch _; rfl
  returned := by intro launch r h; cases h
  backed := by intro launch node p h; cases h
  holds := by intro launch node p h; cases h
  within := by intro node launch h; cases h
  found := by intro node launch a h; cases h
  registered := by intro node a h; cases h

/-! ## Progress -/

theorem progress_congr (s s' : SchedulerRun) (launch : Nat)
    (hlaunches : s'.scheduler.launches.get? launch = s.scheduler.launches.get? launch)
    (hreturned : s'.returned.get? launch = s.returned.get? launch) :
    s'.progress launch = s.progress launch := by
  rw [progress, progress, hlaunches, hreturned]

theorem progress_eq_none_iff (s : SchedulerRun) (launch : Nat) :
    s.progress launch = none ↔ s.scheduler.launches.get? launch = none := by
  unfold progress
  split
  · simp [*]
  · simp [*]
  · split <;> simp [*]

theorem progress_begun {s : SchedulerRun} {launch : Nat} {node : NodeId} {phase : LaunchPhase}
    (h : s.scheduler.launches.get? launch = some ⟨node, phase⟩)
    (hphase : ∀ result, phase ≠ .ended result) (hr : s.returned.get? launch = none) :
    s.progress launch = some (node, .begun) := by
  unfold progress
  cases phase with
  | ended result => exact absurd rfl (hphase result)
  | _ => rw [h, hr]

theorem progress_returned {s : SchedulerRun} {launch : Nat} {node : NodeId} {phase : LaunchPhase}
    {r : Returned} (h : s.scheduler.launches.get? launch = some ⟨node, phase⟩)
    (hphase : ∀ result, phase ≠ .ended result) (hr : s.returned.get? launch = some r) :
    s.progress launch = some (node, .returned r.stage) := by
  unfold progress
  cases phase with
  | ended result => exact absurd rfl (hphase result)
  | _ => rw [h, hr]

theorem progress_ended {s : SchedulerRun} {launch : Nat} {node : NodeId}
    {result : Except Error Assignment}
    (h : s.scheduler.launches.get? launch = some ⟨node, .ended result⟩) :
    s.progress launch = some (node, .ended result) := by
  rw [progress, h]

/-- When a launch that has not ended comes to a stage, no other launch moves. -/
theorem progress_stage {s : SchedulerRun} (s' : SchedulerRun) {launch : Nat} {node : NodeId}
    {phase : LaunchPhase} (stage : Stage)
    (h : s.scheduler.launches.get? launch = some ⟨node, phase⟩)
    (hphase : ∀ result, phase ≠ .ended result)
    (hlaunches : s'.scheduler.launches = s.scheduler.launches)
    (hreturned : s'.returned = s.returned.set launch ⟨node, stage⟩) :
    s'.progress launch = some (node, .returned stage) ∧
      s'.returned.get? launch = some ⟨node, stage⟩ ∧
      ∀ other, other ≠ launch → s'.progress other = s.progress other ∧
        s'.returned.get? other = s.returned.get? other := by
  have hmine : s'.returned.get? launch = some ⟨node, stage⟩ := by
    rw [hreturned, Table.get?_set, if_pos rfl]
  refine ⟨progress_returned (hlaunches ▸ h) hphase hmine, hmine, fun other hother => ?_⟩
  have hsame : s'.returned.get? other = s.returned.get? other := by
    rw [hreturned, Table.get?_set, if_neg hother]
  exact ⟨progress_congr s s' other (by rw [hlaunches]) hsame, hsame⟩

/-- A launch that calls the launcher has come no further. -/
theorem progress_begin (s : SchedulerRun) (launch other : Nat) :
    (s.step (.begin launch)).progress other = s.progress other := by
  rw [step]
  rcases s.scheduler.begin_cases s.clock.steady launch with hbegin | ⟨node, hready, hbegin⟩
  · rw [hbegin]
  · rw [hbegin]
    by_cases hother : other = launch
    · subst hother
      simp only [progress, Table.get?_set, if_true, hready]
    · exact progress_congr _ _ other ((Table.get?_set _ _ _ _).trans (if_neg hother)) rfl

/-- A launch with an update to make has not ended. -/
theorem Shared.unended {s : SchedulerRun} (h : s.Shared) {launch : Nat} {r : Returned}
    (hr : s.returned.get? launch = some r) :
    ∃ phase, s.scheduler.launches.get? launch = some ⟨r.node, phase⟩ ∧
      ∀ result, phase ≠ .ended result := by
  have hp := h.returned launch r hr
  unfold progress at hp
  split at hp
  · cases hp
  · cases hp
  · next node phase hopen hget =>
    rw [hr] at hp
    obtain ⟨rfl, -⟩ := Prod.mk.inj (Option.some.inj hp)
    refine ⟨phase, hget, ?_⟩
    rintro result rfl
    exact hopen result rfl

/-- The next number is that of no launch. -/
theorem Shared.unused {s : SchedulerRun} (h : s.Shared) :
    s.progress s.scheduler.nextLaunch = none ∧
      s.returned.get? s.scheduler.nextLaunch = none := by
  have hbefore : s.progress s.scheduler.nextLaunch = none := by
    cases hp : s.progress s.scheduler.nextLaunch with
    | none => rfl
    | some x => exact absurd (h.numbers _ x hp) (Nat.lt_irrefl _)
  refine ⟨hbefore, ?_⟩
  cases hr : s.returned.get? s.scheduler.nextLaunch with
  | none => rfl
  | some r =>
    rw [h.returned _ r hr] at hbefore
    cases hbefore

/-- A launch in flight is in the entry of its node. -/
theorem Shared.node_of_flight {s : SchedulerRun} (h : s.Shared) {launch : Nat} {node : NodeId}
    {p : Progress} (hp : s.progress launch = some (node, p)) {node' : NodeId}
    (hflight : s.scheduler.inFlight.get? node' = some launch) : node' = node := by
  obtain ⟨p', hp'⟩ := h.within node' launch hflight
  rw [hp] at hp'
  exact (Prod.mk.inj (Option.some.inj hp')).1.symm

/-! ## Steps that record nothing -/

/-- A launch stays where it is, or comes further without recording anything and without taking the
entry of its node. -/
def Drifts (s s' : SchedulerRun) (launch : Nat) : Prop :=
  s'.progress launch = s.progress launch ∨
    ∃ node p p', s.progress launch = some (node, p) ∧ s'.progress launch = some (node, p') ∧
      (p'.holds = true → p.holds = true) ∧
      ∀ recorded, p.Backed recorded node → p'.Backed recorded node

theorem Drifts.before {s s' : SchedulerRun} {launch : Nat} (h : s.Drifts s' launch)
    {node : NodeId} {p' : Progress} (hp' : s'.progress launch = some (node, p')) :
    ∃ p, s.progress launch = some (node, p) ∧ (p'.holds = true → p.holds = true) ∧
      ∀ recorded, p.Backed recorded node → p'.Backed recorded node := by
  rcases h with hsame | ⟨node', p, p₁, hp, hp₁, hholds, hbacked⟩
  · exact ⟨p', hsame ▸ hp', id, fun _ => id⟩
  · rw [hp'] at hp₁
    obtain ⟨rfl, rfl⟩ := Prod.mk.inj (Option.some.inj hp₁)
    exact ⟨p, hp, hholds, hbacked⟩

theorem Drifts.after {s s' : SchedulerRun} {launch : Nat} (h : s.Drifts s' launch)
    {node : NodeId} {p : Progress} (hp : s.progress launch = some (node, p)) :
    ∃ p', s'.progress launch = some (node, p') := by
  rcases h with hsame | ⟨node', p₀, p', hp₀, hp', -⟩
  · exact ⟨p, hsame.trans hp⟩
  · rw [hp] at hp₀
    obtain ⟨rfl, -⟩ := Prod.mk.inj (Option.some.inj hp₀)
    exact ⟨p', hp'⟩

/-- Launches come further, and nothing is recorded or enters or leaves the launches in flight. -/
theorem Shared.drift {s : SchedulerRun} (h : s.Shared) (s' : SchedulerRun)
    (hdrifts : ∀ launch, s.Drifts s' launch)
    (hreturned : ∀ launch r, s'.returned.get? launch = some r →
      s'.progress launch = some (r.node, .returned r.stage))
    (hrecorded : s'.recorded = s.recorded)
    (hnext : s'.scheduler.nextLaunch = s.scheduler.nextLaunch)
    (hinFlight : s'.scheduler.inFlight = s.scheduler.inFlight)
    (hregistry : ∀ node a, s'.scheduler.registry.get? node = some a →
      s.scheduler.registry.get? node = some a) : s'.Shared := by
  have hassignments : ∀ launch, s'.assignmentsOf launch = s.assignmentsOf launch := by
    intro launch
    rw [assignmentsOf, assignmentsOf, hrecorded]
  refine ⟨?_, ?_, hreturned, ?_, ?_, ?_, ?_,
    fun node a ha => h.registered node a (hregistry node a ha)⟩
  · rintro launch ⟨node, p'⟩ hp'
    obtain ⟨p, hp, -⟩ := (hdrifts launch).before hp'
    rw [hnext]
    exact h.numbers launch _ hp
  · intro launch hnone
    rw [hassignments]
    apply h.untouched
    cases hp : s.progress launch with
    | none => rfl
    | some x =>
      obtain ⟨p', hp'⟩ := (hdrifts launch).after (hp : s.progress launch = some (x.1, x.2))
      rw [hnone] at hp'
      cases hp'
  · intro launch node p' hp'
    obtain ⟨p, hp, -, hbacked⟩ := (hdrifts launch).before hp'
    rw [hassignments]
    exact hbacked _ (h.backed launch node p hp)
  · intro launch node p' hp' hholds'
    obtain ⟨p, hp, hholds, -⟩ := (hdrifts launch).before hp'
    rw [hinFlight]
    exact h.holds launch node p hp (hholds hholds')
  · intro node launch hflight
    rw [hinFlight] at hflight
    obtain ⟨p, hp⟩ := h.within node launch hflight
    exact (hdrifts launch).after hp
  · intro node launch a hflight ha
    rw [hinFlight] at hflight
    rw [hassignments]
    exact h.found node launch a hflight (hregistry node a ha)

/-- Launches and updates stay as they are, and no assignment comes. -/
theorem Shared.frame {s : SchedulerRun} (h : s.Shared) (s' : SchedulerRun)
    (hlaunches : s'.scheduler.launches = s.scheduler.launches)
    (hreturned : s'.returned = s.returned) (hrecorded : s'.recorded = s.recorded)
    (hnext : s'.scheduler.nextLaunch = s.scheduler.nextLaunch)
    (hinFlight : s'.scheduler.inFlight = s.scheduler.inFlight)
    (hregistry : ∀ node a, s'.scheduler.registry.get? node = some a →
      s.scheduler.registry.get? node = some a) : s'.Shared := by
  have hprogress : ∀ launch, s'.progress launch = s.progress launch := fun launch =>
    progress_congr s s' launch (by rw [hlaunches]) (by rw [hreturned])
  apply h.drift s' (fun launch => Or.inl (hprogress launch)) _ hrecorded hnext hinFlight hregistry
  intro launch r hr
  rw [hprogress]
  exact h.returned launch r (hreturned ▸ hr)

/-- A launch comes to another stage. -/
theorem Shared.stage {s : SchedulerRun} (h : s.Shared) (s' : SchedulerRun) {launch : Nat}
    {node : NodeId} {phase : LaunchPhase} {p : Progress} (stage : Stage)
    (hlaunch : s.scheduler.launches.get? launch = some ⟨node, phase⟩)
    (hphase : ∀ result, phase ≠ .ended result) (hp : s.progress launch = some (node, p))
    (hholds : p.holds = true)
    (hbacked : ∀ recorded, p.Backed recorded node →
      (Progress.returned stage).Backed recorded node)
    (hlaunches : s'.scheduler.launches = s.scheduler.launches)
    (hreturned : s'.returned = s.returned.set launch ⟨node, stage⟩)
    (hrecorded : s'.recorded = s.recorded)
    (hnext : s'.scheduler.nextLaunch = s.scheduler.nextLaunch)
    (hinFlight : s'.scheduler.inFlight = s.scheduler.inFlight)
    (hregistry : s'.scheduler.registry = s.scheduler.registry) : s'.Shared := by
  obtain ⟨hafter, hmine, hothers⟩ :=
    progress_stage s' stage hlaunch hphase hlaunches hreturned
  apply h.drift s' _ _ hrecorded hnext hinFlight (fun _ _ ha => hregistry ▸ ha)
  · intro other
    by_cases hne : other = launch
    · subst hne
      exact Or.inr ⟨node, p, _, hp, hafter, fun _ => hholds, hbacked⟩
    · exact Or.inl (hothers other hne).1
  · intro other r hr
    by_cases hne : other = launch
    · subst hne
      rw [hmine] at hr
      obtain rfl := Option.some.inj hr
      exact hafter
    · obtain ⟨hprogress, hsame⟩ := hothers other hne
      rw [hprogress]
      exact h.returned other r (hsame ▸ hr)

/-- A launch ends whose result was known or whose task broke off. -/
theorem Shared.close {s : SchedulerRun} (h : s.Shared) (s' : SchedulerRun) {launch : Nat}
    {node : NodeId} {p : Progress} (result : Except Error Assignment)
    (hp : s.progress launch = some (node, p))
    (hbacked : ∀ recorded, p.Backed recorded node → Tells recorded node result)
    (hlaunches : s'.scheduler.launches = s.scheduler.launches.set launch ⟨node, .ended result⟩)
    (hreturned : ∀ other, s'.returned.get? other =
      if other = launch then none else s.returned.get? other)
    (hrecorded : s'.recorded = s.recorded)
    (hnext : s'.scheduler.nextLaunch = s.scheduler.nextLaunch)
    (hinFlight : s'.scheduler.inFlight = s.scheduler.inFlight)
    (hregistry : s'.scheduler.registry = s.scheduler.registry) : s'.Shared := by
  have hafter : s'.progress launch = some (node, .ended result) :=
    progress_ended (by rw [hlaunches, Table.get?_set, if_pos rfl])
  have hothers : ∀ other, other ≠ launch → s'.progress other = s.progress other ∧
      s'.returned.get? other = s.returned.get? other := by
    intro other hne
    have hsame : s'.returned.get? other = s.returned.get? other := by
      rw [hreturned, if_neg hne]
    refine ⟨progress_congr s s' other ?_ hsame, hsame⟩
    rw [hlaunches, Table.get?_set, if_neg hne]
  apply h.drift s' _ _ hrecorded hnext hinFlight (fun _ _ ha => hregistry ▸ ha)
  · intro other
    by_cases hne : other = launch
    · subst hne
      exact Or.inr ⟨node, p, _, hp, hafter, (fun hholds => by cases hholds), hbacked⟩
    · exact Or.inl (hothers other hne).1
  · intro other r hr
    by_cases hne : other = launch
    · rw [hreturned, if_pos hne] at hr
      cases hr
    · obtain ⟨hprogress, hsame⟩ := hothers other hne
      rw [hprogress]
      exact h.returned other r (hsame ▸ hr)

/-! ## Steps of launches -/

/-- All launches but one stay where they are, with what they have recorded, with their entries in
the launches in flight, and with no new assignment of their nodes. -/
structure Spares (s s' : SchedulerRun) (launch : Nat) : Prop where
  progress : ∀ other, other ≠ launch → s'.progress other = s.progress other
  assignments : ∀ other, other ≠ launch → s'.assignmentsOf other = s.assignmentsOf other
  returned : ∀ other, other ≠ launch → s'.returned.get? other = s.returned.get? other
  flights : ∀ node other, other ≠ launch →
    (s'.scheduler.inFlight.get? node = some other ↔ s.scheduler.inFlight.get? node = some other)
  registry : ∀ node other a, other ≠ launch → s.scheduler.inFlight.get? node = some other →
    s'.scheduler.registry.get? node = some a → s.scheduler.registry.get? node = some a
  numbers : s.scheduler.nextLaunch ≤ s'.scheduler.nextLaunch

/-- When the other launches are spared, it is enough to look at the one that changes. -/
theorem Shared.change {s s' : SchedulerRun} (h : s.Shared) {launch : Nat}
    (hspares : s.Spares s' launch) {node : NodeId} {p : Progress}
    (hafter : s'.progress launch = some (node, p)) (hnumber : launch < s'.scheduler.nextLaunch)
    (hreturned : ∀ r, s'.returned.get? launch = some r → r.node = node ∧ .returned r.stage = p)
    (hbacked : p.Backed (s'.assignmentsOf launch) node)
    (hholds : p.holds = true → s'.scheduler.inFlight.get? node = some launch)
    (hwithin : ∀ node', s'.scheduler.inFlight.get? node' = some launch → node' = node)
    (hfound : ∀ a, s'.scheduler.inFlight.get? node = some launch →
      s'.scheduler.registry.get? node = some a → s'.assignmentsOf launch = [a])
    (hregistered : ∀ node a, s'.scheduler.registry.get? node = some a → a.node = node) :
    s'.Shared where
  numbers := by
    intro other x hx
    by_cases hother : other = launch
    · exact hother ▸ hnumber
    · rw [hspares.progress other hother] at hx
      exact Nat.lt_of_lt_of_le (h.numbers other x hx) hspares.numbers
  untouched := by
    intro other hx
    by_cases hother : other = launch
    · rw [hother, hafter] at hx
      cases hx
    · rw [hspares.progress other hother] at hx
      rw [hspares.assignments other hother]
      exact h.untouched other hx
  returned := by
    intro other r hr
    by_cases hother : other = launch
    · subst hother
      obtain ⟨rfl, rfl⟩ := hreturned r hr
      exact hafter
    · rw [hspares.returned other hother] at hr
      rw [hspares.progress other hother]
      exact h.returned other r hr
  backed := by
    intro other node' p' hp
    by_cases hother : other = launch
    · subst hother
      rw [hafter] at hp
      obtain ⟨rfl, rfl⟩ := Prod.mk.inj (Option.some.inj hp)
      exact hbacked
    · rw [hspares.progress other hother] at hp
      rw [hspares.assignments other hother]
      exact h.backed other node' p' hp
  holds := by
    intro other node' p' hp hheld
    by_cases hother : other = launch
    · subst hother
      rw [hafter] at hp
      obtain ⟨rfl, rfl⟩ := Prod.mk.inj (Option.some.inj hp)
      exact hholds hheld
    · rw [hspares.progress other hother] at hp
      exact (hspares.flights node' other hother).2 (h.holds other node' p' hp hheld)
  within := by
    intro node' other hflight
    by_cases hother : other = launch
    · subst hother
      exact ⟨p, hwithin node' hflight ▸ hafter⟩
    · rw [hspares.progress other hother]
      exact h.within node' other ((hspares.flights node' other hother).1 hflight)
  found := by
    intro node' other a hflight ha
    by_cases hother : other = launch
    · subst hother
      obtain rfl := hwithin node' hflight
      exact hfound a hflight ha
    · replace hflight := (hspares.flights node' other hother).1 hflight
      rw [hspares.assignments other hother]
      exact h.found node' other a hflight (hspares.registry node' other a hother hflight ha)
  registered := hregistered

/-- A launch that was not there is entered. -/
theorem Shared.launched {s : SchedulerRun} (h : s.Shared) (s' : SchedulerRun) (node : NodeId)
    (hvacant : s.scheduler.registry.get? node = none)
    (hlaunches : s'.scheduler.launches =
      s.scheduler.launches.set s.scheduler.nextLaunch ⟨node, .ready⟩)
    (hinFlight : s'.scheduler.inFlight =
      s.scheduler.inFlight.set node s.scheduler.nextLaunch)
    (hnext : s'.scheduler.nextLaunch = s.scheduler.nextLaunch + 1)
    (hreturned : s'.returned = s.returned) (hrecorded : s'.recorded = s.recorded)
    (hregistry : s'.scheduler.registry = s.scheduler.registry)
    (hfree : s.scheduler.inFlight.get? node = none) : s'.Shared := by
  obtain ⟨hbefore, hunreturned⟩ := h.unused
  rw [← hreturned] at hunreturned
  have hafter : s'.progress s.scheduler.nextLaunch = some (node, .begun) :=
    progress_begun (by rw [hlaunches, Table.get?_set, if_pos rfl]) (fun _ heq => by cases heq)
      hunreturned
  have hassignments : ∀ launch, s'.assignmentsOf launch = s.assignmentsOf launch := by
    intro launch
    rw [assignmentsOf, assignmentsOf, hrecorded]
  have hflights : ∀ node' launch, s'.scheduler.inFlight.get? node' = some launch ↔
      if node' = node then launch = s.scheduler.nextLaunch
      else s.scheduler.inFlight.get? node' = some launch := by
    intro node' launch
    rw [hinFlight, Table.get?_set]
    split
    · rw [Option.some.injEq]
      exact eq_comm
    · rfl
  have hspares : s.Spares s' s.scheduler.nextLaunch := by
    refine ⟨?_, fun launch _ => hassignments launch, fun _ _ => by rw [hreturned], ?_,
      fun _ _ _ _ _ ha => hregistry ▸ ha, hnext ▸ Nat.le_succ _⟩
    · intro launch hne
      exact progress_congr s s' launch (by rw [hlaunches, Table.get?_set, if_neg hne])
        (by rw [hreturned])
    · intro node' launch hne
      rw [hflights]
      split
      · next hnode => simp [hnode, hfree, hne]
      · exact Iff.rfl
  refine h.change hspares hafter (hnext ▸ Nat.lt_succ_self _) ?_ ?_ ?_ ?_ ?_
    (hregistry ▸ h.registered)
  · intro r hr
    rw [hunreturned] at hr
    cases hr
  · rw [hassignments]
    exact h.untouched _ hbefore
  · exact fun _ => (hflights _ _).2 (by rw [if_pos rfl])
  · intro node' hflight
    rw [hflights] at hflight
    split at hflight
    · next hnode => exact hnode
    · obtain ⟨p, hp⟩ := h.within node' _ hflight
      rw [hbefore] at hp
      cases hp
  · intro a _ ha
    rw [hregistry, hvacant] at ha
    cases ha

section
variable {s : SchedulerRun} (h : s.Shared)
include h

theorem shared_enter (node : NodeId) (s' : SchedulerRun)
    (hs' : s'.scheduler = (s.scheduler.enter node).2) (hreturned : s'.returned = s.returned)
    (hrecorded : s'.recorded = s.recorded) : s'.Shared := by
  rcases s.scheduler.enter_cases node with
    ⟨joins, nextCall, henter⟩ | ⟨hfree, hvacant, joins, nextCall, henter⟩ <;> rw [henter] at hs'
  · exact h.frame s' (by rw [hs']) hreturned hrecorded (by rw [hs']) (by rw [hs'])
      (by rw [hs']; exact fun _ _ ha => ha)
  · exact h.launched s' node hvacant (by rw [hs']) (by rw [hs']) (by rw [hs']) hreturned hrecorded
      (by rw [hs']) hfree

theorem shared_begin (launch : Nat) : (s.step (.begin launch)).Shared := by
  have hsame := progress_begin s launch
  rw [step] at hsame ⊢
  rcases s.scheduler.begin_cases s.clock.steady launch with hbegin | ⟨node, -, hbegin⟩
  · rw [hbegin]
    exact h
  · rw [hbegin] at hsame ⊢
    apply h.drift _ (fun other => Or.inl (hsame other)) _ rfl rfl rfl fun _ _ ha => ha
    intro other r hr
    rw [hsame]
    exact h.returned other r hr

theorem shared_settle (launch : Nat) (outcome : LaunchOutcome) :
    (s.settle launch outcome).Shared := by
  rcases s.settle_cases launch outcome with
    hsettle | ⟨node, deadline, entropy, stage, hstarting, hnone, hfirst, hsettle⟩
  · rw [hsettle]
    exact h
  · rw [hsettle]
    have hphase : ∀ result, LaunchPhase.starting deadline ≠ .ended result := by
      intro result heq
      cases heq
    apply h.stage { s with entropy, returned := s.returned.set launch ⟨node, stage⟩ } stage
      hstarting hphase (progress_begun hstarting hphase hnone) rfl ?_ rfl rfl rfl rfl rfl rfl
    intro recorded hrecorded
    rcases hfirst with ⟨a, hnode, rfl⟩ | ⟨reason, rfl⟩
    · exact ⟨hrecorded, hnode⟩
    · exact ⟨hrecorded, reason, rfl⟩

/-- A launch whose task breaks off has recorded nothing. -/
theorem shared_breakOff (launch : Nat) (reason : String) : (s.breakOff launch reason).Shared := by
  unfold breakOff
  split
  · next hnone =>
    rcases breakOff_cases s.scheduler launch reason with
      hsame | ⟨node, phase, hlaunch, hphase, hclose⟩
    · rw [hsame]
      exact h
    · rw [hclose]
      refine h.close _ (.error (.scheduling ("launch task failed: " ++ reason)))
        (progress_begun hlaunch hphase hnone) ?_ rfl ?_ rfl rfl rfl rfl
      · intro recorded hrecorded
        exact ⟨hrecorded, _, rfl⟩
      · intro other
        split
        · next heq => exact heq ▸ hnone
        · rfl
  · exact h

variable {launch : Nat} {r : Returned} (hr : s.returned.get? launch = some r)
include hr

/-- A launch that records its assignment has recorded none before. -/
theorem shared_recording (a : Assignment) (hstage : r.stage = .recording a) :
    (s.update launch r).Shared := by
  obtain ⟨phase, hlaunch, hphase⟩ := h.unended hr
  have hbefore := h.returned launch r hr
  rw [hstage] at hbefore
  obtain ⟨hnone, hnode⟩ := h.backed launch r.node _ hbefore
  have hheld := h.holds launch r.node _ hbefore rfl
  have hupdate : s.update launch r =
      { s with
        scheduler := s.scheduler.record a
        returned := s.returned.set launch ⟨r.node, .watching a⟩
        recorded := s.recorded ++ [(launch, a)] } := by
    simp only [update, hstage]
  generalize s.update launch r = s' at hupdate ⊢
  have hinFlight : s'.scheduler.inFlight = s.scheduler.inFlight := by rw [hupdate]; rfl
  have hnext : s'.scheduler.nextLaunch = s.scheduler.nextLaunch := by rw [hupdate]; rfl
  obtain ⟨hafter, hmine, hothers⟩ := progress_stage s' (.watching a) hlaunch hphase
    (by rw [hupdate]; rfl) (by rw [hupdate])
  have hassignments : ∀ other, s'.assignmentsOf other =
      s.assignmentsOf other ++ if other = launch then [a] else [] := by
    intro other
    rw [hupdate, assignmentsOf, assignmentsOf, List.filter_append, List.map_append]
    by_cases hother : other = launch
    · simp [hother]
    · simp [hother, Ne.symm hother]
  have hone : s'.assignmentsOf launch = [a] := by
    rw [hassignments, hnone, if_pos rfl, List.nil_append]
  have hregistry : ∀ node, s'.scheduler.registry.get? node =
      if node = r.node then some a else s.scheduler.registry.get? node := by
    intro node
    rw [hupdate, ← hnode]
    exact Registry.get?_record _ _ _
  have hspares : s.Spares s' launch := by
    refine ⟨fun other hother => (hothers other hother).1, ?_,
      fun other hother => (hothers other hother).2, fun _ _ _ => by rw [hinFlight], ?_,
      Nat.le_of_eq hnext.symm⟩
    · intro other hother
      rw [hassignments, if_neg hother, List.append_nil]
    · intro node other a' hother hflight ha'
      rw [hregistry, if_neg] at ha'
      · exact ha'
      · rintro rfl
        exact hother (Option.some.inj (hflight.symm.trans hheld))
  refine h.change hspares hafter (hnext ▸ h.numbers launch _ hbefore) ?_ ⟨hone, hnode⟩
    (fun _ => hinFlight ▸ hheld) ?_ ?_ ?_
  · intro r' hr'
    obtain rfl := Option.some.inj (hmine.symm.trans hr')
    exact ⟨rfl, rfl⟩
  · exact fun node hflight => h.node_of_flight hbefore (hinFlight ▸ hflight)
  · intro a' _ ha'
    rw [hregistry, if_pos rfl] at ha'
    exact Option.some.inj ha' ▸ hone
  · intro node a' ha'
    rw [hregistry] at ha'
    split at ha'
    · next heq => rw [heq, ← Option.some.inj ha', hnode]
    · exact h.registered node a' ha'

/-- A launch that leaves the launches in flight has come to its result. -/
theorem shared_leaving (result : Except Error Assignment) (hstage : r.stage = .leaving result) :
    (s.update launch r).Shared := by
  obtain ⟨phase, hlaunch, hphase⟩ := h.unended hr
  have hbefore := h.returned launch r hr
  rw [hstage] at hbefore
  have hheld := h.holds launch r.node _ hbefore rfl
  have hbacked := h.backed launch r.node _ hbefore
  have hupdate : s.update launch r =
      { s with
        scheduler := s.scheduler.leave r.node
        returned := s.returned.set launch ⟨r.node, .closing result⟩ } := by
    simp only [update, hstage]
  generalize s.update launch r = s' at hupdate ⊢
  have hregistry : s'.scheduler.registry = s.scheduler.registry := by rw [hupdate]; rfl
  have hnext : s'.scheduler.nextLaunch = s.scheduler.nextLaunch := by rw [hupdate]; rfl
  obtain ⟨hafter, hmine, hothers⟩ := progress_stage s' (.closing result) hlaunch hphase
    (by rw [hupdate]; rfl) (by rw [hupdate])
  have hassignments : ∀ other, s'.assignmentsOf other = s.assignmentsOf other := by
    intro other
    rw [hupdate]
    rfl
  have hflights : ∀ node, s'.scheduler.inFlight.get? node =
      if node = r.node then none else s.scheduler.inFlight.get? node := by
    intro node
    rw [hupdate]
    exact Table.get?_erase _ _ _
  have hgone : ∀ node, s'.scheduler.inFlight.get? node ≠ some launch := by
    intro node hflight
    rw [hflights] at hflight
    split at hflight
    · cases hflight
    · next hne => exact hne (h.node_of_flight hbefore hflight)
  have hspares : s.Spares s' launch := by
    refine ⟨fun other hother => (hothers other hother).1, fun other _ => hassignments other,
      fun other hother => (hothers other hother).2, ?_, fun _ _ _ _ _ ha => hregistry ▸ ha,
      Nat.le_of_eq hnext.symm⟩
    intro node other hother
    rw [hflights]
    split
    · next hnode => simp [hnode, hheld, Ne.symm hother]
    · exact Iff.rfl
  refine h.change hspares hafter (hnext ▸ h.numbers launch _ hbefore) ?_
    (hassignments launch ▸ hbacked) (fun hholds => by cases hholds) ?_ ?_
    (hregistry ▸ h.registered)
  · intro r' hr'
    obtain rfl := Option.some.inj (hmine.symm.trans hr')
    exact ⟨rfl, rfl⟩
  · exact fun node hflight => absurd hflight (hgone node)
  · exact fun _ hflight => absurd hflight (hgone r.node)

theorem shared_update : (s.update launch r).Shared := by
  obtain ⟨phase, hlaunch, hphase⟩ := h.unended hr
  have hbefore := h.returned launch r hr
  cases hstage : r.stage with
  | recording a => exact shared_recording h hr a hstage
  | watching a =>
    rw [hstage] at hbefore
    simp only [update, hstage]
    exact h.stage _ (.leaving (.ok a)) hlaunch hphase hbefore rfl
      (fun _ hbacked => hbacked) rfl rfl rfl rfl rfl rfl
  | counting cause =>
    rw [hstage] at hbefore
    simp only [update, hstage]
    exact h.stage _ (.leaving (.error cause)) hlaunch hphase hbefore rfl
      (fun _ hbacked => hbacked) rfl rfl rfl rfl rfl rfl
  | leaving result => exact shared_leaving h hr result hstage
  | closing result =>
    rw [hstage] at hbefore
    simp only [update, hstage]
    exact h.close _ result hbefore (fun _ hbacked => hbacked) rfl
      (fun other => Table.get?_erase _ _ _) rfl rfl rfl rfl

end

/-! ## Runs -/

/-- What the callers of a launch share survives every step. -/
theorem shared_next (s : SchedulerRun) (h : s.Shared) (op : CallOp) : (s.next op).Shared := by
  cases op with
  | breakOff launch reason => exact shared_breakOff h launch reason
  | step op =>
    rw [next]
    by_cases hop : ofCallers op = true
    · obtain ⟨asking, clock, joins, lookups, nextCall, hstep⟩ := step_ofCallers s op hop
      rw [hstep]
      exact h.frame _ rfl rfl rfl rfl rfl fun _ _ ha => ha
    cases op with
    | enter node =>
      rw [step]
      split
      · exact shared_enter h node _ rfl rfl rfl
      · exact h
    | begin launch => exact shared_begin h launch
    | returned launch outcome => exact shared_settle h launch outcome
    | update launch =>
      rw [step]
      split
      · next r hr => exact shared_update h hr
      · exact h
    | report launch =>
      rw [step]
      split
      · exact h.frame _ rfl rfl rfl rfl rfl fun _ _ ha => ha
      · exact h
    | clear launch =>
      rw [step]
      split
      · unfold Scheduler.exited
        split
        · exact h
        · next a _ =>
          refine h.frame _ rfl rfl rfl rfl rfl ?_
          intro node a' ha'
          have hget := (Registry.get?_clear _ _ _ _).symm.trans ha'
          split at hget
          · cases hget
          · exact hget
      · exact h
    | _ => exact absurd rfl hop

theorem shared_runCalls (s : SchedulerRun) (h : s.Shared) (ops : List CallOp) :
    (s.runCalls ops).Shared := by
  induction ops generalizing s with
  | nil => exact h
  | cons op ops ih => exact ih _ (shared_next s h op)

end SchedulerRun

end SigningGateway
