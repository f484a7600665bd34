import SigningGateway.Proofs.Scheduler.Steps
import SigningGateway.Proofs.Totals

/-!
# Counting launches

Every launch for which the launcher was called is at work, or on its way to its end, or its failure
was counted or its assignment recorded; and every launch that has not ended is in flight, unless it
has just left.

    started + launches that have recorded or counted, and not ended
      = failed + recorded + launches for which the launcher was called and that have not ended

Each step changes one entry of the tables at most, and keeps both counts.

    Counted s → Counted (s.step op)                                               (counted_step)
-/

namespace SigningGateway

/-- One for a launch for which the launcher was called and that has not ended. -/
def Launch.called (l : Launch) : Nat :=
  match l.phase with
  | .starting _ => 1
  | _ => 0

/-- One for a launch that has not ended. -/
def Launch.unended (l : Launch) : Nat :=
  match l.phase with
  | .ended _ => 0
  | _ => 1

/-- One for a launch that has recorded its assignment or counted its failure. -/
def Returned.told (r : Returned) : Nat :=
  match r.stage with
  | .recording _ | .counting _ => 0
  | _ => 1

/-- One for a launch that has left the launches in flight. -/
def Returned.left (r : Returned) : Nat :=
  match r.stage with
  | .closing _ => 1
  | _ => 0

namespace SchedulerRun

/-- The counts agree with what has happened. -/
structure Counted (s : SchedulerRun) : Prop where
  started : s.scheduler.started + s.returned.total Returned.told =
    s.scheduler.failed + s.recorded.length + s.scheduler.launches.total Launch.called
  inFlight : s.scheduler.inFlight.total (fun _ => 1) + s.returned.total Returned.left =
    s.scheduler.launches.total Launch.unended

theorem counted_start (settings : SchedulerSettings) (clock : Clock) (entropy : Entropy) :
    (start settings clock entropy).Counted := ⟨rfl, rfl⟩

theorem counted_enter (s : SchedulerRun) (h : s.Single) (hc : s.Counted) (node : NodeId) :
    (s.step (.enter node)).Counted := by
  rw [step]
  split
  · rcases s.scheduler.enter_cases node with
      ⟨joins, nextCall, henter⟩ | ⟨hfree, -, joins, nextCall, henter⟩
    · rw [henter]
      exact ⟨hc.started, hc.inFlight⟩
    · rw [henter]
      have hnew := h.launches_nextLaunch
      have hcalled := s.scheduler.launches.total_set Launch.called s.scheduler.nextLaunch
        ⟨node, .ready⟩
      have hunended := s.scheduler.launches.total_set Launch.unended s.scheduler.nextLaunch
        ⟨node, .ready⟩
      have hflight := s.scheduler.inFlight.total_set (fun _ => 1) node s.scheduler.nextLaunch
      rw [Table.share_of_none _ _ _ hnew] at hcalled hunended
      rw [Table.share_of_none _ _ _ hfree] at hflight
      simp only [Launch.called, Launch.unended] at hcalled hunended
      have hstarted := hc.started
      have hinFlight := hc.inFlight
      refine ⟨?_, ?_⟩
      · show s.scheduler.started + s.returned.total Returned.told =
          s.scheduler.failed + s.recorded.length +
            (s.scheduler.launches.set s.scheduler.nextLaunch ⟨node, .ready⟩).total Launch.called
        omega
      · show (s.scheduler.inFlight.set node s.scheduler.nextLaunch).total (fun _ => 1) +
          s.returned.total Returned.left =
            (s.scheduler.launches.set s.scheduler.nextLaunch ⟨node, .ready⟩).total Launch.unended
        omega
  · exact hc

theorem counted_begin (s : SchedulerRun) (hc : s.Counted) (launch : Nat) :
    (s.step (.begin launch)).Counted := by
  rw [step]
  rcases s.scheduler.begin_cases s.clock.steady launch with hbegin | ⟨node, hready, hbegin⟩
  · rw [hbegin]
    exact hc
  · rw [hbegin]
    generalize s.clock.steady + s.scheduler.settings.spawnTimeout = deadline
    have hcalled := s.scheduler.launches.total_set Launch.called launch ⟨node, .starting deadline⟩
    have hunended := s.scheduler.launches.total_set Launch.unended launch
      ⟨node, .starting deadline⟩
    rw [Table.share_of_get? _ _ _ _ hready] at hcalled hunended
    simp only [Launch.called, Launch.unended] at hcalled hunended
    have hstarted := hc.started
    have hinFlight := hc.inFlight
    refine ⟨?_, ?_⟩
    · show s.scheduler.started + 1 + s.returned.total Returned.told =
        s.scheduler.failed + s.recorded.length +
          (s.scheduler.launches.set launch ⟨node, .starting deadline⟩).total Launch.called
      omega
    · show s.scheduler.inFlight.total (fun _ => 1) + s.returned.total Returned.left =
        (s.scheduler.launches.set launch ⟨node, .starting deadline⟩).total Launch.unended
      omega

theorem counted_settle (s : SchedulerRun) (hc : s.Counted) (launch : Nat)
    (outcome : LaunchOutcome) : (s.settle launch outcome).Counted := by
  rcases s.settle_cases launch outcome with
    hsettle | ⟨node, deadline, entropy, stage, -, hnone, hfirst, hsettle⟩
  · rw [hsettle]
    exact hc
  · rw [hsettle]
    -- a launch that has told nothing yet changes no count
    have htold := s.returned.total_set Returned.told launch ⟨node, stage⟩
    have hleft := s.returned.total_set Returned.left launch ⟨node, stage⟩
    rw [Table.share_of_none _ _ _ hnone] at htold hleft
    have hfresh : (⟨node, stage⟩ : Returned).told = 0 ∧ (⟨node, stage⟩ : Returned).left = 0 := by
      rcases hfirst with ⟨a, -, rfl⟩ | ⟨cause, rfl⟩ <;> exact ⟨rfl, rfl⟩
    rw [hfresh.1] at htold
    rw [hfresh.2] at hleft
    have hstarted := hc.started
    have hinFlight := hc.inFlight
    refine ⟨?_, ?_⟩
    · show s.scheduler.started + (s.returned.set launch ⟨node, stage⟩).total Returned.told =
        s.scheduler.failed + s.recorded.length + s.scheduler.launches.total Launch.called
      omega
    · show s.scheduler.inFlight.total (fun _ => 1) +
        (s.returned.set launch ⟨node, stage⟩).total Returned.left =
          s.scheduler.launches.total Launch.unended
      omega

/-- A launch that comes to another stage keeps the counts if it tells and leaves as its stages
say. -/
theorem Counted.stage {s : SchedulerRun} (hc : s.Counted) (s' : SchedulerRun) {launch : Nat}
    {r r' : Returned} (hr : s.returned.get? launch = some r)
    (hreturned : s'.returned = s.returned.set launch r')
    (hlaunches : s'.scheduler.launches = s.scheduler.launches)
    (hcalls : s'.scheduler.started = s.scheduler.started)
    (htold : s'.scheduler.failed + s'.recorded.length + r.told =
      s.scheduler.failed + s.recorded.length + r'.told)
    (hleft : s'.scheduler.inFlight.total (fun _ => 1) + r'.left =
      s.scheduler.inFlight.total (fun _ => 1) + r.left) : s'.Counted := by
  have htolds := s.returned.total_set Returned.told launch r'
  have hlefts := s.returned.total_set Returned.left launch r'
  rw [Table.share_of_get? _ _ _ _ hr] at htolds hlefts
  have hstarted := hc.started
  have hinFlight := hc.inFlight
  refine ⟨?_, ?_⟩
  · rw [hreturned, hlaunches, hcalls]
    omega
  · rw [hreturned, hlaunches]
    omega

/-- A launch that leaves takes its entry out of those in flight. -/
theorem Single.total_leave {s : SchedulerRun} (h : s.Single) {launch : Nat} {node : NodeId}
    (hholds : s.Holds launch node) :
    (s.scheduler.inFlight.erase node).total (fun _ => 1) + 1 =
      s.scheduler.inFlight.total (fun _ => 1) := by
  have herase := s.scheduler.inFlight.total_erase (fun _ => 1) node
  rw [Table.share_of_get? _ _ _ _ ((h.inFlight node launch).2 hholds)] at herase
  exact herase

/-- A launch that lays its result down is counted no longer. -/
theorem counted_closing (s : SchedulerRun) (h : s.Single) (hc : s.Counted) (launch : Nat)
    (node : NodeId) (result : Except Error Assignment)
    (hr : s.returned.get? launch = some ⟨node, .closing result⟩) :
    (s.update launch ⟨node, .closing result⟩).Counted := by
  obtain ⟨deadline, hstarting⟩ := h.starting hr
  have htolds := s.returned.total_erase Returned.told launch
  have hlefts := s.returned.total_erase Returned.left launch
  have hcalled := s.scheduler.launches.total_set Launch.called launch ⟨node, .ended result⟩
  have hunended := s.scheduler.launches.total_set Launch.unended launch ⟨node, .ended result⟩
  rw [Table.share_of_get? _ _ _ _ hr] at htolds hlefts
  rw [Table.share_of_get? _ _ _ _ hstarting] at hcalled hunended
  simp only [Returned.told, Returned.left] at htolds hlefts
  simp only [Launch.called, Launch.unended] at hcalled hunended
  have hstarted := hc.started
  have hinFlight := hc.inFlight
  refine ⟨?_, ?_⟩
  · show s.scheduler.started + (s.returned.erase launch).total Returned.told =
      s.scheduler.failed + s.recorded.length +
        (s.scheduler.launches.set launch ⟨node, .ended result⟩).total Launch.called
    omega
  · show s.scheduler.inFlight.total (fun _ => 1) +
      (s.returned.erase launch).total Returned.left =
        (s.scheduler.launches.set launch ⟨node, .ended result⟩).total Launch.unended
    omega

theorem counted_update (s : SchedulerRun) (h : s.Single) (hc : s.Counted) (launch : Nat)
    (r : Returned) (hr : s.returned.get? launch = some r) : (s.update launch r).Counted := by
  rcases r with ⟨node, stage⟩
  cases stage with
  | recording a =>
    apply hc.stage (s.update launch ⟨node, .recording a⟩) hr rfl rfl rfl
    · show s.scheduler.failed + (s.recorded ++ [(launch, a)]).length + 0 = _ + 1
      rw [List.length_append]
      rfl
    · rfl
  | watching a => exact hc.stage (s.update launch ⟨node, .watching a⟩) hr rfl rfl rfl rfl rfl
  | counting cause =>
    apply hc.stage (s.update launch ⟨node, .counting cause⟩) hr rfl rfl rfl
    · show s.scheduler.failed + 1 + s.recorded.length + 0 = _ + 1
      omega
    · rfl
  | leaving result =>
    apply hc.stage (s.update launch ⟨node, .leaving result⟩) hr rfl rfl rfl rfl
    exact h.total_leave ⟨_, h.returned _ _ hr, rfl⟩
  | closing result => exact counted_closing s h hc launch node result hr

/-- Every step keeps the counts. -/
theorem counted_step (s : SchedulerRun) (h : s.Single) (hc : s.Counted) (op : SchedulerOp) :
    (s.step op).Counted := by
  by_cases hop : ofCallers op = true
  · obtain ⟨asking, clock, joins, lookups, nextCall, hstep⟩ := step_ofCallers s op hop
    rw [hstep]
    exact ⟨hc.started, hc.inFlight⟩
  cases op with
  | enter node => exact counted_enter s h hc node
  | begin launch => exact counted_begin s hc launch
  | returned launch outcome => exact counted_settle s hc launch outcome
  | update launch =>
    rw [step]
    split
    · next r hr => exact counted_update s h hc launch r hr
    · exact hc
  | report launch =>
    rw [step]
    split
    · exact ⟨hc.started, hc.inFlight⟩
    · exact hc
  | clear launch =>
    rw [step]
    split
    · unfold Scheduler.exited
      split
      · exact hc
      · exact ⟨hc.started, hc.inFlight⟩
    · exact hc
  | _ => exact absurd rfl hop

/-- Every run keeps the counts. -/
theorem counted_run (s : SchedulerRun) (h : s.Single) (hc : s.Counted) (ops : List SchedulerOp) :
    (s.run ops).Counted := by
  induction ops generalizing s with
  | nil => exact hc
  | cons op ops ih => exact ih _ (single_step s h op) (counted_step s h hc op)

end SchedulerRun

end SigningGateway
