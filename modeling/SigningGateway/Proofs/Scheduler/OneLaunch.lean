import SigningGateway.Proofs.Scheduler.Counting

/-!
# One launch at a time

The launcher is called for a node only while nothing else of the node is in flight and no process
of it is assigned, so a process that was recorded is the only one of its node until its end is
reported.  When no task has anything left to do, the assignments and the counts are exact.

    s.Starts op launch node → launch holds the entry of node, no assignment     (vacant_of_starts)
    at rest: assignment of node ↔ last recorded, end not reported       (registered_iff_at_rest)
    at rest: started = failed + recorded + in flight                            (counts_at_rest)
    all of it, in every run                                                 (one_launch_at_a_time)
-/

namespace SigningGateway

namespace SchedulerRun

/-! ## Calls of the launcher -/

/-- The launcher is at work at a launch of the node. -/
def Calls (s : SchedulerRun) (launch : Nat) (node : NodeId) : Prop :=
  s.standing launch = some (node, .working)

/-- A step calls the launcher for a launch of the node. -/
def Starts (s : SchedulerRun) (op : SchedulerOp) (launch : Nat) (node : NodeId) : Prop :=
  ¬s.Calls launch node ∧ (s.step op).Calls launch node

instance (s : SchedulerRun) (launch : Nat) (node : NodeId) : Decidable (s.Calls launch node) :=
  match h : s.standing launch with
  | some (node', .working) => decidable_of_iff (node' = node) (by simp [Calls, h])
  | some (_, .ready) | some (_, .returned _) | some (_, .ended) | none =>
    .isFalse (by simp [Calls, h])

instance (s : SchedulerRun) (op : SchedulerOp) (launch : Nat) (node : NodeId) :
    Decidable (s.Starts op launch node) :=
  inferInstanceAs (Decidable (_ ∧ _))

theorem calls_iff (s : SchedulerRun) (launch : Nat) (node : NodeId) :
    s.Calls launch node ↔ s.returned.get? launch = none ∧
      ∃ deadline, s.scheduler.launches.get? launch = some ⟨node, .starting deadline⟩ := by
  constructor
  · intro h
    rw [Calls, standing] at h
    split at h
    · cases h
    · cases h
    · next node' deadline hget =>
      split at h
      · next hnone =>
        obtain ⟨rfl, -⟩ := Prod.mk.inj (Option.some.inj h)
        exact ⟨hnone, deadline, hget⟩
      · cases h
    · cases h
  · rintro ⟨hnone, deadline, hget⟩
    exact standing_working hget hnone

/-- A step that leaves the entries of a launch alone does not call the launcher for it. -/
theorem not_starts_of_same {s : SchedulerRun} {op : SchedulerOp} {launch : Nat} {node : NodeId}
    (hlaunches : (s.step op).scheduler.launches.get? launch = s.scheduler.launches.get? launch)
    (hreturned : (s.step op).returned.get? launch = s.returned.get? launch) :
    ¬s.Starts op launch node := by
  rintro ⟨hbefore, hafter⟩
  rw [Calls, standing_congr s _ launch hlaunches hreturned] at hafter
  exact hbefore hafter

theorem not_starts_enter (s : SchedulerRun) (node' : NodeId) (launch : Nat) (node : NodeId) :
    ¬s.Starts (.enter node') launch node := by
  intro hstarts
  obtain ⟨-, deadline, hstarting⟩ := (calls_iff _ launch node).1 hstarts.2
  by_cases hasks : node' ∈ s.asking
  · have hstep : s.step (.enter node') = { s with
        asking := s.asking.erase node', scheduler := (s.scheduler.enter node').2 } := if_pos hasks
    rcases s.scheduler.enter_cases node' with
      ⟨joins, nextCall, henter⟩ | ⟨-, -, joins, nextCall, henter⟩
    · rw [henter] at hstep
      exact not_starts_of_same (by rw [hstep]) (by rw [hstep]) hstarts
    · rw [henter] at hstep
      rw [hstep] at hstarting
      by_cases hlaunch : launch = s.scheduler.nextLaunch
      · subst hlaunch
        rw [Table.get?_set, if_pos rfl] at hstarting
        cases hstarting
      · refine not_starts_of_same ?_ (by rw [hstep]) hstarts
        rw [hstep, Table.get?_set, if_neg hlaunch]
  · have hstep : s.step (.enter node') = s := if_neg hasks
    exact not_starts_of_same (by rw [hstep]) (by rw [hstep]) hstarts

theorem not_starts_settle (s : SchedulerRun) (launch' : Nat) (outcome : LaunchOutcome)
    (launch : Nat) (node : NodeId) : ¬s.Starts (.returned launch' outcome) launch node := by
  intro hstarts
  have hnone := ((calls_iff _ launch node).1 hstarts.2).1
  have hstep : s.step (.returned launch' outcome) = s.settle launch' outcome := rfl
  rcases s.settle_cases launch' outcome with
    hsettle | ⟨node', deadline, entropy, stage, -, -, -, hsettle⟩
  · rw [hsettle] at hstep
    exact not_starts_of_same (by rw [hstep]) (by rw [hstep]) hstarts
  · rw [hsettle] at hstep
    rw [hstep] at hnone
    by_cases hlaunch : launch = launch'
    · subst hlaunch
      rw [Table.get?_set, if_pos rfl] at hnone
      cases hnone
    · refine not_starts_of_same (by rw [hstep]) ?_ hstarts
      rw [hstep, Table.get?_set, if_neg hlaunch]

theorem not_starts_update (s : SchedulerRun) (launch' : Nat) (launch : Nat) (node : NodeId) :
    ¬s.Starts (.update launch') launch node := by
  intro hstarts
  obtain ⟨hnone, deadline, hstarting⟩ := (calls_iff _ launch node).1 hstarts.2
  cases hr : s.returned.get? launch' with
  | none =>
    have hstep : s.step (.update launch') = s := by simp only [step, hr]
    exact not_starts_of_same (by rw [hstep]) (by rw [hstep]) hstarts
  | some r =>
    rcases r with ⟨node', stage⟩
    -- every update but the last one sets the stage of its launch and touches no launch
    have hset : ∀ stage', (s.step (.update launch')).returned =
        s.returned.set launch' ⟨node', stage'⟩ →
        (s.step (.update launch')).scheduler.launches = s.scheduler.launches → False := by
      intro stage' hreturned hlaunches
      by_cases hlaunch : launch = launch'
      · rw [hreturned, Table.get?_set, if_pos hlaunch] at hnone
        cases hnone
      · refine not_starts_of_same (by rw [hlaunches]) ?_ hstarts
        rw [hreturned, Table.get?_set, if_neg hlaunch]
    have hstep : s.step (.update launch') = s.update launch' ⟨node', stage⟩ := by
      simp only [step, hr]
    rw [hstep] at hset
    cases stage with
    | recording a => exact hset _ rfl rfl
    | watching a => exact hset _ rfl rfl
    | counting cause => exact hset _ rfl rfl
    | leaving result => exact hset _ rfl rfl
    | closing result =>
      have hlaunches : (s.step (.update launch')).scheduler.launches =
          s.scheduler.launches.set launch' ⟨node', .ended result⟩ := by rw [hstep]; rfl
      have hreturned : (s.step (.update launch')).returned = s.returned.erase launch' := by
        rw [hstep]
        rfl
      by_cases hlaunch : launch = launch'
      · rw [hlaunches, Table.get?_set, if_pos hlaunch] at hstarting
        cases hstarting
      · refine not_starts_of_same ?_ ?_ hstarts
        · rw [hlaunches, Table.get?_set, if_neg hlaunch]
        · rw [hreturned, Table.get?_erase, if_neg hlaunch]

/-- Only the first turn of a launch calls the launcher. -/
theorem ready_of_starts (s : SchedulerRun) (op : SchedulerOp) (launch : Nat) (node : NodeId)
    (hstarts : s.Starts op launch node) : s.standing launch = some (node, .ready) := by
  by_cases hop : ofCallers op = true
  · obtain ⟨asking, clock, joins, lookups, nextCall, hstep⟩ := step_ofCallers s op hop
    exact absurd hstarts (not_starts_of_same (by rw [hstep]) (by rw [hstep]))
  cases op with
  | enter node' => exact absurd hstarts (not_starts_enter s node' launch node)
  | begin launch' =>
    obtain ⟨-, deadline, hstarting⟩ := (calls_iff _ launch node).1 hstarts.2
    have hstep : s.step (.begin launch') =
      { s with scheduler := s.scheduler.begin s.clock.steady launch' } := rfl
    rcases s.scheduler.begin_cases s.clock.steady launch' with hbegin | ⟨node', hready, hbegin⟩
    · rw [hbegin] at hstep
      exact absurd hstarts (not_starts_of_same (by rw [hstep]) (by rw [hstep]))
    · rw [hbegin] at hstep
      by_cases hlaunch : launch = launch'
      · subst hlaunch
        rw [hstep, Table.get?_set, if_pos rfl] at hstarting
        obtain rfl : node' = node := congrArg Launch.node (Option.some.inj hstarting)
        exact standing_ready hready
      · refine absurd hstarts (not_starts_of_same ?_ (by rw [hstep]))
        rw [hstep, Table.get?_set, if_neg hlaunch]
  | returned launch' outcome => exact absurd hstarts (not_starts_settle s launch' outcome _ _)
  | update launch' => exact absurd hstarts (not_starts_update s launch' _ _)
  | report launch' =>
    refine absurd hstarts ?_
    rw [Starts, step]
    split
    · exact fun h => h.1 h.2
    · exact fun h => h.1 h.2
  | clear launch' =>
    have hstep : (s.step (.clear launch')).scheduler.launches = s.scheduler.launches ∧
        (s.step (.clear launch')).returned = s.returned := by
      rw [step]
      split
      · rw [Scheduler.exited]
        split <;> exact ⟨rfl, rfl⟩
      · exact ⟨rfl, rfl⟩
    exact absurd hstarts (not_starts_of_same (by rw [hstep.1]) (by rw [hstep.2]))
  | _ => exact absurd rfl hop

/-- The launcher is called for a launch that holds the entry of its node, when no other launch of
the node is in flight and no process of it is assigned. -/
theorem Single.vacant_of_starts {s : SchedulerRun} (h : s.Single) {op : SchedulerOp} {launch : Nat}
    {node : NodeId} (hstarts : s.Starts op launch node) :
    s.scheduler.inFlight.get? node = some launch ∧ (∀ other, s.Holds other node → other = launch) ∧
      s.scheduler.registry.get? node = none := by
  have hready := ready_of_starts s op launch node hstarts
  have hholds : s.Holds launch node := ⟨_, hready, rfl⟩
  refine ⟨(h.inFlight node launch).2 hholds, ?_, h.vacant launch node ⟨_, hready, rfl⟩⟩
  intro other hother
  exact h.holds_inj hother hholds

/-- An assignment that was recorded for a node that has none now is over. -/
theorem Single.reported_of_vacant {s : SchedulerRun} (h : s.Single) {e : Nat × Assignment}
    (he : e ∈ s.recorded) (hvacant : s.scheduler.registry.get? e.2.node = none) :
    e.1 ∈ s.reported := by
  rcases h.earlier e he with hreported | hlast
  · exact hreported
  · exact h.cleared e.2.node e hlast hvacant

theorem mem_recorded_run (s : SchedulerRun) (ops : List SchedulerOp) (e : Nat × Assignment)
    (he : e ∈ s.recorded) : e ∈ (s.run ops).recorded := by
  induction ops generalizing s with
  | nil => exact he
  | cons op ops ih => exact ih _ ((recorded_step s op).subset he)

/-! ## Schedulers at rest -/

/-- No launch waits for its first turn or for its next update, and no end that was reported waits to
be seen. -/
structure AtRest (s : SchedulerRun) : Prop where
  begun : ∀ launch node, s.scheduler.launches.get? launch ≠ some ⟨node, .ready⟩
  updated : ∀ launch, s.returned.get? launch = none
  seen : ∀ launch ∈ s.reported, s.scheduler.watched.get? launch = none

/-- The tables of a scheduler show that it is at rest. -/
theorem atRest_of_entries {s : SchedulerRun}
    (hbegun : ∀ e ∈ s.scheduler.launches.entries, e.2.unended = e.2.called)
    (hupdated : s.returned.entries.isEmpty = true)
    (hseen : ∀ launch ∈ s.reported, s.scheduler.watched.contains launch = false) : s.AtRest where
  begun := by
    intro launch node hget
    have hcalled := hbegun _ ((Table.get?_eq_some_iff _ _ _).1 hget)
    cases hcalled
  updated := by
    intro launch
    rw [Option.eq_none_iff_forall_ne_some]
    intro r hget
    rw [Table.get?_eq_some_iff, List.isEmpty_iff.1 hupdated] at hget
    cases hget
  seen := by
    intro launch hlaunch
    have hnone := hseen launch hlaunch
    rwa [Table.contains, Option.isSome_eq_false_iff, Option.isNone_iff_eq_none] at hnone

/-- At rest the assignment of a node is the one that was recorded last, unless its process ended. -/
theorem Single.registered_iff_at_rest {s : SchedulerRun} (h : s.Single) (hrest : s.AtRest)
    (node : NodeId) (a : Assignment) : s.scheduler.registry.get? node = some a ↔
      ∃ launch, lastRecorded s.recorded node = some (launch, a) ∧ launch ∉ s.reported := by
  constructor
  · intro hget
    obtain ⟨launch, hlast, huncleared⟩ := h.registered node a hget
    refine ⟨launch, hlast, ?_⟩
    intro hreported
    rcases huncleared with ⟨node', hwatching⟩ | hwatched
    · -- a launch that is about to await its process has an update to make
      rw [standing] at hwatching
      split at hwatching
      · cases hwatching
      · cases hwatching
      · rw [hrest.updated launch] at hwatching
        cases hwatching
      · cases hwatching
    · rw [hrest.seen launch hreported] at hwatched
      cases hwatched
  · rintro ⟨launch, hlast, hreported⟩
    cases hget : s.scheduler.registry.get? node with
    | none => exact absurd (h.cleared node _ hlast hget) hreported
    | some a' =>
      obtain ⟨launch', hlast', -⟩ := h.registered node a' hget
      rw [hlast] at hlast'
      rw [(Prod.mk.inj (Option.some.inj hlast')).2]

/-- At rest the launches in flight are those at which the launcher is at work, and each of the
others for which it was called has failed or has recorded its assignment. -/
theorem Counted.counts_at_rest {s : SchedulerRun} (hc : s.Counted) (hrest : s.AtRest) :
    s.scheduler.inFlight.size = s.scheduler.launches.total Launch.called ∧
      s.scheduler.started =
        s.scheduler.failed + s.recorded.length + s.scheduler.inFlight.size := by
  have htold := s.returned.total_eq_zero Returned.told hrest.updated
  have hleft := s.returned.total_eq_zero Returned.left hrest.updated
  have hbegun : s.scheduler.launches.total Launch.unended =
      s.scheduler.launches.total Launch.called := by
    apply Table.total_congr
    rintro launch ⟨node, phase⟩ hget
    cases phase with
    | ready => exact absurd hget (hrest.begun launch node)
    | starting deadline => rfl
    | ended result => rfl
  have hstarted := hc.started
  have hinFlight := hc.inFlight
  rw [← Table.size_eq_total] at hinFlight
  refine ⟨?_, ?_⟩ <;> omega

/-! ## Every run -/

/-- In every run the launcher is at work at one launch of a node at most, and is called for it only
when no other launch of the node is in flight and no process of it is assigned; so it is not called
for the node again between the recording of a process and the report of its end.  Whenever no task
has anything left to do, the assignment of a node is the one recorded last just if its end was not
reported, and every call of the launcher has failed, has recorded an assignment or is under way. -/
theorem one_launch_at_a_time (settings : SchedulerSettings) (clock : Clock) (entropy : Entropy) :
    (∀ (ops : List SchedulerOp) (node : NodeId) (launch launch' : Nat),
      let s := (start settings clock entropy).run ops
      s.Calls launch node → s.Calls launch' node → launch = launch') ∧
    (∀ (ops : List SchedulerOp) (op : SchedulerOp) (launch : Nat) (node : NodeId),
      let s := (start settings clock entropy).run ops
      s.Starts op launch node → s.scheduler.inFlight.get? node = some launch ∧
        (∀ other, s.Holds other node → other = launch) ∧
        s.scheduler.registry.get? node = none) ∧
    (∀ (before between : List SchedulerOp) (op : SchedulerOp) (e : Nat × Assignment)
        (launch : Nat),
      let s := (start settings clock entropy).run before
      e ∈ s.recorded → e.1 ∉ (s.run between).reported →
        ¬(s.run between).Starts op launch e.2.node) ∧
    ∀ ops : List SchedulerOp,
      let s := (start settings clock entropy).run ops
      s.AtRest →
        (∀ node a, s.scheduler.registry.get? node = some a ↔
          ∃ launch, lastRecorded s.recorded node = some (launch, a) ∧ launch ∉ s.reported) ∧
        s.scheduler.stats.launchesInFlight = s.scheduler.launches.total Launch.called ∧
        s.scheduler.stats.launchesStarted = s.scheduler.stats.launchesFailed + s.recorded.length +
          s.scheduler.stats.launchesInFlight := by
  have hsingle := single_run _ (single_start settings clock entropy)
  refine ⟨?_, ?_, ?_, ?_⟩
  · intro ops node launch launch' s hcalls hcalls'
    exact (hsingle ops).holds_inj ⟨_, hcalls, rfl⟩ ⟨_, hcalls', rfl⟩
  · intro ops op launch node s hstarts
    exact (hsingle ops).vacant_of_starts hstarts
  · intro before between op e launch s he hreported hstarts
    have h : (s.run between).Single := single_run s (hsingle before) between
    obtain ⟨-, -, hvacant⟩ := h.vacant_of_starts hstarts
    exact hreported (h.reported_of_vacant (mem_recorded_run s between e he) hvacant)
  · intro ops s hrest
    have hcounted := counted_run _ (single_start settings clock entropy)
      (counted_start settings clock entropy) ops
    exact ⟨(hsingle ops).registered_iff_at_rest hrest, hcounted.counts_at_rest hrest⟩

/-- Two callers ask for a node at once, its process comes up, and another caller finds it.  When the
end of the process was reported and seen, the next caller has the node started again. -/
theorem one_launch_for_two_callers :
    let node : NodeId := ⟨List.replicate 32 7, rfl⟩
    let s := start ⟨10, 5⟩ ⟨⟨0, 0⟩, 0⟩ ⟨fun _ => List.replicate 32 1, 0⟩
    let asked := [SchedulerOp.look node node, .look node node, .enter node, .enter node]
    let up := asked ++ [.begin 0, .returned 0 (.up "localhost"), .update 0]
    let between := [SchedulerOp.update 0, .look node node, .update 0, .update 0]
    let ended := up ++ between ++ [.report 0, .clear 0]
    let again := ended ++ [.look node node, .enter node]
    (s.run asked).Starts (.begin 0) 0 node ∧
      (s.run asked).scheduler.registry.get? node = none ∧
      (∀ launch, (s.run (asked ++ [.begin 0])).Calls launch node → launch = 0) ∧
      (∀ op launch, ¬((s.run up).run between).Starts op launch node) ∧
      (s.run (up ++ between)).AtRest ∧
      ((s.run (up ++ between)).scheduler.registry.get? node).isSome = true ∧
      (s.run (up ++ between)).scheduler.stats.launchesStarted =
        (s.run (up ++ between)).scheduler.stats.launchesFailed + 1 +
          (s.run (up ++ between)).scheduler.stats.launchesInFlight ∧
      (s.run ended).AtRest ∧ (s.run ended).scheduler.registry.get? node = none ∧
      (s.run again).Starts (.begin 1) 1 node ∧
      ∀ other, (s.run again).Holds other node → other = 1 := by
  intro node s asked up between ended again
  obtain ⟨hsame, hvacant, hagain, hexact⟩ :=
    one_launch_at_a_time ⟨10, 5⟩ ⟨⟨0, 0⟩, 0⟩ ⟨fun _ => List.replicate 32 1, 0⟩
  let a : Assignment := ⟨node, "localhost", Uuid.ofRandom ((List.replicate 32 1).take 16), ⟨0, 0⟩⟩
  have hstarts : (s.run asked).Starts (.begin 0) 0 node := by decide +kernel
  have hcalls : (s.run (asked ++ [.begin 0])).Calls 0 node := by decide +kernel
  have hup : (s.run up).recorded = [(0, a)] := by decide +kernel
  obtain ⟨hrecorded, hreported⟩ : (s.run (up ++ between)).recorded = [(0, a)] ∧
      (s.run (up ++ between)).reported = [] := by decide +kernel
  obtain ⟨hrecorded', hreported'⟩ : (s.run ended).recorded = [(0, a)] ∧
      (s.run ended).reported = [0] := by decide +kernel
  have hrest : (s.run (up ++ between)).AtRest :=
    atRest_of_entries (by decide +kernel) (by decide +kernel) (by decide +kernel)
  have hrest' : (s.run ended).AtRest :=
    atRest_of_entries (by decide +kernel) (by decide +kernel) (by decide +kernel)
  have hsecond : (s.run again).Starts (.begin 1) 1 node := by decide +kernel
  obtain ⟨hregistered, -, hcounts⟩ := hexact (up ++ between) hrest
  obtain ⟨hregistered', -, -⟩ := hexact ended hrest'
  have hlast : lastRecorded [(0, a)] node = some (0, a) := by decide +kernel
  refine ⟨hstarts, (hvacant asked (.begin 0) 0 node hstarts).2.2, ?_, ?_, hrest, ?_, ?_, hrest', ?_,
    hsecond, (hvacant again (.begin 1) 1 node hsecond).2.1⟩
  · intro launch hlaunch
    have heq := hsame (asked ++ [.begin 0]) node launch 0
    exact heq hlaunch hcalls
  · intro op launch
    have hmem : (0, a) ∈ (s.run up).recorded := by
      rw [hup]
      exact List.mem_singleton.2 rfl
    have hopen : (0, a).1 ∉ ((s.run up).run between).reported := by
      rw [← run_append, hreported]
      exact List.not_mem_nil
    exact hagain up between op (0, a) launch hmem hopen
  · have hget := (hregistered node a).2 ⟨0, by rw [hrecorded, hlast],
      by rw [hreported]; exact List.not_mem_nil⟩
    rw [hget]
    rfl
  · rw [hrecorded] at hcounts
    exact hcounts
  · rw [Option.eq_none_iff_forall_ne_some]
    intro a'
    rw [ne_eq, hregistered', hrecorded', hreported', hlast]
    rintro ⟨launch, hlast', hopen⟩
    obtain ⟨rfl, -⟩ := Prod.mk.inj (Option.some.inj hlast')
    exact hopen List.mem_cons_self

end SchedulerRun

end SigningGateway
