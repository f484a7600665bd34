import SigningGateway.Proofs.Scheduler.Returns

/-!
# How launches end

A launch whose process is up, that the launcher refuses or whose time is over leaves the launches in
flight just before its end; the next caller of its node starts another one.  A launch whose task
breaks off ends where it stands.  It stays in flight, and whatever happens later, every caller of
its node joins it and is told the error with which it ended.

    Stuck s broken → (s.next op).Stuck (broken ++ (s.breaking op).toList)           (stuck_next)
    Stuck s broken → (s.runCalls ops).Stuck (broken ++ s.brokenOff ops)         (stuck_runCalls)
-/

namespace SigningGateway

/-! ## Callers that find no assignment -/

namespace Scheduler

/-- A caller that asks for the process of its node waits for a launch. -/
def JoinsLaunch (s : Scheduler) (node : NodeId) (launch : Nat) (s' : Scheduler) : Prop :=
  s.schedule node node = .ok (.joined s.nextCall, s') ∧
    s'.joins.get? s.nextCall = some launch ∧ s'.inFlight.get? node = some launch

/-- A caller that asks for the process of its node starts a launch. -/
def StartsLaunch (s : Scheduler) (node : NodeId) : Prop :=
  ∃ s', s.JoinsLaunch node s.nextLaunch s' ∧ s.launches.get? s.nextLaunch = none ∧
    s'.launches = s.launches.set s.nextLaunch ⟨node, .ready⟩

/-- A caller that asks for the process of its node starts no launch and is told a result at once. -/
def RepeatsResult (s : Scheduler) (node : NodeId) (result : Except Error Assignment) : Prop :=
  ∃ launch s', s.JoinsLaunch node launch s' ∧ s'.launches = s.launches ∧
    (s'.pollJoin s.nextCall).1 = some result

theorem schedule_of_vacant (s : Scheduler) {node : NodeId} (h : s.registry.get? node = none) :
    s.schedule node node = .ok (.joined s.nextCall, (s.enter node).2) := by
  have hself : authorize node node = .ok () := if_pos rfl
  rw [schedule_eq, hself]
  simp only [Except.bind, h]
  rw [← s.enter_vacant h]

theorem joinsLaunch_of_flight (s : Scheduler) {node : NodeId} {launch : Nat}
    (hvacant : s.registry.get? node = none) (hflight : s.inFlight.get? node = some launch) :
    ∃ s', s.JoinsLaunch node launch s' ∧ s'.launches = s.launches := by
  refine ⟨(s.enter node).2, ⟨s.schedule_of_vacant hvacant, ?_, ?_⟩, ?_⟩ <;>
    simp only [enter, hflight, join, Table.get?_set, if_true]

theorem startsLaunch_of_free (s : Scheduler) {node : NodeId}
    (hvacant : s.registry.get? node = none) (hfree : s.inFlight.get? node = none)
    (hnew : s.launches.get? s.nextLaunch = none) : s.StartsLaunch node := by
  refine ⟨(s.enter node).2, ⟨s.schedule_of_vacant hvacant, ?_, ?_⟩, hnew, ?_⟩ <;>
    simp only [enter, hfree, hvacant, launchOf, join, Table.get?_set, if_true]

/-- A caller of a node whose launch in flight has ended is told its result. -/
theorem repeatsResult_of_ended (s : Scheduler) {node : NodeId} {launch : Nat}
    {result : Except Error Assignment} (hvacant : s.registry.get? node = none)
    (hflight : s.inFlight.get? node = some launch)
    (hended : s.launches.get? launch = some ⟨node, .ended result⟩) :
    s.RepeatsResult node result := by
  obtain ⟨s', hjoins, hlaunches⟩ := s.joinsLaunch_of_flight hvacant hflight
  refine ⟨launch, s', hjoins, hlaunches, ?_⟩
  rw [SchedulerRun.pollJoin_eq, hjoins.2.1, Option.bind_some, resultOf, hlaunches, hended]

end Scheduler

namespace SchedulerRun

/-! ## Launches that break off -/

/-- What callers are told of a launch whose task breaks off. -/
def brokenOffError (reason : String) : Error := .scheduling ("launch task failed: " ++ reason)

/-- The launch whose task breaks off in an operation. -/
def breaking (s : SchedulerRun) : CallOp → Option Nat
  | .breakOff launch _ =>
    match s.progress launch with
    | some (_, .begun) => some launch
    | _ => none
  | .step _ => none

/-- The launches whose tasks break off in a run. -/
def brokenOff (s : SchedulerRun) : List CallOp → List Nat
  | [] => []
  | op :: ops => (s.breaking op).toList ++ (s.next op).brokenOff ops

theorem brokenOff_append (s : SchedulerRun) (ops more : List CallOp) :
    s.brokenOff (ops ++ more) = s.brokenOff ops ++ (s.runCalls ops).brokenOff more := by
  induction ops generalizing s with
  | nil => rfl
  | cons op ops ih => simp only [List.cons_append, brokenOff, runCalls_cons, ih, List.append_assoc]

theorem progress_ended_iff (s : SchedulerRun) (launch : Nat) (node : NodeId)
    (result : Except Error Assignment) :
    s.progress launch = some (node, .ended result) ↔
      s.scheduler.launches.get? launch = some ⟨node, .ended result⟩ := by
  refine ⟨fun h => ?_, progress_ended⟩
  unfold progress at h
  split at h
  · cases h
  · next hget =>
    cases h
    exact hget
  · split at h <;> cases h

/-- A launch that has ended stays as it is. -/
theorem Advances.ended {s s' : SchedulerRun} (h : s.Advances s') {launch : Nat} {node : NodeId}
    {result : Except Error Assignment} (hended : s.progress launch = some (node, .ended result)) :
    s'.progress launch = some (node, .ended result) := by
  have hget := (progress_ended_iff s launch node result).1 hended
  have hresult := h.results launch result ((resultOf_eq_some_iff _ _ _).2 ⟨node, hget⟩)
  have hnode := h.nodes launch node (by rw [nodeOf, hget]; rfl)
  exact progress_ended (launch_of_result hnode hresult)

/-- A task that breaks off closes its launch and does nothing else; one that is done with the
launcher does not break off. -/
theorem breakOff_breaking (s : SchedulerRun) (launch : Nat) (reason : String) :
    (s.breaking (.breakOff launch reason) = none ∧ s.breakOff launch reason = s) ∨
      s.breaking (.breakOff launch reason) = some launch ∧ ∃ node,
        s.progress launch = some (node, .begun) ∧
        s.breakOff launch reason =
          { s with scheduler := s.scheduler.close launch node (.error (brokenOffError reason)) } := by
  cases hlaunch : s.scheduler.launches.get? launch with
  | none =>
    refine Or.inl ⟨by simp only [breaking, progress, hlaunch], ?_⟩
    unfold breakOff
    split
    · simp only [Scheduler.breakOff, hlaunch]
    · rfl
  | some l =>
    rcases l with ⟨node, phase⟩
    cases hr : s.returned.get? launch with
    | some r =>
      refine Or.inl ⟨?_, by simp only [breakOff, hr]⟩
      cases phase <;> simp only [breaking, progress, hlaunch, hr]
    | none =>
      cases phase with
      | ended result =>
        refine Or.inl ⟨by simp only [breaking, progress, hlaunch], ?_⟩
        simp only [breakOff, hr, Scheduler.breakOff, hlaunch]
      | _ =>
        have hbegun := progress_begun hlaunch (fun _ heq => by cases heq) hr
        refine Or.inr ⟨by simp only [breaking, hbegun], node, hbegun, ?_⟩
        simp only [breakOff, hr, Scheduler.breakOff, hlaunch]
        rfl

/-! ## Launches that stay in flight -/

/-- Some launches have ended because their tasks broke off.  Of the launches that are done with
their entries they are the ones that are still in flight. -/
structure Stuck (s : SchedulerRun) (broken : List Nat) : Prop where
  failed : ∀ launch ∈ broken, ∃ node reason,
    s.progress launch = some (node, .ended (.error (brokenOffError reason)))
  held : ∀ launch node p, s.progress launch = some (node, p) → p.holds = false →
    (s.scheduler.inFlight.get? node = some launch ↔ launch ∈ broken)

variable {s s' : SchedulerRun} {broken : List Nat}

theorem stuck_start (settings : SchedulerSettings) (clock : Clock) (entropy : Entropy) :
    (start settings clock entropy).Stuck [] where
  failed := by intro launch h; cases h
  held := by intro launch node p h; cases h

/-- A launch that is done with its entry was so before. -/
def Rests (s s' : SchedulerRun) (launch : Nat) : Prop :=
  ∀ node p', s'.progress launch = some (node, p') → p'.holds = false →
    ∃ p, s.progress launch = some (node, p) ∧ p.holds = false

theorem Rests.of_eq {launch : Nat} (h : s'.progress launch = s.progress launch) :
    s.Rests s' launch :=
  fun _ p' hp' hdone => ⟨p', h ▸ hp', hdone⟩

theorem Rests.of_holds {launch : Nat} {node : NodeId} {p' : Progress}
    (h : s'.progress launch = some (node, p')) (hholds : p'.holds = true) : s.Rests s' launch := by
  intro node' p₀ hp₀ hdone
  rw [h] at hp₀
  cases hp₀
  rw [hholds] at hdone
  cases hdone

theorem Stuck.failed_of_advances (h : s.Stuck broken) (hadvances : s.Advances s') :
    ∀ launch ∈ broken, ∃ node reason,
      s'.progress launch = some (node, .ended (.error (brokenOffError reason))) := by
  intro launch hlaunch
  obtain ⟨node, reason, hended⟩ := h.failed launch hlaunch
  exact ⟨node, reason, hadvances.ended hended⟩

/-- As long as the launches that are done with their entries were so before and find the same
entries, nothing becomes stuck or gets free. -/
theorem Stuck.keep (h : s.Stuck broken) (hadvances : s.Advances s')
    (hrests : ∀ launch, s.Rests s' launch)
    (hflights : ∀ launch node p, s.progress launch = some (node, p) → p.holds = false →
      (s'.scheduler.inFlight.get? node = some launch ↔
        s.scheduler.inFlight.get? node = some launch)) : s'.Stuck broken where
  failed := h.failed_of_advances hadvances
  held := by
    intro launch node p' hp' hdone'
    obtain ⟨p, hp, hdone⟩ := hrests launch node p' hp' hdone'
    rw [hflights launch node p hp hdone]
    exact h.held launch node p hp hdone

theorem Stuck.frame (h : s.Stuck broken) (hadvances : s.Advances s')
    (hrests : ∀ launch, s.Rests s' launch)
    (hinFlight : s'.scheduler.inFlight = s.scheduler.inFlight) : s'.Stuck broken :=
  h.keep hadvances hrests fun _ _ _ _ _ => by rw [hinFlight]

/-- A launch comes to a stage in which it still has its entry. -/
theorem Stuck.stage (h : s.Stuck broken) (hadvances : s.Advances s') {launch : Nat} {node : NodeId}
    {phase : LaunchPhase} (stage : Stage)
    (hlaunch : s.scheduler.launches.get? launch = some ⟨node, phase⟩)
    (hphase : ∀ result, phase ≠ .ended result) (hholds : (Progress.returned stage).holds = true)
    (hlaunches : s'.scheduler.launches = s.scheduler.launches)
    (hreturned : s'.returned = s.returned.set launch ⟨node, stage⟩)
    (hinFlight : s'.scheduler.inFlight = s.scheduler.inFlight) : s'.Stuck broken := by
  obtain ⟨hafter, -, hothers⟩ := progress_stage s' stage hlaunch hphase hlaunches hreturned
  apply h.frame hadvances _ hinFlight
  intro other
  by_cases hother : other = launch
  · exact hother ▸ .of_holds hafter hholds
  · exact .of_eq (hothers other hother).1

/-! ## Steps -/

/-- A launch that is entered finds the entry of its node free. -/
theorem Stuck.enter (hstuck : s.Stuck broken) (h : s.Shared) (node : NodeId)
    (hs' : s'.scheduler = (s.scheduler.enter node).2) (hreturned : s'.returned = s.returned) :
    s'.Stuck broken := by
  have hadvances := h.advances_enter node s' hs'
  rcases s.scheduler.enter_cases node with
    ⟨joins, nextCall, henter⟩ | ⟨hfree, -, joins, nextCall, henter⟩ <;> rw [henter] at hs'
  · refine hstuck.frame hadvances (fun launch => .of_eq ?_) (by rw [hs'])
    exact progress_congr s s' launch (by rw [hs']) (by rw [hreturned])
  · refine hstuck.keep hadvances ?_ ?_
    · intro launch
      by_cases hnew : launch = s.scheduler.nextLaunch
      · rw [hnew]
        have hready : s'.scheduler.launches.get? s.scheduler.nextLaunch = some ⟨node, .ready⟩ := by
          rw [hs', Table.get?_set, if_pos rfl]
        have hbegun := progress_begun hready (fun _ heq => by cases heq) (hreturned ▸ h.unused.2)
        exact .of_holds hbegun rfl
      · apply Rests.of_eq
        exact progress_congr s s' launch (by rw [hs', Table.get?_set, if_neg hnew])
          (by rw [hreturned])
    · intro launch node' p hp _
      rw [hs', Table.get?_set]
      split
      · next hnode =>
        have hold : s.scheduler.nextLaunch ≠ launch := (Nat.ne_of_lt (h.numbers launch _ hp)).symm
        simp [hnode, hfree, hold]
      · exact Iff.rfl

theorem Stuck.settle (hstuck : s.Stuck broken) (h : s.Shared) (launch : Nat)
    (outcome : LaunchOutcome) : (s.settle launch outcome).Stuck broken := by
  have hadvances : s.Advances (s.settle launch outcome) :=
    h.advances_next (.step (.returned launch outcome))
  rcases s.settle_cases launch outcome with
    hsettle | ⟨node, deadline, entropy, stage, hstarting, -, hfirst, hsettle⟩
  · rw [hsettle]
    exact hstuck
  · rw [hsettle] at hadvances ⊢
    refine hstuck.stage hadvances stage hstarting (fun result heq => by cases heq) ?_ rfl rfl rfl
    rcases hfirst with ⟨a, -, rfl⟩ | ⟨reason, rfl⟩ <;> rfl

/-- A launch that gives its entry up is not stuck, and no other launch had the entry. -/
theorem Stuck.leaving (hstuck : s.Stuck broken) (h : s.Shared) {launch : Nat} {node : NodeId}
    {result : Except Error Assignment} (hadvances : s.Advances s')
    (hr : s.returned.get? launch = some ⟨node, .leaving result⟩)
    (hlaunches : s'.scheduler.launches = s.scheduler.launches)
    (hreturned : s'.returned = s.returned.set launch ⟨node, .closing result⟩)
    (hinFlight : s'.scheduler.inFlight = s.scheduler.inFlight.erase node) : s'.Stuck broken := by
  have hbefore := h.returned launch _ hr
  have hheld := h.holds launch node _ hbefore rfl
  obtain ⟨phase, hlaunch, hphase⟩ := h.unended hr
  obtain ⟨hafter, -, hothers⟩ :=
    progress_stage s' (.closing result) hlaunch hphase hlaunches hreturned
  have hsound : launch ∉ broken := by
    intro hmem
    obtain ⟨node', reason, hended⟩ := hstuck.failed launch hmem
    rw [hbefore] at hended
    cases hended
  refine ⟨hstuck.failed_of_advances hadvances, fun other node' p hp hdone => ?_⟩
  rw [hinFlight, Table.get?_erase]
  by_cases hother : other = launch
  · subst hother
    rw [hafter] at hp
    cases hp
    simp [hsound]
  · rw [(hothers other hother).1] at hp
    rw [← hstuck.held other node' p hp hdone]
    -- the entry that goes was that of the launch, so none of the others loses its own
    split
    · next hnode => simp [hnode, hheld, Ne.symm hother]
    · exact Iff.rfl

theorem Stuck.update (hstuck : s.Stuck broken) (h : s.Shared) {launch : Nat} {r : Returned}
    (hr : s.returned.get? launch = some r) : (s.update launch r).Stuck broken := by
  have hadvances := h.advances_next (.step (.update launch))
  simp only [next, step, hr] at hadvances
  obtain ⟨phase, hlaunch, hphase⟩ := h.unended hr
  rcases r with ⟨node, stage⟩
  cases stage with
  | recording a => exact hstuck.stage hadvances (.watching a) hlaunch hphase rfl rfl rfl rfl
  | watching a => exact hstuck.stage hadvances (.leaving (.ok a)) hlaunch hphase rfl rfl rfl rfl
  | counting cause =>
    exact hstuck.stage hadvances (.leaving (.error cause)) hlaunch hphase rfl rfl rfl rfl
  | leaving result => exact hstuck.leaving h hadvances hr rfl rfl rfl
  | closing result =>
    refine hstuck.frame hadvances (fun other => ?_) rfl
    by_cases hother : other = launch
    · rw [hother]
      intro node' p' hp' hdone
      have hafter : (s.update launch ⟨node, .closing result⟩).progress launch =
          some (node, .ended result) :=
        progress_ended ((Table.get?_set _ _ _ _).trans (if_pos rfl))
      rw [hafter] at hp'
      cases hp'
      exact ⟨_, h.returned launch _ hr, rfl⟩
    · apply Rests.of_eq
      exact progress_congr s _ other ((Table.get?_set _ _ _ _).trans (if_neg hother))
        ((Table.get?_erase _ _ _).trans (if_neg hother))

/-- A launch whose task breaks off gets stuck, and no other one. -/
theorem Stuck.breakOff (hstuck : s.Stuck broken) (h : s.Shared) (launch : Nat) (reason : String) :
    (s.breakOff launch reason).Stuck (broken ++ (s.breaking (.breakOff launch reason)).toList) := by
  have hadvances : s.Advances (s.breakOff launch reason) :=
    h.advances_next (.breakOff launch reason)
  rcases s.breakOff_breaking launch reason with ⟨hnone, hsame⟩ | ⟨hsome, node, hbegun, hclose⟩
  · rw [hnone, hsame, Option.toList_none, List.append_nil]
    exact hstuck
  · have hafter : (s.breakOff launch reason).progress launch =
        some (node, .ended (.error (brokenOffError reason))) := by
      rw [hclose]
      exact progress_ended ((Table.get?_set _ _ _ _).trans (if_pos rfl))
    have hothers : ∀ other, other ≠ launch →
        (s.breakOff launch reason).progress other = s.progress other := by
      intro other hother
      rw [hclose]
      exact progress_congr s _ other ((Table.get?_set _ _ _ _).trans (if_neg hother)) rfl
    have hinFlight : (s.breakOff launch reason).scheduler.inFlight = s.scheduler.inFlight := by
      rw [hclose]
      rfl
    rw [hsome]
    refine ⟨?_, ?_⟩
    · intro other hother
      rcases List.mem_append.1 hother with hother | hother
      · exact hstuck.failed_of_advances hadvances other hother
      · obtain rfl := List.mem_singleton.1 hother
        exact ⟨node, reason, hafter⟩
    · intro other node' p hp hdone
      rw [hinFlight]
      by_cases hother : other = launch
      · subst hother
        rw [hafter] at hp
        cases hp
        simp [h.holds other node .begun hbegun rfl]
      · rw [hothers other hother] at hp
        rw [hstuck.held other node' p hp hdone]
        simp [hother]

theorem stuck_next (h : s.Shared) (hstuck : s.Stuck broken) (op : CallOp) :
    (s.next op).Stuck (broken ++ (s.breaking op).toList) := by
  cases op with
  | breakOff launch reason => exact hstuck.breakOff h launch reason
  | step op =>
    have hadvances := h.advances_next (.step op)
    rw [breaking, Option.toList_none, List.append_nil]
    have hframe : (s.step op).scheduler.launches = s.scheduler.launches →
        (s.step op).returned = s.returned →
        (s.step op).scheduler.inFlight = s.scheduler.inFlight → (s.step op).Stuck broken := by
      intro hlaunches hreturned hinFlight
      refine hstuck.frame hadvances (fun launch => .of_eq ?_) hinFlight
      exact progress_congr s _ launch (by rw [hlaunches]) (by rw [hreturned])
    by_cases hop : ofCallers op = true
    · obtain ⟨asking, clock, joins, lookups, nextCall, hstep⟩ := step_ofCallers s op hop
      apply hframe <;> rw [hstep]
    cases op with
    | enter node =>
      by_cases hasking : node ∈ s.asking
      · rw [next_enter s hasking]
        exact hstuck.enter h node rfl rfl
      · exact hframe (by rw [step, if_neg hasking]) (by rw [step, if_neg hasking])
          (by rw [step, if_neg hasking])
    | begin launch =>
      refine hstuck.frame hadvances (fun other => .of_eq (progress_begin s launch other)) ?_
      rw [next, step]
      rcases s.scheduler.begin_cases s.clock.steady launch with hbegin | ⟨node, -, hbegin⟩ <;>
        rw [hbegin]
    | returned launch outcome => exact hstuck.settle h launch outcome
    | update launch =>
      rw [next, step]
      split
      · next r hr => exact hstuck.update h hr
      · exact hstuck
    | report launch =>
      rw [next, step]
      split
      · exact hstuck.frame (.of_eq rfl) (fun _ => .of_eq rfl) rfl
      · exact hstuck
    | clear launch =>
      apply hframe <;> rw [step] <;> split <;> first | rfl | (rw [Scheduler.exited]; split <;> rfl)
    | _ => exact absurd rfl hop

theorem stuck_runCalls (h : s.Shared) (hstuck : s.Stuck broken) (ops : List CallOp) :
    (s.runCalls ops).Stuck (broken ++ s.brokenOff ops) := by
  induction ops generalizing s broken with
  | nil =>
    rw [brokenOff, List.append_nil]
    exact hstuck
  | cons op ops ih =>
    rw [brokenOff, ← List.append_assoc]
    exact ih (shared_next s h op) (stuck_next h hstuck op)

/-! ## Runs -/

/-- The task of a launch that has ended does not break off. -/
theorem Shared.not_mem_brokenOff (h : s.Shared) (ops : List CallOp) {launch : Nat} {node : NodeId}
    {result : Except Error Assignment} (hended : s.progress launch = some (node, .ended result)) :
    launch ∉ s.brokenOff ops := by
  induction ops generalizing s with
  | nil => exact List.not_mem_nil
  | cons op ops ih =>
    rw [brokenOff, List.mem_append]
    rintro (hmem | hmem)
    · cases op with
      | step op => cases hmem
      | breakOff launch' reason =>
        rcases s.breakOff_breaking launch' reason with ⟨hnone, -⟩ | ⟨hsome, node', hbegun, -⟩
        · rw [hnone] at hmem
          cases hmem
        · rw [hsome] at hmem
          obtain rfl := List.mem_singleton.1 hmem
          rw [hended] at hbegun
          cases hbegun
    · exact ih (shared_next s h op) ((h.advances_next op).ended hended) hmem

/-- The registry has nothing for the node of a launch that ended with an error and is in flight. -/
theorem Shared.vacant_of_failed (h : s.Shared) {launch : Nat} {node : NodeId} {cause : Error}
    (hended : s.progress launch = some (node, .ended (.error cause)))
    (hflight : s.scheduler.inFlight.get? node = some launch) :
    s.scheduler.registry.get? node = none := by
  cases hregistry : s.scheduler.registry.get? node with
  | none => rfl
  | some a =>
    have hrecorded := h.found node launch a hflight hregistry
    rw [(h.backed launch node _ hended).1] at hrecorded
    cases hrecorded

/-- After the end of a launch nothing of it is left in flight, whether its process is up, the
launcher refused or its time was over: callers of its node that find no assignment join a later
launch or start one.  Only a launch whose task broke off stays in flight for ever: it ended with an
error, its node gets no assignment any more, and every caller of the node is told the error of the
launch and starts none. -/
theorem launch_blocks_iff_brokenOff (settings : SchedulerSettings) (clock : Clock)
    (entropy : Entropy) (ops more : List CallOp) (launch : Nat) (node : NodeId)
    (result : Except Error Assignment)
    (hended : ((start settings clock entropy).runCalls ops).scheduler.launches.get? launch =
      some ⟨node, .ended result⟩) :
    let first := start settings clock entropy
    let s := (first.runCalls (ops ++ more)).scheduler
    (launch ∉ first.brokenOff ops →
      (∀ node', s.inFlight.get? node' ≠ some launch) ∧
      (s.registry.get? node = none →
        (s.inFlight.get? node = none → s.StartsLaunch node) ∧
        ∀ later, s.inFlight.get? node = some later →
          later ≠ launch ∧ ∃ s', s.JoinsLaunch node later s')) ∧
    (launch ∈ first.brokenOff ops →
      (∃ reason, result = .error (brokenOffError reason)) ∧
      s.inFlight.get? node = some launch ∧ s.registry.get? node = none ∧
      s.RepeatsResult node result) := by
  intro first s
  have hstart : first.Shared := shared_start settings clock entropy
  have h := shared_runCalls first hstart ops
  have h' := shared_runCalls first hstart (ops ++ more)
  have hprogress := progress_ended hended
  have hprogress' : (first.runCalls (ops ++ more)).progress launch = some (node, .ended result) := by
    rw [runCalls_append]
    exact (h.advances_runCalls more).ended hprogress
  have hlaunch := (progress_ended_iff _ _ _ _).1 hprogress'
  have hstuck := stuck_runCalls hstart (stuck_start settings clock entropy) (ops ++ more)
  -- what breaks off later has not ended by now
  have hbroken : launch ∈ [] ++ first.brokenOff (ops ++ more) ↔ launch ∈ first.brokenOff ops := by
    rw [List.nil_append, brokenOff_append, List.mem_append]
    exact or_iff_left (h.not_mem_brokenOff more hprogress)
  have hflight := (hstuck.held launch node _ hprogress' rfl).trans hbroken
  refine ⟨fun hsound => ?_, fun hmem => ?_⟩
  · have hgone : ∀ node', s.inFlight.get? node' ≠ some launch := by
      intro node' hheld
      obtain rfl := h'.node_of_flight hprogress' hheld
      exact hsound (hflight.1 hheld)
    refine ⟨hgone, fun hvacant => ⟨fun hfree => ?_, fun later hlater => ⟨?_, ?_⟩⟩⟩
    · exact s.startsLaunch_of_free hvacant hfree ((progress_eq_none_iff _ _).1 h'.unused.1)
    · rintro rfl
      exact hgone node hlater
    · obtain ⟨s', hjoins, -⟩ := s.joinsLaunch_of_flight hvacant hlater
      exact ⟨s', hjoins⟩
  · obtain ⟨node', reason, hfailed⟩ := hstuck.failed launch (hbroken.2 hmem)
    rw [hprogress'] at hfailed
    cases hfailed
    have hheld := hflight.2 hmem
    have hvacant := h'.vacant_of_failed hprogress' hheld
    exact ⟨⟨reason, rfl⟩, hheld, hvacant, s.repeatsResult_of_ended hvacant hheld hlaunch⟩

/-- A node whose launch was refused is launched again; a node whose launch broke off is not, even much
later. -/
theorem launched_again_unless_brokenOff :
    let node : NodeId := ⟨List.replicate 32 7, rfl⟩
    let first := start ⟨10, 5⟩ ⟨⟨0, 0⟩, 0⟩ ⟨fun _ => List.replicate 32 1, 0⟩
    let asked := [CallOp.step (.look node node), .step (.enter node), .step (.begin 0)]
    let refused := asked ++ [.step (.returned 0 (.refused (.scheduling "boom"))),
      .step (.update 0), .step (.update 0), .step (.update 0)]
    let broken := asked ++ [.breakOff 0 "task panicked"]
    (first.runCalls (refused ++ [])).scheduler.StartsLaunch node ∧
      (first.runCalls (broken ++ [.step (.advance 1000000)])).scheduler.RepeatsResult node
        (.error (brokenOffError "task panicked")) := by
  intro node first asked refused broken
  obtain ⟨result, hresult⟩ : ∃ result,
      (first.runCalls refused).scheduler.resultOf 0 = some result :=
    Option.isSome_iff_exists.1 (by decide +kernel)
  have hrefused := launch_blocks_iff_brokenOff ⟨10, 5⟩ ⟨⟨0, 0⟩, 0⟩
    ⟨fun _ => List.replicate 32 1, 0⟩ refused [] 0 node result
    (launch_of_result (by decide +kernel) hresult)
  have hbroken := launch_blocks_iff_brokenOff ⟨10, 5⟩ ⟨⟨0, 0⟩, 0⟩
    ⟨fun _ => List.replicate 32 1, 0⟩ broken [.step (.advance 1000000)] 0 node
    (.error (brokenOffError "task panicked")) rfl
  refine ⟨((hrefused.1 (by decide +kernel)).2 (by decide +kernel)).1 (by decide +kernel), ?_⟩
  exact (hbroken.2 (by decide +kernel)).2.2.2

/-- A caller that comes after the end of a launch finds no assignment and no launch under way, and
still starts no launch: the task of the earlier one broke off. -/
theorem ended_launch_in_flight :
    let node : NodeId := ⟨List.replicate 32 7, rfl⟩
    let s := ((start ⟨10, 5⟩ ⟨⟨0, 0⟩, 0⟩ ⟨fun _ => List.replicate 32 1, 0⟩).runCalls
      [.step (.look node node), .step (.enter node), .step (.begin 0),
        .breakOff 0 "task panicked"]).scheduler
    s.launches.get? 0 = some ⟨node, .ended (.error (brokenOffError "task panicked"))⟩ ∧
      s.inFlight.get? node = some 0 ∧ s.registry.get? node = none ∧ ¬s.StartsLaunch node ∧
      s.RepeatsResult node (.error (brokenOffError "task panicked")) := by
  intro node s
  have hended : s.launches.get? 0 =
      some ⟨node, .ended (.error (brokenOffError "task panicked"))⟩ := rfl
  have hflight : s.inFlight.get? node = some 0 := rfl
  have hvacant : s.registry.get? node = none := rfl
  refine ⟨hended, hflight, hvacant, ?_, s.repeatsResult_of_ended hvacant hflight hended⟩
  rintro ⟨s', ⟨hschedule, -, hnew⟩, -⟩
  -- the entry of the node is not one for a new launch
  obtain ⟨s'', ⟨hschedule', -, hold⟩, -⟩ := s.joinsLaunch_of_flight hvacant hflight
  rw [hschedule] at hschedule'
  cases hschedule'
  rw [hold] at hnew
  cases hnew

end SchedulerRun

end SigningGateway
