import SigningGateway.Scheduler.Basic

/-!
# Runs of the scheduler

Callers, launches and the tasks that await the end of a process take their steps in any order.  A
caller first looks into the registry, and later takes the entry of its node among the launches in
flight.  When the launcher is done with a launch, the launch makes its updates one after the other:

    up:       record the assignment, await the end of the process, leave the launches in flight, end
    failed:   count the failure, leave the launches in flight, end

and whatever else happens may fall between any two of them.  Taken in one go the steps are the
operations of the scheduler:

    schedule = look, enter                                                       (schedule_eq)
    finish = returned, update, update, update, update                             (run_finish)
-/

namespace SigningGateway

/-! ## Steps of the scheduler -/

namespace Scheduler

/-- Takes the entry of a node among the launches in flight: joins the launch that is there, or looks
into the registry once more and starts a launch. -/
def enter (s : Scheduler) (node : NodeId) : Scheduled × Scheduler :=
  match s.inFlight.get? node with
  | some launch =>
    let (call, s) := s.join launch
    (.joined call, s)
  | none =>
    match s.registry.get? node with
    | some a => (.running a, s)
    | none =>
      let (launch, s) := s.launchOf node
      let (call, s) := s.join launch
      (.joined call, s)

/-- Records where a process is reached. -/
def record (s : Scheduler) (a : Assignment) : Scheduler :=
  { s with registry := s.registry.record a }

/-- Awaits the end of a process. -/
def watch (s : Scheduler) (launch : Nat) (a : Assignment) : Scheduler :=
  { s with watched := s.watched.set launch a }

/-- Counts a launch that failed. -/
def countFailure (s : Scheduler) : Scheduler := { s with failed := s.failed + 1 }

/-- Takes the launch of a node out of those in flight. -/
def leave (s : Scheduler) (node : NodeId) : Scheduler :=
  { s with inFlight := s.inFlight.erase node }

/-- Lays the result of a launch down. -/
def close (s : Scheduler) (launch : Nat) (node : NodeId) (result : Except Error Assignment) :
    Scheduler :=
  { s with launches := s.launches.set launch ⟨node, .ended result⟩ }

/-- A caller joins a launch or finds an assignment, or starts a launch of a node with neither. -/
theorem enter_cases (s : Scheduler) (node : NodeId) :
    (∃ joins nextCall, (s.enter node).2 = { s with joins, nextCall }) ∨
      s.inFlight.get? node = none ∧ s.registry.get? node = none ∧ ∃ joins nextCall,
        (s.enter node).2 =
          { s with
            joins, nextCall
            inFlight := s.inFlight.set node s.nextLaunch
            launches := s.launches.set s.nextLaunch ⟨node, .ready⟩
            nextLaunch := s.nextLaunch + 1 } := by
  cases hinFlight : s.inFlight.get? node with
  | some launch =>
    simp only [enter, hinFlight]
    exact Or.inl ⟨_, _, rfl⟩
  | none =>
    cases hregistry : s.registry.get? node with
    | some a =>
      simp only [enter, hinFlight, hregistry]
      exact Or.inl ⟨_, _, rfl⟩
    | none =>
      simp only [enter, launchOf, hinFlight, hregistry]
      exact Or.inr ⟨trivial, trivial, _, _, rfl⟩

/-- A caller that enters where nothing runs waits for a launch. -/
theorem enter_vacant (s : Scheduler) {node : NodeId} (h : s.registry.get? node = none) :
    (s.enter node).1 = .joined s.nextCall := by
  cases hinFlight : s.inFlight.get? node with
  | some launch => simp only [enter, join, hinFlight]
  | none => simp only [enter, join, launchOf, hinFlight, h]

/-- Only the first turn of a launch calls the launcher. -/
theorem begin_cases (s : Scheduler) (now launch : Nat) :
    s.begin now launch = s ∨ ∃ node, s.launches.get? launch = some ⟨node, .ready⟩ ∧
      s.begin now launch =
        { s with
          launches := s.launches.set launch ⟨node, .starting (now + s.settings.spawnTimeout)⟩
          started := s.started + 1 } := by
  unfold begin
  split
  · next node hready => exact Or.inr ⟨node, hready, rfl⟩
  · exact Or.inl rfl

/-- Callers of a launch that the launcher refuses are told a scheduling error. -/
theorem refusal_scheduling (cause : Error) : ∃ reason, refusal cause = .scheduling reason := by
  unfold refusal
  split <;> exact ⟨_, rfl⟩

/-- A caller that looks and enters at once asks for the process. -/
theorem schedule_eq (s : Scheduler) (caller node : NodeId) :
    s.schedule caller node = (authorize caller node).bind fun _ =>
      match s.registry.get? node with
      | some a => .ok (.running a, s)
      | none => .ok (s.enter node) := by
  cases hcaller : authorize caller node with
  | error cause => simp only [schedule, hcaller, bind, Except.bind]
  | ok _ =>
    simp only [schedule, hcaller, bind, Except.bind, pure, Except.pure]
    cases hregistry : s.registry.get? node with
    | some a => rfl
    | none =>
      cases hlaunch : s.inFlight.get? node with
      | some launch => simp only [enter, launchOf, hlaunch]
      | none => simp only [enter, launchOf, hlaunch, hregistry]

end Scheduler

/-! ## Runs -/

/-- What a launch has to do next, once the launcher is done with it. -/
inductive Stage
  | recording (a : Assignment)
  | watching (a : Assignment)
  | counting (cause : Error)
  | leaving (result : Except Error Assignment)
  | closing (result : Except Error Assignment)

/-- A launch with which the launcher is done. -/
structure Returned where
  node : NodeId
  stage : Stage

/-- A step of a caller, a launch or another task, or of the world outside. -/
inductive SchedulerOp
  | look (caller node : NodeId)
  | enter (node : NodeId)
  | locate (caller node : NodeId) (wait : Bool)
  | pollJoin (call : Nat)
  | dropJoin (call : Nat)
  | pollLookup (call : Nat)
  | dropLookup (call : Nat)
  /-- The first turn of a launch: it calls the launcher. -/
  | begin (launch : Nat)
  /-- The call of the launcher is over. -/
  | returned (launch : Nat) (outcome : LaunchOutcome)
  /-- The next update of a launch with which the launcher is done. -/
  | update (launch : Nat)
  /-- The end of the process of a launch is reported. -/
  | report (launch : Nat)
  /-- The task that awaits the end of a process gets its turn. -/
  | clear (launch : Nat)
  | advance (duration : Nat)

/-- A scheduler with its clocks and its source of random bytes, the callers between their two looks,
the launches with which the launcher is done, and the record of the assignments made and of the
ends reported. -/
structure SchedulerRun where
  scheduler : Scheduler
  clock : Clock
  entropy : Entropy
  asking : List NodeId
  returned : Table Nat Returned
  recorded : List (Nat × Assignment)
  reported : List Nat

namespace SchedulerRun

def start (settings : SchedulerSettings) (clock : Clock) (entropy : Entropy) : SchedulerRun :=
  ⟨.start settings, clock, entropy, [], .empty, [], []⟩

/-- The launcher is done with a launch at which it was at work.  It is late only if the time of the
launch is over. -/
def settle (s : SchedulerRun) (launch : Nat) (outcome : LaunchOutcome) : SchedulerRun :=
  match s.scheduler.launches.get? launch, s.returned.get? launch with
  | some ⟨node, .starting deadline⟩, none =>
    match outcome with
    | .up endpoint =>
      let (random, entropy) := s.entropy.draw 16
      let a : Assignment := ⟨node, endpoint, Uuid.ofRandom random, s.clock.wall⟩
      { s with entropy, returned := s.returned.set launch ⟨node, .recording a⟩ }
    | .refused cause =>
      { s with returned := s.returned.set launch ⟨node, .counting (Scheduler.refusal cause)⟩ }
    | .late =>
      if deadline ≤ s.clock.steady then
        { s with
          returned := s.returned.set launch
            ⟨node, .counting (Scheduler.lateError s.scheduler.settings)⟩ }
      else s
  | _, _ => s

/-- Makes the next update of a launch. -/
def update (s : SchedulerRun) (launch : Nat) (r : Returned) : SchedulerRun :=
  match r.stage with
  | .recording a =>
    { s with
      scheduler := s.scheduler.record a
      returned := s.returned.set launch ⟨r.node, .watching a⟩
      recorded := s.recorded ++ [(launch, a)] }
  | .watching a =>
    { s with
      scheduler := s.scheduler.watch launch a
      returned := s.returned.set launch ⟨r.node, .leaving (.ok a)⟩ }
  | .counting cause =>
    { s with
      scheduler := s.scheduler.countFailure
      returned := s.returned.set launch ⟨r.node, .leaving (.error cause)⟩ }
  | .leaving result =>
    { s with
      scheduler := s.scheduler.leave r.node
      returned := s.returned.set launch ⟨r.node, .closing result⟩ }
  | .closing result =>
    { s with
      scheduler := s.scheduler.close launch r.node result
      returned := s.returned.erase launch }

/-- Whether a launch has brought a process up whose end was not seen yet. -/
def hasProcess (s : SchedulerRun) (launch : Nat) : Bool :=
  match s.returned.get? launch with
  | some ⟨_, .recording _⟩ | some ⟨_, .watching _⟩ => true
  | _ => s.scheduler.watched.contains launch

def step (s : SchedulerRun) : SchedulerOp → SchedulerRun
  | .look caller node =>
    match Scheduler.authorize caller node, s.scheduler.registry.get? node with
    | .ok (), none => { s with asking := s.asking ++ [node] }
    | _, _ => s
  | .enter node =>
    if node ∈ s.asking then
      { s with asking := s.asking.erase node, scheduler := (s.scheduler.enter node).2 }
    else s
  | .locate caller node wait =>
    match s.scheduler.locate s.clock.steady caller node wait with
    | .ok (_, scheduler) => { s with scheduler }
    | .error _ => s
  | .pollJoin call => { s with scheduler := (s.scheduler.pollJoin call).2 }
  | .dropJoin call => { s with scheduler := s.scheduler.dropJoin call }
  | .pollLookup call => { s with scheduler := (s.scheduler.pollLookup s.clock.steady call).2 }
  | .dropLookup call => { s with scheduler := s.scheduler.dropLookup call }
  | .begin launch => { s with scheduler := s.scheduler.begin s.clock.steady launch }
  | .returned launch outcome => s.settle launch outcome
  | .update launch =>
    match s.returned.get? launch with
    | some r => s.update launch r
    | none => s
  | .report launch =>
    if s.hasProcess launch then { s with reported := s.reported ++ [launch] } else s
  | .clear launch =>
    if launch ∈ s.reported then { s with scheduler := s.scheduler.exited launch } else s
  | .advance duration => { s with clock := s.clock.advance duration }

def run (s : SchedulerRun) (ops : List SchedulerOp) : SchedulerRun := ops.foldl step s

/-! ## Lemmas -/

@[simp] theorem run_nil (s : SchedulerRun) : s.run [] = s := rfl

@[simp] theorem run_cons (s : SchedulerRun) (op : SchedulerOp) (ops : List SchedulerOp) :
    s.run (op :: ops) = (s.step op).run ops := rfl

theorem run_append (s : SchedulerRun) (ops more : List SchedulerOp) :
    s.run (ops ++ more) = (s.run ops).run more := by
  simp [run]

/-- The steps that concern callers that wait, and the clocks. -/
def ofCallers : SchedulerOp → Bool
  | .look _ _ | .locate _ _ _ | .pollJoin _ | .dropJoin _ | .pollLookup _ | .dropLookup _
  | .advance _ => true
  | _ => false

/-- Steps of callers that wait change nothing but who waits and what time it is. -/
theorem step_ofCallers (s : SchedulerRun) (op : SchedulerOp) (hop : ofCallers op = true) :
    ∃ asking clock joins lookups nextCall, s.step op =
      { s with asking, clock, scheduler := { s.scheduler with joins, lookups, nextCall } } := by
  cases op with
  | look caller node =>
    rw [step]
    split
    · exact ⟨_, _, _, _, _, rfl⟩
    · exact ⟨_, _, _, _, _, rfl⟩
  | locate caller node wait =>
    simp only [step, Scheduler.locate]
    cases Scheduler.authorize caller node with
    | error cause => exact ⟨_, _, _, _, _, rfl⟩
    | ok _ => cases wait <;> exact ⟨_, _, _, _, _, rfl⟩
  | pollJoin call =>
    simp only [step, Scheduler.pollJoin]
    split
    · exact ⟨_, _, _, _, _, rfl⟩
    · split <;> exact ⟨_, _, _, _, _, rfl⟩
  | pollLookup call =>
    simp only [step, Scheduler.pollLookup]
    split
    · exact ⟨_, _, _, _, _, rfl⟩
    · split
      · exact ⟨_, _, _, _, _, rfl⟩
      · split <;> exact ⟨_, _, _, _, _, rfl⟩
  | dropJoin call => exact ⟨_, _, _, _, _, rfl⟩
  | dropLookup call => exact ⟨_, _, _, _, _, rfl⟩
  | advance duration => exact ⟨_, _, _, _, _, rfl⟩
  | _ => cases hop

/-- The launcher is done with a launch at which it was at work; an assignment is one of its node,
and a failure is a scheduling error. -/
theorem settle_cases (s : SchedulerRun) (launch : Nat) (outcome : LaunchOutcome) :
    s.settle launch outcome = s ∨ ∃ node deadline entropy stage,
      s.scheduler.launches.get? launch = some ⟨node, .starting deadline⟩ ∧
      s.returned.get? launch = none ∧
      ((∃ a : Assignment, a.node = node ∧ stage = .recording a) ∨
        ∃ reason, stage = .counting (.scheduling reason)) ∧
      s.settle launch outcome =
        { s with entropy, returned := s.returned.set launch ⟨node, stage⟩ } := by
  unfold settle
  split
  · next node deadline hstarting hnone =>
    cases outcome with
    | up endpoint =>
      exact Or.inr ⟨node, deadline, _, _, hstarting, hnone, Or.inl ⟨_, rfl, rfl⟩, rfl⟩
    | refused cause =>
      obtain ⟨reason, hreason⟩ := Scheduler.refusal_scheduling cause
      exact Or.inr ⟨node, deadline, s.entropy, .counting (Scheduler.refusal cause), hstarting,
        hnone, Or.inr ⟨reason, congrArg Stage.counting hreason⟩, rfl⟩
    | late =>
      by_cases hlate : deadline ≤ s.clock.steady
      · simp only [if_pos hlate]
        exact Or.inr ⟨node, deadline, s.entropy, _, hstarting, hnone, Or.inr ⟨_, rfl⟩, rfl⟩
      · simp only [if_neg hlate, true_or]
  · exact Or.inl rfl

/-- What was recorded stays recorded. -/
theorem recorded_step (s : SchedulerRun) (op : SchedulerOp) :
    s.recorded <+: (s.step op).recorded := by
  by_cases hop : ofCallers op = true
  · obtain ⟨asking, clock, joins, lookups, nextCall, hstep⟩ := step_ofCallers s op hop
    have hsame : (s.step op).recorded = s.recorded := by rw [hstep]
    exact hsame ▸ List.prefix_rfl
  cases op with
  | returned launch outcome =>
    have hsame : (s.step (.returned launch outcome)).recorded = s.recorded := by
      rw [step]
      rcases s.settle_cases launch outcome with
        hsettle | ⟨node, deadline, entropy, stage, -, -, -, hsettle⟩ <;> rw [hsettle]
    exact hsame ▸ List.prefix_rfl
  | update launch =>
    rw [step]
    split
    · next r hr =>
      rcases r with ⟨node, stage⟩
      cases stage with
      | recording a => exact List.prefix_append _ _
      | _ => exact List.prefix_rfl
    · exact List.prefix_rfl
  | begin launch => exact List.prefix_rfl
  | enter node =>
    rw [step]
    split <;> exact List.prefix_rfl
  | report launch =>
    rw [step]
    split <;> exact List.prefix_rfl
  | clear launch =>
    rw [step]
    split <;> exact List.prefix_rfl
  | _ => exact absurd rfl hop

/-- A launch that makes all its updates at once is finished. -/
theorem run_finish (s : SchedulerRun) (launch : Nat) (node : NodeId) (deadline : Nat)
    (hstarting : s.scheduler.launches.get? launch = some ⟨node, .starting deadline⟩)
    (hopen : s.returned.get? launch = none) (outcome : LaunchOutcome)
    (hlate : outcome = .late → deadline ≤ s.clock.steady) :
    (s.run [.returned launch outcome, .update launch, .update launch, .update launch,
        .update launch]).scheduler =
      (s.scheduler.finish s.clock.wall launch outcome s.entropy).1 := by
  cases outcome with
  | up endpoint =>
    simp only [run_cons, run_nil, step, settle, hstarting, hopen, update, Table.get?_set, if_true,
      Scheduler.finish]
    rfl
  | refused cause =>
    simp only [run_cons, run_nil, step, settle, hstarting, hopen, update, Table.get?_set,
      Table.get?_erase, if_true, Scheduler.finish]
    rfl
  | late =>
    simp only [run_cons, run_nil, step, settle, hstarting, hopen, hlate rfl, update, Table.get?_set,
      Table.get?_erase, if_true, Scheduler.finish]
    rfl

end SchedulerRun

end SigningGateway
