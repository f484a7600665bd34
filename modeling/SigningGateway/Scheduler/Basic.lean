import SigningGateway.Entropy
import SigningGateway.Scheduler.Registry
import SigningGateway.Time.Clock
import SigningGateway.Time.Duration

/-!
# The scheduler

The scheduler starts the process of a node when somebody asks for it.  All who ask for one node
while it is being started join the same launch and get the same answer; the launch goes on even if
none of them waits any longer.  Others ask where a process runs and may wait until one does.

What happens to a launch comes from outside: its turn to start (`begin`), what the launcher made of
it (`finish`), its time limit (`expire`), the end of its process (`exited`).  Launches are known by
numbers in the order in which they were asked for, waiting callers by numbers of their own.
-/

namespace SigningGateway

structure SchedulerSettings where
  /-- How long a process may take to come up. -/
  spawnTimeout : Nat := 30000
  /-- How long a caller waits for a process to run. -/
  maxWait : Nat := 60000

/-- How far a launch has come. -/
inductive LaunchPhase
  /-- The launch has not had its first turn. -/
  | ready
  /-- The launcher is at work, until the deadline. -/
  | starting (deadline : Nat)
  | ended (result : Except Error Assignment)

/-- A launch of a node. -/
structure Launch where
  node : NodeId
  phase : LaunchPhase

/-- A caller that waits for a process of a node. -/
structure Lookup where
  node : NodeId
  deadline : Nat

/-- What the launcher made of a launch. -/
inductive LaunchOutcome
  /-- The process is up and reached at the endpoint. -/
  | up (endpoint : String)
  | refused (cause : Error)
  /-- The process did not come up in time. -/
  | late

/-- The answer to a caller that asks for a process, or the number under which it waits. -/
inductive Scheduled
  | running (a : Assignment)
  | joined (call : Nat)

/-- The answer to a caller that asks where a process runs, or the number under which it waits. -/
inductive Located
  | found (a : Option Assignment)
  | waiting (call : Nat)

structure SchedulerStats where
  assignments : Nat
  launchesInFlight : Nat
  launchesStarted : Nat
  launchesFailed : Nat
  deriving DecidableEq, Repr

/-- The state of the scheduler.  The launches that started and failed are counted in 64 bits, which
one launch in each nanosecond would use up in 584 years; the counts are taken as numbers without a
bound here.  The numbers of launches and callers only tell them apart. -/
structure Scheduler where
  settings : SchedulerSettings
  registry : Registry
  /-- The launch that callers of a node join. -/
  inFlight : Table NodeId Nat
  /-- All launches; an ended one keeps its result for the callers that joined it. -/
  launches : Table Nat Launch
  /-- The processes whose end is awaited, by launch, with what they were assigned to. -/
  watched : Table Nat Assignment
  /-- The callers that wait for a launch. -/
  joins : Table Nat Nat
  /-- The callers that wait for a process to run. -/
  lookups : Table Nat Lookup
  /-- The launches that had their first turn. -/
  started : Nat
  failed : Nat
  nextLaunch : Nat
  nextCall : Nat

namespace Scheduler

def start (settings : SchedulerSettings) : Scheduler :=
  ⟨settings, .empty, .empty, .empty, .empty, .empty, .empty, 0, 0, 0, 0⟩

/-! ## Asking for a process -/

/-- A credential opens only the process of its own node. -/
def authorize (caller node : NodeId) : Except Error Unit :=
  if caller = node then .ok ()
  else .error (.unauthenticated "credential does not belong to the requested node")

/-- The launch in flight for a node; a new one if there is none. -/
def launchOf (s : Scheduler) (node : NodeId) : Nat × Scheduler :=
  match s.inFlight.get? node with
  | some launch => (launch, s)
  | none =>
    (s.nextLaunch,
      { s with
        inFlight := s.inFlight.set node s.nextLaunch
        launches := s.launches.set s.nextLaunch ⟨node, .ready⟩
        nextLaunch := s.nextLaunch + 1 })

/-- Has a caller wait for a launch. -/
def join (s : Scheduler) (launch : Nat) : Nat × Scheduler :=
  (s.nextCall, { s with joins := s.joins.set s.nextCall launch, nextCall := s.nextCall + 1 })

/-- Asks for the process of a node: the one that runs, or a launch. -/
def schedule (s : Scheduler) (caller node : NodeId) : Except Error (Scheduled × Scheduler) := do
  authorize caller node
  match s.registry.get? node with
  | some a => return (.running a, s)
  | none =>
    let (launch, s) := s.launchOf node
    let (call, s) := s.join launch
    return (.joined call, s)

/-- Looks whether the launch of a caller has ended; the answer is given once. -/
def pollJoin (s : Scheduler) (call : Nat) : Option (Except Error Assignment) × Scheduler :=
  match s.joins.get? call with
  | none => (none, s)
  | some launch =>
    match s.launches.get? launch with
    | some ⟨_, .ended result⟩ => (some result, { s with joins := s.joins.erase call })
    | _ => (none, s)

/-- A caller waits no longer for its launch. -/
def dropJoin (s : Scheduler) (call : Nat) : Scheduler := { s with joins := s.joins.erase call }

/-! ## Asking where a process runs -/

/-- Asks where the process of a node runs, and waits for one if told so. -/
def locate (s : Scheduler) (now : Nat) (caller node : NodeId) (wait : Bool) :
    Except Error (Located × Scheduler) := do
  authorize caller node
  if wait then
    return (.waiting s.nextCall,
      { s with
        lookups := s.lookups.set s.nextCall ⟨node, now + s.settings.maxWait⟩
        nextCall := s.nextCall + 1 })
  else return (.found (s.registry.get? node), s)

/-- Looks whether a process runs or the time of a waiting caller is over; the answer is given once.
A process that runs counts even when the time is over. -/
def pollLookup (s : Scheduler) (now : Nat) (call : Nat) :
    Option (Option Assignment) × Scheduler :=
  match s.lookups.get? call with
  | none => (none, s)
  | some l =>
    match s.registry.get? l.node with
    | some a => (some (some a), { s with lookups := s.lookups.erase call })
    | none =>
      if l.deadline ≤ now then (some none, { s with lookups := s.lookups.erase call })
      else (none, s)

def dropLookup (s : Scheduler) (call : Nat) : Scheduler :=
  { s with lookups := s.lookups.erase call }

/-! ## Launches -/

/-- The first turn of a launch: from now on the launcher is at work. -/
def begin (s : Scheduler) (now : Nat) (launch : Nat) : Scheduler :=
  match s.launches.get? launch with
  | some ⟨node, .ready⟩ =>
    { s with
      launches := s.launches.set launch ⟨node, .starting (now + s.settings.spawnTimeout)⟩
      started := s.started + 1 }
  | _ => s

/-- Ends a launch: its result is kept, and the next caller of its node starts another one. -/
def conclude (s : Scheduler) (launch : Nat) (node : NodeId) (result : Except Error Assignment) :
    Scheduler :=
  { s with
    launches := s.launches.set launch ⟨node, .ended result⟩
    inFlight := s.inFlight.erase node }

def fail (s : Scheduler) (launch : Nat) (node : NodeId) (cause : Error) : Scheduler :=
  { s.conclude launch node (.error cause) with failed := s.failed + 1 }

/-- Ends a launch whose process is up: records where it is reached and awaits its end. -/
def succeed (s : Scheduler) (launch : Nat) (a : Assignment) : Scheduler :=
  { s.conclude launch a.node (.ok a) with
    registry := s.registry.record a
    watched := s.watched.set launch a }

/-- What callers are told when the launcher refuses. -/
def refusal : Error → Error
  | .scheduling reason => .scheduling reason
  | cause => .scheduling cause.message

/-- What callers are told when a process does not come up in time. -/
def lateError (settings : SchedulerSettings) : Error :=
  .scheduling ("node did not start within " ++ Duration.formatMillis settings.spawnTimeout)

/-- Ends a launch at which the launcher is at work. -/
def finish (s : Scheduler) (now : Moment) (launch : Nat) (outcome : LaunchOutcome) (e : Entropy) :
    Scheduler × Entropy :=
  match s.launches.get? launch with
  | some ⟨node, .starting _⟩ =>
    match outcome with
    | .up endpoint =>
      let (random, e) := e.draw 16
      (s.succeed launch ⟨node, endpoint, Uuid.ofRandom random, now⟩, e)
    | .refused cause => (s.fail launch node (refusal cause), e)
    | .late => (s.fail launch node (lateError s.settings), e)
  | _ => (s, e)

/-- The task of a launch broke off.  Its callers are told, and the launch stays in flight. -/
def breakOff (s : Scheduler) (launch : Nat) (reason : String) : Scheduler :=
  match s.launches.get? launch with
  | none | some ⟨_, .ended _⟩ => s
  | some ⟨node, _⟩ =>
    { s with
      launches := s.launches.set launch
        ⟨node, .ended (.error (.scheduling ("launch task failed: " ++ reason)))⟩ }

/-- The process of a launch ended: its assignment is cleared if it is still the current one. -/
def exited (s : Scheduler) (launch : Nat) : Scheduler :=
  match s.watched.get? launch with
  | none => s
  | some a =>
    { s with
      registry := (s.registry.clear a.node a.instanceId).2
      watched := s.watched.erase launch }

/-! ## Counts -/

def stats (s : Scheduler) : SchedulerStats :=
  ⟨s.registry.size, s.inFlight.size, s.started, s.failed⟩

end Scheduler

end SigningGateway
