import SigningGateway.Api.Gateway
import SigningGateway.Operation.Plan

/-!
# The gateway in operation

A gateway with its clock, its randomness, a launcher that follows plans, and everybody who waits.
Calls and launches get turns one after the other; whatever a turn changes gives further turns to
those who wait for it.  Time stands still during the turns and is moved on by hand: then the timers
that have come due give turns in the order of their times.
-/

namespace SigningGateway

/-- Who gets a turn. -/
inductive Turn
  | call (n : Nat)
  | launch (n : Nat)
  /-- The end of the process of a launch is noticed. -/
  | exit (launch : Nat)
  deriving DecidableEq, Repr

/-- Gives a turn when its time has come. -/
structure Timer where
  due : Nat
  turn : Turn

/-- A launch at which the launcher is at work. -/
structure PlannedLaunch where
  readyAt : Nat
  deadline : Nat
  outcome : LaunchOutcome

/-- What a call asks the scheduler. -/
inductive Question
  | schedule
  | locate (wait : Bool)

/-- How far a call has come. -/
inductive CallState
  /-- The call has not had its first turn. -/
  | fresh (question : Question) (caller node : NodeId)
  | scheduling (ticket : Nat)
  | locating (node : NodeId) (ticket : Nat)

inductive CallEnd
  | scheduled (r : Except Error Assignment)
  | located (node : NodeId) (r : Except Error (Option Assignment))

def CallEnd.reply : CallEnd → HttpReply
  | .scheduled r => Gateway.scheduleReply r
  | .located node (.ok a) => Gateway.locateReply node a
  | .located _ (.error cause) => .refusal cause

/-- One end of a WebSocket. -/
inductive Socket
  | node (s : NodeSocket)
  | signer (s : SignerSocket)

/-- What the other end of a WebSocket is sent. -/
inductive Delivery
  | toNode (frame : RelayFrame)
  | toSigner (frame : SignerFrame)
  | close

structure Operation where
  gateway : Gateway
  clock : Clock
  entropy : Entropy
  plans : LaunchPlans
  working : Table Nat PlannedLaunch
  calls : Table Nat CallState
  sockets : Table Nat Socket
  turns : List Turn
  /-- The timers in the order in which they were set. -/
  timers : List Timer
  /-- The calls that ended and were not taken yet. -/
  ended : List (Nat × CallEnd)
  /-- What was sent to sockets and not taken yet. -/
  delivered : List (Nat × Delivery)
  /-- The number of the next call or socket. -/
  next : Nat

namespace Operation

def start (gateway : Gateway) (clock : Clock) (entropy : Entropy) (plans : LaunchPlans) :
    Operation :=
  ⟨gateway, clock, entropy, plans, .empty, .empty, .empty, [], [], [], [], 0⟩

def now (o : Operation) : Nat := o.clock.steady

def scheduler (o : Operation) : Scheduler := o.gateway.scheduler

/-! ## Turns and timers -/

/-- Gives a turn, unless it was given already. -/
def wake (o : Operation) (t : Turn) : Operation :=
  if t ∈ o.turns then o else { o with turns := o.turns ++ [t] }

def wakeAll (o : Operation) (ts : List Turn) : Operation := ts.foldl wake o

def setTimer (o : Operation) (due : Nat) (turn : Turn) : Operation :=
  { o with timers := o.timers ++ [⟨due, turn⟩] }

/-- Takes over what became of the scheduler; launches that are new get their first turn. -/
def adopt (o : Operation) (scheduler : Scheduler) : Operation :=
  let new := (List.range scheduler.nextLaunch).drop o.scheduler.nextLaunch
  { o with gateway := { o.gateway with scheduler } }.wakeAll (new.map .launch)

/-- The calls in a state that passes a test. -/
def callsWhere (o : Operation) (p : CallState → Bool) : List Turn :=
  (o.calls.entries.filter fun c => p c.2).map fun c => .call c.1

def isLocating (node : NodeId) : CallState → Bool
  | .locating n _ => n = node
  | _ => false

def hasJoined (s : Scheduler) (launch : Nat) : CallState → Bool
  | .scheduling ticket => s.joins.get? ticket = some launch
  | _ => false

/-! ## Calls -/

def finish (o : Operation) (n : Nat) (result : CallEnd) : Operation :=
  { o with calls := o.calls.erase n, ended := o.ended ++ [(n, result)] }

def pollCall (o : Operation) (n : Nat) : Operation :=
  match o.calls.get? n with
  | some (.scheduling ticket) =>
    match o.scheduler.pollJoin ticket with
    | (some r, scheduler) => (o.adopt scheduler).finish n (.scheduled r)
    | (none, _) => o
  | some (.locating node ticket) =>
    match o.scheduler.pollLookup o.now ticket with
    | (some a, scheduler) => (o.adopt scheduler).finish n (.located node (.ok a))
    | (none, _) => o
  | _ => o

/-- Has a call wait for a launch. -/
def awaitLaunch (o : Operation) (n ticket : Nat) : Operation :=
  { o with calls := o.calls.set n (.scheduling ticket) }.pollCall n

/-- Has a call wait for a process of a node to run. -/
def awaitProcess (o : Operation) (n : Nat) (node : NodeId) (ticket : Nat) : Operation :=
  { o with calls := o.calls.set n (.locating node ticket) }.setTimer
    (o.now + o.scheduler.settings.maxWait) (.call n) |>.pollCall n

/-- The first turn of a call. -/
def ask (o : Operation) (n : Nat) (caller node : NodeId) : Question → Operation
  | .schedule =>
    match o.scheduler.schedule caller node with
    | .error cause => o.finish n (.scheduled (.error cause))
    | .ok (.running a, _) => o.finish n (.scheduled (.ok a))
    | .ok (.joined ticket, scheduler) => (o.adopt scheduler).awaitLaunch n ticket
  | .locate wait =>
    match o.scheduler.locate o.now caller node wait with
    | .error cause => o.finish n (.located node (.error cause))
    | .ok (.found a, _) => o.finish n (.located node (.ok a))
    | .ok (.waiting ticket, scheduler) => (o.adopt scheduler).awaitProcess n node ticket

/-! ## Launches -/

/-- Gives turns to those who wait for a process of a node, if one runs. -/
def wakeLookups (o : Operation) (node : NodeId) : Operation :=
  if (o.scheduler.registry.get? node).isSome then o.wakeAll (o.callsWhere (isLocating node)) else o

/-- What becomes of a launch when the launcher is done with it.  The assignment of a process that is
up names its instance and the present time; where the clock cannot tell the time, the task of the
launch breaks off. -/
def concludeLaunch (o : Operation) (launch : Nat) : LaunchOutcome → Scheduler × Entropy
  | .up endpoint =>
    if o.clock.wall.isPresent then
      o.scheduler.finish o.clock.wall launch (.up endpoint) o.entropy
    else (o.scheduler.breakOff launch "task panicked", (o.entropy.draw 16).2)
  | outcome => o.scheduler.finish o.clock.wall launch outcome o.entropy

/-- Ends a launch and gives turns to all who wait for it. -/
def endLaunch (o : Operation) (launch : Nat) (outcome : LaunchOutcome) : Operation :=
  let (scheduler, entropy) := o.concludeLaunch launch outcome
  let o := { o with entropy, working := o.working.erase launch }.adopt scheduler
  let o :=
    match scheduler.launches.get? launch with
    | some l => o.wakeLookups l.node
    | none => o
  o.wakeAll (o.callsWhere (hasJoined scheduler launch))

/-- Ends a launch if it is due; a process that is up counts even when the time is over. -/
def checkLaunch (o : Operation) (launch : Nat) : Operation :=
  match o.working.get? launch with
  | none => o
  | some w =>
    if w.readyAt ≤ o.now then o.endLaunch launch w.outcome
    else if w.deadline ≤ o.now then o.endLaunch launch .late
    else o

/-- The first turn of a launch: it goes on as the next plan of its node says. -/
def beginLaunch (o : Operation) (launch : Nat) (node : NodeId) : Operation :=
  let (plan, plans) := takePlan o.plans node
  let readyAt := o.now + plan.delay
  let deadline := o.now + o.scheduler.settings.spawnTimeout
  let planned : PlannedLaunch := ⟨readyAt, deadline, plan.outcome node launch⟩
  { o with plans, working := o.working.set launch planned }.adopt (o.scheduler.begin o.now launch)
    |>.setTimer readyAt (.launch launch) |>.setTimer deadline (.launch launch)
    |>.checkLaunch launch

/-! ## Running -/

def run (o : Operation) : Turn → Operation
  | .call n =>
    match o.calls.get? n with
    | some (.fresh question caller node) => o.ask n caller node question
    | _ => o.pollCall n
  | .launch n =>
    match o.scheduler.launches.get? n with
    | some ⟨node, .ready⟩ => o.beginLaunch n node
    | _ => o.checkLaunch n
  | .exit n => o.adopt (o.scheduler.exited n)

/-- Runs at most so many turns, as long as there are any. -/
def runTurns : Nat → Operation → Operation
  | 0, o => o
  | fuel + 1, o =>
    match o.turns with
    | [] => o
    | t :: rest => runTurns fuel ({ o with turns := rest }.run t)

/-- More turns than there can be before all is quiet: each turn that is due, the first turn of a
launch for each call, and for each launch that ends a turn of each call. -/
def turnLimit (o : Operation) : Nat :=
  let waiting := o.turns.length + o.calls.size + o.working.size + o.scheduler.inFlight.size + 1
  waiting * waiting

def flushSocket (o : Operation) (n : Nat) : Socket → Operation
  | .node s =>
    let (frames, s, relay) := s.collect o.gateway.relay o.now
    { o with
      gateway := { o.gateway with relay }
      sockets := o.sockets.modify n fun _ => .node s
      delivered := o.delivered ++ frames.map fun f => (n, .toNode f) }
  | .signer s =>
    let (frames, relay) := s.collect o.gateway.relay
    { o with
      gateway := { o.gateway with relay }
      delivered := o.delivered ++ frames.map fun f => (n, .toSigner f) }

def flush (o : Operation) : Operation :=
  o.sockets.entries.foldl (fun o s => o.flushSocket s.1 s.2) o

/-- Runs turns until all is quiet. -/
def settle (o : Operation) : Operation := (runTurns o.turnLimit o).flush

/-- Gives turns to the timers that have come due, in the order of their times. -/
def fireTimers (o : Operation) : Operation :=
  let due := (o.timers.filter fun t => t.due ≤ o.now).mergeSort fun a b => a.due ≤ b.due
  { o with timers := o.timers.filter fun t => !(t.due ≤ o.now) }.wakeAll (due.map Timer.turn)

/-- Moves the clocks on; then everything that has come due gets its turn. -/
def advance (o : Operation) (duration : Nat) : Operation :=
  { o with clock := o.clock.advance duration }.settle.fireTimers.settle

/-! ## From outside -/

/-- Enters a call, which gets its turn when the operation settles. -/
def enter (o : Operation) (question : Question) (caller node : NodeId) : Nat × Operation :=
  (o.next,
    { o with
      calls := o.calls.set o.next (.fresh question caller node)
      next := o.next + 1 }.wake (.call o.next))

/-- Gives a call up, and tells whether it was under way. -/
def giveUp (o : Operation) (n : Nat) : Bool × Operation :=
  let o' := { o with calls := o.calls.erase n }
  match o.calls.get? n with
  | none => (false, o)
  | some (.fresh ..) => (true, o')
  | some (.scheduling ticket) => (true, o'.adopt (o.scheduler.dropJoin ticket))
  | some (.locating _ ticket) => (true, o'.adopt (o.scheduler.dropLookup ticket))

/-- Ends the process of a launch, and tells whether its end was awaited. -/
def exit (o : Operation) (launch : Nat) : Bool × Operation :=
  if o.scheduler.watched.contains launch then (true, o.wake (.exit launch)) else (false, o)

def record (o : Operation) (a : Assignment) : Operation :=
  o.adopt { o.scheduler with registry := o.scheduler.registry.record a } |>.wakeLookups a.node

def clear (o : Operation) (node : NodeId) (instanceId : Uuid) : Bool × Operation :=
  let (cleared, registry) := o.scheduler.registry.clear node instanceId
  (cleared, o.adopt { o.scheduler with registry })

def issueNodeCredential (o : Operation) (node : NodeId) : Except Error Bundle × Operation :=
  let ((result, auth), entropy) :=
    o.gateway.auth.issueNodeCredential o.clock none node o.entropy
  (result, { o with entropy, gateway := { o.gateway with auth } })

def sweep (o : Operation) : Nat × Operation :=
  let (count, relay) := o.gateway.relay.sweep o.now
  (count, { o with gateway := { o.gateway with relay } })

/-- Takes what ended and what was sent since the last time. -/
def takeNews (o : Operation) :
    (List (Nat × CallEnd) × List (Nat × Delivery)) × Operation :=
  ((o.ended, o.delivered), { o with ended := [], delivered := [] })

end Operation

end SigningGateway
