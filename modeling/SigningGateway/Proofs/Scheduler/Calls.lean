import SigningGateway.Proofs.Scheduler.Run

/-!
# Runs as callers see them

The steps of a scheduler with what they answer to callers.  A call for the process of a node returns
an assignment that it finds, or joins the launch in flight and returns when a poll finds the result
of the launch.  The task of a launch may break off until the launcher is done with the launch.

    runCalls s (ops ++ more) = runCalls (runCalls s ops) more                  (runCalls_append)
    a caller that is given up changes nothing but who waits                     (Agree.runCalls)
-/

namespace SigningGateway

/-- What happens to a scheduler: a step, or the end of the task of a launch. -/
inductive CallOp
  | step (op : SchedulerOp)
  /-- The task of a launch breaks off before the launcher is done with the launch. -/
  | breakOff (launch : Nat) (reason : String)

/-- What a call for the process of a node gets. -/
inductive CallAnswer
  | silent
  /-- The call waits for a launch under a number. -/
  | joined (call : Nat)
  | returned (value : Except Error Assignment)

/-- The result of a launch, once it has ended. -/
def Scheduler.resultOf (s : Scheduler) (launch : Nat) : Option (Except Error Assignment) :=
  match s.launches.get? launch with
  | some ⟨_, .ended result⟩ => some result
  | _ => none

namespace SchedulerRun

/-! ## Runs -/

/-- The task of a launch breaks off, unless the launcher is done with the launch. -/
def breakOff (s : SchedulerRun) (launch : Nat) (reason : String) : SchedulerRun :=
  match s.returned.get? launch with
  | none => { s with scheduler := s.scheduler.breakOff launch reason }
  | some _ => s

def next (s : SchedulerRun) : CallOp → SchedulerRun
  | .step op => s.step op
  | .breakOff launch reason => s.breakOff launch reason

def runCalls (s : SchedulerRun) (ops : List CallOp) : SchedulerRun := ops.foldl next s

/-- What a call gets. -/
def answer (s : SchedulerRun) : CallOp → CallAnswer
  | .step (.look caller node) =>
    match Scheduler.authorize caller node, s.scheduler.registry.get? node with
    | .error cause, _ => .returned (.error cause)
    | .ok (), some a => .returned (.ok a)
    | .ok (), none => .silent
  | .step (.enter node) =>
    if node ∈ s.asking then
      match (s.scheduler.enter node).1 with
      | .running a => .returned (.ok a)
      | .joined call => .joined call
    else .silent
  | .step (.pollJoin call) =>
    match (s.scheduler.pollJoin call).1 with
    | some value => .returned value
    | none => .silent
  | _ => .silent

/-- The operations of a run with what the calls get. -/
def log (s : SchedulerRun) : List CallOp → List (CallOp × CallAnswer)
  | [] => []
  | op :: ops => (op, s.answer op) :: (s.next op).log ops

/-- What a poll of a call that waits returns. -/
def reply (call : Nat) : CallOp × CallAnswer → Option (Except Error Assignment)
  | (.step (.pollJoin polled), .returned value) => if polled = call then some value else none
  | _ => none

/-- What a call that waits returns. -/
def replies (call : Nat) (log : List (CallOp × CallAnswer)) : List (Except Error Assignment) :=
  log.filterMap (reply call)

/-- Whether a call for the process of a node, by a caller of the node, looks into the registry or
takes the entry of the node when the launch is the one in flight.  A call that looks and finds
nothing gets its answer when it takes the entry. -/
def arrives (s : SchedulerRun) (node : NodeId) (launch : Nat) : CallOp → Bool
  | .step (.look caller node') =>
    caller = node ∧ node' = node ∧ s.scheduler.inFlight.get? node = some launch
  | .step (.enter node') =>
    node' = node ∧ node ∈ s.asking ∧
      (s.scheduler.enter node).2.inFlight.get? node = some launch
  | _ => false

/-- What the calls return that arrive while a launch of a node is in flight. -/
def values (s : SchedulerRun) (node : NodeId) (launch : Nat) :
    List CallOp → List (Except Error Assignment)
  | [] => []
  | op :: ops =>
    (if s.arrives node launch op then
      match s.answer op with
      | .silent => []
      | .joined call => replies call ((s.next op).log ops)
      | .returned value => [value]
    else []) ++ (s.next op).values node launch ops

/-! ## Lemmas -/

@[simp] theorem runCalls_cons (s : SchedulerRun) (op : CallOp) (ops : List CallOp) :
    s.runCalls (op :: ops) = (s.next op).runCalls ops := rfl

theorem runCalls_append (s : SchedulerRun) (ops more : List CallOp) :
    s.runCalls (ops ++ more) = (s.runCalls ops).runCalls more := by
  simp [runCalls]

theorem replies_cons (call : Nat) (e : CallOp × CallAnswer) (log : List (CallOp × CallAnswer)) :
    replies call (e :: log) = (reply call e).toList ++ replies call log := by
  rw [replies, List.filterMap_cons]
  cases reply call e <;> rfl

theorem reply_of_ne (call : Nat) (op : CallOp) (a : CallAnswer)
    (hne : op ≠ .step (.pollJoin call)) : reply call (op, a) = none := by
  unfold reply
  split
  · next polled value heq =>
    obtain ⟨rfl, -⟩ := Prod.mk.inj heq
    rw [if_neg]
    rintro rfl
    exact hne rfl
  · rfl

/-- A poll of a call returns the result of the launch that the call joined, once there is one. -/
theorem pollJoin_eq (s : Scheduler) (call : Nat) :
    (s.pollJoin call).1 = (s.joins.get? call).bind s.resultOf := by
  unfold Scheduler.pollJoin
  cases s.joins.get? call with
  | none => rfl
  | some launch =>
    simp only [Option.bind_some, Scheduler.resultOf]
    cases s.launches.get? launch with
    | none => rfl
    | some l =>
      rcases l with ⟨node, phase⟩
      cases phase <;> rfl

/-- A launch that breaks off ends with an error, unless it has ended. -/
theorem breakOff_cases (s : Scheduler) (launch : Nat) (reason : String) :
    s.breakOff launch reason = s ∨ ∃ node phase,
      s.launches.get? launch = some ⟨node, phase⟩ ∧ (∀ result, phase ≠ .ended result) ∧
      s.breakOff launch reason =
        s.close launch node (.error (.scheduling ("launch task failed: " ++ reason))) := by
  unfold Scheduler.breakOff
  split
  · exact Or.inl rfl
  · exact Or.inl rfl
  · next node phase hopen hlaunch =>
    exact Or.inr ⟨node, phase, hlaunch, fun result heq => hopen result heq, rfl⟩

theorem get?_joins_pollJoin (s : Scheduler) (call call' : Nat) :
    (s.pollJoin call).2.joins.get? call' =
      if call' = call ∧ (s.pollJoin call).1.isSome then none else s.joins.get? call' := by
  unfold Scheduler.pollJoin
  cases s.joins.get? call with
  | none => simp
  | some launch =>
    cases hlaunch : s.launches.get? launch with
    | none => simp [hlaunch]
    | some l =>
      rcases l with ⟨node, phase⟩
      cases phase with
      | ended result => simp [hlaunch, Table.get?_erase]
      | _ => simp [hlaunch]

/-- A caller that enters finds an assignment or joins a launch. -/
theorem next_enter (s : SchedulerRun) {node : NodeId} (h : node ∈ s.asking) :
    s.next (.step (.enter node)) =
      { s with asking := s.asking.erase node, scheduler := (s.scheduler.enter node).2 } :=
  if_pos h

theorem answer_enter (s : SchedulerRun) {node : NodeId} (h : node ∈ s.asking) :
    s.answer (.step (.enter node)) =
      match (s.scheduler.enter node).1 with
      | .running a => .returned (.ok a)
      | .joined call => .joined call :=
  if_pos h

/-! ## Runs that differ in who waits -/

/-- The scheduler with other callers waiting for its launches. -/
def withJoins (s : SchedulerRun) (joins : Table Nat Nat) : SchedulerRun :=
  { s with scheduler := { s.scheduler with joins } }

/-- Whether a caller that waits for a launch is polled or given up in an operation. -/
def concerns (calls : Nat → Bool) : CallOp → Bool
  | .step (.pollJoin call) | .step (.dropJoin call) => calls call
  | _ => false

/-- Whether a caller that waits for a launch is given up in an operation. -/
def drops (calls : Nat → Bool) : CallOp → Bool
  | .step (.dropJoin call) => calls call
  | _ => false

/-- Two schedulers differ in nothing but which of some callers wait. -/
structure Agree (calls : Nat → Bool) (s s' : SchedulerRun) : Prop where
  same : s' = s.withJoins s'.scheduler.joins
  others : ∀ call, calls call = false →
    s'.scheduler.joins.get? call = s.scheduler.joins.get? call

variable {calls : Nat → Bool} {s s' : SchedulerRun}

theorem Agree.refl (calls : Nat → Bool) (s : SchedulerRun) : Agree calls s s where
  same := rfl
  others := fun _ _ => rfl

/-- Giving callers up changes nothing but who waits. -/
theorem Agree.drop (h : Agree calls s s') (op : CallOp) (hdrops : drops calls op = true) :
    Agree calls (s.next op) s' := by
  unfold drops at hdrops
  split at hdrops
  · next call =>
    refine ⟨h.same, fun other hother => ?_⟩
    rw [h.others other hother]
    simp only [next, step, Scheduler.dropJoin, Table.get?_erase]
    rw [if_neg]
    rintro rfl
    rw [hdrops] at hother
    cases hother
  · cases hdrops

/-- Steps that do not look at who waits. -/
theorem next_withJoins (s : SchedulerRun) (joins : Table Nat Nat) (op : CallOp)
    (henter : ∀ node, op ≠ .step (.enter node)) (hpoll : ∀ call, op ≠ .step (.pollJoin call))
    (hdrop : ∀ call, op ≠ .step (.dropJoin call)) :
    (s.withJoins joins).next op = (s.next op).withJoins joins ∧
      (s.next op).scheduler.joins = s.scheduler.joins ∧
      (s.withJoins joins).answer op = s.answer op := by
  cases op with
  | breakOff launch reason =>
    simp only [next, breakOff, withJoins, Scheduler.breakOff]
    split
    · split <;> exact ⟨rfl, rfl, rfl⟩
    · exact ⟨rfl, rfl, rfl⟩
  | step op =>
    cases op with
    | enter node => exact absurd rfl (henter node)
    | pollJoin call => exact absurd rfl (hpoll call)
    | dropJoin call => exact absurd rfl (hdrop call)
    | look caller node =>
      simp only [next, step, withJoins, answer]
      cases Scheduler.authorize caller node with
      | error cause => exact ⟨rfl, rfl, trivial⟩
      | ok _ => cases s.scheduler.registry.get? node <;> exact ⟨rfl, rfl, trivial⟩
    | locate caller node wait =>
      simp only [next, step, withJoins, Scheduler.locate]
      cases Scheduler.authorize caller node with
      | error cause => exact ⟨rfl, rfl, rfl⟩
      | ok _ => cases wait <;> exact ⟨rfl, rfl, rfl⟩
    | pollLookup call =>
      simp only [next, step, withJoins, Scheduler.pollLookup]
      split
      · exact ⟨rfl, rfl, rfl⟩
      · next l _ =>
        split
        · exact ⟨rfl, rfl, rfl⟩
        · by_cases hdue : l.deadline ≤ s.clock.steady
          · simp only [hdue, if_true, answer, and_self]
          · simp only [hdue, if_false, answer, and_self]
    | begin launch =>
      simp only [next, step, withJoins, Scheduler.begin]
      split <;> exact ⟨rfl, rfl, rfl⟩
    | returned launch outcome =>
      simp only [next, step, withJoins, settle]
      split
      · next node deadline _ _ =>
        cases outcome with
        | up endpoint => exact ⟨rfl, rfl, rfl⟩
        | refused cause => exact ⟨rfl, rfl, rfl⟩
        | late =>
          by_cases hlate : deadline ≤ s.clock.steady
          · simp only [hlate, if_true, answer, and_self]
          · simp only [hlate, if_false, answer, and_self]
      · exact ⟨rfl, rfl, rfl⟩
    | update launch =>
      simp only [next, step, withJoins]
      split
      · next r _ =>
        rcases r with ⟨node, stage⟩
        cases stage <;> exact ⟨rfl, rfl, rfl⟩
      · exact ⟨rfl, rfl, rfl⟩
    | report launch =>
      have hsame : (s.withJoins joins).hasProcess launch = s.hasProcess launch := rfl
      simp only [next, step, hsame]
      split <;> exact ⟨rfl, rfl, rfl⟩
    | clear launch =>
      have hexited : (s.withJoins joins).scheduler.exited launch =
          { s.scheduler.exited launch with joins } ∧
          (s.scheduler.exited launch).joins = s.scheduler.joins := by
        simp only [withJoins, Scheduler.exited]
        split <;> exact ⟨rfl, rfl⟩
      by_cases hreported : launch ∈ s.reported
      · have hreported' : launch ∈ (s.withJoins joins).reported := hreported
        simp only [next, step, if_pos hreported, if_pos hreported', hexited.1, hexited.2]
        exact ⟨rfl, trivial, rfl⟩
      · have hreported' : launch ∉ (s.withJoins joins).reported := hreported
        simp only [next, step, if_neg hreported, if_neg hreported']
        exact ⟨trivial, trivial, rfl⟩
    | dropLookup call => exact ⟨rfl, rfl, rfl⟩
    | advance duration => exact ⟨rfl, rfl, rfl⟩

/-- A caller that enters finds or joins the same, whoever else waits. -/
theorem enter_withJoins (s : Scheduler) (joins : Table Nat Nat) (node : NodeId) :
    (({ s with joins } : Scheduler).enter node).1 = (s.enter node).1 ∧
      (({ s with joins } : Scheduler).enter node).2 =
        { (s.enter node).2 with
          joins := (({ s with joins } : Scheduler).enter node).2.joins } ∧
      ∀ call, joins.get? call = s.joins.get? call →
        (({ s with joins } : Scheduler).enter node).2.joins.get? call =
          (s.enter node).2.joins.get? call := by
  unfold Scheduler.enter
  cases hflight : s.inFlight.get? node with
  | some launch =>
    refine ⟨rfl, rfl, fun call hcall => ?_⟩
    simp only [Scheduler.join, Table.get?_set, hcall]
  | none =>
    cases hregistry : s.registry.get? node with
    | some a => exact ⟨rfl, rfl, fun call hcall => hcall⟩
    | none =>
      simp only [Scheduler.launchOf, hflight, Scheduler.join]
      refine ⟨trivial, trivial, fun call hcall => ?_⟩
      simp only [Table.get?_set, hcall]

/-- A poll finds the same result, whoever else waits, and stops one caller from waiting at most. -/
theorem pollJoin_frame (s : Scheduler) (call : Nat) :
    (s.pollJoin call).2 = { s with joins := (s.pollJoin call).2.joins } := by
  unfold Scheduler.pollJoin
  split
  · rfl
  · split <;> rfl

/-- Schedulers that differ in who waits take the same steps and answer other callers alike. -/
theorem Agree.next (h : Agree calls s s') (op : CallOp) (hkeeps : drops calls op = false) :
    Agree calls (s.next op) (s'.next op) ∧
      (concerns calls op = false → s'.answer op = s.answer op) := by
  obtain ⟨hsame, hothers⟩ := h
  generalize s'.scheduler.joins = joins at hsame hothers
  subst hsame
  by_cases henter : ∃ node, op = .step (.enter node)
  · obtain ⟨node, rfl⟩ := henter
    obtain ⟨hanswer, hafter, hjoins⟩ := enter_withJoins s.scheduler joins node
    by_cases hasking : node ∈ s.asking
    · have hasking' : node ∈ (s.withJoins joins).asking := hasking
      rw [next_enter s hasking, next_enter _ hasking', answer_enter s hasking,
        answer_enter _ hasking']
      refine ⟨⟨?_, fun call hcall => hjoins call (hothers call hcall)⟩, fun _ => ?_⟩
      · simp only [withJoins]
        rw [hafter]
      · simp only [withJoins, hanswer]
    · have hasking' : node ∉ (s.withJoins joins).asking := hasking
      simp only [SchedulerRun.next, step, answer, if_neg hasking, if_neg hasking']
      exact ⟨⟨rfl, hothers⟩, fun _ => trivial⟩
  by_cases hpoll : ∃ call, op = .step (.pollJoin call)
  · obtain ⟨call, rfl⟩ := hpoll
    have hanswer : joins.get? call = s.scheduler.joins.get? call →
        ((s.withJoins joins).scheduler.pollJoin call).1 = (s.scheduler.pollJoin call).1 := by
      intro hjoin
      rw [pollJoin_eq, pollJoin_eq,
        show (s.withJoins joins).scheduler.joins.get? call = _ from hjoin]
      rfl
    refine ⟨⟨?_, fun other hother => ?_⟩, fun hconcerns => ?_⟩
    · simp only [SchedulerRun.next, step, withJoins]
      rw [pollJoin_frame, pollJoin_frame s.scheduler]
    · simp only [SchedulerRun.next, step, get?_joins_pollJoin]
      by_cases hcall : other = call
      · subst hcall
        rw [hanswer (hothers other hother)]
        split
        · rfl
        · exact hothers other hother
      · rw [if_neg fun hboth => hcall hboth.1, if_neg fun hboth => hcall hboth.1]
        exact hothers other hother
    · simp only [answer]
      rw [hanswer (hothers call hconcerns)]
  by_cases hdrop : ∃ call, op = .step (.dropJoin call)
  · obtain ⟨call, rfl⟩ := hdrop
    refine ⟨⟨rfl, fun other hother => ?_⟩, fun _ => rfl⟩
    simp only [SchedulerRun.next, step, withJoins, Scheduler.dropJoin, Table.get?_erase]
    split
    · rfl
    · exact hothers other hother
  · obtain ⟨hnext, hjoins, hanswer⟩ := next_withJoins s joins op
      (fun node heq => henter ⟨node, heq⟩) (fun call heq => hpoll ⟨call, heq⟩)
      fun call heq => hdrop ⟨call, heq⟩
    rw [hnext]
    refine ⟨⟨rfl, fun call hcall => ?_⟩, fun _ => hanswer⟩
    rw [hjoins]
    exact hothers call hcall

/-- A run without the ends of some callers' waiting agrees with the run with them, and so does what
other callers get. -/
theorem Agree.runCalls (h : Agree calls s s') (ops : List CallOp) :
    Agree calls (s.runCalls ops) (s'.runCalls (ops.filter fun op => !drops calls op)) ∧
      (s'.log (ops.filter fun op => !drops calls op)).filter (fun e => !concerns calls e.1) =
        (s.log ops).filter fun e => !concerns calls e.1 := by
  induction ops generalizing s s' with
  | nil => exact ⟨h, rfl⟩
  | cons op ops ih =>
    cases hdrops : drops calls op with
    | true =>
      have hconcerns : concerns calls op = true := by
        unfold drops at hdrops
        split at hdrops
        · exact hdrops
        · cases hdrops
      obtain ⟨hafter, hlog⟩ := ih (h.drop op hdrops)
      rw [List.filter_cons_of_neg (by simp [hdrops]), runCalls_cons, log,
        List.filter_cons_of_neg (by simp [hconcerns])]
      exact ⟨hafter, hlog⟩
    | false =>
      obtain ⟨hnext, hanswer⟩ := h.next op hdrops
      obtain ⟨hafter, hlog⟩ := ih hnext
      rw [List.filter_cons_of_pos (by simp [hdrops]), runCalls_cons, runCalls_cons, log, log]
      refine ⟨hafter, ?_⟩
      cases hconcerns : concerns calls op with
      | true =>
        rw [List.filter_cons_of_neg (by simp [hconcerns]),
          List.filter_cons_of_neg (by simp [hconcerns])]
        exact hlog
      | false =>
        rw [List.filter_cons_of_pos (by simp [hconcerns]),
          List.filter_cons_of_pos (by simp [hconcerns]), hlog, hanswer hconcerns]

end SchedulerRun

end SigningGateway
