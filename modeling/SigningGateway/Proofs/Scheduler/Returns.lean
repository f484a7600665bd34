import SigningGateway.Proofs.Scheduler.Sharing

/-!
# What calls return

A call that joins a launch is told the result of the launch, once, when it is polled after the end
of the launch.  Nothing that happens later changes the result, so all calls that arrive while the
launch is in flight return the same, whoever of them is given up.

    s.Gives launch node v → (s.runCalls ops).Gives launch node v               (gives_runCalls)
    v ∈ s.values node launch ops → (s.runCalls ops).Gives launch node v          (gives_values)
-/

namespace SigningGateway

namespace SchedulerRun

/-! ## Results stay -/

/-- The node of a launch. -/
def nodeOf (s : SchedulerRun) (launch : Nat) : Option NodeId :=
  (s.scheduler.launches.get? launch).map Launch.node

/-- A value is the assignment that a launch of a node has recorded or the error with which it
ended. -/
def Gives (s : SchedulerRun) (launch : Nat) (node : NodeId) : Except Error Assignment → Prop
  | .ok a => s.assignmentsOf launch = [a] ∧ a.node = node
  | .error cause =>
    s.nodeOf launch = some node ∧ s.scheduler.resultOf launch = some (.error cause)

theorem resultOf_eq_some_iff (s : Scheduler) (launch : Nat) (result : Except Error Assignment) :
    s.resultOf launch = some result ↔
      ∃ node, s.launches.get? launch = some ⟨node, .ended result⟩ := by
  unfold Scheduler.resultOf
  split
  · next node result' heq =>
    rw [heq]
    constructor
    · intro h
      rw [Option.some.inj h]
      exact ⟨node, rfl⟩
    · rintro ⟨node', h⟩
      cases h
      rfl
  · next hnot =>
    constructor
    · intro h
      cases h
    · rintro ⟨node, h⟩
      exact absurd h (hnot node result)

theorem nodeOf_eq_some_iff (s : SchedulerRun) (launch : Nat) (node : NodeId) :
    s.nodeOf launch = some node ↔ ∃ p, s.progress launch = some (node, p) := by
  unfold nodeOf progress
  split
  · next hnone => simp [hnone]
  · next hget => simp [hget]
  · next hget =>
    rw [hget]
    split <;> simp

theorem launch_of_result {s : SchedulerRun} {launch : Nat} {node : NodeId}
    {result : Except Error Assignment} (hnode : s.nodeOf launch = some node)
    (hresult : s.scheduler.resultOf launch = some result) :
    s.scheduler.launches.get? launch = some ⟨node, .ended result⟩ := by
  obtain ⟨node', hlaunch⟩ := (resultOf_eq_some_iff _ _ _).1 hresult
  rw [nodeOf, hlaunch] at hnode
  obtain rfl := Option.some.inj hnode
  exact hlaunch

/-- What a launch has recorded tells its result. -/
theorem Shared.tells_of_ended {s : SchedulerRun} (h : s.Shared) {launch : Nat} {node : NodeId}
    {result : Except Error Assignment} (hnode : s.nodeOf launch = some node)
    (hresult : s.scheduler.resultOf launch = some result) :
    Tells (s.assignmentsOf launch) node result :=
  h.backed launch _ (.ended result) (progress_ended (launch_of_result hnode hresult))

theorem Shared.gives_of_ended {s : SchedulerRun} (h : s.Shared) {launch : Nat} {node : NodeId}
    {result : Except Error Assignment} (hnode : s.nodeOf launch = some node)
    (hresult : s.scheduler.resultOf launch = some result) : s.Gives launch node result := by
  cases result with
  | ok a => exact h.tells_of_ended hnode hresult
  | error cause => exact ⟨hnode, hresult⟩

theorem Shared.tells_of_gives {s : SchedulerRun} (h : s.Shared) {launch : Nat} {node : NodeId}
    {v : Except Error Assignment} (hv : s.Gives launch node v) :
    Tells (s.assignmentsOf launch) node v := by
  cases v with
  | ok a => exact hv
  | error cause => exact h.tells_of_ended hv.1 hv.2

theorem Shared.gives_unique {s : SchedulerRun} (h : s.Shared) {launch : Nat} {node : NodeId}
    {v v' : Except Error Assignment} (hv : s.Gives launch node v) (hv' : s.Gives launch node v') :
    v = v' := by
  have htells := h.tells_of_gives hv
  have htells' := h.tells_of_gives hv'
  cases v with
  | ok a =>
    cases v' with
    | ok a' => rw [(List.cons.inj (htells.1.symm.trans htells'.1)).1]
    | error cause' => cases htells.1.symm.trans htells'.1
  | error cause =>
    cases v' with
    | ok a' => cases htells'.1.symm.trans htells.1
    | error cause' => exact Option.some.inj (hv.2.symm.trans hv'.2)

/-- A launch has recorded one assignment at most. -/
theorem Shared.length_assignmentsOf {s : SchedulerRun} (h : s.Shared) (launch : Nat) :
    (s.assignmentsOf launch).length ≤ 1 := by
  cases hp : s.progress launch with
  | none => rw [h.untouched launch hp]; exact Nat.zero_le 1
  | some x => exact Progress.length_of_backed (h.backed launch x.1 x.2 hp)

theorem recorded_next (s : SchedulerRun) (op : CallOp) : s.recorded <+: (s.next op).recorded := by
  cases op with
  | step op => exact recorded_step s op
  | breakOff launch reason =>
    rw [next, breakOff]
    split <;> exact List.prefix_rfl

theorem assignmentsOf_next (s : SchedulerRun) (op : CallOp) (launch : Nat) :
    s.assignmentsOf launch <+: (s.next op).assignmentsOf launch :=
  ((recorded_next s op).filter _).map _

/-- Launches that have ended stay, and so does the node of every launch. -/
structure Advances (s s' : SchedulerRun) : Prop where
  results : ∀ launch result, s.scheduler.resultOf launch = some result →
    s'.scheduler.resultOf launch = some result
  nodes : ∀ launch node, s.nodeOf launch = some node → s'.nodeOf launch = some node

theorem Advances.of_eq {s s' : SchedulerRun}
    (hlaunches : s'.scheduler.launches = s.scheduler.launches) : s.Advances s' where
  results := by
    intro launch result hresult
    rw [Scheduler.resultOf, hlaunches]
    exact hresult
  nodes := by
    intro launch node hnode
    rw [nodeOf, hlaunches]
    exact hnode

/-- A launch that has not ended comes further. -/
theorem Advances.of_set {s s' : SchedulerRun} {launch : Nat} {node : NodeId}
    {phase phase' : LaunchPhase} (hlaunch : s.scheduler.launches.get? launch = some ⟨node, phase⟩)
    (hphase : ∀ result, phase ≠ .ended result)
    (hlaunches : s'.scheduler.launches = s.scheduler.launches.set launch ⟨node, phase'⟩) :
    s.Advances s' where
  results := by
    intro other result hresult
    have hne : other ≠ launch := by
      rintro rfl
      obtain ⟨node', hended⟩ := (resultOf_eq_some_iff _ _ _).1 hresult
      rw [hlaunch] at hended
      cases hended
      exact hphase result rfl
    rw [Scheduler.resultOf, hlaunches, Table.get?_set, if_neg hne]
    exact hresult
  nodes := by
    intro other node' hnode
    rw [nodeOf, hlaunches, Table.get?_set]
    split
    · next heq =>
      rw [nodeOf, heq, hlaunch] at hnode
      exact hnode
    · exact hnode

/-- A launch with a new number is entered. -/
theorem Shared.advances_launched {s : SchedulerRun} (h : s.Shared) (s' : SchedulerRun) (l : Launch)
    (hlaunches : s'.scheduler.launches = s.scheduler.launches.set s.scheduler.nextLaunch l) :
    s.Advances s' := by
  have hold : ∀ launch node, s.nodeOf launch = some node → launch ≠ s.scheduler.nextLaunch := by
    intro launch node hnode
    obtain ⟨p, hp⟩ := (nodeOf_eq_some_iff _ _ _).1 hnode
    exact Nat.ne_of_lt (h.numbers launch _ hp)
  refine ⟨?_, ?_⟩
  · intro launch result hresult
    obtain ⟨node, hended⟩ := (resultOf_eq_some_iff _ _ _).1 hresult
    have hne := hold launch node (by rw [nodeOf, hended]; rfl)
    rw [Scheduler.resultOf, hlaunches, Table.get?_set, if_neg hne]
    exact hresult
  · intro launch node hnode
    rw [nodeOf, hlaunches, Table.get?_set, if_neg (hold launch node hnode)]
    exact hnode

/-- A caller that takes the entry of a node changes no launch. -/
theorem Shared.advances_enter {s : SchedulerRun} (h : s.Shared) (node : NodeId)
    (s' : SchedulerRun) (hs' : s'.scheduler = (s.scheduler.enter node).2) : s.Advances s' := by
  rcases s.scheduler.enter_cases node with
    ⟨joins, nextCall, henter⟩ | ⟨-, -, joins, nextCall, henter⟩
  · exact .of_eq (by rw [hs', henter])
  · exact h.advances_launched s' ⟨node, .ready⟩ (by rw [hs', henter])

theorem Shared.advances_next {s : SchedulerRun} (h : s.Shared) (op : CallOp) :
    s.Advances (s.next op) := by
  cases op with
  | breakOff launch reason =>
    rw [next, breakOff]
    split
    · rcases breakOff_cases s.scheduler launch reason with
        hsame | ⟨node, phase, hlaunch, hphase, hclose⟩
      · rw [hsame]
        exact .of_eq rfl
      · rw [hclose]
        exact .of_set hlaunch hphase rfl
    · exact .of_eq rfl
  | step op =>
    rw [next]
    by_cases hop : ofCallers op = true
    · obtain ⟨asking, clock, joins, lookups, nextCall, hstep⟩ := step_ofCallers s op hop
      rw [hstep]
      exact .of_eq rfl
    cases op with
    | enter node =>
      rw [step]
      split
      · exact h.advances_enter node _ rfl
      · exact .of_eq rfl
    | begin launch =>
      rw [step]
      rcases s.scheduler.begin_cases s.clock.steady launch with hbegin | ⟨node, hready, hbegin⟩
      · rw [hbegin]
        exact .of_eq rfl
      · rw [hbegin]
        exact .of_set hready (fun _ heq => by cases heq) rfl
    | returned launch outcome =>
      rw [step]
      rcases s.settle_cases launch outcome with
        hsettle | ⟨node, deadline, entropy, stage, -, -, -, hsettle⟩ <;>
        rw [hsettle] <;> exact .of_eq rfl
    | update launch =>
      rw [step]
      split
      · next r hr =>
        obtain ⟨phase, hlaunch, hphase⟩ := h.unended hr
        rcases r with ⟨node, stage⟩
        cases stage with
        | closing result => exact .of_set hlaunch hphase rfl
        | _ => exact .of_eq rfl
      · exact .of_eq rfl
    | report launch =>
      rw [step]
      split <;> exact .of_eq rfl
    | clear launch =>
      rw [step, Scheduler.exited]
      split
      · split <;> exact .of_eq rfl
      · exact .of_eq rfl
    | _ => exact absurd rfl hop

theorem Shared.advances_runCalls {s : SchedulerRun} (h : s.Shared) (ops : List CallOp) :
    s.Advances (s.runCalls ops) := by
  induction ops generalizing s with
  | nil => exact .of_eq rfl
  | cons op ops ih =>
    have hfirst := h.advances_next op
    have hrest := ih (shared_next s h op)
    exact ⟨fun launch result hr => hrest.results launch result (hfirst.results launch result hr),
      fun launch node hn => hrest.nodes launch node (hfirst.nodes launch node hn)⟩

/-- What a launch gives stays. -/
theorem Shared.gives_runCalls {s : SchedulerRun} (h : s.Shared) (ops : List CallOp) {launch : Nat}
    {node : NodeId} {v : Except Error Assignment} (hv : s.Gives launch node v) :
    (s.runCalls ops).Gives launch node v := by
  induction ops generalizing s with
  | nil => exact hv
  | cons op ops ih =>
    have hnext := shared_next s h op
    have hadvances := h.advances_next op
    apply ih hnext
    cases v with
    | error cause => exact ⟨hadvances.nodes _ _ hv.1, hadvances.results _ _ hv.2⟩
    | ok a =>
      -- a launch that has recorded an assignment records no other
      have hkept := assignmentsOf_next s op launch
      rw [hv.1] at hkept
      exact ⟨(hkept.eq_of_length_le (hnext.length_assignmentsOf launch)).symm, hv.2⟩

/-! ## Calls that wait -/

/-- A caller that enters takes the next number if it has to wait. -/
theorem joins_enter (s : Scheduler) (node : NodeId) :
    ((s.enter node).2 = s ∧ s.inFlight.get? node = none ∧ ∃ a, s.registry.get? node = some a) ∨
      ∃ launch, (s.enter node).1 = .joined s.nextCall ∧
        (s.enter node).2.joins = s.joins.set s.nextCall launch ∧
        (s.enter node).2.nextCall = s.nextCall + 1 ∧
        (s.enter node).2.inFlight.get? node = some launch := by
  unfold Scheduler.enter
  cases hflight : s.inFlight.get? node with
  | some launch => exact Or.inr ⟨launch, rfl, rfl, rfl, hflight⟩
  | none =>
    cases hregistry : s.registry.get? node with
    | some a => exact Or.inl ⟨rfl, rfl, a, rfl⟩
    | none =>
      simp only [Scheduler.launchOf, hflight]
      exact Or.inr ⟨s.nextLaunch, rfl, rfl, rfl, (Table.get?_set _ _ _ _).trans (if_pos rfl)⟩

theorem lookups_enter (s : Scheduler) (node : NodeId) :
    (s.enter node).2.lookups = s.lookups := by
  rcases s.enter_cases node with ⟨joins, nextCall, henter⟩ | ⟨-, -, joins, nextCall, henter⟩ <;>
    rw [henter]

theorem nextCall_enter (s : Scheduler) (node : NodeId) :
    s.nextCall ≤ (s.enter node).2.nextCall := by
  rcases joins_enter s node with ⟨hsame, -⟩ | ⟨launch, -, -, hone, -⟩
  · exact Nat.le_of_eq (congrArg Scheduler.nextCall hsame).symm
  · rw [hone]
    exact Nat.le_succ _

/-- Numbers of calls are not given out twice, and nobody waits under an old number again. -/
def Ages (s s' : Scheduler) : Prop :=
  s.nextCall ≤ s'.nextCall ∧ ∀ call l, call < s.nextCall →
    s'.lookups.get? call = some l → s.lookups.get? call = some l

theorem Ages.of_eq {s s' : Scheduler} (hnextCall : s'.nextCall = s.nextCall)
    (hlookups : s'.lookups = s.lookups) : Ages s s' :=
  ⟨Nat.le_of_eq hnextCall.symm, fun _ _ _ hl => hlookups ▸ hl⟩

theorem Ages.of_erase {s s' : Scheduler} (gone : Nat) (hnextCall : s'.nextCall = s.nextCall)
    (hlookups : s'.lookups = s.lookups.erase gone) : Ages s s' := by
  refine ⟨Nat.le_of_eq hnextCall.symm, fun call l _ hl => ?_⟩
  rw [hlookups, Table.get?_erase] at hl
  split at hl
  · cases hl
  · exact hl

theorem ages_next (s : SchedulerRun) (op : CallOp) :
    Ages s.scheduler (s.next op).scheduler := by
  cases op with
  | breakOff launch reason =>
    rw [next, breakOff]
    split
    · rcases breakOff_cases s.scheduler launch reason with
        hsame | ⟨node, phase, -, -, hclose⟩
      · rw [hsame]
        exact .of_eq rfl rfl
      · rw [hclose]
        exact .of_eq rfl rfl
    · exact .of_eq rfl rfl
  | step op =>
    cases op with
    | enter node =>
      rw [next, step]
      split
      · refine ⟨nextCall_enter s.scheduler node, fun call l _ hl => ?_⟩
        exact (congrArg (Table.get? · call) (lookups_enter s.scheduler node)).symm.trans hl
      · exact .of_eq rfl rfl
    | locate caller node wait =>
      simp only [next, step, Scheduler.locate]
      cases Scheduler.authorize caller node with
      | error cause => exact .of_eq rfl rfl
      | ok _ =>
        cases wait with
        | false => exact .of_eq rfl rfl
        | true =>
          refine ⟨Nat.le_succ _, fun call l hcall hl => ?_⟩
          have hget := (Table.get?_set _ _ _ _).symm.trans hl
          rw [if_neg (Nat.ne_of_lt hcall)] at hget
          exact hget
    | look caller node =>
      rw [next, step]
      split <;> exact .of_eq rfl rfl
    | pollJoin call =>
      rw [next, step, pollJoin_frame]
      exact .of_eq rfl rfl
    | pollLookup call =>
      simp only [next, step, Scheduler.pollLookup]
      split
      · exact .of_eq rfl rfl
      · split
        · exact .of_erase call rfl rfl
        · split
          · exact .of_erase call rfl rfl
          · exact .of_eq rfl rfl
    | dropLookup call => exact .of_erase call rfl rfl
    | begin launch =>
      rw [next, step]
      rcases s.scheduler.begin_cases s.clock.steady launch with hbegin | ⟨node, -, hbegin⟩ <;>
        rw [hbegin] <;> exact .of_eq rfl rfl
    | returned launch outcome =>
      rw [next, step]
      rcases s.settle_cases launch outcome with
        hsettle | ⟨node, deadline, entropy, stage, -, -, -, hsettle⟩ <;>
        rw [hsettle] <;> exact .of_eq rfl rfl
    | update launch =>
      rw [next, step]
      split
      · next r _ =>
        rcases r with ⟨node, stage⟩
        cases stage <;> exact .of_eq rfl rfl
      · exact .of_eq rfl rfl
    | report launch =>
      rw [next, step]
      split <;> exact .of_eq rfl rfl
    | clear launch =>
      rw [next, step, Scheduler.exited]
      split
      · split <;> exact .of_eq rfl rfl
      · exact .of_eq rfl rfl
    | dropJoin call => exact .of_eq rfl rfl
    | advance duration => exact .of_eq rfl rfl

theorem nextCall_next (s : SchedulerRun) (op : CallOp) :
    s.scheduler.nextCall ≤ (s.next op).scheduler.nextCall :=
  (ages_next s op).1

/-- A call that is not given up waits until a poll returns. -/
theorem get?_joins_next (s : SchedulerRun) (op : CallOp) {call : Nat}
    (hcall : call < s.scheduler.nextCall) (hkeeps : op ≠ .step (.dropJoin call)) :
    (s.next op).scheduler.joins.get? call =
      if (reply call (op, s.answer op)).isSome then none else s.scheduler.joins.get? call := by
  by_cases hpoll : ∃ polled, op = .step (.pollJoin polled)
  · obtain ⟨polled, rfl⟩ := hpoll
    rw [next, step, get?_joins_pollJoin, answer]
    cases hvalue : (s.scheduler.pollJoin polled).1 with
    | none => simp [reply]
    | some value =>
      by_cases heq : polled = call
      · simp [reply, heq]
      · simp [reply, heq, Ne.symm heq]
  have hsilent : reply call (op, s.answer op) = none :=
    reply_of_ne _ _ _ fun heq => hpoll ⟨call, heq⟩
  rw [hsilent, Option.isSome_none, if_neg Bool.false_ne_true]
  by_cases henter : ∃ node, op = .step (.enter node)
  · obtain ⟨node, rfl⟩ := henter
    rw [next, step]
    split
    · rcases joins_enter s.scheduler node with ⟨hsame, -⟩ | ⟨launch, -, hjoins, -, -⟩
      · rw [hsame]
      · refine (congrArg (Table.get? · call) hjoins).trans ?_
        exact (Table.get?_set _ _ _ _).trans (if_neg (Nat.ne_of_lt hcall))
    · rfl
  by_cases hdrop : ∃ dropped, op = .step (.dropJoin dropped)
  · obtain ⟨dropped, rfl⟩ := hdrop
    refine (Table.get?_erase _ _ _).trans (if_neg ?_)
    rintro rfl
    exact hkeeps rfl
  · obtain ⟨-, hjoins, -⟩ := next_withJoins s s.scheduler.joins op
      (fun node heq => henter ⟨node, heq⟩) (fun polled heq => hpoll ⟨polled, heq⟩)
      fun dropped heq => hdrop ⟨dropped, heq⟩
    rw [hjoins]

/-- What a poll of a call that waits for a launch returns. -/
theorem reply_pollJoin (s : SchedulerRun) (call : Nat) :
    reply call (.step (.pollJoin call), s.answer (.step (.pollJoin call))) =
      (s.scheduler.joins.get? call).bind s.scheduler.resultOf := by
  rw [← pollJoin_eq, answer]
  cases (s.scheduler.pollJoin call).1 with
  | none => rfl
  | some value => exact if_pos rfl

/-- A call gets what its launch came to. -/
theorem reply_eq_some {s : SchedulerRun} {op : CallOp} {call : Nat} {v : Except Error Assignment}
    (h : reply call (op, s.answer op) = some v) :
    (s.scheduler.joins.get? call).bind s.scheduler.resultOf = some v := by
  by_cases hpoll : op = .step (.pollJoin call)
  · rw [hpoll, reply_pollJoin] at h
    exact h
  · rw [reply_of_ne _ _ _ hpoll] at h
    cases h

/-- A call that does not wait gets nothing any more. -/
theorem replies_of_gone (s : SchedulerRun) (ops : List CallOp) {call : Nat}
    (hcall : call < s.scheduler.nextCall) (hgone : s.scheduler.joins.get? call = none) :
    replies call (s.log ops) = [] := by
  induction ops generalizing s with
  | nil => rfl
  | cons op ops ih =>
    have hnothing : reply call (op, s.answer op) = none := by
      rw [Option.eq_none_iff_forall_ne_some]
      intro v hv
      have hwaits := reply_eq_some hv
      rw [hgone] at hwaits
      cases hwaits
    have hgone' : (s.next op).scheduler.joins.get? call = none := by
      by_cases hdrop : op = .step (.dropJoin call)
      · rw [hdrop]
        exact (Table.get?_erase _ _ _).trans (if_pos rfl)
      · rw [get?_joins_next s op hcall hdrop, hgone]
        split <;> rfl
    rw [log, replies_cons, hnothing,
      ih _ (Nat.lt_of_lt_of_le hcall (nextCall_next s op)) hgone']
    rfl

/-- A call that waits and is polled at the end of a run has got the result of its launch once, if
the launch has ended by then, and nothing otherwise. -/
theorem Shared.replies_of_waiting {s : SchedulerRun} (h : s.Shared) (ops : List CallOp)
    {call launch : Nat} (hcall : call < s.scheduler.nextCall)
    (hwaits : s.scheduler.joins.get? call = some launch)
    (hkeeps : .step (.dropJoin call) ∉ ops) :
    replies call (s.log (ops ++ [.step (.pollJoin call)])) =
      ((s.runCalls ops).scheduler.resultOf launch).toList := by
  induction ops generalizing s with
  | nil =>
    show replies call [(.step (.pollJoin call), s.answer (.step (.pollJoin call)))] = _
    rw [replies_cons, reply_pollJoin, hwaits]
    exact List.append_nil _
  | cons op ops ih =>
    obtain ⟨hop, hops⟩ := List.ne_and_not_mem_of_not_mem_cons hkeeps
    have hcall' := Nat.lt_of_lt_of_le hcall (nextCall_next s op)
    have hjoins := get?_joins_next s op hcall (Ne.symm hop)
    rw [List.cons_append, log, replies_cons, runCalls_cons]
    cases hreply : reply call (op, s.answer op) with
    | none =>
      rw [hreply] at hjoins
      exact ih (shared_next s h op) hcall' (hjoins.trans hwaits) hops
    | some v =>
      rw [hreply] at hjoins
      have hresult := reply_eq_some hreply
      rw [hwaits] at hresult
      have hlast := (h.advances_runCalls (op :: ops)).results launch v hresult
      rw [runCalls_cons] at hlast
      rw [replies_of_gone _ _ hcall' hjoins, hlast]
      rfl

/-- Whatever a call gets, given up or not, is what the launch gives that it waits for. -/
theorem Shared.gives_replies {s : SchedulerRun} (h : s.Shared) (ops : List CallOp)
    {call launch : Nat} {node : NodeId} (hnode : s.nodeOf launch = some node)
    (hcall : call < s.scheduler.nextCall) (hwaits : s.scheduler.joins.get? call = some launch)
    {v : Except Error Assignment} (hv : v ∈ replies call (s.log ops)) :
    (s.runCalls ops).Gives launch node v := by
  induction ops generalizing s with
  | nil => cases hv
  | cons op ops ih =>
    have hnext := shared_next s h op
    have hcall' := Nat.lt_of_lt_of_le hcall (nextCall_next s op)
    rw [log, replies_cons] at hv
    rcases List.mem_append.1 hv with hv | hv
    · have hresult := reply_eq_some (Option.mem_toList.1 hv)
      rw [hwaits] at hresult
      exact h.gives_runCalls (op :: ops) (h.gives_of_ended hnode hresult)
    · by_cases hdrop : op = .step (.dropJoin call)
      · have hgone : (s.next op).scheduler.joins.get? call = none := by
          rw [hdrop]
          exact (Table.get?_erase _ _ _).trans (if_pos rfl)
        rw [replies_of_gone _ ops hcall' hgone] at hv
        cases hv
      · have hjoins := get?_joins_next s op hcall hdrop
        split at hjoins
        · rw [replies_of_gone _ ops hcall' hjoins] at hv
          cases hv
        · exact ih hnext ((h.advances_next op).nodes _ _ hnode) hcall' (hjoins.trans hwaits) hv

/-! ## Calls that arrive -/

/-- A call that takes the entry of its node when a launch is in flight waits for the launch. -/
theorem joined_of_enter {s : Scheduler} {node : NodeId} {launch : Nat}
    (hflight : (s.enter node).2.inFlight.get? node = some launch) :
    (s.enter node).1 = .joined s.nextCall ∧ s.nextCall < (s.enter node).2.nextCall ∧
      (s.enter node).2.joins.get? s.nextCall = some launch := by
  rcases joins_enter s node with ⟨hsame, hfree, -⟩ | ⟨launch', hjoined, hjoins, hnextCall, hflight'⟩
  · rw [hsame, hfree] at hflight
    cases hflight
  · rw [hflight] at hflight'
    obtain rfl := Option.some.inj hflight'
    refine ⟨hjoined, hnextCall ▸ Nat.lt_succ_self _, ?_⟩
    rw [hjoins, Table.get?_set, if_pos rfl]

/-- A call that arrives while a launch is in flight is told what the launch has recorded, waits for
the launch, or finds nothing and goes on to take the entry of its node. -/
theorem Shared.answer_of_arrives {s : SchedulerRun} (h : s.Shared) {node : NodeId} {launch : Nat}
    {op : CallOp} (harrives : s.arrives node launch op = true) :
    s.answer op = .silent ∨
      (∃ a, s.answer op = .returned (.ok a) ∧ s.Gives launch node (.ok a)) ∨
      ∃ call, s.answer op = .joined call ∧ call < (s.next op).scheduler.nextCall ∧
        (s.next op).scheduler.joins.get? call = some launch ∧
        (s.next op).nodeOf launch = some node := by
  unfold arrives at harrives
  split at harrives
  · next caller node' =>
    obtain ⟨rfl, rfl, hflight⟩ := of_decide_eq_true harrives
    have hcaller : Scheduler.authorize node' node' = .ok () := if_pos rfl
    rw [answer, hcaller]
    cases hregistry : s.scheduler.registry.get? node' with
    | none => exact Or.inl rfl
    | some a =>
      have hrecorded := h.found node' launch a hflight hregistry
      obtain ⟨p, hp⟩ := h.within node' launch hflight
      have ha : a.node = node' :=
        Progress.node_of_backed (h.backed launch node' p hp) (hrecorded ▸ List.mem_singleton_self a)
      exact Or.inr (Or.inl ⟨a, rfl, hrecorded, ha⟩)
  · next node' =>
    obtain ⟨rfl, hasking, hflight⟩ := of_decide_eq_true harrives
    obtain ⟨hjoined, hcall, hwaits⟩ := joined_of_enter hflight
    have hnext := shared_next s h (.step (.enter node'))
    rw [next_enter s hasking] at hnext ⊢
    obtain ⟨p, hp⟩ := hnext.within node' launch hflight
    rw [answer_enter s hasking, hjoined]
    exact Or.inr (Or.inr ⟨_, rfl, hcall, hwaits, (nodeOf_eq_some_iff _ _ _).2 ⟨p, hp⟩⟩)
  · cases harrives

/-- What a call returns that arrives while a launch is in flight is what the launch gives. -/
theorem Shared.gives_values {s : SchedulerRun} (h : s.Shared) (ops : List CallOp) {node : NodeId}
    {launch : Nat} {v : Except Error Assignment} (hv : v ∈ s.values node launch ops) :
    (s.runCalls ops).Gives launch node v := by
  induction ops generalizing s with
  | nil => cases hv
  | cons op ops ih =>
    have hnext := shared_next s h op
    rw [values] at hv
    rcases List.mem_append.1 hv with hv | hv
    · split at hv
      · next harrives =>
        rcases h.answer_of_arrives harrives with hsilent | ⟨a, hreturned, hgives⟩ |
          ⟨call, hjoined, hcall, hwaits, hnode⟩
        · rw [hsilent] at hv
          cases hv
        · rw [hreturned] at hv
          obtain rfl := List.mem_singleton.1 hv
          exact h.gives_runCalls (op :: ops) hgives
        · rw [hjoined] at hv
          exact hnext.gives_replies ops hnode hcall hwaits hv
      · cases hv
    · exact ih hnext hv

/-- All calls that arrive while a launch is in flight and return, return the same, which is the one
assignment of the node that the launch has recorded or a scheduling error.  A call that joins the
launch and is not given up is told its result once, when it is polled after the end of the launch.
Giving up any of the calls at any time changes nothing but which calls wait: launches, registry,
counts and assignments stay what they are without, and so does everything that other calls get. -/
theorem callers_share_launch (settings : SchedulerSettings) (clock : Clock) (entropy : Entropy)
    (ops : List CallOp) :
    let s := start settings clock entropy
    (∀ node launch v, v ∈ s.values node launch ops →
      (∀ v' ∈ s.values node launch ops, v' = v) ∧
      Tells ((s.runCalls ops).assignmentsOf launch) node v) ∧
    (∀ before op after node launch call, ops = before ++ op :: after →
      (s.runCalls before).arrives node launch op = true →
      (s.runCalls before).answer op = .joined call → .step (.dropJoin call) ∉ after →
      replies call ((s.runCalls (before ++ [op])).log (after ++ [.step (.pollJoin call)])) =
        ((s.runCalls ops).scheduler.resultOf launch).toList) ∧
    ∀ dropped : Nat → Bool,
      let kept := ops.filter fun op => !drops dropped op
      Agree dropped (s.runCalls ops) (s.runCalls kept) ∧
      (s.runCalls kept).scheduler.registry = (s.runCalls ops).scheduler.registry ∧
      (s.runCalls kept).scheduler.stats = (s.runCalls ops).scheduler.stats ∧
      (s.log kept).filter (fun e => !concerns dropped e.1) =
        (s.log ops).filter fun e => !concerns dropped e.1 := by
  intro s
  have hstart : s.Shared := shared_start settings clock entropy
  refine ⟨?_, ?_, ?_⟩
  · intro node launch v hv
    have h := shared_runCalls s hstart ops
    have hgives := hstart.gives_values ops hv
    refine ⟨fun v' hv' => ?_, h.tells_of_gives hgives⟩
    exact h.gives_unique (hstart.gives_values ops hv') hgives
  · rintro before op after node launch call rfl harrives hjoined hkeeps
    have h := shared_runCalls s hstart before
    rw [runCalls_append, runCalls_append]
    rcases h.answer_of_arrives harrives with hsilent | ⟨a, hreturned, -⟩ |
      ⟨call', hjoined', hcall, hwaits, -⟩
    · rw [hjoined] at hsilent
      cases hsilent
    · rw [hjoined] at hreturned
      cases hreturned
    · rw [hjoined] at hjoined'
      cases hjoined'
      exact (shared_next _ h op).replies_of_waiting after hcall hwaits hkeeps
  · intro dropped kept
    obtain ⟨hagree, hlog⟩ := (Agree.refl dropped s).runCalls ops
    refine ⟨hagree, ?_, ?_, hlog⟩
    · rw [hagree.same]
      rfl
    · rw [hagree.same]
      rfl

/-- Two callers join a launch and the first is given up; another caller finds the assignment before
the launch is at its end. -/
theorem launch_shared_by_two_callers :
    let node : NodeId := ⟨List.replicate 32 7, rfl⟩
    let s := start ⟨10, 5⟩ ⟨⟨0, 0⟩, 0⟩ ⟨fun _ => List.replicate 32 1, 0⟩
    let a : Assignment := ⟨node, "localhost", Uuid.ofRandom ((List.replicate 32 1).take 16), ⟨0, 0⟩⟩
    let asked := [CallOp.step (.look node node), .step (.look node node), .step (.enter node)]
    let rest := [CallOp.step (.begin 0), .step (.dropJoin 0), .step (.returned 0 (.up "localhost")),
      .step (.update 0), .step (.look node node), .step (.update 0), .step (.update 0),
      .step (.update 0)]
    let ops := asked ++ .step (.enter node) :: rest
    s.values node 0 ops = [.ok a] ∧ Tells ((s.runCalls ops).assignmentsOf 0) node (.ok a) ∧
      replies 1 ((s.runCalls (asked ++ [.step (.enter node)])).log
        (rest ++ [.step (.pollJoin 1)])) = [.ok a] ∧
      (s.runCalls (ops.filter fun op => !drops (fun _ => true) op)).scheduler.stats =
        (s.runCalls ops).scheduler.stats := by
  intro node s a asked rest ops
  obtain ⟨hshared, htold, hdropped⟩ :=
    callers_share_launch ⟨10, 5⟩ ⟨⟨0, 0⟩, 0⟩ ⟨fun _ => List.replicate 32 1, 0⟩ ops
  have hok : ∀ {v : Except Error Assignment}, v.toOption = some a → v = .ok a := by
    intro v hv
    cases v with
    | ok a' => rw [Option.some.inj hv]
    | error cause => cases hv
  have hvalues : s.values node 0 ops = [.ok a] := by
    have hmap : (s.values node 0 ops).map Except.toOption = [some a] := by decide +kernel
    obtain ⟨v, hv, hva⟩ := List.map_eq_singleton_iff.1 hmap
    rw [hv, hok hva]
  have hresult : (s.runCalls ops).scheduler.resultOf 0 = some (.ok a) := by
    have hmap : ((s.runCalls ops).scheduler.resultOf 0).map Except.toOption = some (some a) := by
      decide +kernel
    obtain ⟨v, hv, hva⟩ := Option.map_eq_some_iff.1 hmap
    rw [hv, hok hva]
  refine ⟨hvalues, (hshared node 0 (.ok a) (by rw [hvalues]; exact List.mem_singleton.2 rfl)).2, ?_,
    (hdropped fun _ => true).2.2.1⟩
  refine (htold asked (.step (.enter node)) rest node 0 1 rfl (by decide +kernel) (by rfl)
    (by simp [rest])).trans ?_
  rw [hresult]
  rfl

end SchedulerRun

end SigningGateway
