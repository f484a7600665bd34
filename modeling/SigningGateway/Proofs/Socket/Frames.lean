import SigningGateway.Proofs.Socket.Tasks

/-!
# The frames of a session

Whatever messages a node sends on its WebSocket and whatever else happens, every request frame is
answered by one frame at most, and by one when the stream was closed and the tasks have had a turn
since: the first answer to it that was accepted, or an error.  Grants are answered only if they are
refused, and messages that are no frames by an error that changes nothing.

    s.Closed → (s.step (.turn message)).tasks has no task for the message        (closed_step)
    the stream closed, then a turn of every task → no task is left                  (tasks_done)
-/

namespace SigningGateway

namespace SocketRun

/-! ## The end of a session -/

/-- The stream of a WebSocket is closed. -/
def Closed (s : SocketRun) : Prop :=
  ∃ node, s.relay.relay.streams.get? s.stream = some ⟨node, true⟩

/-- A run closes the stream and then gives every task that waits a turn. -/
def Finishes (s : SocketRun) (ops : List SocketOp) : Prop :=
  ∃ reading rest, ops = reading ++ .close :: rest ∧
    ∀ task ∈ (s.run reading).tasks, .turn task.message ∈ rest

section
variable {s : SocketRun} {qs : List Accepted} (h : s.Sound qs)
include h

theorem closed_close : (s.step .close).Closed := by
  obtain ⟨⟨node, closed⟩, hopened⟩ := h.held
  rcases s.relay.relay.closeStream_cases s.stream with ⟨heq, hclosed⟩ | ⟨before, -, -, heq⟩
  · have hsame : closed = true := hclosed _ hopened
    subst hsame
    exact ⟨node, (congrArg (·.streams.get? s.stream) heq).trans hopened⟩
  · exact ⟨before.node, (congrArg (·.streams.get? s.stream) heq).trans
      ((Table.get?_set _ _ _ _).trans (if_pos rfl))⟩

/-- A closed stream stays closed. -/
theorem closed_relay (hclosed : s.Closed) (op : RelayOp) (hdrop : op ≠ .dropStream s.stream) :
    ∃ node, (s.relay.step op).2.relay.streams.get? s.stream = some ⟨node, true⟩ := by
  obtain ⟨node, hnode⟩ := hclosed
  by_cases hclose : op = .closeStream s.stream
  · subst hclose
    have hsame : s.relay.relay.closeStream s.stream = s.relay.relay := by
      simp [Relay.closeStream, hnode]
    exact ⟨node, (congrArg (·.streams.get? s.stream) hsame).trans hnode⟩
  · exact ⟨node, (s.relay.get?_streams_step op _ h.streamNumber hclose hdrop).trans hnode⟩

/-- Once the stream is closed, the ticket of every task reports. -/
theorem reports_of_closed (hclosed : s.Closed) {task : SocketTask} (hmem : task ∈ s.tasks) :
    (s.relay.step (.poll task.awaited.ticket)).1 ≠ .polled none := by
  obtain ⟨node, hnode⟩ := hclosed
  obtain ⟨q, hq, hticket, -, hstream, t, ht⟩ := h.submitted task hmem
  rcases h.consistent.standing q hq with hwaits | hsettled
  · have hopen := h.consistent.openStreams _ _ hwaits.entry
    rw [show (q.entry (s.relay.relay.hasSession q.node)).stream = s.stream from hstream, hnode]
      at hopen
    cases hopen
  · obtain ⟨o, rfl⟩ := hsettled.ticket t ht
    have hreport := (Relay.poll_of_resolved h.consistent q hq o ht s.relay.now).1
    rw [← hticket, show (s.relay.step (.poll q.ticket)).1 = .polled (some o) from
      congrArg _ hreport]
    simp

/-- Once the stream is closed it stays closed, and no task comes. -/
theorem closed_step (hclosed : s.Closed) (op : SocketOp) :
    (s.step op).Closed ∧ (s.step op).tasks.Sublist s.tasks := by
  have hchange := s.change_step op
  generalize s.does op = rop at hchange
  generalize s.step op = s' at hchange ⊢
  cases hchange with
  | nothing => exact ⟨hclosed, List.Sublist.refl _⟩
  | noted frames => exact ⟨hclosed, List.Sublist.refl _⟩
  | answered op frames htickets hstreams =>
    exact ⟨closed_relay h hclosed op (hstreams _).2, List.Sublist.refl _⟩
  | submitted tag dbid capabilities raw q haccepts hstream =>
    obtain ⟨opened, hopened, hopen, -⟩ := s.relay.accepts_eq_some _ q haccepts
    obtain ⟨node, hnode⟩ := hclosed
    rw [hstream, hnode] at hopened
    cases hopened
    cases hopen
  | pending task hmem hreport => exact ⟨hclosed, List.Sublist.refl _⟩
  | reported task hmem o hreport =>
    exact ⟨closed_relay h hclosed _ (by simp), List.filter_sublist⟩
  | relayed op hdrop hmine => exact ⟨closed_relay h hclosed op hdrop, List.Sublist.refl _⟩

/-- Once the stream is closed, a task that has a turn is gone. -/
theorem turn_of_closed (hclosed : s.Closed) (message : Nat) :
    ∀ task ∈ (s.step (.turn message)).tasks, task.message ≠ message := by
  intro task hmem heq
  cases htask : s.task? message with
  | none =>
    rw [s.step_turn_of_none htask] at hmem
    rw [← heq, task?_of_mem h.messages hmem] at htask
    cases htask
  | some task' =>
    rcases s.step_turn htask with ⟨o, -, hstep⟩ | ⟨hpending, -⟩
    · rw [hstep] at hmem
      exact of_decide_eq_true (List.mem_filter.1 hmem).2 heq
    · exact reports_of_closed h hclosed (mem_of_task? htask).1 hpending

end

/-- Once the stream is closed, the tasks that have had a turn are gone. -/
theorem closed_run {s : SocketRun} {qs : List Accepted} (h : s.Sound qs) (hclosed : s.Closed)
    (ops : List SocketOp)
    (hfew : (qs ++ s.relay.accepted (s.relayOps ops)).length < UInt32.size) :
    ∀ task ∈ (s.run ops).tasks, task ∈ s.tasks ∧ .turn task.message ∉ ops := by
  induction ops generalizing s qs with
  | nil => exact fun task hmem => ⟨hmem, List.not_mem_nil⟩
  | cons op ops ih =>
    intro task hmem
    obtain ⟨hfew', hfew''⟩ := few_cons hfew
    obtain ⟨hclosed', hsub⟩ := closed_step h hclosed op
    obtain ⟨hmem', hturn⟩ := ih (sound_step h op hfew') hclosed' hfew'' task hmem
    refine ⟨hsub.subset hmem', fun hturn' => ?_⟩
    rcases List.mem_cons.1 hturn' with rfl | hturn'
    · exact turn_of_closed h hclosed _ task hmem' rfl
    · exact hturn hturn'

/-- When the stream was closed and every task has had a turn since, no task is left. -/
theorem tasks_done {s : SocketRun} {qs : List Accepted} (h : s.Sound qs) (ops : List SocketOp)
    (hfew : (qs ++ s.relay.accepted (s.relayOps ops)).length < UInt32.size)
    (hfinishes : s.Finishes ops) : (s.run ops).tasks = [] := by
  obtain ⟨reading, rest, rfl, hturns⟩ := hfinishes
  obtain ⟨hfew', hrest⟩ := few_append hfew
  obtain ⟨hclose, hrest'⟩ := few_cons hrest
  have hreading := sound_run h reading hfew'
  rw [List.eq_nil_iff_forall_not_mem, run_append]
  intro task hmem
  obtain ⟨hmem', hturn⟩ := closed_run (sound_step hreading .close hclose)
    (closed_close hreading) rest hrest' task hmem
  -- closing takes no task away and brings none
  exact hturn (hturns task hmem')

/-! ## Frames -/

/-- What is sent for a message that no task waits for has been sent. -/
theorem framesOf_step (s : SocketRun) (op : SocketOp) {message : Nat}
    (hreceived : message < s.received) (hdone : ∀ task ∈ s.tasks, task.message ≠ message) :
    (s.step op).framesOf message = s.framesOf message ∧ message < (s.step op).received ∧
      ∀ task ∈ (s.step op).tasks, task.message ≠ message := by
  have hlater : s.received ≠ message := Nat.ne_of_gt hreceived
  have hchange := s.change_step op
  generalize s.does op = rop at hchange
  generalize s.step op = s' at hchange ⊢
  cases hchange with
  | nothing => exact ⟨rfl, hreceived, hdone⟩
  | noted frames =>
    exact ⟨framesOf_append_of_ne frames rfl hlater, Nat.lt_succ_of_lt hreceived, hdone⟩
  | answered op frames htickets hstreams =>
    exact ⟨framesOf_append_of_ne frames rfl hlater, Nat.lt_succ_of_lt hreceived, hdone⟩
  | submitted tag dbid capabilities raw q haccepts hstream =>
    refine ⟨rfl, Nat.lt_succ_of_lt hreceived, fun task hmem => ?_⟩
    rcases List.mem_append.1 hmem with hmem | hmem
    · exact hdone task hmem
    · rw [List.mem_singleton.1 hmem]
      exact hlater
  | pending task hmem hreport => exact ⟨rfl, hreceived, hdone⟩
  | reported task hmem o hreport =>
    exact ⟨framesOf_append_of_ne [_] rfl (hdone task hmem), hreceived,
      fun task' hmem' => hdone task' (List.mem_filter.1 hmem').1⟩
  | relayed op hdrop hmine => exact ⟨rfl, hreceived, hdone⟩

theorem framesOf_run (s : SocketRun) (ops : List SocketOp) {message : Nat}
    (hreceived : message < s.received) (hdone : ∀ task ∈ s.tasks, task.message ≠ message) :
    (s.run ops).framesOf message = s.framesOf message := by
  induction ops generalizing s with
  | nil => rfl
  | cons op ops ih =>
    obtain ⟨hframes, hreceived', hdone'⟩ := s.framesOf_step op hreceived hdone
    exact (ih _ hreceived' hdone').trans hframes

/-- For a message that comes in nothing was sent before. -/
theorem framesOf_received {s : SocketRun} {qs : List Accepted} (h : s.Sound qs) :
    s.framesOf s.received = [] := by
  rw [framesOf, List.map_eq_nil_iff, List.filter_eq_nil_iff]
  intro p hp heq
  exact Nat.ne_of_lt (h.earlier p hp) (of_decide_eq_true heq)

/-- The frames for a message that gets no task are sent when it comes in. -/
theorem framesOf_message {s : SocketRun} {qs : List Accepted} (h : s.Sound qs) {m : SocketMessage}
    (frames : List RelayFrame) (htasks : (s.step (.receive m)).tasks = s.tasks)
    (hreceived : (s.step (.receive m)).received = s.received + 1)
    (hsent : (s.step (.receive m)).sent = s.sent ++ frames.map fun f => (s.received, f))
    (after : List SocketOp) :
    ((s.step (.receive m)).run after).framesOf s.received = frames := by
  have hearly : s.received < (s.step (.receive m)).received := hreceived ▸ Nat.lt_succ_self _
  rw [framesOf_run _ after hearly, framesOf_append frames hsent, framesOf_received h,
    List.nil_append]
  rw [htasks]
  exact fun task hmem => Nat.ne_of_lt (h.early task hmem)

/-! ## Request frames -/

/-- The relay takes in the request of a message, and the first answer to it that is accepted
afterwards has the bytes. -/
def Completes (s : SocketRun) (m : SocketMessage) (dbid capabilities : UInt64) (raw : Bytes)
    (after : List SocketOp) (id : UInt32) (bytes : Bytes) : Prop :=
  (∃ ticket, (s.relay.step (.submit s.stream dbid capabilities raw)).1 = .submitted ticket id) ∧
    (ClockedRelay.answersTo id ((s.step (.receive m)).relay.log
      ((s.step (.receive m)).relayOps after))).head? = some bytes

/-- The stream is open, and the check of the grants refuses a request. -/
def Forbids (s : SocketRun) (dbid capabilities : UInt64) : Prop :=
  ∃ node cause, s.relay.relay.streams.get? s.stream = some ⟨node, false⟩ ∧
    s.relay.relay.grants.check node dbid capabilities = .error cause

/-- The frames for a request frame with a tag: a response with the first answer if the request
completes, or an error that says why it did not. -/
structure Answers (s : SocketRun) (m : SocketMessage) (tag dbid capabilities : UInt64)
    (raw : Bytes) (after : List SocketOp) (frames : List RelayFrame) : Prop where
  once : frames.length ≤ 1
  echoes : ∀ f ∈ frames, (∃ id bytes, f = .response tag id bytes) ∨
    ∃ kind text, f = .error (some tag) kind text ∧
      kind ∈ ["capability_violation", "request_timeout", "connection_lost"]
  completed : ∀ f ∈ frames, ∀ id bytes,
    f = .response tag id bytes ↔ s.Completes m dbid capabilities raw after id bytes
  forbidden : (∃ text, .error (some tag) "capability_violation" text ∈ frames) ↔
    s.Forbids dbid capabilities

/-- Why the relay does not take a request in: the check of the grants refuses it, or the stream is
closed. -/
theorem submit_error (s : SocketRun) {dbid capabilities : UInt64} {raw : Bytes} {cause : Error}
    (hsubmit : s.relay.relay.submit s.relay.now s.stream dbid capabilities raw = .error cause) :
    (cause.kind = "capability_violation" ∧ s.Forbids dbid capabilities) ∨
      cause.kind = "connection_lost" ∧ ¬s.Forbids dbid capabilities := by
  unfold Relay.submit at hsubmit
  split at hsubmit
  · next hnone =>
    obtain rfl := Except.error.inj hsubmit
    refine Or.inr ⟨rfl, ?_⟩
    rintro ⟨node, cause, hopened, -⟩
    rw [hnone] at hopened
    cases hopened
  · next opened hopened =>
    obtain ⟨node, closed⟩ := opened
    cases closed with
    | true =>
      obtain rfl := Except.error.inj hsubmit
      refine Or.inr ⟨rfl, ?_⟩
      rintro ⟨node', cause, hopened', -⟩
      rw [hopened] at hopened'
      cases hopened'
    | false =>
      cases hcheck : s.relay.relay.grants.check node dbid capabilities with
      | ok held =>
        rw [hcheck] at hsubmit
        cases hsubmit
      | error refusal =>
        rw [hcheck] at hsubmit
        obtain rfl := Except.error.inj hsubmit
        refine Or.inl ⟨?_, node, _, hopened, hcheck⟩
        unfold Grants.check at hcheck
        split at hcheck
        · cases hcheck
        · exact Except.error.inj hcheck ▸ rfl

/-- A request that is forbidden is not taken in. -/
theorem submit_of_forbids (s : SocketRun) {dbid capabilities : UInt64} (raw : Bytes)
    (h : s.Forbids dbid capabilities) :
    ∃ cause, s.relay.relay.submit s.relay.now s.stream dbid capabilities raw = .error cause := by
  obtain ⟨node, cause, hopened, hcheck⟩ := h
  refine ⟨cause, ?_⟩
  simp only [Relay.submit, hopened, hcheck]
  rfl

section
variable (s : SocketRun) (m : SocketMessage) {tag dbid capabilities : UInt64} {raw : Bytes}
  (after : List SocketOp)

/-- A request that the relay does not take in is answered by the reason. -/
theorem answers_of_refused {cause : Error}
    (hsubmit : s.relay.relay.submit s.relay.now s.stream dbid capabilities raw = .error cause) :
    s.Answers m tag dbid capabilities raw after [.ofError (some tag) cause] where
  once := Nat.le_refl 1
  echoes := by
    intro f hf
    rw [List.mem_singleton.1 hf]
    refine Or.inr ⟨cause.kind, cause.message, rfl, ?_⟩
    rcases s.submit_error hsubmit with ⟨hkind, -⟩ | ⟨hkind, -⟩ <;> rw [hkind] <;> decide
  completed := by
    intro f hf id bytes
    rw [List.mem_singleton.1 hf]
    have hrefused : (s.relay.step (.submit s.stream dbid capabilities raw)).1 = .refused cause := by
      simp only [ClockedRelay.step, hsubmit]
    constructor
    · intro heq
      cases heq
    · rintro ⟨⟨ticket, hsubmitted⟩, -⟩
      rw [hrefused] at hsubmitted
      cases hsubmitted
  forbidden := by
    constructor
    · rintro ⟨text, hmem⟩
      have hkind := (RelayFrame.error.inj (List.mem_singleton.1 hmem)).2.1
      rcases s.submit_error hsubmit with ⟨-, hforbids⟩ | ⟨hlost, -⟩
      · exact hforbids
      · rw [hlost] at hkind
        exact absurd hkind (by decide)
    · intro hforbids
      rcases s.submit_error hsubmit with ⟨hkind, -⟩ | ⟨-, hnot⟩
      · exact ⟨cause.message, List.mem_singleton.2 (by rw [RelayFrame.ofError, hkind])⟩
      · exact absurd hforbids hnot

/-- A request that the relay takes in is not forbidden. -/
theorem not_forbids_of_submitted {ticket : Nat} {id : UInt32}
    (hsubmitted : (s.relay.step (.submit s.stream dbid capabilities raw)).1 =
      .submitted ticket id) : ¬s.Forbids dbid capabilities := by
  intro hforbids
  obtain ⟨cause, hsubmit⟩ := s.submit_of_forbids raw hforbids
  simp only [ClockedRelay.step, hsubmit] at hsubmitted
  cases hsubmitted

/-- A request that the relay takes in completes by the first answer to its id. -/
theorem completes_iff_of_submitted {ticket : Nat} {id : UInt32}
    (hsubmitted : (s.relay.step (.submit s.stream dbid capabilities raw)).1 =
      .submitted ticket id) (id' : UInt32) (bytes : Bytes) :
    s.Completes m dbid capabilities raw after id' bytes ↔ id' = id ∧
      (ClockedRelay.answersTo id ((s.step (.receive m)).relay.log
        ((s.step (.receive m)).relayOps after))).head? = some bytes := by
  rw [Completes, hsubmitted]
  constructor
  · rintro ⟨⟨ticket, heq⟩, hhead⟩
    obtain ⟨-, rfl⟩ := RelayAnswer.submitted.inj heq
    exact ⟨rfl, hhead⟩
  · rintro ⟨rfl, hhead⟩
    exact ⟨⟨ticket, rfl⟩, hhead⟩

/-- A request that is in and whose ticket has not reported has no frame. -/
theorem answers_nil (hallowed : ¬s.Forbids dbid capabilities) :
    s.Answers m tag dbid capabilities raw after [] where
  once := Nat.zero_le 1
  echoes := fun f hf => by cases hf
  completed := fun f hf => by cases hf
  forbidden := by
    constructor
    · rintro ⟨text, hmem⟩
      cases hmem
    · exact fun hforbids => absurd hforbids hallowed

section
variable {q : Accepted} (hsubmitted :
  (s.relay.step (.submit s.stream dbid capabilities raw)).1 = .submitted q.ticket q.id)
include hsubmitted

/-- A request whose ticket has reported an answer has a response with it. -/
theorem answers_of_told_ok {bytes : Bytes}
    (hfirst : (ClockedRelay.answersTo q.id ((s.step (.receive m)).relay.log
      ((s.step (.receive m)).relayOps after))).head? = some bytes) :
    s.Answers m tag dbid capabilities raw after [.response tag q.id bytes] where
  once := Nat.le_refl 1
  echoes := fun f hf => Or.inl ⟨q.id, bytes, List.mem_singleton.1 hf⟩
  completed := by
    intro f hf id answer
    rw [List.mem_singleton.1 hf, s.completes_iff_of_submitted m after hsubmitted, hfirst,
      RelayFrame.response.injEq, Option.some.injEq]
    constructor
    · rintro ⟨-, rfl, rfl⟩
      exact ⟨rfl, rfl⟩
    · rintro ⟨rfl, rfl⟩
      exact ⟨rfl, rfl, rfl⟩
  forbidden := by
    constructor
    · rintro ⟨text, hmem⟩
      cases List.mem_singleton.1 hmem
    · exact fun hforbids => absurd hforbids (s.not_forbids_of_submitted hsubmitted)

/-- A request whose ticket has reported an error has a frame that says so. -/
theorem answers_of_told_error {cause : Error}
    (hfirst : (ClockedRelay.answersTo q.id ((s.step (.receive m)).relay.log
      ((s.step (.receive m)).relayOps after))).head? = none)
    (hkind : cause.kind = "request_timeout" ∨ cause.kind = "connection_lost") :
    s.Answers m tag dbid capabilities raw after [.ofError (some tag) cause] where
  once := Nat.le_refl 1
  echoes := by
    intro f hf
    refine Or.inr ⟨cause.kind, cause.message, List.mem_singleton.1 hf, ?_⟩
    rcases hkind with hkind | hkind <;> rw [hkind] <;> decide
  completed := by
    intro f hf id answer
    rw [List.mem_singleton.1 hf, s.completes_iff_of_submitted m after hsubmitted, hfirst]
    constructor
    · intro heq
      cases heq
    · rintro ⟨-, hhead⟩
      cases hhead
  forbidden := by
    constructor
    · rintro ⟨text, hmem⟩
      have hviolation := (RelayFrame.error.inj (List.mem_singleton.1 hmem)).2.1
      rcases hkind with hkind | hkind <;> rw [hkind] at hviolation <;>
        exact absurd hviolation (by decide)
    · exact fun hforbids => absurd hforbids (s.not_forbids_of_submitted hsubmitted)

/-- A request that the relay takes in is answered by what its ticket has reported, if it has. -/
theorem answers_of_follows {last : SocketRun} {message : Nat} {told : Option Outcome}
    (hfollows : last.Follows message tag q (ClockedRelay.answersTo q.id
      ((s.step (.receive m)).relay.log ((s.step (.receive m)).relayOps after))).head? told) :
    s.Answers m tag dbid capabilities raw after (last.framesOf message) := by
  rw [hfollows.frames]
  cases told with
  | none => exact s.answers_nil m after (s.not_forbids_of_submitted hsubmitted)
  | some o =>
    obtain ⟨hfirst, hend⟩ := hfollows.standing.of_told
    cases o with
    | ok bytes => exact s.answers_of_told_ok m after hsubmitted hfirst
    | error cause => exact s.answers_of_told_error m after hsubmitted hfirst (hend cause rfl)

end

end

/-! ## Sessions -/

/-- What the node is sent for a message, `frames` being all frames for it in a run that goes on with
`after`. -/
def Replies (s : SocketRun) (m : SocketMessage) (after : List SocketOp)
    (frames : List RelayFrame) : Prop :=
  match m.decode NodeFrame.decode with
  | none => frames = [] ∧ s.step (.receive m) = { s with received := s.received + 1 }
  | some (.error cause) =>
    frames = [.error none "bad_request" (Error.invalidFrame cause).message] ∧
      s.step (.receive m) = { s with
        received := s.received + 1
        sent := s.sent ++ frames.map fun f => (s.received, f) }
  | some (.ok (.grant dbid capabilities)) =>
    frames = match s.relay.relay.grant s.stream dbid capabilities with
      | .ok _ => []
      | .error cause => [.error none cause.kind cause.message]
  | some (.ok (.request tag dbid capabilities raw)) =>
    s.Answers m tag dbid capabilities raw after frames

/-- The request of a frame that the relay has just taken in has a task and no frame. -/
theorem follows_receive {s : SocketRun} {qs : List Accepted} (h : s.Sound qs) {m : SocketMessage}
    {tag : UInt64} {q : Accepted} (hwaits : (s.step (.receive m)).relay.relay.Waits q)
    (hstep : s.step (.receive m) = { s with
      relay := (s.step (.receive m)).relay
      tasks := s.tasks ++ [⟨s.received, ⟨tag, q.id, q.ticket⟩⟩]
      received := s.received + 1 }) :
    (s.step (.receive m)).Follows s.received tag q none none where
  standing := .waits hwaits
  received := by
    rw [hstep]
    exact Nat.lt_succ_self _
  frames := by
    rw [hstep]
    exact framesOf_received h
  waiting := fun _ => by
    rw [hstep]
    exact List.mem_append_right _ (List.mem_singleton_self _)
  done := fun hsome => absurd rfl hsome

/-- A request frame is answered at once by the reason why the relay does not take its request in, or
its request is followed to the end of the run. -/
theorem request_receive {s : SocketRun} {qs : List Accepted} (h : s.Sound qs) {m : SocketMessage}
    {tag dbid capabilities : UInt64} {raw : Bytes}
    (hm : m.decode NodeFrame.decode = some (.ok (.request tag dbid capabilities raw)))
    (after : List SocketOp)
    (hfew : (qs ++ s.relay.accepted (s.relayOps (.receive m :: after))).length < UInt32.size) :
    let next := s.step (.receive m)
    (∃ cause, s.relay.relay.submit s.relay.now s.stream dbid capabilities raw = .error cause ∧
        (next.run after).framesOf s.received = [.ofError (some tag) cause]) ∨
      ∃ q told, (s.relay.step (.submit s.stream dbid capabilities raw)).1 =
          .submitted q.ticket q.id ∧
        (next.run after).Follows s.received tag q
          (ClockedRelay.answersTo q.id (next.relay.log (next.relayOps after))).head? told := by
  rcases s.step_request hm with ⟨ticket, id, hanswer, hstep⟩ | ⟨cause, hsubmit, hstep⟩
  · right
    obtain ⟨hfew', hrest⟩ := few_cons hfew
    obtain ⟨q, haccepts, rfl, rfl, -⟩ := s.relay.accepts_of_submitted hanswer
    obtain ⟨henters, hrelay⟩ := s.relay.enters_of_accepts _ q haccepts
    have hwaits : (s.step (.receive m)).relay.relay.Waits q := by
      rw [hstep, hrelay]
      exact henters.waits h.consistent
    have hq : q ∈ qs ++ s.relay.accepted (s.does (.receive m)).toList := by
      rw [ClockedRelay.accepted_toList, does, hm, Option.bind_some, haccepts]
      exact List.mem_append_right _ (List.mem_singleton_self q)
    obtain ⟨told, hlast⟩ := follows_run (sound_step h (.receive m) hfew') hq
      (follows_receive h hwaits (by rw [hstep])) after hrest
    rw [Option.none_or] at hlast
    exact ⟨q, told, hanswer, hlast⟩
  · left
    refine ⟨cause, hsubmit, framesOf_message h [.ofError (some tag) cause] ?_ ?_ ?_ after⟩ <;>
      rw [hstep]
    rfl

theorem replies_receive {s : SocketRun} {qs : List Accepted} (h : s.Sound qs) (m : SocketMessage)
    (after : List SocketOp)
    (hfew : (qs ++ s.relay.accepted (s.relayOps (.receive m :: after))).length < UInt32.size) :
    s.Replies m after (((s.step (.receive m)).run after).framesOf s.received) := by
  unfold Replies
  split
  · next hm =>
    have hstep := s.step_control hm
    refine ⟨framesOf_message h [] ?_ ?_ ?_ after, hstep⟩ <;> rw [hstep]
    exact (List.append_nil _).symm
  · next cause hm =>
    have hstep := s.step_undecodable hm
    rw [framesOf_message h [.ofError none (.invalidFrame cause)] (by rw [hstep])
      (by rw [hstep]) (by rw [hstep]; rfl) after]
    exact ⟨rfl, hstep⟩
  · next dbid capabilities hm =>
    rcases s.step_grant hm with ⟨⟨relay, hgrant⟩, hstep⟩ | ⟨cause, hgrant, hstep⟩ <;> rw [hgrant]
    · refine framesOf_message h [] ?_ ?_ ?_ after <;> rw [hstep]
      exact (List.append_nil _).symm
    · refine framesOf_message h [.ofError none cause] ?_ ?_ ?_ after <;> rw [hstep]
      rfl
  · next tag dbid capabilities raw hm =>
    rcases request_receive h hm after hfew with
      ⟨cause, hsubmit, hframes⟩ | ⟨q, told, hanswer, hlast⟩
    · rw [hframes]
      exact s.answers_of_refused m after hsubmit
    · exact s.answers_of_follows m after hanswer hlast

/-- When no task is left, every request frame has been answered. -/
theorem length_framesOf_request {s : SocketRun} {qs : List Accepted} (h : s.Sound qs)
    {m : SocketMessage} {tag dbid capabilities : UInt64} {raw : Bytes}
    (hm : m.decode NodeFrame.decode = some (.ok (.request tag dbid capabilities raw)))
    (after : List SocketOp)
    (hfew : (qs ++ s.relay.accepted (s.relayOps (.receive m :: after))).length < UInt32.size)
    (hdone : ((s.step (.receive m)).run after).tasks = []) :
    (((s.step (.receive m)).run after).framesOf s.received).length = 1 := by
  rcases request_receive h hm after hfew with ⟨cause, -, hframes⟩ | ⟨q, told, -, hlast⟩
  · rw [hframes]
    rfl
  · rw [hlast.frames]
    cases told with
    | none =>
      have hwaiting := hlast.waiting rfl
      rw [hdone] at hwaiting
      cases hwaiting
    | some o => rfl

/-- In a session of a node's WebSocket every frame that is sent answers a message.  A request frame
is answered by one frame at most, and by one if the run closes the stream and then gives every task
a turn: by a response with its tag, its id and the first answer to it that is accepted, if there is
one, and otherwise by an error with its tag, which is a capability violation just if the check of
the grants refused the request.  A grant frame is answered only if it is refused, and a message that
is no frame by a bad request; it changes nothing else, and neither does a control message. -/
theorem frames_of_session (settings : RelaySettings) (now : Nat) (before : List RelayOp)
    (node : NodeId) (ops : List SocketOp)
    (hfew : ((ClockedRelay.start settings now).accepted (before ++ .openStream node ::
      (connect ((ClockedRelay.start settings now).run before) node).relayOps ops)).length <
        UInt32.size) :
    let s := connect ((ClockedRelay.start settings now).run before) node
    (∀ p ∈ (s.run ops).sent, p.1 < (s.run ops).received) ∧
      ∀ reading m after, ops = reading ++ .receive m :: after →
        let message := (s.run reading).received
        (s.run reading).Replies m after ((s.run ops).framesOf message) ∧
          ∀ tag dbid capabilities raw,
            m.decode NodeFrame.decode = some (.ok (.request tag dbid capabilities raw)) →
            s.Finishes ops → ((s.run ops).framesOf message).length = 1 := by
  intro s
  rw [ClockedRelay.accepted_append] at hfew
  have hbefore : ((ClockedRelay.start settings now).run before).relay.Consistent
      ((ClockedRelay.start settings now).accepted before) := by
    have hrun := (ClockedRelay.start settings now).consistent_run [] before
      (Relay.consistent_start settings)
    rw [List.nil_append] at hrun
    refine hrun (Nat.lt_of_le_of_lt ?_ hfew)
    rw [List.length_append]
    exact Nat.le_add_right _ _
  have h : s.Sound _ := sound_connect hbefore node
  -- opening the stream submits nothing
  replace hfew : ((ClockedRelay.start settings now).accepted before ++
      s.relay.accepted (s.relayOps ops)).length < UInt32.size := hfew
  refine ⟨(sound_run h ops hfew).earlier, ?_⟩
  rintro reading m after rfl message
  obtain ⟨hreading, hrest⟩ := few_append hfew
  have hsound := sound_run h reading hreading
  have hrun : s.run (reading ++ .receive m :: after) =
      ((s.run reading).step (.receive m)).run after := s.run_append reading _
  refine ⟨hrun ▸ replies_receive hsound m after hrest, ?_⟩
  intro tag dbid capabilities raw hm hfinishes
  have hdone := tasks_done h _ hfew hfinishes
  rw [hrun] at hdone ⊢
  exact length_framesOf_request hsound hm after hrest hdone

/-- A request that a signer answers before the stream is closed is answered by a response, although
its task has its turn only afterwards. -/
theorem response_after_close :
    let node : NodeId := ⟨List.replicate 32 7, rfl⟩
    let m := SocketMessage.text
      "\x7b\"type\":\"request\",\"tag\":41,\"dbid\":0,\"capabilities\":4,\"raw\":\"0102\"\x7d"
    let s := connect ((ClockedRelay.start ⟨10, 5⟩ 0).run [.attach node]) node
    let ops := [.receive m, .other (.respond 1 ⟨1, [9]⟩), .close, .turn 0]
    ((ClockedRelay.start ⟨10, 5⟩ 0).accepted
        ([.attach node] ++ .openStream node :: s.relayOps ops)).length < UInt32.size ∧
      (s.run ops).framesOf 0 = [.response 41 1 [9]] := by
  intro node m s ops
  have hm : m.decode NodeFrame.decode = some (.ok (.request 41 0 4 [1, 2])) := by
    have hframe : (m.decode NodeFrame.decode).bind Except.toOption =
        some (.request 41 0 4 [1, 2]) := by decide +kernel
    rcases hdecoded : m.decode NodeFrame.decode with _ | _ | frame <;> rw [hdecoded] at hframe <;>
      cases hframe
    rfl
  -- from here on the message counts as its frame alone
  clear_value m
  have hstep : s.step (.receive m) =
      ⟨(s.relay.step (.submit 1 0 4 [1, 2])).2, 1, [⟨0, ⟨41, 1, 1⟩⟩], 1, []⟩ := by
    rcases s.step_request hm with ⟨ticket, id, hanswer, hstep⟩ | ⟨cause, hsubmit, -⟩
    · obtain ⟨rfl, rfl⟩ := RelayAnswer.submitted.inj hanswer
      exact hstep
    · cases hsubmit
  have hops : s.relayOps ops =
      [.submit 1 0 4 [1, 2], .respond 1 ⟨1, [9]⟩, .closeStream 1, .poll 1] := by
    rw [relayOps, hstep, does, hm]
    rfl
  have hfew : ((ClockedRelay.start ⟨10, 5⟩ 0).accepted
      ([.attach node] ++ .openStream node :: s.relayOps ops)).length < UInt32.size := by
    rw [hops]
    decide
  refine ⟨hfew, ?_⟩
  obtain ⟨hreplies, hone⟩ := (frames_of_session ⟨10, 5⟩ 0 [.attach node] node ops hfew).2 [] m
    [.other (.respond 1 ⟨1, [9]⟩), .close, .turn 0] rfl
  have hfinishes : s.Finishes ops := by
    refine ⟨[.receive m, .other (.respond 1 ⟨1, [9]⟩)], [.turn 0], rfl, fun task hmem => ?_⟩
    have htasks : (s.run [.receive m, .other (.respond 1 ⟨1, [9]⟩)]).tasks =
        [⟨0, ⟨41, 1, 1⟩⟩] := by
      rw [run, List.foldl_cons, hstep]
      rfl
    rw [htasks] at hmem
    rw [List.mem_singleton.1 hmem]
    exact List.mem_singleton_self _
  have hcompletes : s.Completes m 0 4 [1, 2]
      [.other (.respond 1 ⟨1, [9]⟩), .close, .turn 0] 1 [9] := by
    refine ⟨⟨1, rfl⟩, ?_⟩
    rw [hstep]
    rfl
  rw [Replies, hm] at hreplies
  obtain ⟨f, hf⟩ := List.length_eq_one_iff.1 (hone 41 0 4 [1, 2] hm hfinishes)
  have hresponse := (hreplies.completed f (hf ▸ List.mem_singleton_self f) 1 [9]).2 hcompletes
  exact hf.trans (congrArg (fun f => [f]) hresponse)

end SocketRun

end SigningGateway
