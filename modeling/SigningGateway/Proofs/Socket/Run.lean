import SigningGateway.Proofs.Relay.Origin
import SigningGateway.Socket.Node

/-!
# Runs of the WebSocket of a node

A node sends messages on its WebSocket.  Every request that the relay accepts gets a task of its
own, which waits for the outcome and sends the frame for it; the tasks have their turns in any
order, between the messages, after the stream was closed, and while anything else is done to the
relay.  Messages are counted, so that each frame can be told by the message that it answers.

    (s.run ops).relay = s.relay.run (s.relayOps ops)                                  (relay_run)
    one turn of every task = collect                                            (collect_eq_run)
    closing, and then one turn of every task = close                              (close_eq_run)
-/

namespace SigningGateway

/-- What happens to the WebSocket of a node and to the relay around it. -/
inductive SocketOp
  | receive (m : SocketMessage)
  /-- The task for a message looks whether its request has ended. -/
  | turn (message : Nat)
  /-- No more messages are read. -/
  | close
  /-- Anything else is done to the relay: by signers, other streams, time or sweeping. -/
  | other (op : RelayOp)

/-- A task that waits for the outcome of the request in a message. -/
structure SocketTask where
  message : Nat
  awaited : AwaitedAnswer

/-- The WebSocket of a node, with what was sent on it and the message that each frame answers. -/
structure SocketRun where
  relay : ClockedRelay
  stream : Nat
  tasks : List SocketTask
  /-- The number of messages that came in. -/
  received : Nat
  sent : List (Nat × RelayFrame)

namespace ClockedRelay

/-- A request that was submitted has been accepted, on its stream. -/
theorem accepts_of_submitted (s : ClockedRelay) {stream : Nat} {dbid capabilities : UInt64}
    {raw : Bytes} {ticket : Nat} {id : UInt32}
    (h : (s.step (.submit stream dbid capabilities raw)).1 = .submitted ticket id) :
    ∃ q, s.accepts (.submit stream dbid capabilities raw) = some q ∧ q.ticket = ticket ∧
      q.id = id ∧ q.stream = stream := by
  cases haccepts : s.accepts (.submit stream dbid capabilities raw) with
  | none =>
    obtain ⟨cause, hrefused⟩ := s.refused_of_not_accepts stream dbid capabilities raw haccepts
    rw [hrefused] at h
    cases h
  | some q =>
    obtain ⟨hop, hanswer, -⟩ := s.submit_of_accepts _ q haccepts
    rw [hanswer] at h
    cases h
    cases hop
    exact ⟨q, rfl, rfl, rfl, rfl⟩

/-- A ticket that reports nothing changes nothing. -/
theorem step_of_pending (s : ClockedRelay) (ticket : Nat)
    (h : (s.step (.poll ticket)).1 = .polled none) : (s.step (.poll ticket)).2 = s := by
  simp only [step, Relay.poll] at h ⊢
  split at h
  · rfl
  · split at h
    · cases h
    · cases h
    · split at h
      · cases h
      · next hearly => rw [if_neg hearly]

end ClockedRelay

namespace SocketRun

def connect (r : ClockedRelay) (node : NodeId) : SocketRun :=
  let (socket, relay) := NodeSocket.connect r.relay node
  ⟨{ r with relay }, socket.stream, [], 0, []⟩

/-- The WebSocket as the gateway holds it. -/
def socket (s : SocketRun) : NodeSocket := ⟨s.stream, s.tasks.map SocketTask.awaited⟩

/-- Whether an operation is left to the WebSocket alone: it is about its stream, or about a ticket
that one of its tasks holds. -/
def owns (s : SocketRun) : RelayOp → Bool
  | .closeStream stream | .dropStream stream => stream = s.stream
  | .submit stream .. | .grant stream .. => stream = s.stream
  | .poll ticket | .abandon ticket => s.tasks.any fun task => task.awaited.ticket = ticket
  | _ => false

/-- The task for a message. -/
def task? (s : SocketRun) (message : Nat) : Option SocketTask :=
  s.tasks.find? fun task => task.message = message

def step (s : SocketRun) : SocketOp → SocketRun
  | .receive m =>
    let (frames, socket, relay) := s.socket.receive s.relay.relay s.relay.now m
    { s with
      relay := { s.relay with relay }
      tasks := s.tasks ++ (socket.awaited.drop s.tasks.length).map fun a => ⟨s.received, a⟩
      received := s.received + 1
      sent := s.sent ++ frames.map fun f => (s.received, f) }
  | .turn message =>
    match s.task? message with
    | none => s
    | some task =>
      let (frames, left, relay) :=
        NodeSocket.collectFrom s.relay.relay s.relay.now [task.awaited]
      { s with
        relay := { s.relay with relay }
        tasks := if left.isEmpty then s.tasks.filter fun t => t.message ≠ message else s.tasks
        sent := s.sent ++ frames.map fun f => (message, f) }
  | .close => { s with relay := (s.relay.step (.closeStream s.stream)).2 }
  | .other op => if s.owns op then s else { s with relay := (s.relay.step op).2 }

def run (s : SocketRun) (ops : List SocketOp) : SocketRun := ops.foldl step s

/-- The frames that were sent for a message. -/
def framesOf (s : SocketRun) (message : Nat) : List RelayFrame :=
  (s.sent.filter fun p => p.1 = message).map Prod.snd

/-- What is done to the relay. -/
def does (s : SocketRun) : SocketOp → Option RelayOp
  | .receive m =>
    match m.decode NodeFrame.decode with
    | some (.ok (.request _ dbid capabilities raw)) =>
      some (.submit s.stream dbid capabilities raw)
    | some (.ok (.grant dbid capabilities)) => some (.grant s.stream dbid capabilities)
    | _ => none
  | .turn message => (s.task? message).map fun task => .poll task.awaited.ticket
  | .close => some (.closeStream s.stream)
  | .other op => if s.owns op then none else some op

/-- What is done to the relay in a run. -/
def relayOps (s : SocketRun) : List SocketOp → List RelayOp
  | [] => []
  | op :: ops => (s.does op).toList ++ relayOps (s.step op) ops

theorem run_append (s : SocketRun) (ops more : List SocketOp) :
    s.run (ops ++ more) = (s.run ops).run more :=
  List.foldl_append

theorem relayOps_append (s : SocketRun) (ops more : List SocketOp) :
    s.relayOps (ops ++ more) = s.relayOps ops ++ (s.run ops).relayOps more := by
  induction ops generalizing s with
  | nil => rfl
  | cons op ops ih =>
    rw [List.cons_append, relayOps, relayOps, ih, List.append_assoc]
    rfl

/-! ## Messages -/

section
variable (s : SocketRun) {m : SocketMessage}

theorem step_control (hm : m.decode NodeFrame.decode = none) :
    s.step (.receive m) = { s with received := s.received + 1 } := by
  simp [step, NodeSocket.receive, hm, socket]

theorem step_undecodable {cause : Json.DecodeError}
    (hm : m.decode NodeFrame.decode = some (.error cause)) :
    s.step (.receive m) = { s with
      received := s.received + 1
      sent := s.sent ++ [(s.received, .ofError none (.invalidFrame cause))] } := by
  simp [step, NodeSocket.receive, hm, socket]

theorem step_grant {dbid capabilities : UInt64}
    (hm : m.decode NodeFrame.decode = some (.ok (.grant dbid capabilities))) :
    ((∃ relay, s.relay.relay.grant s.stream dbid capabilities = .ok relay) ∧
        s.step (.receive m) = { s with
          relay := (s.relay.step (.grant s.stream dbid capabilities)).2
          received := s.received + 1 }) ∨
      ∃ cause, s.relay.relay.grant s.stream dbid capabilities = .error cause ∧
        s.step (.receive m) = { s with
          relay := (s.relay.step (.grant s.stream dbid capabilities)).2
          received := s.received + 1
          sent := s.sent ++ [(s.received, .ofError none cause)] } := by
  cases hgrant : s.relay.relay.grant s.stream dbid capabilities with
  | ok relay =>
    left
    simp [step, NodeSocket.receive, NodeSocket.receiveFrame, hm, socket, hgrant,
      ClockedRelay.step]
  | error cause =>
    right
    simp [step, NodeSocket.receive, NodeSocket.receiveFrame, hm, socket, hgrant,
      ClockedRelay.step]

/-- A request that the relay accepts gets a task; one that it refuses is answered at once. -/
theorem step_request {tag dbid capabilities : UInt64} {raw : Bytes}
    (hm : m.decode NodeFrame.decode = some (.ok (.request tag dbid capabilities raw))) :
    (∃ ticket id,
        (s.relay.step (.submit s.stream dbid capabilities raw)).1 = .submitted ticket id ∧
        s.step (.receive m) = { s with
          relay := (s.relay.step (.submit s.stream dbid capabilities raw)).2
          tasks := s.tasks ++ [⟨s.received, ⟨tag, id, ticket⟩⟩]
          received := s.received + 1 }) ∨
      ∃ cause, s.relay.relay.submit s.relay.now s.stream dbid capabilities raw = .error cause ∧
        s.step (.receive m) = { s with
          relay := (s.relay.step (.submit s.stream dbid capabilities raw)).2
          received := s.received + 1
          sent := s.sent ++ [(s.received, .ofError (some tag) cause)] } := by
  cases hsubmit : s.relay.relay.submit s.relay.now s.stream dbid capabilities raw with
  | ok accepted =>
    obtain ⟨⟨ticket, id⟩, relay⟩ := accepted
    left
    refine ⟨ticket, id, by simp only [ClockedRelay.step, hsubmit], ?_⟩
    simp [step, NodeSocket.receive, NodeSocket.receiveFrame, hm, socket, hsubmit,
      ClockedRelay.step]
  | error cause =>
    right
    refine ⟨cause, rfl, ?_⟩
    simp [step, NodeSocket.receive, NodeSocket.receiveFrame, hm, socket, hsubmit,
      ClockedRelay.step]

end

/-! ## Turns -/

/-- A task that has its turn sends its frame and is gone if its ticket reports an outcome. -/
theorem step_turn (s : SocketRun) {message : Nat} {task : SocketTask}
    (htask : s.task? message = some task) :
    (∃ o, (s.relay.step (.poll task.awaited.ticket)).1 = .polled (some o) ∧
        s.step (.turn message) = { s with
          relay := (s.relay.step (.poll task.awaited.ticket)).2
          tasks := s.tasks.filter fun t => t.message ≠ message
          sent := s.sent ++ [(message, NodeSocket.answerFrame task.awaited o)] }) ∨
      (s.relay.step (.poll task.awaited.ticket)).1 = .polled none ∧
        s.step (.turn message) =
          { s with relay := (s.relay.step (.poll task.awaited.ticket)).2 } := by
  rcases hpoll : s.relay.relay.poll s.relay.now task.awaited.ticket with ⟨_ | o, relay⟩
  · right
    simp [step, htask, NodeSocket.collectFrom, hpoll, ClockedRelay.step]
  · left
    refine ⟨o, by simp only [ClockedRelay.step, hpoll], ?_⟩
    simp [step, htask, NodeSocket.collectFrom, hpoll, ClockedRelay.step]

theorem step_turn_of_none (s : SocketRun) {message : Nat} (hnone : s.task? message = none) :
    s.step (.turn message) = s := by
  simp only [step, hnone]

theorem mem_of_task? {s : SocketRun} {message : Nat} {task : SocketTask}
    (htask : s.task? message = some task) : task ∈ s.tasks ∧ task.message = message :=
  ⟨List.mem_of_find?_eq_some htask, by simpa using List.find?_some htask⟩

/-- If no two tasks are for one message, each is found. -/
theorem task?_of_mem {s : SocketRun} (hdistinct : (s.tasks.map SocketTask.message).Nodup)
    {task : SocketTask} (hmem : task ∈ s.tasks) : s.task? task.message = some task := by
  unfold task?
  generalize s.tasks = tasks at hdistinct hmem
  induction tasks with
  | nil => cases hmem
  | cons first tasks ih =>
    rw [List.map_cons, List.nodup_cons] at hdistinct
    rcases List.mem_cons.1 hmem with rfl | hmem
    · exact List.find?_cons_of_pos (by simp)
    · have hne : first.message ≠ task.message := fun heq =>
        hdistinct.1 (heq ▸ List.mem_map_of_mem hmem)
      rw [List.find?_cons_of_neg (by simpa using hne)]
      exact ih hdistinct.2 hmem

/-! ## What a step changes -/

/-- What is not left to the WebSocket is about another stream and about other tickets. -/
theorem ne_of_not_owns {s : SocketRun} {op : RelayOp} (h : s.owns op = false) :
    op ≠ .closeStream s.stream ∧ op ≠ .dropStream s.stream ∧
      ∀ task ∈ s.tasks, op ≠ .poll task.awaited.ticket ∧ op ≠ .abandon task.awaited.ticket := by
  refine ⟨?_, ?_, fun task htask => ⟨?_, ?_⟩⟩
  · rintro rfl
    exact absurd h (by simp [owns])
  · rintro rfl
    exact absurd h (by simp [owns])
  · rintro rfl
    exact absurd (List.any_eq_true.2 ⟨task, htask, by simp⟩) (ne_true_of_eq_false h)
  · rintro rfl
    exact absurd (List.any_eq_true.2 ⟨task, htask, by simp⟩) (ne_true_of_eq_false h)

/-- What becomes of a WebSocket in one step, with what is done to the relay. -/
inductive Change (s : SocketRun) : Option RelayOp → SocketRun → Prop
  | nothing : Change s none s
  /-- A message is no frame. -/
  | noted (frames : List RelayFrame) : Change s none { s with
      received := s.received + 1
      sent := s.sent ++ frames.map fun f => (s.received, f) }
  /-- A frame is answered at once, or not at all. -/
  | answered (op : RelayOp) (frames : List RelayFrame)
      (htickets : ∀ ticket, op ≠ .poll ticket ∧ op ≠ .abandon ticket)
      (hstreams : ∀ stream, op ≠ .closeStream stream ∧ op ≠ .dropStream stream) :
      Change s (some op) { s with
        relay := (s.relay.step op).2
        received := s.received + 1
        sent := s.sent ++ frames.map fun f => (s.received, f) }
  /-- A request gets a task. -/
  | submitted (tag dbid capabilities : UInt64) (raw : Bytes) (q : Accepted)
      (haccepts : s.relay.accepts (.submit s.stream dbid capabilities raw) = some q)
      (hstream : q.stream = s.stream) :
      Change s (some (.submit s.stream dbid capabilities raw)) { s with
        relay := (s.relay.step (.submit s.stream dbid capabilities raw)).2
        tasks := s.tasks ++ [⟨s.received, ⟨tag, q.id, q.ticket⟩⟩]
        received := s.received + 1 }
  | pending (task : SocketTask) (hmem : task ∈ s.tasks)
      (hreport : (s.relay.step (.poll task.awaited.ticket)).1 = .polled none) :
      Change s (some (.poll task.awaited.ticket)) s
  /-- A task sends its frame and is gone. -/
  | reported (task : SocketTask) (hmem : task ∈ s.tasks) (o : Outcome)
      (hreport : (s.relay.step (.poll task.awaited.ticket)).1 = .polled (some o)) :
      Change s (some (.poll task.awaited.ticket)) { s with
        relay := (s.relay.step (.poll task.awaited.ticket)).2
        tasks := s.tasks.filter fun t => t.message ≠ task.message
        sent := s.sent ++ [(task.message, NodeSocket.answerFrame task.awaited o)] }
  /-- Something is done to the relay that leaves the tickets of all tasks alone. -/
  | relayed (op : RelayOp) (hdrop : op ≠ .dropStream s.stream)
      (hmine : ∀ task ∈ s.tasks,
        op ≠ .poll task.awaited.ticket ∧ op ≠ .abandon task.awaited.ticket) :
      Change s (some op) { s with relay := (s.relay.step op).2 }

theorem change_step (s : SocketRun) (op : SocketOp) : s.Change (s.does op) (s.step op) := by
  cases op with
  | receive m =>
    cases hm : m.decode NodeFrame.decode with
    | none =>
      have hdoes : s.does (.receive m) = none := by simp only [does, hm]
      have hnoted := Change.noted (s := s) []
      rw [List.map_nil, List.append_nil] at hnoted
      rw [hdoes, s.step_control hm]
      exact hnoted
    | some decoded =>
      cases decoded with
      | error cause =>
        have hdoes : s.does (.receive m) = none := by simp only [does, hm]
        rw [hdoes, s.step_undecodable hm]
        exact .noted [.ofError none (.invalidFrame cause)]
      | ok frame =>
        cases frame with
        | grant dbid capabilities =>
          have hdoes : s.does (.receive m) = some (.grant s.stream dbid capabilities) := by
            simp only [does, hm]
          have hanswered := fun frames => Change.answered (s := s)
            (.grant s.stream dbid capabilities) frames (by simp) (by simp)
          rw [hdoes]
          rcases s.step_grant hm with ⟨-, hstep⟩ | ⟨cause, -, hstep⟩ <;> rw [hstep]
          · have hsilent := hanswered []
            rwa [List.map_nil, List.append_nil] at hsilent
          · exact hanswered [.ofError none cause]
        | request tag dbid capabilities raw =>
          have hdoes : s.does (.receive m) = some (.submit s.stream dbid capabilities raw) := by
            simp only [does, hm]
          rw [hdoes]
          rcases s.step_request hm with ⟨ticket, id, hanswer, hstep⟩ | ⟨cause, -, hstep⟩ <;>
            rw [hstep]
          · obtain ⟨q, haccepts, rfl, rfl, hstream⟩ := s.relay.accepts_of_submitted hanswer
            exact .submitted tag dbid capabilities raw q haccepts hstream
          · exact .answered _ [.ofError (some tag) cause] (by simp) (by simp)
  | turn message =>
    cases htask : s.task? message with
    | none =>
      have hdoes : s.does (.turn message) = none := by simp only [does, htask, Option.map_none]
      rw [hdoes, s.step_turn_of_none htask]
      exact .nothing
    | some task =>
      have hdoes : s.does (.turn message) = some (.poll task.awaited.ticket) := by
        simp only [does, htask, Option.map_some]
      obtain ⟨hmem, rfl⟩ := mem_of_task? htask
      rw [hdoes]
      rcases s.step_turn htask with ⟨o, hreport, hstep⟩ | ⟨hpending, hstep⟩ <;> rw [hstep]
      · exact .reported task hmem o hreport
      · rw [s.relay.step_of_pending _ hpending]
        exact .pending task hmem hpending
  | close => exact .relayed _ (by simp) (by simp)
  | other op =>
    cases howns : s.owns op with
    | true =>
      rw [show s.does (.other op) = none from if_pos howns,
        show s.step (.other op) = s from if_pos howns]
      exact .nothing
    | false =>
      rw [show s.does (.other op) = some op from if_neg (by simp [howns]),
        show s.step (.other op) = { s with relay := (s.relay.step op).2 } from
          if_neg (by simp [howns])]
      obtain ⟨-, hdrop, hmine⟩ := ne_of_not_owns howns
      exact .relayed op hdrop hmine

/-! ## The relay -/

/-- The relay of a WebSocket does one operation at most. -/
theorem relay_step (s : SocketRun) (op : SocketOp) :
    (s.step op).relay = s.relay.run (s.does op).toList := by
  have hchange := s.change_step op
  generalize s.does op = rop at hchange ⊢
  generalize s.step op = s' at hchange ⊢
  cases hchange with
  | pending task hmem hreport => exact (s.relay.step_of_pending _ hreport).symm
  | _ => rfl

theorem relay_run (s : SocketRun) (ops : List SocketOp) :
    (s.run ops).relay = s.relay.run (s.relayOps ops) := by
  induction ops generalizing s with
  | nil => rfl
  | cons op ops ih =>
    rw [relayOps, ClockedRelay.run_append, ← relay_step]
    exact ih (s.step op)

/-! ## All tasks at once -/

/-- Polling several tickets is polling the first one and then the others. -/
theorem collectFrom_cons (relay : Relay) (now : Nat) (a : AwaitedAnswer)
    (rest : List AwaitedAnswer) :
    let one := NodeSocket.collectFrom relay now [a]
    let more := NodeSocket.collectFrom one.2.2 now rest
    NodeSocket.collectFrom relay now (a :: rest) =
      (one.1 ++ more.1, one.2.1 ++ more.2.1, more.2.2) := by
  rcases hpoll : relay.poll now a.ticket with ⟨_ | o, after⟩ <;>
    simp [NodeSocket.collectFrom, hpoll]

/-- A turn polls the ticket of its task; the other tasks stay, in their order. -/
theorem step_turn_between (s : SocketRun) (kept rest : List SocketTask) (task : SocketTask)
    (htasks : s.tasks = kept ++ task :: rest)
    (hdistinct : (s.tasks.map SocketTask.message).Nodup) :
    let one := NodeSocket.collectFrom s.relay.relay s.relay.now [task.awaited]
    ∃ left, left.Sublist [task] ∧ left.map SocketTask.awaited = one.2.1 ∧
      s.step (.turn task.message) = { s with
        relay := ⟨one.2.2, s.relay.now⟩
        tasks := kept ++ left ++ rest
        sent := s.sent ++ one.1.map fun f => (task.message, f) } := by
  have hmem : task ∈ s.tasks := htasks ▸ List.mem_append_right _ List.mem_cons_self
  have htask := task?_of_mem hdistinct hmem
  rcases hpoll : s.relay.relay.poll s.relay.now task.awaited.ticket with ⟨_ | o, after⟩
  · refine ⟨[task], List.Sublist.refl _, ?_⟩
    simp [step, htask, NodeSocket.collectFrom, hpoll, htasks]
  · have hothers : (s.tasks.filter fun t => t.message ≠ task.message) = kept ++ rest := by
      rw [htasks, List.map_append, List.map_cons, List.nodup_append] at hdistinct
      obtain ⟨-, hrest, hkept⟩ := hdistinct
      rw [List.nodup_cons] at hrest
      rw [htasks, List.filter_append, List.filter_cons_of_neg (by simp)]
      congr 1 <;> rw [List.filter_eq_self] <;> intro t ht
      · exact decide_eq_true (hkept _ (List.mem_map_of_mem ht) _ List.mem_cons_self)
      · exact decide_eq_true fun heq => hrest.1 (heq ▸ List.mem_map_of_mem ht)
    refine ⟨[], List.nil_sublist _, ?_⟩
    rw [List.append_nil, ← hothers]
    simp [step, htask, NodeSocket.collectFrom, hpoll]

/-- One turn of each of the last tasks polls their tickets in order. -/
theorem run_turns (s : SocketRun) (kept rest : List SocketTask) (htasks : s.tasks = kept ++ rest)
    (hdistinct : (s.tasks.map SocketTask.message).Nodup) :
    let s' := s.run (rest.map fun task => .turn task.message)
    let polled := NodeSocket.collectFrom s.relay.relay s.relay.now (rest.map SocketTask.awaited)
    s'.relay.relay = polled.2.2 ∧
      s'.socket = ⟨s.stream, kept.map SocketTask.awaited ++ polled.2.1⟩ ∧
      s'.sent.map Prod.snd = s.sent.map Prod.snd ++ polled.1 := by
  induction rest generalizing s kept with
  | nil =>
    refine ⟨rfl, ?_, (List.append_nil _).symm⟩
    show s.socket = _
    rw [socket, htasks, List.append_nil]
    exact congrArg _ (List.append_nil _).symm
  | cons task rest ih =>
    obtain ⟨left, hsub, hleft, hstep⟩ := s.step_turn_between kept rest task htasks hdistinct
    have hfewer : (kept ++ left ++ rest).Sublist (kept ++ task :: rest) := by
      rw [List.append_assoc]
      exact List.Sublist.append_left (hsub.append_right rest) kept
    have hnext := ih (s.step (.turn task.message)) (kept ++ left) (by rw [hstep]) (by
      rw [hstep]
      exact (hfewer.map _).nodup (htasks ▸ hdistinct))
    have hrun : s.run ((task :: rest).map fun task => .turn task.message) =
        (s.step (.turn task.message)).run (rest.map fun task => .turn task.message) := rfl
    rw [hrun, List.map_cons, collectFrom_cons]
    refine ⟨hnext.1.trans ?_, hnext.2.1.trans ?_, hnext.2.2.trans ?_⟩
    · rw [hstep]
    · rw [hstep, List.map_append, hleft]
      exact congrArg _ (List.append_assoc _ _ _)
    · rw [hstep]
      simp [Function.comp_def]

/-- Collecting the frames of all requests is a run in which each task has one turn. -/
theorem collect_eq_run (s : SocketRun) (hdistinct : (s.tasks.map SocketTask.message).Nodup) :
    let s' := s.run (s.tasks.map fun task => .turn task.message)
    ∃ frames, s.socket.collect s.relay.relay s.relay.now = (frames, s'.socket, s'.relay.relay) ∧
      s'.sent.map Prod.snd = s.sent.map Prod.snd ++ frames := by
  obtain ⟨hrelay, hsocket, hsent⟩ := s.run_turns [] s.tasks rfl hdistinct
  refine ⟨_, ?_, hsent⟩
  rw [hrelay, hsocket]
  rfl

/-- The end of a WebSocket is a run that closes the stream and gives each task a turn; then the
stream is let go. -/
theorem close_eq_run (s : SocketRun) (hdistinct : (s.tasks.map SocketTask.message).Nodup) :
    let s' := s.run (.close :: s.tasks.map fun task => .turn task.message)
    ∃ frames, s.socket.close s.relay.relay s.relay.now =
        (frames, s'.relay.relay.dropStream s.stream) ∧
      s'.sent.map Prod.snd = s.sent.map Prod.snd ++ frames := by
  obtain ⟨frames, hcollect, hsent⟩ := collect_eq_run (s.step .close) hdistinct
  refine ⟨frames, ?_, hsent⟩
  have hclosed : s.socket.collect (s.relay.relay.closeStream s.socket.stream) s.relay.now = _ :=
    hcollect
  rw [NodeSocket.close, hclosed]
  rfl

end SocketRun

end SigningGateway
