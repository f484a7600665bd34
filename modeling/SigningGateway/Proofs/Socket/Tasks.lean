import Mathlib.Data.List.Nodup
import SigningGateway.Proofs.Relay.Answers
import SigningGateway.Proofs.Socket.Run

/-!
# The tasks of a WebSocket

Each task holds the ticket of a request of its own, which nobody else polls or gives up; so a frame
is sent for a request just when its ticket reports, and its task is gone from then on.

    Sound s qs → Sound (s.step op) (qs ++ what the step had accepted)                (sound_step)
    s.Follows message tag q first → (s.run ops).Follows message tag q (first or an answer)
                                                                                   (follows_run)
-/

namespace SigningGateway

namespace ClockedRelay

theorem accepted_toList (s : ClockedRelay) (op : Option RelayOp) :
    s.accepted op.toList = (op.bind s.accepts).toList := by
  cases op with
  | none => rfl
  | some op => exact List.append_nil _

end ClockedRelay

namespace SocketRun

/-! ## What holds of a WebSocket -/

/-- What holds of a WebSocket whose relay has accepted the requests `qs`: every task holds the
ticket of a request on its stream, and no two tasks are for one message or hold one ticket. -/
structure Sound (s : SocketRun) (qs : List Accepted) : Prop where
  consistent : s.relay.relay.Consistent qs
  held : ∃ opened, s.relay.relay.streams.get? s.stream = some opened
  submitted : ∀ task ∈ s.tasks, ∃ q ∈ qs, q.ticket = task.awaited.ticket ∧
    q.id = task.awaited.id ∧ q.stream = s.stream ∧
    ∃ t, s.relay.relay.tickets.get? q.ticket = some t
  messages : (s.tasks.map SocketTask.message).Nodup
  tickets : (s.tasks.map fun task => task.awaited.ticket).Nodup
  early : ∀ task ∈ s.tasks, task.message < s.received
  earlier : ∀ p ∈ s.sent, p.1 < s.received

namespace Sound

variable {s : SocketRun} {qs : List Accepted} (h : s.Sound qs)
include h

theorem streamNumber : s.stream < s.relay.relay.nextStream := by
  obtain ⟨opened, hopened⟩ := h.held
  exact h.consistent.streamNumbers _ _ hopened

/-- More messages come in, and frames for them and for earlier ones are sent. -/
theorem receives (received : Nat) (sent : List (Nat × RelayFrame)) (hlater : s.received ≤ received)
    (hsent : ∀ p ∈ sent, p.1 < received) : ({ s with received, sent } : SocketRun).Sound qs where
  consistent := h.consistent
  held := h.held
  submitted := h.submitted
  messages := h.messages
  tickets := h.tickets
  early := fun task htask => Nat.lt_of_lt_of_le (h.early task htask) hlater
  earlier := hsent

/-- The stream of the WebSocket is there as long as it is not let go. -/
theorem held_step (op : RelayOp) (hdrop : op ≠ .dropStream s.stream) :
    ∃ opened, (s.relay.step op).2.relay.streams.get? s.stream = some opened := by
  obtain ⟨opened, hopened⟩ := h.held
  by_cases hclose : op = .closeStream s.stream
  · subst hclose
    rcases s.relay.relay.closeStream_cases s.stream with ⟨heq, -⟩ | ⟨before, -, -, heq⟩
    · exact ⟨opened, (congrArg (·.streams.get? s.stream) heq).trans hopened⟩
    · exact ⟨_, (congrArg (·.streams.get? s.stream) heq).trans
        ((Table.get?_set _ _ _ _).trans (if_pos rfl))⟩
  · exact ⟨opened, (s.relay.get?_streams_step op _ h.streamNumber hclose hdrop).trans hopened⟩

/-- The relay does something and some tasks are gone; of the others nobody has the tickets. -/
theorem relays (op : RelayOp) (tasks : List SocketTask)
    (hfew : (qs ++ (s.relay.accepts op).toList).length < UInt32.size)
    (hsub : tasks.Sublist s.tasks) (hdrop : op ≠ .dropStream s.stream)
    (hmine : ∀ task ∈ tasks,
      op ≠ .poll task.awaited.ticket ∧ op ≠ .abandon task.awaited.ticket) :
    ({ s with relay := (s.relay.step op).2, tasks } : SocketRun).Sound
      (qs ++ (s.relay.accepts op).toList) where
  consistent := s.relay.consistent_step qs op h.consistent hfew
  held := h.held_step op hdrop
  submitted := by
    intro task htask
    obtain ⟨q, hq, hticket, hid, hstream, t, ht⟩ := h.submitted task (hsub.subset htask)
    obtain ⟨hpoll, habandon⟩ := hmine task htask
    have hkept := s.relay.ticket_step qs h.consistent q hq op (hticket ▸ hpoll)
      (hticket ▸ habandon)
    rw [ht] at hkept
    exact ⟨q, List.mem_append_left _ hq, hticket, hid, hstream, _, hkept⟩
  messages := (hsub.map _).nodup h.messages
  tickets := (hsub.map _).nodup h.tickets
  early := fun task htask => h.early task (hsub.subset htask)
  earlier := h.earlier

/-- A new task holds the ticket of a request that has just been accepted. -/
theorem adds (q : Accepted) (hq : q ∈ qs) (hstream : q.stream = s.stream)
    (hticket : ∃ t, s.relay.relay.tickets.get? q.ticket = some t)
    (hnew : ∀ task ∈ s.tasks, task.awaited.ticket ≠ q.ticket) (tag : UInt64) :
    ({ s with
      tasks := s.tasks ++ [⟨s.received, ⟨tag, q.id, q.ticket⟩⟩]
      received := s.received + 1 } : SocketRun).Sound qs where
  consistent := h.consistent
  held := h.held
  submitted := by
    intro task htask
    rcases List.mem_append.1 htask with htask | htask
    · exact h.submitted task htask
    · obtain rfl := List.mem_singleton.1 htask
      exact ⟨q, hq, rfl, rfl, hstream, hticket⟩
  messages := by
    rw [List.map_append, List.nodup_append]
    refine ⟨h.messages, List.nodup_singleton _, fun m hm m' hm' => ?_⟩
    obtain ⟨task, htask, rfl⟩ := List.mem_map.1 hm
    rw [List.mem_singleton.1 hm']
    exact Nat.ne_of_lt (h.early task htask)
  tickets := by
    rw [List.map_append, List.nodup_append]
    refine ⟨h.tickets, List.nodup_singleton _, fun ticket hticket' ticket' hticket'' => ?_⟩
    obtain ⟨task, htask, rfl⟩ := List.mem_map.1 hticket'
    rw [List.mem_singleton.1 hticket'']
    exact hnew task htask
  early := by
    intro task htask
    rcases List.mem_append.1 htask with htask | htask
    · exact Nat.lt_succ_of_lt (h.early task htask)
    · rw [List.mem_singleton.1 htask]
      exact Nat.lt_succ_self _
  earlier := fun p hp => Nat.lt_succ_of_lt (h.earlier p hp)

/-- Two tasks with one ticket are the same. -/
theorem task_eq {task task' : SocketTask} (htask : task ∈ s.tasks) (htask' : task' ∈ s.tasks)
    (hticket : task.awaited.ticket = task'.awaited.ticket) : task = task' :=
  List.inj_on_of_nodup_map h.tickets htask htask' hticket

/-- The frames that were sent by the time the next message has come in. -/
theorem earlier_next (frames : List RelayFrame) :
    ∀ p ∈ s.sent ++ frames.map fun f => (s.received, f), p.1 < s.received + 1 := by
  intro p hp
  rcases List.mem_append.1 hp with hp | hp
  · exact Nat.lt_succ_of_lt (h.earlier p hp)
  · obtain ⟨f, -, rfl⟩ := List.mem_map.1 hp
    exact Nat.lt_succ_self _

end Sound

/-- A step of a WebSocket keeps what holds of it. -/
theorem sound_step {s : SocketRun} {qs : List Accepted} (h : s.Sound qs) (op : SocketOp)
    (hfew : (qs ++ s.relay.accepted (s.does op).toList).length < UInt32.size) :
    (s.step op).Sound (qs ++ s.relay.accepted (s.does op).toList) := by
  rw [ClockedRelay.accepted_toList] at hfew ⊢
  have hchange := s.change_step op
  generalize s.does op = rop at hchange hfew ⊢
  generalize s.step op = s' at hchange ⊢
  cases hchange with
  | nothing => exact (List.append_nil qs).symm ▸ h
  | noted frames =>
    exact (List.append_nil qs).symm ▸ h.receives _ _ (Nat.le_succ _) (h.earlier_next frames)
  | answered op frames htickets hstreams =>
    exact (h.relays op s.tasks hfew (List.Sublist.refl _) (hstreams _).2 fun _ _ =>
      htickets _).receives _ _ (Nat.le_succ _) (h.earlier_next frames)
  | submitted tag dbid capabilities raw q haccepts hstream =>
    obtain ⟨henters, hrelay⟩ := s.relay.enters_of_accepts _ q haccepts
    have hwaits := henters.waits h.consistent
    rw [← hrelay] at hwaits
    have hnext := h.relays (.submit s.stream dbid capabilities raw) s.tasks hfew
      (List.Sublist.refl _) (by simp) (by simp)
    refine hnext.adds q (by simp [haccepts]) hstream ⟨_, hwaits.ticket⟩ (fun task htask heq => ?_)
      tag
    -- the numbers of tickets go up
    obtain ⟨q', hq', hticket, -⟩ := h.submitted task htask
    have hle := h.consistent.ticket_le q' hq'
    have hnew := henters.ticket.trans h.consistent.nextTicket
    rw [hticket, heq, hnew] at hle
    exact Nat.not_succ_le_self _ hle
  | pending task hmem hreport => exact (List.append_nil qs).symm ▸ h
  | reported task hmem o hreport =>
    have hnext := h.relays (.poll task.awaited.ticket)
      (s.tasks.filter fun t => t.message ≠ task.message) hfew List.filter_sublist
      (by simp) fun task' htask' => ?_
    · refine hnext.receives _ _ (Nat.le_refl _) fun p hp => ?_
      rcases List.mem_append.1 hp with hp | hp
      · exact h.earlier p hp
      · rw [List.mem_singleton.1 hp]
        exact h.early task hmem
    · obtain ⟨hmem', hne⟩ := List.mem_filter.1 htask'
      refine ⟨fun heq => ?_, by simp⟩
      have hsame := h.task_eq hmem hmem' (RelayOp.poll.inj heq)
      exact of_decide_eq_true hne (hsame ▸ rfl)
  | relayed op hdrop hmine => exact h.relays op s.tasks hfew (List.Sublist.refl _) hdrop hmine

/-- If a run submits few requests, so do its first steps and what is left of it. -/
theorem few_append {s : SocketRun} {qs : List Accepted} {ops more : List SocketOp}
    (hfew : (qs ++ s.relay.accepted (s.relayOps (ops ++ more))).length < UInt32.size) :
    (qs ++ s.relay.accepted (s.relayOps ops)).length < UInt32.size ∧
      (qs ++ s.relay.accepted (s.relayOps ops) ++
        (s.run ops).relay.accepted ((s.run ops).relayOps more)).length < UInt32.size := by
  rw [relayOps_append, ClockedRelay.accepted_append, ← relay_run, ← List.append_assoc] at hfew
  exact ⟨Nat.lt_of_le_of_lt (List.sublist_append_left _ _).length_le hfew, hfew⟩

theorem few_cons {s : SocketRun} {qs : List Accepted} {op : SocketOp} {ops : List SocketOp}
    (hfew : (qs ++ s.relay.accepted (s.relayOps (op :: ops))).length < UInt32.size) :
    (qs ++ s.relay.accepted (s.does op).toList).length < UInt32.size ∧
      (qs ++ s.relay.accepted (s.does op).toList ++
        (s.step op).relay.accepted ((s.step op).relayOps ops)).length < UInt32.size := by
  have hsplit := few_append (show (qs ++ s.relay.accepted (s.relayOps ([op] ++ ops))).length <
    UInt32.size from hfew)
  rwa [relayOps, relayOps, List.append_nil] at hsplit

theorem sound_run {s : SocketRun} {qs : List Accepted} (h : s.Sound qs) (ops : List SocketOp)
    (hfew : (qs ++ s.relay.accepted (s.relayOps ops)).length < UInt32.size) :
    (s.run ops).Sound (qs ++ s.relay.accepted (s.relayOps ops)) := by
  induction ops generalizing s qs with
  | nil => exact (List.append_nil qs).symm ▸ h
  | cons op ops ih =>
    obtain ⟨hfew', hfew''⟩ := few_cons hfew
    rw [relayOps, ClockedRelay.accepted_append, ← relay_step, ← List.append_assoc]
    exact ih (sound_step h op hfew') hfew''

/-- A WebSocket that has just come up. -/
theorem sound_connect {r : ClockedRelay} {qs : List Accepted} (h : r.relay.Consistent qs)
    (node : NodeId) : (connect r node).Sound qs where
  consistent := Relay.consistent_openStream h node
  held := ⟨_, (Table.get?_set _ _ _ _).trans (if_pos rfl)⟩
  submitted := by
    intro task htask
    cases htask
  messages := List.nodup_nil
  tickets := List.nodup_nil
  early := by
    intro task htask
    cases htask
  earlier := by
    intro p hp
    cases hp

/-! ## The frame for a request -/

/-- Frames for one message are no frames for another. -/
theorem framesOf_append_of_ne {s s' : SocketRun} {other : Nat} (frames : List RelayFrame)
    (hsent : s'.sent = s.sent ++ frames.map fun f => (other, f)) {message : Nat}
    (hne : other ≠ message) : s'.framesOf message = s.framesOf message := by
  have hnone : (frames.map fun f => (other, f)).filter (fun p => p.1 = message) = [] := by
    rw [List.filter_eq_nil_iff]
    intro p hp
    obtain ⟨f, -, rfl⟩ := List.mem_map.1 hp
    simpa using hne
  rw [framesOf, hsent, List.filter_append, hnone, List.append_nil, framesOf]

theorem framesOf_append {s s' : SocketRun} {message : Nat} (frames : List RelayFrame)
    (hsent : s'.sent = s.sent ++ frames.map fun f => (message, f)) :
    s'.framesOf message = s.framesOf message ++ frames := by
  have hall : (frames.map fun f => (message, f)).filter (fun p => p.1 = message) =
      frames.map fun f => (message, f) := by
    rw [List.filter_eq_self]
    intro p hp
    obtain ⟨f, -, rfl⟩ := List.mem_map.1 hp
    exact decide_eq_true rfl
  rw [framesOf, hsent, List.filter_append, hall, List.map_append, List.map_map, framesOf]
  exact congrArg _ (List.map_id frames)

/-- What has become of the request frame in a message, whose request is `q`: its task is there until
the ticket reports, and then the frame for what it has reported is sent. -/
structure Follows (s : SocketRun) (message : Nat) (tag : UInt64) (q : Accepted)
    (first : Option Bytes) (told : Option Outcome) : Prop where
  standing : s.relay.relay.Standing q first told
  received : message < s.received
  frames : s.framesOf message =
    (told.map (NodeSocket.answerFrame ⟨tag, q.id, q.ticket⟩)).toList
  waiting : told = none → ⟨message, ⟨tag, q.id, q.ticket⟩⟩ ∈ s.tasks
  done : told ≠ none → ∀ task ∈ s.tasks, task.message ≠ message

/-- The first answer to a request that a step has the relay accept. -/
def answered (s : SocketRun) (id : UInt32) (op : Option RelayOp) : Option Bytes :=
  op.bind fun op => ClockedRelay.answer id (op, (s.relay.step op).1)

section
variable {s : SocketRun} {qs : List Accepted} (h : s.Sound qs) {message : Nat} {tag : UInt64}
  {q : Accepted} (hq : q ∈ qs) {first : Option Bytes} {told : Option Outcome}
  (hfollows : s.Follows message tag q first told)
include h hq hfollows

/-- The relay does something that leaves the ticket of the request alone. -/
theorem Follows.relays {s' : SocketRun} (op : RelayOp)
    (hfew : (qs ++ (s.relay.accepts op).toList).length < UInt32.size)
    (hrelay : s'.relay = (s.relay.step op).2)
    (hmine : told = none → op ≠ .poll q.ticket ∧ op ≠ .abandon q.ticket)
    (hreceived : s.received ≤ s'.received) (hframes : s'.framesOf message = s.framesOf message)
    (htasks : ∀ task, task.message = message → (task ∈ s'.tasks ↔ task ∈ s.tasks)) :
    s'.Follows message tag q (first.or (s.answered q.id (some op))) told where
  standing := by
    have hstanding := s.relay.standing_step qs h.consistent q hq hfollows.standing op hfew
      fun hnone => (hmine hnone).2
    rw [hrelay]
    cases told with
    | none =>
      rwa [ClockedRelay.reported_of_ne q.ticket op _ (hmine rfl).1] at hstanding
    | some o => exact hstanding
  received := Nat.lt_of_lt_of_le hfollows.received hreceived
  frames := hframes.trans hfollows.frames
  waiting := fun hnone => (htasks _ rfl).2 (hfollows.waiting hnone)
  done := fun hsome task htask heq => hfollows.done hsome task ((htasks task heq).1 htask) heq

/-- A step keeps account of a request frame. -/
theorem follows_step (op : SocketOp)
    (hfew : (qs ++ s.relay.accepted (s.does op).toList).length < UInt32.size) :
    ∃ told, (s.step op).Follows message tag q (first.or (s.answered q.id (s.does op))) told := by
  rw [ClockedRelay.accepted_toList] at hfew
  have hchange := s.change_step op
  generalize s.does op = rop at hchange hfew ⊢
  generalize s.step op = s' at hchange ⊢
  have hlater : s.received ≠ message := Nat.ne_of_gt hfollows.received
  cases hchange with
  | nothing => exact ⟨told, Option.or_none ▸ hfollows⟩
  | noted frames =>
    refine ⟨told, Option.or_none ▸ hfollows.standing, Nat.lt_succ_of_lt hfollows.received, ?_,
      hfollows.waiting, hfollows.done⟩
    exact (framesOf_append_of_ne frames rfl hlater).trans hfollows.frames
  | answered op frames htickets hstreams =>
    exact ⟨told, hfollows.relays h hq op hfew rfl (fun _ => htickets _) (Nat.le_succ _)
      (framesOf_append_of_ne frames rfl hlater) fun _ _ => Iff.rfl⟩
  | submitted tag' dbid capabilities raw q' haccepts hstream =>
    refine ⟨told, hfollows.relays h hq _ hfew rfl (by simp) (Nat.le_succ _) rfl
      fun task hmessage => ?_⟩
    rw [List.mem_append, or_iff_left]
    intro hnew
    rw [List.mem_singleton.1 hnew] at hmessage
    exact hlater hmessage
  | pending task hmem hreport => exact ⟨told, Option.or_none ▸ hfollows⟩
  | reported task hmem o hreport =>
    by_cases hmessage : task.message = message
    · -- it is the task of the request: its ticket reports now
      have hnone : told = none := by
        apply Classical.byContradiction
        intro hsome
        exact hfollows.done hsome task hmem hmessage
      subst hnone
      obtain rfl : task = ⟨message, ⟨tag, q.id, q.ticket⟩⟩ :=
        List.inj_on_of_nodup_map h.messages hmem (hfollows.waiting rfl) hmessage
      have hstanding := s.relay.standing_step qs h.consistent q hq hfollows.standing
        (.poll q.ticket) hfew (by simp)
      rw [hreport, ClockedRelay.reported_poll] at hstanding
      refine ⟨some o, hstanding, hfollows.received, ?_, by simp, fun _ task htask heq => ?_⟩
      · rw [framesOf_append (s := s) [_] rfl, hfollows.frames]
        rfl
      · exact of_decide_eq_true (List.mem_filter.1 htask).2 heq
    · refine ⟨told, hfollows.relays h hq (.poll task.awaited.ticket) hfew rfl (fun hnone => ?_)
        (Nat.le_refl _) (framesOf_append_of_ne [_] rfl hmessage) fun task' hmessage' => ?_⟩
      · refine ⟨fun heq => hmessage ?_, by simp⟩
        rw [h.task_eq hmem (hfollows.waiting hnone) (RelayOp.poll.inj heq)]
      · rw [List.mem_filter, and_iff_left]
        exact decide_eq_true fun heq => hmessage (heq ▸ hmessage')
  | relayed op hdrop hmine =>
    exact ⟨told, hfollows.relays h hq op hfew rfl (fun hnone => hmine _ (hfollows.waiting hnone))
      (Nat.le_refl _) rfl fun _ _ => Iff.rfl⟩

end

theorem head?_answersTo (s : SocketRun) (id : UInt32) (op : Option RelayOp) :
    (ClockedRelay.answersTo id (s.relay.log op.toList)).head? = s.answered id op := by
  cases op with
  | none => rfl
  | some op =>
    rw [Option.toList_some, ClockedRelay.log, ClockedRelay.log, ClockedRelay.answersTo,
      List.filterMap_cons, List.filterMap_nil, answered, Option.bind_some]
    split <;> simp [*]

/-- A run keeps account of a request frame. -/
theorem follows_run {s : SocketRun} {qs : List Accepted} (h : s.Sound qs) {message : Nat}
    {tag : UInt64} {q : Accepted} (hq : q ∈ qs) {first : Option Bytes} {told : Option Outcome}
    (hfollows : s.Follows message tag q first told) (ops : List SocketOp)
    (hfew : (qs ++ s.relay.accepted (s.relayOps ops)).length < UInt32.size) :
    ∃ told, (s.run ops).Follows message tag q
      (first.or (ClockedRelay.answersTo q.id (s.relay.log (s.relayOps ops))).head?) told := by
  induction ops generalizing s qs first told with
  | nil => exact ⟨told, Option.or_none ▸ hfollows⟩
  | cons op ops ih =>
    obtain ⟨hfew', hfew''⟩ := few_cons hfew
    obtain ⟨told', hnext⟩ := follows_step h hq hfollows op hfew'
    obtain ⟨told'', hlast⟩ := ih (sound_step h op hfew') (List.mem_append_left _ hq) hnext hfew''
    refine ⟨told'', ?_⟩
    rw [relayOps, ClockedRelay.log_append, ClockedRelay.answersTo, List.filterMap_append,
      List.head?_append, ← relay_step, ← Option.or_assoc]
    rw [← head?_answersTo] at hlast
    exact hlast

end SocketRun

end SigningGateway
