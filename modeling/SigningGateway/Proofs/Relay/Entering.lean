import SigningGateway.Proofs.Relay.Handing

/-!
# Entering a request

A submission enters a request under the next number, hands it to the sessions of its node and puts
it at the end of their backlog.  The request then waits, and the invariant speaks of it with the
others.

    r.Enters now q → Consistent qs r → Consistent (qs ++ [q]) (r.enter now q)    (consistent_enter)
-/

namespace SigningGateway

namespace Relay

/-! ## What a submission changes -/

/-- Dropping what waits no longer from the front loses nothing that waits. -/
theorem prune_pruneFront (t : PendingTable) (requests : List Request) :
    prune t (pruneFront t requests) = prune t requests := by
  induction requests with
  | nil => rfl
  | cons request rest ih =>
    by_cases hcontains : t.contains request.id = true
    · simp [pruneFront, hcontains]
    · simpa [pruneFront, prune, hcontains] using ih

/-- The entry of a submitted request is marked as delivered if its node has a session. -/
theorem get?_pending_dispatch (r : Relay) (now stream : Nat) (context : RequestContext)
    (raw : Bytes) (id : UInt32) :
    (r.dispatch now stream context raw).2.pending.entries.get? id =
      if id = r.pending.freeId then
        some ⟨context, stream, now + r.settings.requestTimeout,
          !(r.queueOf context.node).signers.isEmpty, r.nextTicket⟩
      else r.pending.entries.get? id := by
  have hid : (r.pending.register context stream (now + r.settings.requestTimeout)
      r.nextTicket).1 = r.pending.freeId := rfl
  simp only [dispatch, hand, hid]
  cases (r.queueOf context.node).signers.isEmpty with
  | true => simp [PendingTable.get?_register]
  | false =>
    simp only [Bool.false_eq_true, if_false, PendingTable.get?_markDelivered,
      PendingTable.get?_register]
    split <;> simp

theorem queueOf_dispatch (r : Relay) (now stream : Nat) (context : RequestContext) (raw : Bytes)
    (node : NodeId) :
    (r.dispatch now stream context raw).2.queueOf node =
      if node = context.node then
        ⟨(r.queueOf node).signers,
          pruneFront r.pending (r.queueOf node).outstanding ++
            [⟨r.pending.freeId, context, raw⟩]⟩
      else r.queueOf node := by
  simp only [dispatch, hand, PendingTable.register, queueOf, Table.get?_set]
  split
  · next hnode => simp [hnode]
  · rfl

theorem get?_sessions_dispatch (r : Relay) (now stream : Nat) (context : RequestContext)
    (raw : Bytes) (session : Nat) :
    (r.dispatch now stream context raw).2.sessions.get? session =
      (r.sessions.get? session).map fun s =>
        if session ∈ (r.queueOf context.node).signers then
          { s with handed := s.handed ++ [⟨r.pending.freeId, context, raw⟩] }
        else s := by
  simp only [dispatch, hand, PendingTable.register, Table.get?_map]

theorem get?_tickets_dispatch (r : Relay) (now stream : Nat) (context : RequestContext)
    (raw : Bytes) (ticket : Nat) :
    (r.dispatch now stream context raw).2.tickets.get? ticket =
      if ticket = r.nextTicket then
        some ⟨r.pending.freeId, now + r.settings.requestTimeout, .waiting⟩
      else r.tickets.get? ticket := by
  simp only [dispatch, hand, PendingTable.register, Table.get?_set]

theorem nextId_dispatch (r : Relay) (now stream : Nat) (context : RequestContext) (raw : Bytes) :
    (r.dispatch now stream context raw).2.pending.nextId = r.pending.freeId + 1 := by
  simp only [dispatch, hand, PendingTable.register]
  split <;> rfl

theorem sessionsOf_dispatch (r : Relay) (now stream : Nat) (context : RequestContext)
    (raw : Bytes) (node : NodeId) (session : Nat) :
    session ∈ (r.dispatch now stream context raw).2.sessionsOf node ↔
      session ∈ r.sessionsOf node := by
  rw [mem_sessionsOf, mem_sessionsOf]
  simp only [get?_sessions_dispatch, Option.map_eq_some_iff]
  constructor
  · rintro ⟨_, ⟨s, hs, rfl⟩, hnode⟩
    refine ⟨s, hs, ?_⟩
    split at hnode <;> exact hnode
  · rintro ⟨s, hs, hnode⟩
    refine ⟨_, ⟨s, hs, rfl⟩, ?_⟩
    split <;> exact hnode

/-! ## The request that is entered -/

/-- The request carries the next numbers of the relay, and its stream is open. -/
structure Enters (r : Relay) (now : Nat) (q : Accepted) : Prop where
  ticket : q.ticket = r.nextTicket
  id : q.id = r.pending.freeId
  deadline : q.deadline = now + r.settings.requestTimeout
  stream : r.streams.get? q.stream = some ⟨q.node, false⟩

/-- The relay once the request is entered. -/
def enter (r : Relay) (now : Nat) (q : Accepted) : Relay :=
  (r.dispatch now q.stream q.request.context q.request.raw).2

namespace Enters

variable {r : Relay} {now : Nat} {q : Accepted}

theorem request (he : r.Enters now q) :
    (⟨r.pending.freeId, q.request.context, q.request.raw⟩ : Request) = q.request := by
  rw [← he.id]
  rfl

theorem get?_tickets (he : r.Enters now q) (ticket : Nat) :
    (r.enter now q).tickets.get? ticket =
      if ticket = q.ticket then some (q.ticketEntry .waiting) else r.tickets.get? ticket := by
  rw [enter, get?_tickets_dispatch, ← he.id, ← he.deadline, ← he.ticket]
  rfl

theorem get?_sessions (he : r.Enters now q) (session : Nat) :
    (r.enter now q).sessions.get? session =
      (r.sessions.get? session).map fun s =>
        if session ∈ (r.queueOf q.node).signers then { s with handed := s.handed ++ [q.request] }
        else s := by
  rw [enter, get?_sessions_dispatch, he.request]
  rfl

theorem queueOf (he : r.Enters now q) (node : NodeId) :
    (r.enter now q).queueOf node =
      if node = q.node then
        ⟨(r.queueOf node).signers,
          pruneFront r.pending (r.queueOf node).outstanding ++ [q.request]⟩
      else r.queueOf node := by
  rw [enter, queueOf_dispatch, he.request]
  rfl

theorem hasSession (r : Relay) (now : Nat) (q : Accepted) (node : NodeId) :
    (r.enter now q).hasSession node = r.hasSession node :=
  hasSession_congr _ _ node fun session => sessionsOf_dispatch r now _ _ _ node session

section
variable {qs : List Accepted} (h : r.Consistent qs) (hroom : qs.length + 1 < UInt32.size)
include h

theorem get?_pending (he : r.Enters now q) (id : UInt32) :
    (r.enter now q).pending.entries.get? id =
      if id = q.id then some (q.entry (r.hasSession q.node)) else r.pending.entries.get? id := by
  have hflag : (!(r.queueOf q.request.context.node).signers.isEmpty) = r.hasSession q.node :=
    (h.hasSession_eq q.node).symm
  rw [enter, get?_pending_dispatch, ← he.id, ← he.deadline, ← he.ticket, hflag]
  rfl

/-- The request waits once it is entered. -/
theorem waits (he : r.Enters now q) : (r.enter now q).Waits q where
  entry := by rw [he.get?_pending h, if_pos rfl, hasSession]
  ticket := by rw [he.get?_tickets, if_pos rfl]

include hroom

/-- The new id is that of no request before. -/
theorem id_new (he : r.Enters now q) (q' : Accepted) (hq' : q' ∈ qs) : q'.id ≠ q.id := by
  rw [he.id, r.pending.freeId_eq (h.not_contains_nextId hroom)]
  exact h.id_ne_nextId hroom q' hq'

/-- The other requests wait as before. -/
theorem contains_old (he : r.Enters now q) (q' : Accepted) (hq' : q' ∈ qs) :
    (r.enter now q).pending.contains q'.id = r.pending.contains q'.id := by
  rw [PendingTable.contains, PendingTable.contains, Table.contains, Table.contains,
    he.get?_pending h, if_neg (he.id_new h hroom q' hq')]

theorem standing_old (he : r.Enters now q) (q' : Accepted) (hq' : q' ∈ qs) :
    (r.enter now q).Waits q' ∨ (r.enter now q).Settled q' := by
  have hid := he.id_new h hroom q' hq'
  have hticket : q'.ticket ≠ q.ticket := by
    have := h.ticket_le q' hq'
    rw [he.ticket, h.nextTicket]
    omega
  rcases h.standing q' hq' with hwaits | hsettled
  · left
    exact ⟨by rw [he.get?_pending h, if_neg hid, hasSession, hwaits.entry],
      by rw [he.get?_tickets, if_neg hticket, hwaits.ticket]⟩
  · right
    exact ⟨by rw [he.get?_pending h, if_neg hid, hsettled.entry],
      by rw [he.get?_tickets, if_neg hticket]; exact hsettled.ticket⟩

/-- Of queued requests the same ones wait as before. -/
theorem prune_old (he : r.Enters now q) (requests : List Request)
    (hqueued : ∀ request ∈ requests, ∃ q' ∈ qs, q'.request = request) :
    prune (r.enter now q).pending requests = prune r.pending requests := by
  apply List.filter_congr
  intro request hmem
  obtain ⟨q', hq', rfl⟩ := hqueued request hmem
  exact he.contains_old h hroom q' hq'

/-- The backlog of the node ends with the new request, and other backlogs are as before. -/
theorem backlog (he : r.Enters now q) (node : NodeId) :
    prune (r.enter now q).pending ((r.enter now q).queueOf node).outstanding =
      (r.enter now q).waitingOf (qs ++ [q]) node := by
  have hself : (r.enter now q).pending.contains q.id = true :=
    (PendingTable.contains_iff _ _).2 ⟨_, (he.waits h).entry⟩
  have hfilter : (qs.filter fun q' => q'.node = node && (r.enter now q).pending.contains q'.id) =
      qs.filter fun q' => q'.node = node && r.pending.contains q'.id := by
    apply List.filter_congr
    intro q' hq'
    rw [he.contains_old h hroom q' hq']
  rw [waitingOf, List.filter_append, hfilter, List.map_append, ← waitingOf, ← h.backlog,
    he.queueOf]
  by_cases hnode : node = q.node
  · have hkept : ∀ request ∈ pruneFront r.pending (r.queueOf node).outstanding,
        ∃ q' ∈ qs, q'.request = request := fun request hmem =>
      h.queued node request ((List.dropWhile_sublist _).mem hmem)
    have hlast : prune (r.enter now q).pending [q.request] = [q.request] :=
      List.filter_eq_self.2 fun request hmem => by rw [List.mem_singleton.1 hmem]; exact hself
    rw [if_pos hnode, prune, List.filter_append, ← prune, ← prune, he.prune_old h hroom _ hkept,
      prune_pruneFront, hlast]
    simp [hnode, hself]
  · have hnode' : ¬q.node = node := fun heq => hnode heq.symm
    rw [if_neg hnode, he.prune_old h hroom _ (h.queued node)]
    simp [hnode']

/-- Every session of a node has been handed what waits, the new request included. -/
theorem handed (he : r.Enters now q) (session : Nat) (s : SignerSession)
    (hs : (r.enter now q).sessions.get? session = some s) (q' : Accepted) (hq' : q' ∈ qs ++ [q])
    (hnode : q'.node = s.node) (hin : (r.enter now q).pending.contains q'.id = true) :
    q'.request ∈ s.handed := by
  rw [he.get?_sessions, Option.map_eq_some_iff] at hs
  obtain ⟨s₀, hs₀, rfl⟩ := hs
  have hnode₀ : q'.node = s₀.node := by
    rw [hnode]
    split <;> rfl
  rcases List.mem_append.1 hq' with hq' | hq'
  · rw [he.contains_old h hroom q' hq'] at hin
    have hmem := h.handed session s₀ hs₀ q' hq' hnode₀ hin
    split
    · exact List.mem_append_left _ hmem
    · exact hmem
  · obtain rfl := List.mem_singleton.1 hq'
    have hsigner := (h.signers q'.node session).2 ((mem_sessionsOf _ _ _).2 ⟨s₀, hs₀, hnode₀.symm⟩)
    rw [if_pos hsigner]
    exact List.mem_append_right _ (List.mem_singleton_self _)

/-- The requests stay numbered in the order of submission. -/
theorem numbered (he : r.Enters now q) (i : Nat) (q' : Accepted)
    (hq' : (qs ++ [q])[i]? = some q') : q'.ticket = i + 1 ∧ q'.id = UInt32.ofNat (i + 1) := by
  rw [List.getElem?_append] at hq'
  split at hq'
  · exact h.numbered i q' hq'
  · next hge =>
    have hi := (List.getElem?_eq_some_iff.1 hq').1
    rw [List.length_singleton] at hi
    have hlen : i = qs.length := by omega
    subst hlen
    rw [Nat.sub_self, List.getElem?_cons_zero] at hq'
    obtain rfl := Option.some.inj hq'
    rw [he.ticket, he.id, r.pending.freeId_eq (h.not_contains_nextId hroom), h.nextTicket, h.nextId]
    exact ⟨rfl, rfl⟩

end

end Enters

/-- A request that is entered joins those that the invariant speaks of. -/
theorem consistent_enter {qs : List Accepted} {r : Relay} (h : r.Consistent qs)
    (hroom : qs.length + 1 < UInt32.size) (now : Nat) (q : Accepted) (he : r.Enters now q) :
    (r.enter now q).Consistent (qs ++ [q]) where
  few := by
    rw [List.length_append, List.length_singleton]
    exact hroom
  numbered := he.numbered h hroom
  nextTicket := by
    rw [List.length_append, List.length_singleton, ← h.nextTicket]
    rfl
  nextId := by
    rw [enter, nextId_dispatch, r.pending.freeId_eq (h.not_contains_nextId hroom), h.nextId,
      List.length_append, List.length_singleton, UInt32.ofNat_add (qs.length + 1) 1]
    rfl
  entries := by
    intro id e hget
    rw [he.get?_pending h] at hget
    split at hget
    · next hsame =>
      obtain rfl := Option.some.inj hget
      exact ⟨q, by simp, hsame.symm, by rw [Enters.hasSession]⟩
    · obtain ⟨q', hq', hid', rfl⟩ := h.entries id e hget
      exact ⟨q', List.mem_append_left _ hq', hid', by rw [Enters.hasSession]⟩
  tickets := by
    intro ticket t ht
    rw [he.get?_tickets] at ht
    split at ht
    · next hsame => exact ⟨q, by simp, hsame.symm⟩
    · obtain ⟨q', hq', heq⟩ := h.tickets ticket t ht
      exact ⟨q', List.mem_append_left _ hq', heq⟩
  standing := by
    intro q' hq'
    rcases List.mem_append.1 hq' with hq' | hq'
    · exact he.standing_old h hroom q' hq'
    · obtain rfl := List.mem_singleton.1 hq'
      exact Or.inl (he.waits h)
  openStreams := by
    intro id e hget
    rw [he.get?_pending h] at hget
    split at hget
    · obtain rfl := Option.some.inj hget
      exact he.stream
    · exact h.openStreams id e hget
  signers := by
    intro node session
    rw [he.queueOf, enter, sessionsOf_dispatch]
    split <;> exact h.signers node session
  queued := by
    intro node request hmem
    have hold : request ∈ (r.queueOf node).outstanding →
        ∃ q' ∈ qs ++ [q], q'.request = request := by
      intro hmem
      obtain ⟨q', hq', heq⟩ := h.queued node request hmem
      exact ⟨q', List.mem_append_left _ hq', heq⟩
    rw [he.queueOf] at hmem
    split at hmem
    · rcases List.mem_append.1 hmem with hmem | hmem
      · exact hold ((List.dropWhile_sublist _).mem hmem)
      · exact ⟨q, by simp, (List.mem_singleton.1 hmem).symm⟩
    · exact hold hmem
  backlog := he.backlog h hroom
  handed := he.handed h hroom
  sessionNumbers := by
    intro session s hs
    rw [he.get?_sessions, Option.map_eq_some_iff] at hs
    obtain ⟨s₀, hs₀, -⟩ := hs
    exact h.sessionNumbers session s₀ hs₀
  streamNumbers := h.streamNumbers

end Relay

end SigningGateway
