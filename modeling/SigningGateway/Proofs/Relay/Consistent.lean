import SigningGateway.Proofs.Relay.Pending
import SigningGateway.Proofs.Relay.Run

/-!
# The invariant of the relay

`Consistent qs r` ties the parts of a relay together, where `qs` are the requests that it has
accepted: every entry of the table is that of an accepted request on an open stream, marked as
delivered just if the node has a session; its ticket waits, and every other ticket is settled; the
queue of a node holds its waiting requests in the order of submission; every session was handed the
waiting requests of its node.

It holds as long as fewer than `2 ^ 32` requests were accepted, so that no id is given out twice:

    (s.accepted ops).length < UInt32.size → Consistent (s.accepted ops) (s.run ops).relay
                                                                    (consistent_run, in Invariant)
-/

namespace SigningGateway

namespace Accepted

/-- The entry of the request in the table. -/
def entry (q : Accepted) (delivered : Bool) : PendingEntry :=
  ⟨q.request.context, q.stream, q.deadline, delivered, q.ticket⟩

def ticketEntry (q : Accepted) (state : TicketState) : TicketEntry := ⟨q.id, q.deadline, state⟩

end Accepted

namespace Relay

/-- The sessions that are attached to a node. -/
def sessionsOf (r : Relay) (node : NodeId) : List Nat :=
  (r.sessions.entries.filter fun e => e.2.node = node).map Prod.fst

def hasSession (r : Relay) (node : NodeId) : Bool := !(r.sessionsOf node).isEmpty

/-- The request waits in the table, and so does its ticket. -/
structure Waits (r : Relay) (q : Accepted) : Prop where
  entry : r.pending.entries.get? q.id = some (q.entry (r.hasSession q.node))
  ticket : r.tickets.get? q.ticket = some (q.ticketEntry .waiting)

/-- The request has left the table; its ticket has an outcome or is gone. -/
structure Settled (r : Relay) (q : Accepted) : Prop where
  entry : r.pending.entries.get? q.id = none
  ticket : ∀ t, r.tickets.get? q.ticket = some t → ∃ o, t = q.ticketEntry (.resolved o)

/-- The accepted requests of a node that wait, in the order of submission. -/
def waitingOf (r : Relay) (qs : List Accepted) (node : NodeId) : List Request :=
  (qs.filter fun q => q.node = node && r.pending.contains q.id).map Accepted.request

/-- What holds of a relay that has accepted the requests `qs`. -/
structure Consistent (qs : List Accepted) (r : Relay) : Prop where
  few : qs.length < UInt32.size
  numbered : ∀ i q, qs[i]? = some q → q.ticket = i + 1 ∧ q.id = UInt32.ofNat (i + 1)
  nextTicket : r.nextTicket = qs.length + 1
  nextId : r.pending.nextId = UInt32.ofNat (qs.length + 1)
  entries : ∀ id e, r.pending.entries.get? id = some e →
    ∃ q ∈ qs, q.id = id ∧ e = q.entry (r.hasSession q.node)
  tickets : ∀ ticket t, r.tickets.get? ticket = some t → ∃ q ∈ qs, q.ticket = ticket
  standing : ∀ q ∈ qs, r.Waits q ∨ r.Settled q
  openStreams : ∀ id e, r.pending.entries.get? id = some e →
    r.streams.get? e.stream = some ⟨e.context.node, false⟩
  signers : ∀ node session, session ∈ (r.queueOf node).signers ↔ session ∈ r.sessionsOf node
  queued : ∀ node, ∀ request ∈ (r.queueOf node).outstanding, ∃ q ∈ qs, q.request = request
  backlog : ∀ node, prune r.pending (r.queueOf node).outstanding = r.waitingOf qs node
  handed : ∀ session s, r.sessions.get? session = some s →
    ∀ q ∈ qs, q.node = s.node → r.pending.contains q.id = true → q.request ∈ s.handed
  sessionNumbers : ∀ session s, r.sessions.get? session = some s → session < r.nextSession
  streamNumbers : ∀ stream s, r.streams.get? stream = some s → stream < r.nextStream

/-! ## Sessions -/

theorem mem_sessionsOf (r : Relay) (node : NodeId) (session : Nat) :
    session ∈ r.sessionsOf node ↔ ∃ s, r.sessions.get? session = some s ∧ s.node = node := by
  simp only [sessionsOf, List.mem_map, List.mem_filter, decide_eq_true_eq,
    Table.get?_eq_some_iff]
  constructor
  · rintro ⟨⟨_, s⟩, ⟨hmem, hnode⟩, rfl⟩
    exact ⟨s, hmem, hnode⟩
  · rintro ⟨s, hmem, hnode⟩
    exact ⟨(session, s), ⟨hmem, hnode⟩, rfl⟩

theorem hasSession_iff (r : Relay) (node : NodeId) :
    r.hasSession node = true ↔ ∃ session, session ∈ r.sessionsOf node := by
  cases h : r.sessionsOf node <;> simp [hasSession, h]

/-- Relays whose nodes have the same sessions agree on which nodes have one. -/
theorem hasSession_congr (r r' : Relay) (node : NodeId)
    (h : ∀ session, session ∈ r'.sessionsOf node ↔ session ∈ r.sessionsOf node) :
    r'.hasSession node = r.hasSession node := by
  rw [Bool.eq_iff_iff, hasSession_iff, hasSession_iff]
  exact exists_congr h

/-- Numbers below `2 ^ 32` are told apart as ids. -/
theorem ofNat_inj {m n : Nat} (hm : m < UInt32.size) (hn : n < UInt32.size)
    (h : UInt32.ofNat m = UInt32.ofNat n) : m = n := by
  have htoNat := congrArg UInt32.toNat h
  rwa [UInt32.toNat_ofNat_of_lt' hm, UInt32.toNat_ofNat_of_lt' hn] at htoNat

namespace Consistent

variable {qs : List Accepted} {r : Relay}

/-! ## Numbers of requests -/

theorem ticket_le (h : r.Consistent qs) (q : Accepted) (hq : q ∈ qs) : q.ticket ≤ qs.length := by
  obtain ⟨i, hi⟩ := List.getElem?_of_mem hq
  have hlt := (List.getElem?_eq_some_iff.1 hi).1
  have hnumber := (h.numbered i q hi).1
  omega

theorem ticket_inj (h : r.Consistent qs) (q q' : Accepted) (hq : q ∈ qs) (hq' : q' ∈ qs)
    (heq : q.ticket = q'.ticket) : q = q' := by
  obtain ⟨i, hi⟩ := List.getElem?_of_mem hq
  obtain ⟨j, hj⟩ := List.getElem?_of_mem hq'
  have hij : i = j := by
    have hti := (h.numbered i q hi).1
    have htj := (h.numbered j q' hj).1
    omega
  subst hij
  rw [hi] at hj
  exact Option.some.inj hj

theorem id_inj (h : r.Consistent qs) (q q' : Accepted) (hq : q ∈ qs) (hq' : q' ∈ qs)
    (heq : q.id = q'.id) : q = q' := by
  obtain ⟨i, hi⟩ := List.getElem?_of_mem hq
  obtain ⟨j, hj⟩ := List.getElem?_of_mem hq'
  have hfew := h.few
  have hilt := (List.getElem?_eq_some_iff.1 hi).1
  have hjlt := (List.getElem?_eq_some_iff.1 hj).1
  have hij : i + 1 = j + 1 := by
    apply ofNat_inj (by omega) (by omega)
    rw [← (h.numbered i q hi).2, ← (h.numbered j q' hj).2, heq]
  have hij' : i = j := by omega
  subst hij'
  rw [hi] at hj
  exact Option.some.inj hj

/-- The ids of accepted requests differ. -/
theorem nodup_ids (h : r.Consistent qs) : (qs.map Accepted.id).Nodup := by
  have hfew := h.few
  rw [List.Nodup, List.pairwise_iff_getElem]
  intro i j hi hj hij heq
  rw [List.length_map] at hi hj
  rw [List.getElem_map, List.getElem_map,
    (h.numbered i _ (List.getElem?_eq_getElem hi)).2,
    (h.numbered j _ (List.getElem?_eq_getElem hj)).2] at heq
  have hnumbers := ofNat_inj (by omega) (by omega) heq
  omega

/-- The next id is not that of an accepted request. -/
theorem id_ne_nextId (h : r.Consistent qs) (hroom : qs.length + 1 < UInt32.size) (q : Accepted)
    (hq : q ∈ qs) : q.id ≠ r.pending.nextId := by
  intro heq
  obtain ⟨i, hi⟩ := List.getElem?_of_mem hq
  have hilt := (List.getElem?_eq_some_iff.1 hi).1
  rw [(h.numbered i q hi).2, h.nextId] at heq
  have := ofNat_inj (by omega) hroom heq
  omega

theorem not_contains_nextId (h : r.Consistent qs) (hroom : qs.length + 1 < UInt32.size) :
    r.pending.contains r.pending.nextId = false := by
  rw [PendingTable.contains_eq_false_iff]
  cases hget : r.pending.entries.get? r.pending.nextId with
  | none => rfl
  | some e =>
    obtain ⟨q, hq, hid, -⟩ := h.entries _ e hget
    exact absurd hid (h.id_ne_nextId hroom q hq)

/-! ## Entries -/

/-- The entry under the id of an accepted request is that of the request, which then waits. -/
theorem waits_of_entry (h : r.Consistent qs) (q : Accepted) (hq : q ∈ qs) (e : PendingEntry)
    (he : r.pending.entries.get? q.id = some e) :
    e = q.entry (r.hasSession q.node) ∧ r.Waits q := by
  rcases h.standing q hq with hwaits | hsettled
  · have := hwaits.entry
    rw [he] at this
    exact ⟨Option.some.inj this, hwaits⟩
  · rw [hsettled.entry] at he
    cases he

theorem contains_iff_waits (h : r.Consistent qs) (q : Accepted) (hq : q ∈ qs) :
    r.pending.contains q.id = true ↔ r.Waits q := by
  rw [PendingTable.contains_iff]
  constructor
  · rintro ⟨e, he⟩
    exact (h.waits_of_entry q hq e he).2
  · intro hwaits
    exact ⟨_, hwaits.entry⟩

/-- Two entries do not share a ticket. -/
theorem entry_ticket_inj (h : r.Consistent qs) (id id' : UInt32) (e e' : PendingEntry)
    (he : r.pending.entries.get? id = some e) (he' : r.pending.entries.get? id' = some e')
    (hticket : e.ticket = e'.ticket) : id = id' := by
  obtain ⟨q, hq, rfl, rfl⟩ := h.entries id e he
  obtain ⟨q', hq', rfl, rfl⟩ := h.entries id' e' he'
  rw [h.ticket_inj q q' hq hq' hticket]

/-- An entry whose ticket is that of an accepted request is under the id of the request. -/
theorem id_of_entry_ticket (h : r.Consistent qs) (q : Accepted) (hq : q ∈ qs) (id : UInt32)
    (e : PendingEntry) (he : r.pending.entries.get? id = some e) (hticket : e.ticket = q.ticket) :
    id = q.id := by
  obtain ⟨q', hq', rfl, rfl⟩ := h.entries id e he
  rw [h.ticket_inj q' q hq' hq hticket]

/-- A node has a session just if its queue has signers. -/
theorem hasSession_eq (h : r.Consistent qs) (node : NodeId) :
    r.hasSession node = !(r.queueOf node).signers.isEmpty := by
  rw [Bool.eq_iff_iff, hasSession_iff]
  simp only [← h.signers]
  cases (r.queueOf node).signers <;> simp

end Consistent

/-! ## The start -/

theorem consistent_start (settings : RelaySettings) : (start settings).Consistent [] where
  few := by decide
  numbered := by simp
  nextTicket := rfl
  nextId := rfl
  entries := by intro id e he; cases he
  tickets := by intro ticket t ht; cases ht
  standing := by simp
  openStreams := by intro id e he; cases he
  signers := by intro node session; exact Iff.rfl
  queued := by intro node request hmem; cases hmem
  backlog := by intro node; rfl
  handed := by intro session s hs; cases hs
  sessionNumbers := by intro session s hs; cases hs
  streamNumbers := by intro stream s hs; cases hs

end Relay

end SigningGateway
