import SigningGateway.Proofs.Relay.Rounds

/-!
# When an id comes back

The parties know a request by its id, and an id is given out again once the counter has come around.
Up to then the id means one request: what waits under it waits for the ticket of that request, so an
answer and the end of that ticket touch nothing else.  Afterwards an answer or a ticket that was left
over meets a request that is not its own.

    Owns q s → q.id is not given out in ops → Owns q (s.run ops)                        (owns_run)
    waiting + 1 + accepted ≤ 2 ^ 32 → the id belongs to its request              (id_lasts_a_round)
-/

namespace SigningGateway

namespace Relay

/-- The id of a request means that request: what waits under it waits for its ticket, and its ticket
is for that id. -/
structure Owns (r : Relay) (q : Accepted) : Prop where
  entry : ∀ e, r.pending.entries.get? q.id = some e → e.ticket = q.ticket
  ticket : ∀ t, r.tickets.get? q.ticket = some t → t.id = q.id
  issued : q.ticket < r.nextTicket

/-- All but one ticket, and the requests that wait for it, are the same in two relays. -/
structure SparesOthers (ticket : Nat) (r r' : Relay) : Prop where
  entries : ∀ id e, e.ticket ≠ ticket →
    (r'.pending.entries.get? id = some e ↔ r.pending.entries.get? id = some e)
  tickets : ∀ other ≠ ticket, r'.tickets.get? other = r.tickets.get? other

theorem SparesOthers.refl (ticket : Nat) (r : Relay) : r.SparesOthers ticket r :=
  ⟨fun _ _ _ => Iff.rfl, fun _ _ => rfl⟩

namespace Owns

variable {r : Relay} {q : Accepted} (h : r.Owns q)
include h

/-- Taking out what waits under the id touches only the ticket of the request. -/
theorem spares_remove (outcome : Option Outcome) (r₁ : Relay)
    (hpending : r₁.pending = (r.pending.remove q.id outcome).2)
    (htickets : ∀ other ≠ q.ticket, r₁.tickets.get? other = r.tickets.get? other) :
    SparesOthers q.ticket r (r₁.resolve (r.pending.remove q.id outcome).1.toList) where
  entries := by
    intro id e hother
    show r₁.pending.entries.get? id = some e ↔ _
    rw [hpending, PendingTable.get?_remove]
    split
    · next hid =>
      rw [hid]
      constructor
      · intro hnone
        cases hnone
      · exact fun he => absurd (h.entry e he) hother
    · exact Iff.rfl
  tickets := by
    intro other hother
    rw [get?_tickets_resolve_of_not_mem]
    · exact htickets other hother
    · rw [PendingTable.fst_remove]
      cases he : r.pending.entries.get? q.id with
      | none => exact List.not_mem_nil
      | some e =>
        intro hmem
        have hticket : other = e.ticket := List.mem_singleton.1 hmem
        exact hother (hticket.trans (h.entry e he))

/-- An answer to the id touches only the ticket of the request. -/
theorem spares_respond (session : Nat) (raw : Bytes) (r' : Relay)
    (hok : r.respond session ⟨q.id, raw⟩ = .ok r') : SparesOthers q.ticket r r' := by
  obtain ⟨-, rfl⟩ := (respond_eq_ok_iff _ _ _ _).1 hok
  exact h.spares_remove _ _ rfl fun _ _ => rfl

/-- Giving the ticket of the request up touches only that ticket. -/
theorem spares_abandon : SparesOthers q.ticket r (r.abandon q.ticket) := by
  unfold abandon
  split
  · exact .refl _ _
  · next t ht =>
    rw [h.ticket t ht]
    apply h.spares_remove none
    · rfl
    · intro other hother
      exact (Table.get?_erase _ _ _).trans (if_neg hother)

/-- Relays that only lose requests keep their ids. -/
theorem recedes {r' : Relay} (hrecedes : r.Recedes r') : r'.Owns q where
  entry := by
    intro e' he'
    obtain ⟨e, he, hticket⟩ := hrecedes.pending.entries _ e' he'
    rw [← hticket]
    exact h.entry e he
  ticket := by
    intro t' ht'
    obtain ⟨t, ht, hid⟩ := hrecedes.tickets _ t' ht'
    rw [← hid]
    exact h.ticket t ht
  issued := by
    rw [hrecedes.nextTicket]
    exact h.issued

end Owns

end Relay

namespace ClockedRelay

/-- The id of a request that was just accepted means that request. -/
theorem owns_of_accepts (s : ClockedRelay) (op : RelayOp) (q : Accepted)
    (haccepts : s.accepts op = some q) : (s.step op).2.relay.Owns q := by
  obtain ⟨-, -, entry, hticket, hentries⟩ := s.entry_of_accepts op q haccepts
  obtain ⟨henters, hrelay⟩ := s.enters_of_accepts op q haccepts
  refine ⟨fun e he => ?_, fun t ht => ?_, ?_⟩
  · rw [hentries, if_pos rfl] at he
    exact (congrArg PendingEntry.ticket (Option.some.inj he)).symm.trans hticket
  · rw [hrelay, henters.get?_tickets, if_pos rfl] at ht
    exact (congrArg TicketEntry.id (Option.some.inj ht)).symm
  · rw [hrelay, henters.ticket]
    exact Nat.lt_succ_self _

/-- An operation leaves an id to its request, unless it gives the id out again. -/
theorem owns_step (s : ClockedRelay) (op : RelayOp) (q : Accepted) (h : s.relay.Owns q)
    (hother : ∀ q', s.accepts op = some q' → q'.id ≠ q.id) : (s.step op).2.relay.Owns q := by
  cases haccepts : s.accepts op with
  | none => exact h.recedes (s.recedes_step op haccepts)
  | some q' =>
    obtain ⟨-, -, entry, -, hentries⟩ := s.entry_of_accepts op q' haccepts
    obtain ⟨henters, hrelay⟩ := s.enters_of_accepts op q' haccepts
    refine ⟨fun e he => ?_, fun t ht => ?_, ?_⟩
    · rw [hentries, if_neg (hother q' haccepts).symm] at he
      exact h.entry e he
    · rw [hrelay, henters.get?_tickets, henters.ticket, if_neg (Nat.ne_of_lt h.issued)] at ht
      exact h.ticket t ht
    · rw [hrelay]
      exact Nat.lt_succ_of_lt h.issued

theorem owns_run (s : ClockedRelay) (ops : List RelayOp) (q : Accepted) (h : s.relay.Owns q)
    (hother : ∀ q' ∈ s.accepted ops, q'.id ≠ q.id) : (s.run ops).relay.Owns q := by
  induction ops generalizing s with
  | nil => exact h
  | cons op ops ih =>
    refine ih _ (s.owns_step op q h fun q' hq' => ?_) fun q' hq' => ?_
    · exact hother q' (List.mem_append_left _ (by simp [hq']))
    · exact hother q' (List.mem_append_right _ hq')

/-! ## Every run -/

/-- However many requests came before, the id of a request is not given out again before about a
round of the counter is over: as long as the requests that waited when it was accepted, the request
and those accepted after it are not more than there are ids.  Up to then an answer to the id, from
whatever session, and giving up the ticket of the request touch no other request and no other
ticket. -/
theorem id_lasts_a_round (settings : RelaySettings) (now : Nat) (before after : List RelayOp)
    (op : RelayOp) (q : Accepted) (haccepts : ((start settings now).run before).accepts op = some q)
    (hround : ((start settings now).run before).relay.pending.size + 1 +
      (((start settings now).run (before ++ [op])).accepted after).length ≤ UInt32.size) :
    let s := (start settings now).run (before ++ [op])
    let t := s.run after
    (∀ q' ∈ s.accepted after, q'.id ≠ q.id) ∧
      (∀ e, t.relay.pending.entries.get? q.id = some e → e.ticket = q.ticket) ∧
      (∀ session raw r', t.relay.respond session ⟨q.id, raw⟩ = .ok r' →
        t.relay.SparesOthers q.ticket r') ∧
      t.relay.SparesOthers q.ticket (t.relay.abandon q.ticket) := by
  intro s t
  let s₀ := (start settings now).run before
  have hs : s = (s₀.step op).2 := run_append _ before [op]
  have hroom : s₀.relay.pending.size + (s₀.accepted (op :: after)).length ≤ UInt32.size := by
    rw [accepted, haccepts, ← hs, List.length_append, Option.toList_some, List.length_singleton,
      ← Nat.add_assoc]
    exact hround
  have hdistinct := s₀.nodup_ids (op :: after) hroom
  rw [accepted, haccepts, ← hs, Option.toList_some, List.singleton_append, List.map_cons,
    List.nodup_cons] at hdistinct
  have hother : ∀ q' ∈ s.accepted after, q'.id ≠ q.id := by
    intro q' hq' hid
    exact hdistinct.1 (List.mem_map.2 ⟨q', hq', hid⟩)
  have howns : t.relay.Owns q := by
    apply s.owns_run after q ?_ hother
    rw [hs]
    exact s₀.owns_of_accepts op q haccepts
  exact ⟨hother, howns.entry, howns.spares_respond, howns.spares_abandon⟩

/-- A request that is submitted after the first one was answered gets another id, and what is still
held of the first one cannot harm it. -/
theorem second_request_spared :
    let node : NodeId := ⟨List.replicate 32 7, rfl⟩
    let before := [RelayOp.openStream node, .attach node]
    let after := [RelayOp.respond 1 ⟨1, [7]⟩, .submit 1 0 4 [2]]
    let q : Accepted := ⟨⟨1, ⟨node, 0, 4⟩, [1]⟩, 1, 60000, 1⟩
    let s := (start ⟨60000, 1000⟩ 0).run before
    let t := (start ⟨60000, 1000⟩ 0).run (before ++ [.submit 1 0 4 [1]] ++ after)
    s.accepts (.submit 1 0 4 [1]) = some q ∧
      s.relay.pending.size + 1 + ((s.step (.submit 1 0 4 [1])).2.accepted after).length ≤
        UInt32.size ∧
      t.relay.SparesOthers 1 (t.relay.abandon 1) := by
  intro node before after q s t
  have haccepts : s.accepts (.submit 1 0 4 [1]) = some q := by decide +kernel
  have hround : s.relay.pending.size + 1 +
      ((s.step (.submit 1 0 4 [1])).2.accepted after).length ≤ UInt32.size := by decide +kernel
  obtain ⟨-, -, -, hspares⟩ := id_lasts_a_round ⟨60000, 1000⟩ 0 before after
    (.submit 1 0 4 [1]) q haccepts hround
  rw [← run_append] at hspares
  exact ⟨haccepts, hround, hspares⟩

/-! ## A session that outlasts a round -/

namespace Wraparound

/-- The context of every request. -/
def sameContext (node : NodeId) : RequestContext := ⟨node, 0, 4⟩

/-- A submission and its answer, under the id that it gets. -/
def exchange (id : UInt32) : List RelayOp := [.submit 1 0 4 [], .respond 1 ⟨id, []⟩]

/-- Nothing waits; session 1 is attached and was shown the request of ticket 1, which was answered
and not polled.  The next request gets `id` and `ticket`. -/
structure Outlasts (node : NodeId) (id : UInt32) (ticket : Nat) (r : Relay) : Prop where
  stream : r.streams.get? 1 = some ⟨node, false⟩
  granted : r.grants.allows node 0 4 = true
  signers : (r.queueOf node).signers = [1]
  session : ∃ e, r.sessions.get? 1 = some e ∧ e.node = node ∧ ⟨1, sameContext node, [1]⟩ ∈ e.handed
  idle : ∀ id', r.pending.entries.get? id' = none
  counter : r.pending.nextId = id
  first : r.tickets.get? 1 = some ⟨1, 60000, .resolved (.ok [7])⟩
  nextTicket : r.nextTicket = ticket
  later : 1 < ticket

section
variable {node : NodeId} {id : UInt32} {ticket : Nat} {r : Relay} (h : Outlasts node id ticket r)
include h

theorem Outlasts.freeId : r.pending.freeId = id := by
  rw [PendingTable.freeId_eq, h.counter]
  exact (PendingTable.contains_eq_false_iff _ _).2 (h.idle _)

theorem Outlasts.submit (now : Nat) (raw : Bytes) :
    r.submit now 1 0 4 raw = .ok (r.dispatch now 1 (sameContext node) raw) := by
  simp only [Relay.submit, h.stream, Grants.check, h.granted]
  rfl

/-- The next request waits alone. -/
theorem Outlasts.entries (now : Nat) (raw : Bytes) (id' : UInt32) :
    (r.dispatch now 1 (sameContext node) raw).2.pending.entries.get? id' =
      if id' = id then
        some ⟨sameContext node, 1, now + r.settings.requestTimeout, true, ticket⟩
      else none := by
  rw [Relay.get?_pending_dispatch, h.freeId, h.nextTicket, h.idle, sameContext, h.signers]
  rfl

theorem Outlasts.tickets (now : Nat) (raw : Bytes) :
    (r.dispatch now 1 (sameContext node) raw).2.tickets.get? 1 =
        some ⟨1, 60000, .resolved (.ok [7])⟩ ∧
      (r.dispatch now 1 (sameContext node) raw).2.tickets.get? ticket =
        some ⟨id, now + r.settings.requestTimeout, .waiting⟩ := by
  constructor
  · rw [Relay.get?_tickets_dispatch, h.nextTicket, if_neg (Nat.ne_of_lt h.later), h.first]
  · rw [Relay.get?_tickets_dispatch, h.nextTicket, if_pos rfl, h.freeId]

theorem Outlasts.shown (now : Nat) (raw : Bytes) :
    ∃ e, (r.dispatch now 1 (sameContext node) raw).2.sessions.get? 1 = some e ∧ e.node = node ∧
      ⟨1, sameContext node, [1]⟩ ∈ e.handed ∧ ⟨id, sameContext node, raw⟩ ∈ e.handed := by
  obtain ⟨e, he, hnode, hshown⟩ := h.session
  refine ⟨{ e with handed := e.handed ++ [⟨id, sameContext node, raw⟩] }, ?_, hnode, ?_, ?_⟩
  · rw [Relay.get?_sessions_dispatch, he, h.freeId, sameContext, h.signers]
    rfl
  · exact List.mem_append_left _ hshown
  · exact List.mem_append_right _ List.mem_cons_self

/-- The session of the node may answer the next request. -/
theorem Outlasts.respond (now : Nat) (raw answer : Bytes) :
    let r₁ := (r.dispatch now 1 (sameContext node) raw).2
    r₁.respond 1 ⟨id, answer⟩ =
      .ok (({ r₁ with pending := (r₁.pending.remove id (some (.ok answer))).2 } : Relay).resolve
        [⟨ticket, id, some (.ok answer)⟩]) := by
  intro r₁
  rw [Relay.respond_eq_ok_iff]
  obtain ⟨e, he, hnode, -⟩ := h.shown now raw
  have hentry := (h.entries now raw id).trans (if_pos rfl)
  refine ⟨⟨_, hentry, (Relay.mem_sessionsOf _ _ _).2 ⟨e, he, hnode⟩⟩, ?_⟩
  rw [PendingTable.fst_remove, hentry]
  rfl

end

/-- After an exchange the session is where it was, one id later. -/
theorem outlasts_exchange (s : ClockedRelay) {node : NodeId} {id : UInt32} {ticket : Nat}
    (h : Outlasts node id ticket s.relay) :
    Outlasts node (id + 1) (ticket + 1) (s.run (exchange id)).relay := by
  let r₁ := (s.relay.dispatch s.now 1 (sameContext node) []).2
  have hrun : (s.run (exchange id)).relay =
      ({ r₁ with pending := (r₁.pending.remove id (some (.ok []))).2 } : Relay).resolve
        [⟨ticket, id, some (.ok [])⟩] := by
    simp only [exchange, run_cons, run_nil, step, h.submit s.now []]
    rw [h.respond s.now [] []]
  rw [hrun]
  refine ⟨h.stream, h.granted, ?_, ?_, fun id' => ?_, ?_, ?_, congrArg (· + 1) h.nextTicket, ?_⟩
  · have hnode : node = (sameContext node).node := rfl
    show (r₁.queueOf node).signers = [1]
    rw [Relay.queueOf_dispatch, if_pos hnode]
    exact h.signers
  · obtain ⟨e, he, hnode, hshown, -⟩ := h.shown s.now []
    exact ⟨e, he, hnode, hshown⟩
  · show (r₁.pending.remove id _).2.entries.get? id' = none
    rw [PendingTable.get?_remove, h.entries]
    split <;> rfl
  · show (r₁.pending.remove id _).2.nextId = id + 1
    rw [PendingTable.nextId_remove, Relay.nextId_dispatch, h.freeId]
  · rw [Relay.get?_tickets_resolve_of_not_mem]
    · exact (h.tickets s.now []).1
    · exact fun hmem => absurd (List.mem_singleton.1 hmem) (Nat.ne_of_lt h.later)
  · exact Nat.lt_succ_of_lt h.later

/-- Exchanges one after the other, `count` of them from an id on. -/
theorem outlasts_exchanges (s : ClockedRelay) {node : NodeId} {id : UInt32} {ticket : Nat}
    (h : Outlasts node id ticket s.relay) (count : Nat) :
    Outlasts node (id + UInt32.ofNat count) (ticket + count)
      (s.run ((idsFrom id count).flatMap exchange)).relay := by
  induction count with
  | zero =>
    have hid : id + UInt32.ofNat 0 = id := UInt32.add_zero id
    rw [hid]
    exact h
  | succ count ih =>
    have hrow : idsFrom id (count + 1) = idsFrom id count ++ [id + UInt32.ofNat count] := by
      simp [idsFrom, List.range_succ]
    rw [hrow, List.flatMap_append, run_append, List.flatMap_singleton, UInt32.ofNat_add,
      ← UInt32.add_assoc, ← Nat.add_assoc]
    exact outlasts_exchange _ ih

def busyNode : NodeId := ⟨List.replicate 32 7, rfl⟩

/-- The operations with which the run begins: a request is shown to a session and answered. -/
def opening : List RelayOp :=
  [.openStream busyNode, .attach busyNode, .submit 1 0 4 [1], .respond 1 ⟨1, [7]⟩]

/-- The relay after the first request and `count` more. -/
def afterExchanges (count : Nat) : ClockedRelay :=
  (start ⟨60000, 1000⟩ 0).run (opening ++ (idsFrom 2 count).flatMap exchange)

theorem outlasts_opening : Outlasts busyNode 2 2 ((start ⟨60000, 1000⟩ 0).run opening).relay where
  stream := by rfl
  granted := by decide +kernel
  signers := by rfl
  session := ⟨⟨busyNode, [⟨1, sameContext busyNode, [1]⟩], 0⟩, rfl, rfl, List.mem_cons_self⟩
  idle := fun _ => rfl
  counter := by rfl
  first := by rfl
  nextTicket := by rfl
  later := by decide

theorem outlasts_afterExchanges (count : Nat) :
    Outlasts busyNode (2 + UInt32.ofNat count) (2 + count) (afterExchanges count).relay := by
  rw [afterExchanges, run_append]
  exact outlasts_exchanges _ outlasts_opening count

/-- The request after `count` more gets the id of the first one once the counter has come around. -/
theorem submitted_around (count : Nat) (haround : (2 : UInt32) + UInt32.ofNat count = 1) :
    let s := afterExchanges count
    let t := (s.step (.submit 1 0 4 [2])).2
    (s.step (.submit 1 0 4 [2])).1 = .submitted (2 + count) 1 ∧
      (∃ e, t.relay.sessions.get? 1 = some e ∧ e.node = busyNode ∧
        ⟨1, sameContext busyNode, [1]⟩ ∈ e.handed ∧ ⟨1, sameContext busyNode, [2]⟩ ∈ e.handed) ∧
      ((t.step (.respond 1 ⟨1, [9]⟩)).2.relay.tickets.get? (2 + count)).map TicketEntry.state =
        some (.resolved (.ok [9])) ∧
      t.relay.pending.contains 1 = true ∧
      (t.step (.abandon 1)).2.relay.pending.contains 1 = false := by
  intro s t
  have h : Outlasts busyNode 1 (2 + count) s.relay := haround ▸ outlasts_afterExchanges count
  let r₁ := (s.relay.dispatch s.now 1 (sameContext busyNode) [2]).2
  have hstep : s.step (.submit 1 0 4 [2]) = (.submitted (2 + count) 1, { s with relay := r₁ }) := by
    simp only [step, h.submit s.now [2]]
    rw [← h.nextTicket, ← h.freeId]
    rfl
  have ht : t = { s with relay := r₁ } := congrArg Prod.snd hstep
  have hentry := (h.entries s.now [2] 1).trans (if_pos rfl)
  obtain ⟨hfirst, hsecond⟩ := h.tickets s.now [2]
  refine ⟨congrArg Prod.fst hstep, ?_, ?_, ?_, ?_⟩
  · rw [ht]
    exact h.shown s.now [2]
  · have hnamed : 2 + count ∈ [(⟨2 + count, 1, some (.ok [9])⟩ : Resolution)].map Resolution.ticket :=
      List.mem_cons_self
    rw [ht]
    simp only [step]
    rw [h.respond s.now [2] [9], Relay.get?_tickets_resolve _ _ _ (.ok [9]) (by simp),
      if_pos hnamed]
    exact congrArg (Option.map TicketEntry.state) (congrArg (Option.map _) hsecond)
  · rw [ht]
    exact (PendingTable.contains_iff _ _).2 ⟨_, hentry⟩
  · rw [ht]
    simp only [step, Relay.abandon]
    rw [show r₁.tickets.get? 1 = _ from hfirst]
    refine (PendingTable.contains_eq_false_iff _ _).2 ?_
    exact (PendingTable.get?_remove _ _ _ _).trans (if_pos rfl)

end Wraparound

section
open Wraparound

/-- A session stays attached while its node submits as many requests as there are ids, each answered
at once.  The next request gets the id of the first one.  The session was shown both under that id,
its answer for the first one is taken for the other, and the caller of the first one, who has not
looked at the answer yet and gives up, takes the other one out of the table. -/
theorem id_given_to_two_requests :
    let s := afterExchanges (UInt32.size - 1)
    let t := (s.step (.submit 1 0 4 [2])).2
    let second := 2 + (UInt32.size - 1)
    (s.step (.submit 1 0 4 [2])).1 = .submitted second 1 ∧
      (∃ e, t.relay.sessions.get? 1 = some e ∧ e.node = busyNode ∧
        ⟨1, sameContext busyNode, [1]⟩ ∈ e.handed ∧ ⟨1, sameContext busyNode, [2]⟩ ∈ e.handed) ∧
      ((t.step (.respond 1 ⟨1, [9]⟩)).2.relay.tickets.get? second).map TicketEntry.state =
        some (.resolved (.ok [9])) ∧
      t.relay.pending.contains 1 = true ∧
      (t.step (.abandon 1)).2.relay.pending.contains 1 = false := by
  have haround : (2 : UInt32) + UInt32.ofNat (UInt32.size - 1) = 1 := by decide
  exact submitted_around (UInt32.size - 1) haround

end

end ClockedRelay

end SigningGateway
