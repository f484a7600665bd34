import SigningGateway.Proofs.Relay.Consistent

/-!
# Operations that end requests

An answer, a sweep, the end of a stream and the end of a last session all do the same: they take
entries out of the table and lay outcomes down on their tickets.  `Ends verdict before after` says
so for an operation that decides `verdict id e` for the entry `e` under `id`.

    Ends verdict r r' → q waits in r → verdict decides o for q → the ticket of q has o in r'
                                                                            (Ends.decides)
    Consistent qs r → r' has fewer entries, the rest fits → Consistent qs r'   (Consistent.shrink)
-/

namespace SigningGateway

namespace Relay

/-- The relay `after` is `before` without the entries that got an outcome, which is laid down on
their tickets. -/
structure Ends (verdict : UInt32 → PendingEntry → Option Outcome) (before after : Relay) :
    Prop where
  entries : ∀ id, after.pending.entries.get? id =
    (before.pending.entries.get? id).filter fun e => (verdict id e).isNone
  decided : ∀ id e o, before.pending.entries.get? id = some e → verdict id e = some o →
    after.tickets.get? e.ticket =
      (before.tickets.get? e.ticket).map fun t => { t with state := .resolved o }
  kept : ∀ ticket, (∀ id e, before.pending.entries.get? id = some e → e.ticket = ticket →
    verdict id e = none) → after.tickets.get? ticket = before.tickets.get? ticket

/-- Only what is decided for the entries of the table counts. -/
theorem Ends.congr {verdict verdict' : UInt32 → PendingEntry → Option Outcome} {r r' : Relay}
    (h : Ends verdict r r')
    (heq : ∀ id e, r.pending.entries.get? id = some e → verdict' id e = verdict id e) :
    Ends verdict' r r' where
  entries := by
    intro id
    rw [h.entries]
    cases he : r.pending.entries.get? id with
    | none => rfl
    | some e => simp only [Option.filter, heq id e he]
  decided := fun id e o he ho => h.decided id e o he (heq id e he ▸ ho)
  kept := fun ticket hnone =>
    h.kept ticket fun id e he hticket => heq id e he ▸ hnone id e he hticket

/-! ## Fewer entries -/

/-- What stays in the table was in it before. -/
theorem Ends.entries_subset {verdict : UInt32 → PendingEntry → Option Outcome} {r r' : Relay}
    (h : Ends verdict r r') (id : UInt32) (e : PendingEntry)
    (he : r'.pending.entries.get? id = some e) :
    r.pending.entries.get? id = some e ∧ verdict id e = none := by
  rw [h.entries, Option.filter_eq_some_iff] at he
  exact ⟨he.1, Option.isNone_iff_eq_none.1 he.2⟩

/-- Outcomes are laid down on tickets that exist. -/
theorem Ends.tickets_subset {verdict : UInt32 → PendingEntry → Option Outcome} {r r' : Relay}
    (h : Ends verdict r r') (ticket : Nat) (t : TicketEntry)
    (ht : r'.tickets.get? ticket = some t) : ∃ t₀, r.tickets.get? ticket = some t₀ := by
  by_cases hnone : ∀ id e, r.pending.entries.get? id = some e → e.ticket = ticket →
      verdict id e = none
  · rw [h.kept ticket hnone] at ht
    exact ⟨t, ht⟩
  · simp only [Classical.not_forall] at hnone
    obtain ⟨id, e, he, rfl, hsome⟩ := hnone
    obtain ⟨o, ho⟩ := Option.ne_none_iff_exists'.1 hsome
    rw [h.decided id e o he ho, Option.map_eq_some_iff] at ht
    obtain ⟨t₀, ht₀, -⟩ := ht
    exact ⟨t₀, ht₀⟩

/-- A waiting request for which an outcome is decided has it on its ticket. -/
theorem Ends.decides {verdict : UInt32 → PendingEntry → Option Outcome} {r r' : Relay}
    (h : Ends verdict r r') (q : Accepted) (hwaits : r.Waits q) (o : Outcome)
    (ho : verdict q.id (q.entry (r.hasSession q.node)) = some o) :
    r'.pending.entries.get? q.id = none ∧
      r'.tickets.get? q.ticket = some (q.ticketEntry (.resolved o)) := by
  refine ⟨?_, ?_⟩
  · rw [h.entries, hwaits.entry]
    simp [ho]
  · have hticket := h.decided q.id _ o hwaits.entry ho
    rw [show (q.entry (r.hasSession q.node)).ticket = q.ticket from rfl, hwaits.ticket] at hticket
    exact hticket

/-- Dropping what does not wait leaves nothing more to drop from it later. -/
theorem prune_prune (t t' : PendingTable) (requests : List Request)
    (h : ∀ id, t'.contains id = true → t.contains id = true) :
    prune t' (prune t requests) = prune t' requests := by
  rw [prune, prune, prune, List.filter_filter]
  apply List.filter_congr
  intro request _
  rw [Bool.eq_iff_iff, Bool.and_eq_true]
  exact ⟨And.left, fun hcontains => ⟨hcontains, h request.id hcontains⟩⟩

/-! ## The ways to end requests -/

/-- Removing one entry and laying its outcome down. -/
theorem ends_remove (r : Relay) (id : UInt32) (o : Outcome) (r₁ : Relay)
    (htickets : r₁.tickets = r.tickets) (hpending : r₁.pending = (r.pending.remove id (some o)).2) :
    Ends (fun id' _ => if id' = id then some o else none) r
      (r₁.resolve (r.pending.remove id (some o)).1.toList) where
  entries := by
    intro id'
    show r₁.pending.entries.get? id' = _
    rw [hpending, PendingTable.get?_remove]
    cases r.pending.entries.get? id' with
    | none => simp
    | some e => by_cases hid : id' = id <;> simp [hid, Option.filter]
  decided := by
    intro id' e o' he ho
    have hid : id' = id := by
      apply Classical.byContradiction
      intro hid
      simp [hid] at ho
    subst hid
    rw [if_pos rfl] at ho
    obtain rfl := Option.some.inj ho
    rw [PendingTable.fst_remove, he]
    rw [get?_tickets_resolve _ _ _ o, htickets]
    · simp
    · simp
  kept := by
    intro ticket hnone
    rw [get?_tickets_resolve_of_not_mem, htickets]
    rw [PendingTable.fst_remove]
    cases he : r.pending.entries.get? id with
    | none => simp
    | some e =>
      simp only [Option.map_some, Option.toList_some, List.map_cons, List.map_nil,
        List.mem_singleton]
      intro hticket
      have := hnone id e he hticket.symm
      simp at this

/-- Removing all entries that pass a test and laying the outcomes down, if no two entries share a
ticket. -/
theorem ends_removeWhere_of_inj (r : Relay)
    (hinj : ∀ id id' e e', r.pending.entries.get? id = some e →
      r.pending.entries.get? id' = some e' → e.ticket = e'.ticket → id = id')
    (p : PendingEntry → Bool) (outcome : UInt32 → Outcome) (r₁ : Relay)
    (htickets : r₁.tickets = r.tickets)
    (hpending : r₁.pending = (r.pending.removeWhere p outcome).2) :
    Ends (fun id e => if p e then some (outcome id) else none) r
      (r₁.resolve (r.pending.removeWhere p outcome).1) where
  entries := by
    intro id
    show r₁.pending.entries.get? id = _
    rw [hpending, PendingTable.get?_removeWhere]
    congr 1
    funext e
    cases p e <;> rfl
  decided := by
    intro id e o he ho
    have hp : p e = true := by
      cases hp : p e with
      | true => rfl
      | false => simp [hp] at ho
    rw [if_pos hp] at ho
    obtain rfl := Option.some.inj ho
    rw [get?_tickets_resolve _ _ _ (outcome id), if_pos, htickets]
    · rw [List.mem_map]
      exact ⟨_, (PendingTable.mem_removeWhere _ _ _ _).2 ⟨id, e, he, hp, rfl⟩, rfl⟩
    · intro res hres hticket
      obtain ⟨id', e', he', -, rfl⟩ := (PendingTable.mem_removeWhere _ _ _ _).1 hres
      rw [hinj id' id e' e he' he hticket]
  kept := by
    intro ticket hnone
    rw [get?_tickets_resolve_of_not_mem, htickets]
    intro hmem
    obtain ⟨res, hres, rfl⟩ := List.mem_map.1 hmem
    obtain ⟨id, e, he, hp, rfl⟩ := (PendingTable.mem_removeWhere _ _ _ _).1 hres
    have := hnone id e he rfl
    simp [hp] at this

/-- Nothing ends. -/
theorem ends_nothing (r r' : Relay) (hpending : r'.pending = r.pending)
    (htickets : r'.tickets = r.tickets) : Ends (fun _ _ => none) r r' where
  entries := by
    intro id
    rw [hpending]
    cases r.pending.entries.get? id <;> rfl
  decided := by intro id e o _ ho; cases ho
  kept := by intro ticket _; rw [htickets]

namespace Consistent

variable {qs : List Accepted} {r : Relay}

/-- A relay with fewer entries is consistent if tickets and sessions fit and the queues hold the
same requests as far as they still wait. -/
theorem shrink (h : r.Consistent qs) (r' : Relay)
    (hticketNumber : r'.nextTicket = r.nextTicket) (hid : r'.pending.nextId = r.pending.nextId)
    (hentries : ∀ id e, r'.pending.entries.get? id = some e →
      r.pending.entries.get? id = some e ∧ r'.hasSession e.context.node =
        r.hasSession e.context.node ∧ r'.streams.get? e.stream = r.streams.get? e.stream)
    (htickets : ∀ ticket t, r'.tickets.get? ticket = some t → ∃ t₀, r.tickets.get? ticket = some t₀)
    (hstanding : ∀ q ∈ qs, r'.Waits q ∨ r'.Settled q)
    (hsigners : ∀ node session,
      session ∈ (r'.queueOf node).signers ↔ session ∈ r'.sessionsOf node)
    (hqueued : ∀ node, ∀ request ∈ (r'.queueOf node).outstanding,
      request ∈ (r.queueOf node).outstanding)
    (hbacklog : ∀ node, prune r'.pending (r'.queueOf node).outstanding =
      prune r'.pending (r.queueOf node).outstanding)
    (hsessions : ∀ session s, r'.sessions.get? session = some s → session < r'.nextSession ∧
      ∃ s₀, r.sessions.get? session = some s₀ ∧ s₀.node = s.node ∧ s₀.handed = s.handed)
    (hstreams : ∀ stream s, r'.streams.get? stream = some s → stream < r'.nextStream) :
    r'.Consistent qs where
  few := h.few
  numbered := h.numbered
  nextTicket := by rw [hticketNumber, h.nextTicket]
  nextId := by rw [hid, h.nextId]
  entries := by
    intro id e he
    obtain ⟨he₀, hflag, -⟩ := hentries id e he
    obtain ⟨q, hq, hid, rfl⟩ := h.entries id e he₀
    exact ⟨q, hq, hid, by rw [show r'.hasSession q.node = r.hasSession q.node from hflag]⟩
  tickets := by
    intro ticket t ht
    obtain ⟨t₀, ht₀⟩ := htickets ticket t ht
    exact h.tickets ticket t₀ ht₀
  standing := hstanding
  openStreams := by
    intro id e he
    obtain ⟨he₀, -, hstream⟩ := hentries id e he
    rw [hstream]
    exact h.openStreams id e he₀
  signers := hsigners
  queued := fun node request hmem => h.queued node request (hqueued node request hmem)
  backlog := by
    intro node
    have hsub : ∀ id, r'.pending.contains id = true → r.pending.contains id = true := by
      intro id hid
      rw [PendingTable.contains_iff] at hid ⊢
      obtain ⟨e, he⟩ := hid
      exact ⟨e, (hentries id e he).1⟩
    rw [hbacklog, ← prune_prune r.pending r'.pending _ hsub, h.backlog, waitingOf, waitingOf, prune,
      List.filter_map, List.filter_filter]
    congr 1
    apply List.filter_congr
    intro q _
    rw [Function.comp_apply, Bool.eq_iff_iff, Bool.and_eq_true, Bool.and_eq_true, Bool.and_eq_true]
    exact ⟨fun ⟨hin, hnode, _⟩ => ⟨hnode, hin⟩, fun ⟨hnode, hin⟩ => ⟨hin, hnode, hsub q.id hin⟩⟩
  handed := by
    intro session s hs q hq hnode hcontains
    obtain ⟨-, s₀, hs₀, hnode₀, hhanded₀⟩ := hsessions session s hs
    rw [← hhanded₀]
    apply h.handed session s₀ hs₀ q hq (hnode.trans hnode₀.symm)
    rw [PendingTable.contains_iff] at hcontains ⊢
    obtain ⟨e, he⟩ := hcontains
    exact ⟨e, (hentries q.id e he).1⟩
  sessionNumbers := fun session s hs => (hsessions session s hs).1
  streamNumbers := hstreams

theorem ends_removeWhere (h : r.Consistent qs) (p : PendingEntry → Bool)
    (outcome : UInt32 → Outcome) (r₁ : Relay) (htickets : r₁.tickets = r.tickets)
    (hpending : r₁.pending = (r.pending.removeWhere p outcome).2) :
    Ends (fun id e => if p e then some (outcome id) else none) r
      (r₁.resolve (r.pending.removeWhere p outcome).1) :=
  ends_removeWhere_of_inj r h.entry_ticket_inj p outcome r₁ htickets hpending

/-! ## What becomes of a request -/

/-- The ticket of an accepted request for which nothing is decided stays as it is. -/
theorem keeps (h : r.Consistent qs) {verdict : UInt32 → PendingEntry → Option Outcome}
    {r' : Relay} (hends : Ends verdict r r') (q : Accepted) (hq : q ∈ qs)
    (hnone : r.Waits q → verdict q.id (q.entry (r.hasSession q.node)) = none) :
    r'.pending.entries.get? q.id = r.pending.entries.get? q.id ∧
      r'.tickets.get? q.ticket = r.tickets.get? q.ticket := by
  refine ⟨?_, ?_⟩
  · rw [hends.entries]
    cases he : r.pending.entries.get? q.id with
    | none => rfl
    | some e =>
      obtain ⟨rfl, hwaits⟩ := h.waits_of_entry q hq e he
      simp [Option.filter, hnone hwaits]
  · apply hends.kept
    intro id e he hticket
    obtain rfl := h.id_of_entry_ticket q hq id e he hticket
    obtain ⟨rfl, hwaits⟩ := h.waits_of_entry q hq e he
    exact hnone hwaits

/-- After requests have ended each accepted one still waits or is settled. -/
theorem standing_of_ends (h : r.Consistent qs)
    {verdict : UInt32 → PendingEntry → Option Outcome} {r' : Relay} (hends : Ends verdict r r')
    (hflags : ∀ id e, r'.pending.entries.get? id = some e →
      r'.hasSession e.context.node = r.hasSession e.context.node)
    (q : Accepted) (hq : q ∈ qs) : r'.Waits q ∨ r'.Settled q := by
  cases hverdict : verdict q.id (q.entry (r.hasSession q.node)) with
  | none =>
    obtain ⟨hentry, hticket⟩ := h.keeps hends q hq fun _ => hverdict
    rcases h.standing q hq with hwaits | hsettled
    · left
      have hin : r'.pending.entries.get? q.id = some (q.entry (r.hasSession q.node)) := by
        rw [hentry, hwaits.entry]
      have hflag : r'.hasSession q.node = r.hasSession q.node := hflags q.id _ hin
      exact ⟨by rw [hin, hflag], by rw [hticket, hwaits.ticket]⟩
    · right
      exact ⟨by rw [hentry, hsettled.entry], by rw [hticket]; exact hsettled.ticket⟩
  | some o =>
    right
    rcases h.standing q hq with hwaits | hsettled
    · obtain ⟨hentry, hticket⟩ := hends.decides q hwaits o hverdict
      refine ⟨hentry, fun t ht => ⟨o, ?_⟩⟩
      rw [hticket] at ht
      exact (Option.some.inj ht).symm
    · have hno : r.Waits q → verdict q.id (q.entry (r.hasSession q.node)) = none := by
        intro hwaits
        have := hwaits.entry
        rw [hsettled.entry] at this
        cases this
      obtain ⟨hentry, hticket⟩ := h.keeps hends q hq hno
      exact ⟨by rw [hentry, hsettled.entry], by rw [hticket]; exact hsettled.ticket⟩

/-- A relay with the same table, tickets and queues is consistent if sessions and streams fit. -/
theorem frame (h : r.Consistent qs) (r' : Relay) (hpending : r'.pending = r.pending)
    (htickets : r'.tickets = r.tickets) (hqueues : r'.queues = r.queues)
    (hticketNumber : r'.nextTicket = r.nextTicket)
    (hsessionsOf : ∀ node session, session ∈ r'.sessionsOf node ↔ session ∈ r.sessionsOf node)
    (hsessions : ∀ session s, r'.sessions.get? session = some s → session < r'.nextSession ∧
      ∃ s₀, r.sessions.get? session = some s₀ ∧ s₀.node = s.node ∧ s₀.handed = s.handed)
    (hopen : ∀ id e, r.pending.entries.get? id = some e →
      r'.streams.get? e.stream = r.streams.get? e.stream)
    (hstreams : ∀ stream s, r'.streams.get? stream = some s → stream < r'.nextStream) :
    r'.Consistent qs := by
  have hflag : ∀ node, r'.hasSession node = r.hasSession node := fun node =>
    hasSession_congr r r' node (hsessionsOf node)
  have hqueueOf : ∀ node, r'.queueOf node = r.queueOf node := by
    intro node
    rw [queueOf, queueOf, hqueues]
  apply h.shrink r' hticketNumber
  · rw [hpending]
  · intro id e he
    rw [hpending] at he
    exact ⟨he, hflag _, hopen id e he⟩
  · intro ticket t ht
    rw [htickets] at ht
    exact ⟨t, ht⟩
  · exact h.standing_of_ends (ends_nothing r r' hpending htickets) fun _ _ _ => hflag _
  · intro node session
    rw [hqueueOf, hsessionsOf]
    exact h.signers node session
  · intro node request hmem
    rwa [hqueueOf] at hmem
  · intro node
    rw [hqueueOf]
  · exact hsessions
  · exact hstreams

end Consistent

end Relay

end SigningGateway
