import SigningGateway.Proofs.Relay.Invariant

/-!
# The fate of a request

What its ticket reports is decided by the first operation after the submission that can end the
request: an answer from a session of its node, a sweep or a poll of the ticket when the deadline has
come, the end of its stream, or the end of the last session of its node after it was handed out.
Until then the ticket is pending, and nothing that happens later changes the outcome.

    poll after `after` = polled (s.fate q (after ++ [.poll q.ticket]))      (report_eq_fate)

`s.verdict q op` is what the operation `op` decides for the request `q`, and `s.fate q ops` what
the first of several operations decides that decides anything.
-/

namespace SigningGateway

namespace Relay

/-- Whether a session that is attached was handed a request. -/
def wasHanded (r : Relay) (request : Request) : Bool :=
  r.sessions.values.any fun s => request ∈ s.handed

theorem wasHanded_of_mem (r : Relay) (request : Request) (session : Nat) (s : SignerSession)
    (hs : r.sessions.get? session = some s) (hmem : request ∈ s.handed) :
    r.wasHanded request = true := by
  rw [wasHanded, List.any_eq_true]
  refine ⟨s, ?_, by simpa using hmem⟩
  rw [Table.get?_eq_some_iff] at hs
  exact List.mem_map.2 ⟨_, hs, rfl⟩

end Relay

namespace ClockedRelay

/-! ## Verdicts -/

/-- The outcome that an operation decides for a request that waits, if it decides one. -/
def verdict (s : ClockedRelay) (q : Accepted) : RelayOp → Option Outcome
  | .respond session response =>
    if response.id = q.id ∧ session ∈ s.relay.sessionsOf q.node then some (.ok response.raw)
    else none
  | .sweep => if q.deadline ≤ s.now then some (.error (.requestTimeout q.id)) else none
  | .poll ticket =>
    if ticket = q.ticket ∧ q.deadline ≤ s.now then some (.error (.requestTimeout q.id)) else none
  | .closeStream stream | .dropStream stream =>
    if stream = q.stream then some (.error PendingTable.streamClosed) else none
  | .detach session =>
    if s.relay.isLast session q.node ∧ s.relay.wasHanded q.request then
      some (.error PendingTable.sessionEnded)
    else none
  | _ => none

/-- The outcome decided by the first operation that decides one. -/
def fate (s : ClockedRelay) (q : Accepted) : List RelayOp → Option Outcome
  | [] => none
  | op :: ops => (s.verdict q op).or ((s.step op).2.fate q ops)

/-- The outcome that a ticket reports in an answer. -/
def reported (ticket : Nat) : RelayOp × RelayAnswer → Option Outcome
  | (.poll polled, .polled outcome) => if polled = ticket then outcome else none
  | _ => none

/-- The outcomes that a ticket has reported. -/
def reports (ticket : Nat) (log : List (RelayOp × RelayAnswer)) : List Outcome :=
  log.filterMap (reported ticket)

/-- The outcome that is laid down on a ticket. -/
def laidDown : TicketState → Option Outcome
  | .resolved o => some o
  | _ => none

/-- A ticket after an operation that may decide the request it waits for. -/
def decided (decision : Option Outcome) (t : TicketEntry) : TicketEntry :=
  match t.state, decision with
  | .waiting, some o => { t with state := .resolved o }
  | _, _ => t

/-! ## One operation -/

theorem map_decided_none (t : Option TicketEntry) : t.map (decided none) = t := by
  rcases t with _ | ⟨id, deadline, state⟩
  · rfl
  · cases state <;> rfl

section
variable {qs : List Accepted} {r r' : Relay} (h : r.Consistent qs) (q : Accepted) (hq : q ∈ qs)
include h hq

/-- A ticket that is left alone by an operation that decides nothing for a waiting request. -/
theorem ticket_of_same (ht : r'.tickets.get? q.ticket = r.tickets.get? q.ticket)
    (decision : Option Outcome) (hnone : r.Waits q → decision = none) :
    r'.tickets.get? q.ticket = (r.tickets.get? q.ticket).map (decided decision) := by
  rw [ht]
  rcases h.standing q hq with hwaits | hsettled
  · rw [hnone hwaits, map_decided_none]
  · cases hget : r.tickets.get? q.ticket with
    | none => rfl
    | some t =>
      obtain ⟨o, rfl⟩ := hsettled.ticket t hget
      rfl

/-- A ticket after requests have ended. -/
theorem ticket_of_ends {ending : UInt32 → PendingEntry → Option Outcome}
    (hends : Relay.Ends ending r r') (decision : Option Outcome)
    (hdecision : r.Waits q → ending q.id (q.entry (r.hasSession q.node)) = decision) :
    r'.tickets.get? q.ticket = (r.tickets.get? q.ticket).map (decided decision) := by
  by_cases hdecides : r.Waits q ∧ decision ≠ none
  · obtain ⟨hwaits, hsome⟩ := hdecides
    obtain ⟨o, rfl⟩ := Option.ne_none_iff_exists'.1 hsome
    rw [(hends.decides q hwaits o (hdecision hwaits)).2, hwaits.ticket]
    rfl
  · have hnone : r.Waits q → decision = none := fun hwaits =>
      Classical.byContradiction fun hsome => hdecides ⟨hwaits, hsome⟩
    apply ticket_of_same h q hq _ decision hnone
    exact (h.keeps hends q hq fun hwaits => (hdecision hwaits).trans (hnone hwaits)).2

end

/-- An answer to a request that waits, by a session of its node, is laid down on its ticket. -/
theorem ticket_respond (s : ClockedRelay) (qs : List Accepted) (h : s.relay.Consistent qs)
    (q : Accepted) (hq : q ∈ qs) (session : Nat) (response : Response) :
    (s.step (.respond session response)).2.relay.tickets.get? q.ticket =
      (s.relay.tickets.get? q.ticket).map
        (decided (s.verdict q (.respond session response))) := by
  simp only [step]
  split
  · next relay hok =>
    obtain ⟨⟨e, he, hmem⟩, -⟩ := (Relay.respond_eq_ok_iff _ _ _ _).1 hok
    apply ticket_of_ends h q hq (Relay.ends_respond _ _ _ _ hok)
    intro hwaits
    by_cases hid : q.id = response.id
    · rw [← hid, hwaits.entry] at he
      obtain rfl := Option.some.inj he
      have hmem' : session ∈ s.relay.sessionsOf q.node := hmem
      simp [verdict, hid, hmem']
    · have hid' : ¬response.id = q.id := fun heq => hid heq.symm
      simp [verdict, hid, hid']
  · next cause herror =>
    apply ticket_of_same h q hq rfl
    intro hwaits
    rw [verdict, if_neg]
    rintro ⟨hid, hmem⟩
    have hok := (Relay.respond_eq_ok_iff s.relay _ session response).2
      ⟨⟨_, hid ▸ hwaits.entry, hmem⟩, rfl⟩
    rw [herror] at hok
    cases hok

/-- The end of the last session of a node fails what it was handed and still waits. -/
theorem ticket_detach (s : ClockedRelay) (qs : List Accepted) (h : s.relay.Consistent qs)
    (q : Accepted) (hq : q ∈ qs) (session : Nat) :
    (s.step (.detach session)).2.relay.tickets.get? q.ticket =
      (s.relay.tickets.get? q.ticket).map (decided (s.verdict q (.detach session))) := by
  apply ticket_of_ends h q hq (Relay.ends_detach h session)
  intro hwaits
  have hcontains := (h.contains_iff_waits q hq).2 hwaits
  by_cases hlast : s.relay.isLast session q.node = true
  · -- the last session was handed the request, since it waits
    obtain ⟨k, hk, hnode⟩ := (Relay.mem_sessionsOf _ _ _).1 ((Relay.isLast_iff _ _ _).1 hlast).1
    have hhanded := s.relay.wasHanded_of_mem q.request session k hk
      (h.handed session k hk q hq hnode.symm hcontains)
    have hlast' : s.relay.isLast session q.request.context.node = true := hlast
    simp [verdict, Accepted.entry, hlast, hlast', hhanded]
  · have hlast' : ¬s.relay.isLast session q.request.context.node = true := hlast
    simp [verdict, Accepted.entry, hlast, hlast']

/-- A poll of another ticket leaves the ticket of the request alone. -/
theorem get?_tickets_poll (s : ClockedRelay) (qs : List Accepted) (h : s.relay.Consistent qs)
    (q : Accepted) (ticket : Nat) (hne : ticket ≠ q.ticket) :
    (s.step (.poll ticket)).2.relay.tickets.get? q.ticket =
      s.relay.tickets.get? q.ticket := by
  have hforgets : ∀ q' r', q'.ticket ≠ q.ticket → Relay.Forgets q' s.relay r' →
      r'.tickets.get? q.ticket = s.relay.tickets.get? q.ticket := by
    intro q' r' hother hforgets
    rw [hforgets.tickets, if_neg hother.symm]
  cases ht : s.relay.tickets.get? ticket with
  | none => simp only [step, Relay.poll_of_none s.now ticket ht]
  | some t =>
    obtain ⟨q', hq', rfl⟩ := h.tickets ticket t ht
    rcases h.standing q' hq' with hwaits | hsettled
    · by_cases hnow : q'.deadline ≤ s.now
      · exact hforgets q' _ hne (Relay.poll_of_waits h q' hq' hwaits s.now hnow).2
      · simp only [step, Relay.poll_early q' hwaits s.now (by omega)]
    · obtain ⟨o, rfl⟩ := hsettled.ticket t ht
      exact hforgets q' _ hne (Relay.poll_of_resolved h q' hq' o ht s.now).2

/-- An operation other than a poll or the end of its ticket does to the ticket of a request what
the verdict says. -/
theorem ticket_step (s : ClockedRelay) (qs : List Accepted) (h : s.relay.Consistent qs)
    (q : Accepted) (hq : q ∈ qs) (op : RelayOp) (hpoll : op ≠ .poll q.ticket)
    (habandon : op ≠ .abandon q.ticket) :
    (s.step op).2.relay.tickets.get? q.ticket =
      (s.relay.tickets.get? q.ticket).map (decided (s.verdict q op)) := by
  cases op with
  | openStream node => exact ticket_of_same h q hq rfl _ fun _ => rfl
  | closeStream stream =>
    apply ticket_of_ends h q hq (Relay.ends_closeStream h stream)
    intro _
    simp [verdict, Accepted.entry, eq_comm]
  | dropStream stream =>
    have hclose : (s.step (.dropStream stream)).2.relay.tickets =
      (s.relay.closeStream stream).tickets := rfl
    rw [hclose]
    apply ticket_of_ends h q hq (Relay.ends_closeStream h stream)
    intro _
    simp [verdict, Accepted.entry, eq_comm]
  | submit stream dbid capabilities raw =>
    apply ticket_of_same h q hq _ _ fun _ => rfl
    cases haccepts : s.accepts (.submit stream dbid capabilities raw) with
    | none => rw [s.step_submit_of_not_accepts stream dbid capabilities raw haccepts]
    | some q' =>
      obtain ⟨henters, hrelay⟩ := s.enters_of_accepts _ q' haccepts
      have hle := h.ticket_le q hq
      rw [hrelay, henters.get?_tickets, if_neg]
      rw [henters.ticket, h.nextTicket]
      omega
  | grant stream dbid capabilities =>
    apply ticket_of_same h q hq _ _ fun _ => rfl
    simp only [step]
    split
    · next relay hgrant =>
      obtain ⟨grants, rfl⟩ := Relay.grant_eq_ok relay stream dbid capabilities hgrant
      rfl
    · rfl
  | attach node => exact ticket_of_same h q hq rfl _ fun _ => rfl
  | take session count =>
    apply ticket_of_same h q hq _ _ fun _ => rfl
    simp only [step, Relay.take]
    split <;> rfl
  | respond session response => exact ticket_respond s qs h q hq session response
  | detach session => exact ticket_detach s qs h q hq session
  | poll ticket =>
    have hne : ticket ≠ q.ticket := fun heq => hpoll (heq ▸ rfl)
    apply ticket_of_same h q hq (get?_tickets_poll s qs h q ticket hne) _
    exact fun _ => by simp [verdict, hne]
  | abandon ticket =>
    have hne : ticket ≠ q.ticket := fun heq => habandon (heq ▸ rfl)
    apply ticket_of_same h q hq _ _ fun _ => rfl
    cases ht : s.relay.tickets.get? ticket with
    | none => simp only [step, Relay.abandon, ht]
    | some t =>
      obtain ⟨q', hq', rfl⟩ := h.tickets ticket t ht
      have hforgets := Relay.forgets_abandon h q' hq' t ht
      exact (hforgets.tickets q.ticket).trans (if_neg hne.symm)
  | sweep =>
    exact ticket_of_ends h q hq (Relay.ends_sweep h s.now) _ fun _ => rfl
  | advance duration => exact ticket_of_same h q hq rfl _ fun _ => rfl

/-- A poll of the ticket of a request reports what was laid down or what the poll itself decides,
and then the ticket is gone; otherwise it is pending and nothing changes. -/
theorem poll_step (s : ClockedRelay) (qs : List Accepted) (h : s.relay.Consistent qs)
    (q : Accepted) (hq : q ∈ qs) (t : TicketEntry) (ht : s.relay.tickets.get? q.ticket = some t) :
    (s.step (.poll q.ticket)).1 =
        .polled ((laidDown t.state).or (s.verdict q (.poll q.ticket))) ∧
      (((laidDown t.state).or (s.verdict q (.poll q.ticket)) ≠ none ∧
          Relay.Forgets q s.relay (s.step (.poll q.ticket)).2.relay) ∨
        (laidDown t.state).or (s.verdict q (.poll q.ticket)) = none ∧
          (s.step (.poll q.ticket)).2 = s) := by
  rcases h.standing q hq with hwaits | hsettled
  · obtain rfl : t = q.ticketEntry .waiting := by
      rw [hwaits.ticket] at ht
      exact (Option.some.inj ht).symm
    by_cases hnow : q.deadline ≤ s.now
    · obtain ⟨hreport, hforgets⟩ := Relay.poll_of_waits h q hq hwaits s.now hnow
      refine ⟨?_, Or.inl ⟨?_, hforgets⟩⟩
      · simp only [step, hreport]
        simp [verdict, hnow, laidDown, Accepted.ticketEntry]
      · simp [verdict, hnow, laidDown, Accepted.ticketEntry]
    · have hpending := Relay.poll_early q hwaits s.now (by omega)
      have hverdict : (laidDown (q.ticketEntry .waiting).state).or
          (s.verdict q (.poll q.ticket)) = none := by
        simp [verdict, hnow, laidDown, Accepted.ticketEntry]
      rw [hverdict]
      exact ⟨by simp only [step, hpending], Or.inr ⟨rfl, by simp only [step, hpending]⟩⟩
  · obtain ⟨o, rfl⟩ := hsettled.ticket t ht
    obtain ⟨hreport, hforgets⟩ := Relay.poll_of_resolved h q hq o ht s.now
    refine ⟨?_, Or.inl ⟨?_, hforgets⟩⟩
    · simp only [step, hreport]
      rfl
    · simp [laidDown, Accepted.ticketEntry]

/-- A ticket that is gone does not come back. -/
theorem gone_step (s : ClockedRelay) (qs : List Accepted) (h : s.relay.Consistent qs)
    (q : Accepted) (hq : q ∈ qs) (op : RelayOp) (hgone : s.relay.tickets.get? q.ticket = none) :
    (s.step op).2.relay.tickets.get? q.ticket = none := by
  by_cases hpoll : op = .poll q.ticket
  · subst hpoll
    simp only [step, Relay.poll_of_none s.now q.ticket hgone]
    exact hgone
  · by_cases habandon : op = .abandon q.ticket
    · subst habandon
      simp only [step, Relay.abandon, hgone]
    · rw [ticket_step s qs h q hq op hpoll habandon, hgone]
      rfl

/-- Giving a ticket up makes it go. -/
theorem gone_abandon (s : ClockedRelay) (qs : List Accepted) (h : s.relay.Consistent qs)
    (q : Accepted) (hq : q ∈ qs) :
    (s.step (.abandon q.ticket)).2.relay.tickets.get? q.ticket = none := by
  cases ht : s.relay.tickets.get? q.ticket with
  | none => exact gone_step s qs h q hq _ ht
  | some t =>
    have hforgets := Relay.forgets_abandon h q hq t ht
    exact (hforgets.tickets q.ticket).trans (if_pos rfl)

/-- What is laid down on a ticket of the request after a decision. -/
theorem laidDown_decided (r : Relay) (qs : List Accepted) (h : r.Consistent qs) (q : Accepted)
    (hq : q ∈ qs) (t : TicketEntry) (ht : r.tickets.get? q.ticket = some t)
    (decision : Option Outcome) :
    laidDown (decided decision t).state = (laidDown t.state).or decision := by
  rcases h.standing q hq with hwaits | hsettled
  · rw [hwaits.ticket] at ht
    obtain rfl := Option.some.inj ht
    cases decision <;> rfl
  · obtain ⟨o, rfl⟩ := hsettled.ticket t ht
    rfl

/-- A request that is accepted waits just if its ticket is there and nothing is laid down on it. -/
theorem waits_iff (r : Relay) (qs : List Accepted) (h : r.Consistent qs) (q : Accepted)
    (hq : q ∈ qs) :
    r.Waits q ↔ ∃ t, r.tickets.get? q.ticket = some t ∧ laidDown t.state = none := by
  constructor
  · intro hwaits
    exact ⟨_, hwaits.ticket, rfl⟩
  · rintro ⟨t, ht, hnone⟩
    rcases h.standing q hq with hwaits | hsettled
    · exact hwaits
    · obtain ⟨o, rfl⟩ := hsettled.ticket t ht
      cases hnone

/-! ## Runs -/

theorem fate_append (s : ClockedRelay) (q : Accepted) (ops more : List RelayOp) :
    s.fate q (ops ++ more) = (s.fate q ops).or ((s.run ops).fate q more) := by
  induction ops generalizing s with
  | nil => rfl
  | cons op ops ih => simp only [List.cons_append, fate, run_cons, ih, Option.or_assoc]

theorem reports_cons (s : ClockedRelay) (ticket : Nat) (op : RelayOp) (ops : List RelayOp) :
    reports ticket (s.log (op :: ops)) =
      (reported ticket (op, (s.step op).1)).toList ++ reports ticket ((s.step op).2.log ops) := by
  simp only [reports, log, List.filterMap_cons]
  cases reported ticket (op, (s.step op).1) <;> rfl

theorem reported_of_ne (ticket : Nat) (op : RelayOp) (answer : RelayAnswer)
    (hne : op ≠ .poll ticket) : reported ticket (op, answer) = none := by
  unfold reported
  split
  · next polled outcome heq =>
    obtain ⟨rfl, -⟩ := Prod.mk.inj heq
    rw [if_neg]
    rintro rfl
    exact hne rfl
  · rfl

@[simp] theorem reported_poll (ticket : Nat) (outcome : Option Outcome) :
    reported ticket (.poll ticket, .polled outcome) = outcome := if_pos rfl

/-- A ticket that is gone reports nothing and does not come back. -/
theorem gone_run (s : ClockedRelay) (qs : List Accepted) (h : s.relay.Consistent qs)
    (q : Accepted) (hq : q ∈ qs) (ops : List RelayOp)
    (hfew : (qs ++ s.accepted ops).length < UInt32.size)
    (hgone : s.relay.tickets.get? q.ticket = none) :
    (s.run ops).relay.tickets.get? q.ticket = none ∧ reports q.ticket (s.log ops) = [] := by
  induction ops generalizing s qs with
  | nil => exact ⟨hgone, rfl⟩
  | cons op ops ih =>
    rw [accepted, ← List.append_assoc] at hfew
    have hstep := s.consistent_step qs op h (by rw [List.length_append] at hfew; omega)
    obtain ⟨hgone', hreports⟩ := ih (s.step op).2 _ hstep (List.mem_append_left _ hq) hfew
      (gone_step s qs h q hq op hgone)
    refine ⟨hgone', ?_⟩
    rw [reports_cons, hreports, List.append_nil]
    by_cases hpoll : op = .poll q.ticket
    · subst hpoll
      simp only [step, Relay.poll_of_none s.now q.ticket hgone, reported_poll, Option.toList]
    · rw [reported_of_ne q.ticket op _ hpoll]
      rfl

/-- After a run the ticket of a request is there, with what was laid down on it before or what the
run decided, or it is gone, having reported that or having been given up. -/
def Accounts (s : ClockedRelay) (q : Accepted) (laid : Option Outcome) (ops : List RelayOp) :
    Prop :=
  (RelayOp.abandon q.ticket ∉ ops ∧ reports q.ticket (s.log ops) = [] ∧
      ∃ t, (s.run ops).relay.tickets.get? q.ticket = some t ∧
        laidDown t.state = laid.or (s.fate q ops)) ∨
    (s.run ops).relay.tickets.get? q.ticket = none ∧
      ((∃ o, laid.or (s.fate q ops) = some o ∧ reports q.ticket (s.log ops) = [o]) ∨
        RelayOp.abandon q.ticket ∈ ops ∧ reports q.ticket (s.log ops) = [])

/-- An operation that reports nothing and leaves the ticket leaves its account to the rest of the
run. -/
theorem Accounts.cons (s : ClockedRelay) (q : Accepted) (laid : Option Outcome) (op : RelayOp)
    (ops : List RelayOp) (h : (s.step op).2.Accounts q (laid.or (s.verdict q op)) ops)
    (habandon : op ≠ .abandon q.ticket)
    (hsilent : reported q.ticket (op, (s.step op).1) = none) : s.Accounts q laid (op :: ops) := by
  have hmem : RelayOp.abandon q.ticket ∈ op :: ops ↔ RelayOp.abandon q.ticket ∈ ops := by
    rw [List.mem_cons]
    exact or_iff_right fun heq => habandon heq.symm
  rw [Accounts, reports_cons, hsilent, hmem, fate, ← Option.or_assoc]
  exact h

theorem ticket_run (s : ClockedRelay) (qs : List Accepted) (h : s.relay.Consistent qs)
    (q : Accepted) (hq : q ∈ qs) (ops : List RelayOp)
    (hfew : (qs ++ s.accepted ops).length < UInt32.size) (t : TicketEntry)
    (ht : s.relay.tickets.get? q.ticket = some t) : s.Accounts q (laidDown t.state) ops := by
  induction ops generalizing s qs t with
  | nil => exact Or.inl ⟨List.not_mem_nil, rfl, t, ht, by simp [fate]⟩
  | cons op ops ih =>
    rw [accepted, ← List.append_assoc] at hfew
    have hstep := s.consistent_step qs op h (by rw [List.length_append] at hfew; omega)
    have hq' := List.mem_append_left (s.accepts op).toList hq
    by_cases habandon : op = .abandon q.ticket
    · subst habandon
      obtain ⟨hgone, hreports⟩ := gone_run _ _ hstep q hq' ops hfew (gone_abandon s qs h q hq)
      refine Or.inr ⟨hgone, Or.inr ⟨List.mem_cons_self, ?_⟩⟩
      rw [reports_cons, hreports, reported_of_ne _ _ _ (by intro heq; cases heq)]
      rfl
    by_cases hpoll : op = .poll q.ticket
    · subst hpoll
      obtain ⟨hanswer, ⟨hsome, hforgets⟩ | ⟨hnone, hsame⟩⟩ := poll_step s qs h q hq t ht
      · obtain ⟨o, ho⟩ := Option.ne_none_iff_exists'.1 hsome
        obtain ⟨hgone, hreports⟩ := gone_run _ _ hstep q hq' ops hfew
          ((hforgets.tickets q.ticket).trans (if_pos rfl))
        refine Or.inr ⟨hgone, Or.inl ⟨o, ?_, ?_⟩⟩
        · rw [fate, ← Option.or_assoc, ho]
          rfl
        · rw [reports_cons, hreports, hanswer, reported_poll, ho]
          rfl
      · have hlaid := (Option.or_eq_none_iff.1 hnone).1
        refine Accounts.cons s q _ _ ops ?_ habandon (by rw [hanswer, reported_poll, hnone])
        rw [hnone, ← hlaid]
        exact ih _ _ hstep hq' hfew t (by rw [hsame]; exact ht)
    · refine Accounts.cons s q _ op ops ?_ habandon (reported_of_ne _ _ _ hpoll)
      rw [← laidDown_decided s.relay qs h q hq t ht (s.verdict q op)]
      refine ih _ _ hstep hq' hfew _ ?_
      rw [ticket_step s qs h q hq op hpoll habandon, ht]
      rfl

/-- What a run decides shows in a request that waits at its start. -/
theorem waits_run (s : ClockedRelay) (qs : List Accepted) (h : s.relay.Consistent qs)
    (q : Accepted) (hq : q ∈ qs) (ops : List RelayOp)
    (hfew : (qs ++ s.accepted ops).length < UInt32.size) (hwaits : s.relay.Waits q) :
    (s.run ops).relay.Waits q ↔ s.fate q ops = none ∧ RelayOp.abandon q.ticket ∉ ops := by
  have hrun := s.consistent_run qs ops h hfew
  rw [waits_iff _ _ hrun q (List.mem_append_left _ hq)]
  rcases ticket_run s qs h q hq ops hfew _ hwaits.ticket with
    ⟨habandon, -, t, ht, hlaid⟩ | ⟨hgone, ⟨o, ho, -⟩ | ⟨habandon, -⟩⟩
  · rw [show s.fate q ops = laidDown t.state from hlaid.symm]
    constructor
    · rintro ⟨t', ht', hnone⟩
      rw [ht] at ht'
      obtain rfl := Option.some.inj ht'
      exact ⟨hnone, habandon⟩
    · rintro ⟨hnone, -⟩
      exact ⟨t, ht, hnone⟩
  · have hfate : s.fate q ops = some o := ho
    simp [hgone, hfate]
  · simp [hgone, habandon]

/-- After a run an answer is taken just if nothing was decided, the ticket was not given up and a
session of the node gives it; otherwise it is told to be a duplicate and changes nothing. -/
theorem respond_after_run (s : ClockedRelay) (q : Accepted) (qs : List Accepted)
    (h : s.relay.Consistent qs) (hq : q ∈ qs) (session : Nat) (raw : Bytes) :
    (s.relay.Waits q ∧ session ∈ s.relay.sessionsOf q.node →
        (s.step (.respond session ⟨q.id, raw⟩)).1 = .done) ∧
      (¬(s.relay.Waits q ∧ session ∈ s.relay.sessionsOf q.node) →
        s.step (.respond session ⟨q.id, raw⟩) = (.refused (.duplicateResponse q.id), s)) := by
  constructor
  · rintro ⟨hwaits, hmem⟩
    have hok := (Relay.respond_eq_ok_iff s.relay _ session ⟨q.id, raw⟩).2
      ⟨⟨_, hwaits.entry, hmem⟩, rfl⟩
    simp only [step, hok]
  · intro hnot
    have herror := Relay.respond_eq_error s.relay session ⟨q.id, raw⟩ (by
      rintro ⟨e, he, hmem⟩
      obtain ⟨rfl, hwaits⟩ := h.waits_of_entry q hq e he
      exact hnot ⟨hwaits, hmem⟩)
    simp only [step, herror]

/-- The ticket of an accepted request reports the outcome that the first deciding operation of the
run after the submission decides, and reports it once.  The request waits until then, and answers
to it are taken, unless its ticket is given up. -/
theorem report_eq_fate (settings : RelaySettings) (now : Nat) (before after : List RelayOp)
    (op : RelayOp) (q : Accepted)
    (haccepts : ((start settings now).run before).accepts op = some q)
    (hfew : ((start settings now).accepted (before ++ op :: after)).length < UInt32.size) :
    let s := (start settings now).run (before ++ [op])
    (RelayOp.abandon q.ticket ∉ after → reports q.ticket (s.log after) = [] →
        ((s.run after).step (.poll q.ticket)).1 =
          .polled (s.fate q (after ++ [.poll q.ticket]))) ∧
      (reports q.ticket (s.log after)).length ≤ 1 ∧
      (∀ o ∈ reports q.ticket (s.log after), s.fate q after = some o) ∧
      ((s.run after).relay.pending.contains q.id = true ↔
        s.fate q after = none ∧ RelayOp.abandon q.ticket ∉ after) ∧
      ∀ session raw,
        ((s.fate q after = none ∧ RelayOp.abandon q.ticket ∉ after) ∧
            session ∈ (s.run after).relay.sessionsOf q.node →
          ((s.run after).step (.respond session ⟨q.id, raw⟩)).1 = .done) ∧
        (¬((s.fate q after = none ∧ RelayOp.abandon q.ticket ∉ after) ∧
            session ∈ (s.run after).relay.sessionsOf q.node) →
          (s.run after).step (.respond session ⟨q.id, raw⟩) =
            (.refused (.duplicateResponse q.id), s.run after)) := by
  intro s
  have hrun : s = (((start settings now).run before).step op).2 := run_append _ before [op]
  rw [accepted_append, accepted, haccepts, ← hrun] at hfew
  have hlength := hfew
  simp only [List.length_append, Option.toList_some, List.length_singleton] at hlength
  have hbefore := consistent_run (start settings now) [] before (Relay.consistent_start settings)
    (by rw [List.nil_append]; omega)
  rw [List.nil_append] at hbefore
  have hroom : ((start settings now).accepted before).length + 1 < UInt32.size := by omega
  obtain ⟨henters, hrelay⟩ := enters_of_accepts _ op q haccepts
  have hs : s.relay.Consistent ((start settings now).accepted before ++ [q]) := by
    rw [hrun, hrelay]
    exact Relay.consistent_enter hbefore hroom _ q henters
  have hwaits : s.relay.Waits q := by
    rw [hrun, hrelay]
    exact henters.waits hbefore
  have hq : q ∈ (start settings now).accepted before ++ [q] := by simp
  have hfew' : ((start settings now).accepted before ++ [q] ++ s.accepted after).length <
      UInt32.size := by
    rw [List.append_assoc]
    exact hfew
  have hafter := consistent_run s _ after hs hfew'
  have hq' := List.mem_append_left (s.accepted after) hq
  have hstanding := waits_run s _ hs q hq after hfew' hwaits
  have haccount := ticket_run s _ hs q hq after hfew' _ hwaits.ticket
  refine ⟨?_, ?_, ?_, ?_, ?_⟩
  · intro habandon hreports
    rcases haccount with ⟨-, -, t, ht, hlaid⟩ | ⟨-, ⟨o, -, hreport⟩ | ⟨hgiven, -⟩⟩
    · rw [(poll_step _ _ hafter q hq' t ht).1, hlaid, fate_append]
      simp [fate, laidDown, Accepted.ticketEntry]
    · rw [hreports] at hreport
      cases hreport
    · exact absurd hgiven habandon
  · rcases haccount with ⟨-, hreport, -⟩ | ⟨-, ⟨o, -, hreport⟩ | ⟨-, hreport⟩⟩ <;>
      simp [hreport]
  · intro o ho
    rcases haccount with ⟨-, hreport, -⟩ | ⟨-, ⟨o', hfate, hreport⟩ | ⟨-, hreport⟩⟩
    · rw [hreport] at ho
      cases ho
    · rw [hreport, List.mem_singleton] at ho
      rw [ho]
      exact hfate
    · rw [hreport] at ho
      cases ho
  · rw [hafter.contains_iff_waits q hq', hstanding]
  · intro session raw
    rw [← hstanding]
    exact respond_after_run _ q _ hafter hq' session raw

/-- A request that is answered after its deadline, but before a sweep or a poll, reports the answer,
whatever comes after. -/
theorem report_of_late_answer :
    let node : NodeId := ⟨List.replicate 32 7, rfl⟩
    let before := [RelayOp.openStream node, .attach node]
    let submit := RelayOp.submit 1 0 4 [1, 2]
    let q : Accepted := ⟨⟨1, ⟨node, 0, 4⟩, [1, 2]⟩, 1, 10, 1⟩
    let after := [RelayOp.take 1 1, .advance 10, .respond 1 ⟨1, [9]⟩, .sweep, .detach 1]
    let s := (start ⟨10, 5⟩ 0).run (before ++ [submit])
    ((start ⟨10, 5⟩ 0).run before).accepts submit = some q ∧
      ((start ⟨10, 5⟩ 0).accepted (before ++ submit :: after)).length < UInt32.size ∧
      RelayOp.abandon q.ticket ∉ after ∧ reports q.ticket (s.log after) = [] ∧
      ((s.run after).step (.poll q.ticket)).1 = .polled (some (.ok [9])) := by
  intro node before submit q after s
  have haccepts : ((start ⟨10, 5⟩ 0).run before).accepts submit = some q := rfl
  have hfew : ((start ⟨10, 5⟩ 0).accepted (before ++ submit :: after)).length <
      UInt32.size := by decide
  have hkept : RelayOp.abandon q.ticket ∉ after := by decide
  have hsilent : reports q.ticket (s.log after) = [] := rfl
  have hfate : s.fate q (after ++ [.poll q.ticket]) = some (.ok [9]) := rfl
  have hreport := (report_eq_fate ⟨10, 5⟩ 0 before after submit q haccepts hfew).1 hkept hsilent
  refine ⟨haccepts, hfew, hkept, hsilent, ?_⟩
  rw [hreport, hfate]

end ClockedRelay

end SigningGateway
