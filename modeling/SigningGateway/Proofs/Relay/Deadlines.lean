import SigningGateway.Proofs.Relay.Grants
import SigningGateway.Relay.Sweeping

/-!
# Deadlines

A relay that is swept holds no request for long after its deadline.  Between two sweeps every
request in the table has a deadline that is not before the last sweep, and the next sweep is due
within a period of the last one.  This holds however many requests there were, since it rests on the
tickets, which are numbered without end, and not on the ids.

    Timely floor r → floor ≤ now → Timely floor (r after an operation at now)         (timely_step)
    Timely floor r → Timely now (r.sweep now).2                                      (Timely.sweep)
    the sweeper has a positive period → now < deadline + period                    (ends_in_time)
-/

namespace SigningGateway

namespace Relay

/-- No request in the table has a deadline before `floor`, and each waits under its id for the
ticket that knows it. -/
structure Timely (floor : Nat) (r : Relay) : Prop where
  deadlines : ∀ id e, r.pending.entries.get? id = some e → floor ≤ e.deadline
  waiting : ∀ id e, r.pending.entries.get? id = some e →
    r.tickets.get? e.ticket = some ⟨id, e.deadline, .waiting⟩
  numbered : ∀ ticket t, r.tickets.get? ticket = some t → ticket < r.nextTicket

theorem timely_start (settings : RelaySettings) (floor : Nat) : (start settings).Timely floor where
  deadlines := by intro id e h; cases h
  waiting := by intro id e h; cases h
  numbered := by intro ticket t h; cases h

/-- Outcomes are laid down on tickets that are there. -/
theorem isSome_tickets_resolve (r : Relay) (resolutions : List Resolution) (ticket : Nat) :
    ((r.resolve resolutions).tickets.get? ticket).isSome = (r.tickets.get? ticket).isSome := by
  induction resolutions generalizing r with
  | nil => rfl
  | cons res rest ih =>
    have hfirst : (r.resolve (res :: rest)).tickets = ((r.resolve [res]).resolve rest).tickets := rfl
    rw [hfirst, ih, resolve]
    simp only [List.foldl_cons, List.foldl_nil, Table.get?_modify]
    split <;> simp

namespace Timely

variable {floor : Nat} {r : Relay} (h : r.Timely floor)
include h

/-- Two requests do not share a ticket. -/
theorem ticket_inj (id id' : UInt32) (e e' : PendingEntry)
    (he : r.pending.entries.get? id = some e) (he' : r.pending.entries.get? id' = some e')
    (hticket : e.ticket = e'.ticket) : id = id' := by
  have ht := h.waiting id e he
  rw [hticket, h.waiting id' e' he'] at ht
  exact (congrArg TicketEntry.id (Option.some.inj ht)).symm

/-- A relay with the same tickets whose requests differ at most in being delivered. -/
theorem frame (r' : Relay)
    (hentries : ∀ id e', r'.pending.entries.get? id = some e' →
      ∃ e, r.pending.entries.get? id = some e ∧ e'.deadline = e.deadline ∧ e'.ticket = e.ticket)
    (htickets : r'.tickets = r.tickets) (hnext : r'.nextTicket = r.nextTicket) :
    r'.Timely floor where
  deadlines := by
    intro id e' he'
    obtain ⟨e, he, hdeadline, -⟩ := hentries id e' he'
    rw [hdeadline]
    exact h.deadlines id e he
  waiting := by
    intro id e' he'
    obtain ⟨e, he, hdeadline, hticket⟩ := hentries id e' he'
    rw [htickets, hdeadline, hticket]
    exact h.waiting id e he
  numbered := by
    rw [htickets, hnext]
    exact h.numbered

/-- A relay with the same requests and tickets. -/
theorem same (r' : Relay) (hpending : r'.pending = r.pending) (htickets : r'.tickets = r.tickets)
    (hnext : r'.nextTicket = r.nextTicket) : r'.Timely floor := by
  refine h.frame r' (fun id e he => ⟨e, ?_, rfl, rfl⟩) htickets hnext
  rw [← hpending]
  exact he

/-- Requests that end leave the others to their tickets. -/
theorem ends {verdict : UInt32 → PendingEntry → Option Outcome} {r' : Relay}
    (hends : Ends verdict r r') (hnext : r'.nextTicket = r.nextTicket) : r'.Timely floor where
  deadlines := fun id e he => h.deadlines id e (hends.entries_subset id e he).1
  waiting := by
    intro id e he
    obtain ⟨he₀, hnone⟩ := hends.entries_subset id e he
    rw [hends.kept e.ticket, h.waiting id e he₀]
    intro id' e' he' hticket
    obtain rfl := h.ticket_inj id' id e' e he' he₀ hticket
    obtain rfl := Option.some.inj (he₀.symm.trans he')
    exact hnone
  numbered := by
    intro ticket t ht
    obtain ⟨t₀, ht₀⟩ := hends.tickets_subset ticket t ht
    rw [hnext]
    exact h.numbered ticket t₀ ht₀

theorem ends_removeWhere (p : PendingEntry → Bool) (outcome : UInt32 → Outcome) (r₁ : Relay)
    (htickets : r₁.tickets = r.tickets)
    (hpending : r₁.pending = (r.pending.removeWhere p outcome).2) :
    Ends (fun id e => if p e then some (outcome id) else none) r
      (r₁.resolve (r.pending.removeWhere p outcome).1) :=
  ends_removeWhere_of_inj r h.ticket_inj p outcome r₁ htickets hpending

/-- A ticket that goes takes the request under its id with it. -/
theorem remove (ticket : Nat) (t : TicketEntry) (ht : r.tickets.get? ticket = some t)
    (outcome : Option Outcome) :
    (({ r with
        pending := (r.pending.remove t.id outcome).2
        tickets := r.tickets.erase ticket } : Relay).resolve
          (r.pending.remove t.id outcome).1.toList).Timely floor where
  deadlines := by
    intro id e he
    have hget := (PendingTable.get?_remove r.pending t.id id outcome).symm.trans he
    split at hget
    · cases hget
    · exact h.deadlines id e hget
  waiting := by
    intro id e he
    have hget := (PendingTable.get?_remove r.pending t.id id outcome).symm.trans he
    split at hget
    · cases hget
    · next hid =>
      have hwaiting := h.waiting id e hget
      rw [get?_tickets_resolve_of_not_mem]
      · rw [Table.get?_erase, if_neg, hwaiting]
        intro hticket
        rw [hticket, ht] at hwaiting
        exact hid (congrArg TicketEntry.id (Option.some.inj hwaiting)).symm
      · rw [PendingTable.fst_remove]
        cases he' : r.pending.entries.get? t.id with
        | none => exact List.not_mem_nil
        | some e' =>
          intro hmem
          have hticket : e.ticket = e'.ticket := List.mem_singleton.1 hmem
          exact hid (h.ticket_inj id t.id e e' hget he' hticket)
  numbered := by
    intro k t' ht'
    have hsome := isSome_tickets_resolve ({ r with
        pending := (r.pending.remove t.id outcome).2
        tickets := r.tickets.erase ticket } : Relay) (r.pending.remove t.id outcome).1.toList k
    rw [ht'] at hsome
    obtain ⟨t₀, ht₀⟩ := Option.isSome_iff_exists.1 hsome.symm
    rw [Table.get?_erase] at ht₀
    split at ht₀
    · cases ht₀
    · exact h.numbered k t₀ ht₀

/-- A ticket that waits no longer is that of no request. -/
theorem forget (ticket : Nat) (t : TicketEntry) (ht : r.tickets.get? ticket = some t)
    (hstate : t.state ≠ .waiting) :
    ({ r with tickets := r.tickets.erase ticket } : Relay).Timely floor where
  deadlines := h.deadlines
  waiting := by
    intro id e he
    have hwaiting := h.waiting id e he
    rw [Table.get?_erase, if_neg, hwaiting]
    intro hticket
    rw [hticket, ht] at hwaiting
    exact hstate (congrArg TicketEntry.state (Option.some.inj hwaiting))
  numbered := by
    intro k t' ht'
    rw [Table.get?_erase] at ht'
    split at ht'
    · cases ht'
    · exact h.numbered k t' ht'

/-! ## Operations -/

/-- A request that is entered has a deadline that is not over, and a ticket of its own. -/
theorem dispatch (now : Nat) (hfloor : floor ≤ now) (stream : Nat) (context : RequestContext)
    (raw : Bytes) : (r.dispatch now stream context raw).2.Timely floor where
  deadlines := by
    intro id e he
    rw [get?_pending_dispatch] at he
    split at he
    · obtain rfl := Option.some.inj he
      exact Nat.le_trans hfloor (Nat.le_add_right _ _)
    · exact h.deadlines id e he
  waiting := by
    intro id e he
    rw [get?_pending_dispatch] at he
    rw [get?_tickets_dispatch]
    split at he
    · next hid =>
      obtain rfl := Option.some.inj he
      rw [if_pos rfl, hid]
    · have hwaiting := h.waiting id e he
      rw [if_neg (Nat.ne_of_lt (h.numbered _ _ hwaiting)), hwaiting]
  numbered := by
    intro ticket t ht
    rw [get?_tickets_dispatch] at ht
    show ticket < r.nextTicket + 1
    split at ht
    · omega
    · exact Nat.lt_succ_of_lt (h.numbered ticket t ht)

theorem submit (now : Nat) (hfloor : floor ≤ now) (stream : Nat) (dbid capabilities : UInt64)
    (raw : Bytes) (accepted : (Nat × UInt32) × Relay)
    (hok : r.submit now stream dbid capabilities raw = .ok accepted) :
    accepted.2.Timely floor := by
  unfold Relay.submit at hok
  split at hok
  · cases hok
  · split at hok
    · cases hok
    · next opened _ _ =>
      cases hcheck : r.grants.check opened.node dbid capabilities with
      | error cause => rw [hcheck] at hok; cases hok
      | ok granted =>
        rw [hcheck] at hok
        obtain rfl := Except.ok.inj hok
        exact h.dispatch now hfloor stream _ raw

theorem closeStream (stream : Nat) : (r.closeStream stream).Timely floor := by
  rcases closeStream_cases r stream with ⟨heq, -⟩ | ⟨s, -, -, heq⟩
  · rw [heq]
    exact h
  · rw [heq]
    exact h.ends (h.ends_removeWhere (fun e => e.stream = stream) _ _ rfl rfl) rfl

theorem attach (node : NodeId) : (r.attach node).2.Timely floor := by
  refine h.frame _ (fun id e' he' => ?_) rfl rfl
  have hget := (PendingTable.get?_markAll _ _ _).symm.trans he'
  split at hget
  · obtain ⟨e, he, rfl⟩ := Option.map_eq_some_iff.1 hget
    exact ⟨e, he, rfl, rfl⟩
  · exact ⟨e', hget, rfl, rfl⟩

theorem detach (session : Nat) : (r.detach session).Timely floor := by
  unfold Relay.detach
  split
  · exact h
  · next s hs =>
    dsimp only
    split
    · exact h.same _ rfl rfl rfl
    · split
      · exact h.ends (h.ends_removeWhere (fun e => e.delivered && e.context.node = s.node) _ _
          rfl rfl) rfl
      · exact h.same _ rfl rfl rfl

theorem poll (now ticket : Nat) : (r.poll now ticket).2.Timely floor := by
  unfold Relay.poll
  split
  · exact h
  · next t ht =>
    dsimp only
    split
    · next outcome hstate => exact h.forget ticket t ht (by rw [hstate]; exact nofun)
    · next hstate => exact h.forget ticket t ht (by rw [hstate]; exact nofun)
    · split
      · exact h.remove ticket t ht _
      · exact h

theorem abandon (ticket : Nat) : (r.abandon ticket).Timely floor := by
  unfold Relay.abandon
  split
  · exact h
  · next t ht => exact h.remove ticket t ht none

theorem respond (r' : Relay) (session : Nat) (response : Response)
    (hok : r.respond session response = .ok r') : r'.Timely floor := by
  have hends := ends_respond r r' session response hok
  obtain ⟨-, rfl⟩ := (respond_eq_ok_iff r r' session response).1 hok
  exact h.ends hends rfl

/-- A sweep ends the requests whose deadline has come, each with its own id, and no others. -/
theorem ends_sweep (now : Nat) :
    Ends (fun id e => if e.deadline ≤ now then some (.error (.requestTimeout id)) else none)
      r (r.sweep now).2 := by
  have hends := h.ends_removeWhere (fun e => e.deadline ≤ now)
    (fun id => .error (.requestTimeout id))
    { r with
      pending := (r.pending.sweep now).2
      queues := (r.sweep now).2.queues } rfl rfl
  exact hends.congr fun id e _ => by simp

/-- After a sweep the deadlines are all to come. -/
theorem sweep (now : Nat) : (r.sweep now).2.Timely now := by
  have hswept := h.ends (h.ends_sweep now) rfl
  refine ⟨fun id e he => ?_, hswept.waiting, hswept.numbered⟩
  obtain ⟨-, hnone⟩ := (h.ends_sweep now).entries_subset id e he
  split at hnone
  · cases hnone
  · omega

end Timely

/-! ## Sweeps -/

/-- The number that a sweep returns is that of the requests whose deadline has come. -/
theorem fst_sweep (r : Relay) (now : Nat) :
    (r.sweep now).1 = (r.pending.entries.values.filter fun e => e.deadline ≤ now).length := by
  have hcount : ∀ entries : List (UInt32 × PendingEntry),
      (entries.filterMap fun entry => if entry.2.deadline ≤ now then
        some (⟨entry.2.ticket, entry.1, some (.error (.requestTimeout entry.1))⟩ : Resolution)
        else none).length =
      ((entries.map Prod.snd).filter fun e => e.deadline ≤ now).length := by
    intro entries
    induction entries with
    | nil => rfl
    | cons entry rest ih =>
      by_cases hdue : entry.2.deadline ≤ now <;> simp [hdue, ih]
  have hcount' := hcount r.pending.entries.entries
  simp only [sweep, PendingTable.sweep, PendingTable.removeWhere, decide_eq_true_eq]
  exact hcount'

/-- A second sweep at the same time finds nothing. -/
theorem sweep_sweep (r : Relay) (now : Nat) :
    (r.sweep now).2.sweep now = (0, (r.sweep now).2) := by
  let pending := (r.pending.sweep now).2
  let pruned := fun (_ : NodeId) (q : NodeQueue) =>
    { q with outstanding := prune pending q.outstanding }
  let kept := fun (_ : NodeId) (q : NodeQueue) => !q.signers.isEmpty || !q.outstanding.isEmpty
  have hqueues : (((r.queues.map pruned).filter kept).map pruned).filter kept =
      (r.queues.map pruned).filter kept := by
    have hmap : ((r.queues.map pruned).filter kept).map pruned =
        (r.queues.map pruned).filter kept := by
      refine Table.map_eq_self _ _ fun entry hmem => ?_
      obtain ⟨e, -, rfl⟩ := List.mem_map.1 (List.mem_filter.1 hmem).1
      show NodeQueue.mk _ _ = NodeQueue.mk _ _
      rw [prune_prune _ _ _ fun _ hid => hid]
    rw [hmap]
    exact Table.filter_eq_self _ _ fun entry hmem => (List.mem_filter.1 hmem).2
  have htwice := r.pending.sweep_sweep now
  show ((pending.sweep now).1.length,
    ({ (r.sweep now).2 with
      pending := (pending.sweep now).2
      queues := (((r.sweep now).2.queues.map fun _ q =>
        { q with outstanding := prune (pending.sweep now).2 q.outstanding }).filter kept) } :
          Relay).resolve (pending.sweep now).1) = _
  rw [htwice]
  exact Prod.ext rfl (congrArg (fun queues => { (r.sweep now).2 with queues }) hqueues)

end Relay

/-- An operation keeps requests timely. -/
theorem ClockedRelay.timely_step (s : ClockedRelay) (floor : Nat) (h : s.relay.Timely floor)
    (hfloor : floor ≤ s.now) (op : RelayOp) : (s.step op).2.relay.Timely floor := by
  cases op with
  | openStream node => exact h.same _ rfl rfl rfl
  | closeStream stream => exact h.closeStream stream
  | dropStream stream => exact (h.closeStream stream).same _ rfl rfl rfl
  | submit stream dbid capabilities raw =>
    simp only [step]
    split
    · next accepted hok => exact h.submit s.now hfloor stream dbid capabilities raw _ hok
    · exact h
  | grant stream dbid capabilities =>
    simp only [step]
    split
    · next relay hgrant =>
      obtain ⟨grants, rfl⟩ := Relay.grant_eq_ok relay stream dbid capabilities hgrant
      exact h.same _ rfl rfl rfl
    · exact h
  | attach node => exact h.attach node
  | take session count =>
    simp only [step, Relay.take]
    split
    · exact h
    · exact h.same _ rfl rfl rfl
  | respond session response =>
    simp only [step]
    split
    · next relay hok => exact h.respond relay session response hok
    · exact h
  | detach session => exact h.detach session
  | poll ticket => exact h.poll s.now ticket
  | abandon ticket => exact h.abandon ticket
  | sweep =>
    have hswept := h.ends (h.ends_sweep s.now) rfl
    exact hswept
  | advance duration => exact h

/-! ## Runs of a relay that is swept -/

namespace SweptRelay

/-- Applies an operation.  When time passes the sweeper is let run; anything else happens at
once. -/
def step (s : SweptRelay) : RelayOp → SweptRelay
  | .advance duration => s.advance duration
  | op => { s with relay := ((⟨s.relay, s.now⟩ : ClockedRelay).step op).2.relay }

def run (s : SweptRelay) (ops : List RelayOp) : SweptRelay := ops.foldl step s

/-- The last sweep was at the time `last`, and the next one is due within a period of it. -/
structure Paced (period last : Nat) (s : SweptRelay) : Prop where
  sweeper : ∃ t, s.sweeper = some t ∧ t.period = period ∧ s.now < t.due ∧ t.due ≤ last + period
  last_le : last ≤ s.now
  timely : s.relay.Timely last

theorem settle_of_some (s : SweptRelay) (t : Ticker) (hsweeper : s.sweeper = some t) :
    s.settle =
      { s with
        relay := if (t.run s.now).1 = 0 then s.relay else (s.relay.sweep s.now).2
        sweeper := some (t.run s.now).2 } := by
  rw [settle, hsweeper]

/-- Once the sweeper has run, the last sweep is no more than a period before the next tick. -/
theorem paced_settle (s : SweptRelay) (t : Ticker) (last : Nat) (hsweeper : s.sweeper = some t)
    (hperiod : 0 < t.period) (hdue : t.due ≤ last + t.period) (hlast : last ≤ s.now)
    (htimely : s.relay.Timely last) : ∃ last', s.settle.Paced t.period last' := by
  rw [s.settle_of_some t hsweeper]
  by_cases hnow : t.due ≤ s.now
  · obtain ⟨hcount, hnext⟩ := t.run_of_le s.now hnow
    refine ⟨s.now, ⟨_, rfl, t.period_run s.now, t.run_due s.now hperiod, hnext⟩, Nat.le_refl _, ?_⟩
    show Relay.Timely s.now (if (t.run s.now).1 = 0 then s.relay else (s.relay.sweep s.now).2)
    rw [if_neg (Nat.ne_of_gt hcount)]
    exact htimely.sweep s.now
  · have hwaits : s.now < t.due := Nat.lt_of_not_le hnow
    rw [t.run_of_lt s.now hwaits]
    exact ⟨last, ⟨t, rfl, rfl, hwaits, hdue⟩, hlast, htimely⟩

theorem paced_start (settings : RelaySettings) (hperiod : 0 < settings.sweepInterval) :
    ∃ last, (start settings true).Paced settings.sweepInterval last :=
  paced_settle _ (.start settings.sweepInterval .delay 0) 0 rfl hperiod (Nat.zero_le _)
    (Nat.le_refl _) (Relay.timely_start settings 0)

theorem paced_step (s : SweptRelay) (period last : Nat) (hperiod : 0 < period)
    (h : s.Paced period last) (op : RelayOp) : ∃ last', (s.step op).Paced period last' := by
  have hnow : ∀ relay, relay.Timely last → ({ s with relay } : SweptRelay).Paced period last :=
    fun relay htimely => ⟨h.sweeper, h.last_le, htimely⟩
  cases op with
  | advance duration =>
    obtain ⟨t, hsweeper, rfl, -, hdue⟩ := h.sweeper
    exact paced_settle { s with now := s.now + duration } t last hsweeper hperiod hdue
      (Nat.le_trans h.last_le (Nat.le_add_right _ _)) h.timely
  | _ => exact ⟨last, hnow _ (ClockedRelay.timely_step ⟨s.relay, s.now⟩ last h.timely h.last_le _)⟩

theorem paced_run (s : SweptRelay) (period last : Nat) (hperiod : 0 < period)
    (h : s.Paced period last) (ops : List RelayOp) : ∃ last', (s.run ops).Paced period last' := by
  induction ops generalizing s last with
  | nil => exact ⟨last, h⟩
  | cons op ops ih =>
    obtain ⟨last', hstep⟩ := s.paced_step period last hperiod h op
    exact ih _ last' hstep

/-- When nothing is due, the sweeper has nothing to do. -/
theorem Paced.settle_eq {period last : Nat} {s : SweptRelay} (h : s.Paced period last) :
    s.settle = s := by
  obtain ⟨t, hsweeper, -, hnow, -⟩ := h.sweeper
  rw [s.settle_of_some t hsweeper, t.run_of_lt s.now hnow, if_pos rfl, ← hsweeper]

/-- A relay with a sweeper of positive period, whatever is done to it and however far the clock
jumps: once the sweeper has run, no request is in the table for a period or more after its deadline.
A sweep takes out just the requests whose deadline has come, tells each of their tickets that its
request has timed out, and returns their number; it leaves the other requests and tickets as they
are, and a second one at the same time finds nothing. -/
theorem ends_in_time (settings : RelaySettings) (hperiod : 0 < settings.sweepInterval)
    (ops : List RelayOp) :
    let s := (start settings true).run ops
    s.settle = s ∧
      (∀ id e, s.relay.pending.entries.get? id = some e →
        s.now < e.deadline + settings.sweepInterval) ∧
      ∀ time,
        let swept := (s.relay.sweep time).2
        (∀ id, swept.pending.entries.get? id =
          (s.relay.pending.entries.get? id).filter fun e => !decide (e.deadline ≤ time)) ∧
        (s.relay.sweep time).1 =
          (s.relay.pending.entries.values.filter fun e => e.deadline ≤ time).length ∧
        (∀ id e, s.relay.pending.entries.get? id = some e → e.deadline ≤ time →
          s.relay.tickets.get? e.ticket = some ⟨id, e.deadline, .waiting⟩ ∧
            swept.tickets.get? e.ticket =
              some ⟨id, e.deadline, .resolved (.error (.requestTimeout id))⟩) ∧
        (∀ ticket, (∀ id e, s.relay.pending.entries.get? id = some e → e.deadline ≤ time →
            e.ticket ≠ ticket) →
          swept.tickets.get? ticket = s.relay.tickets.get? ticket) ∧
        swept.sweep time = (0, swept) := by
  intro s
  obtain ⟨first, hfirst⟩ := paced_start settings hperiod
  obtain ⟨last, hpaced⟩ := paced_run _ _ first hperiod hfirst ops
  have hs : s.Paced settings.sweepInterval last := hpaced
  refine ⟨hs.settle_eq, fun id e he => ?_, fun time => ?_⟩
  · obtain ⟨t, -, -, hnow, hdue⟩ := hs.sweeper
    have hdeadline := hs.timely.deadlines id e he
    omega
  · have hends := hs.timely.ends_sweep time
    refine ⟨fun id => ?_, s.relay.fst_sweep time, fun id e he hover => ?_, fun ticket hother => ?_,
      s.relay.sweep_sweep time⟩
    · exact PendingTable.get?_removeWhere _ _ (fun id => .error (.requestTimeout id)) _
    · have hwaiting := hs.timely.waiting id e he
      refine ⟨hwaiting, ?_⟩
      rw [hends.decided id e _ he (if_pos hover), hwaiting]
      rfl
    · apply hends.kept
      intro id e he hticket
      exact if_neg fun hover => hother id e he hover hticket

/-- The clock jumps past several ticks, and a request that was submitted after the late one is ended
by the next. -/
theorem ended_after_jump :
    let node : NodeId := ⟨List.replicate 32 7, rfl⟩
    let settings : RelaySettings := ⟨10, 20⟩
    let ops := [RelayOp.openStream node, .submit 1 0 4 [1], .advance 73, .submit 1 0 4 [2],
      .advance 19]
    let s := (start settings true).run ops
    0 < settings.sweepInterval ∧ s.relay.pending.size = 1 ∧
      (∀ id e, s.relay.pending.entries.get? id = some e → s.now < e.deadline + 20) ∧
      (s.step (.advance 1)).relay.pending.size = 0 := by
  intro node settings ops s
  have hperiod : 0 < settings.sweepInterval := by decide
  exact ⟨hperiod, by decide +kernel, (ends_in_time settings hperiod ops).2.1, by decide +kernel⟩

end SweptRelay

end SigningGateway
