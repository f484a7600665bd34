import SigningGateway.Proofs.Relay.Attached
import SigningGateway.Proofs.Relay.Fate
import SigningGateway.Proofs.Relay.Streams

/-!
# What a relay holds on to

The table of a relay holds the requests that were accepted and of which nothing was decided, unless
their ticket was given up; what came to an end leaves nothing there, whoever ended it.  A sweep
clears the queues as well: a node then has one just if it has a session or a request that waits, and
the queue holds just the requests that wait.

    unresolved ops = the accepted requests that wait after ops                    (unresolved_eq)
    a queue that is swept is there ↔ its node has a signer or a waiting request   (get?_queues_sweep)
-/

namespace SigningGateway

namespace ClockedRelay

/-- The requests that a run had accepted, of which nothing was decided and whose tickets were not
given up. -/
def unresolved (s : ClockedRelay) : List RelayOp → List Accepted
  | [] => []
  | op :: ops =>
    (s.accepts op).toList.filter (fun q =>
      ((s.step op).2.fate q ops).isNone && RelayOp.abandon q.ticket ∉ ops) ++
      unresolved (s.step op).2 ops

/-- The unresolved requests are those whose ids are in the table at the end. -/
theorem unresolved_eq (s : ClockedRelay) (qs : List Accepted) (h : s.relay.Consistent qs)
    (ops : List RelayOp) (hfew : (qs ++ s.accepted ops).length < UInt32.size) :
    s.unresolved ops =
      (s.accepted ops).filter fun q => (s.run ops).relay.pending.contains q.id := by
  induction ops generalizing s qs with
  | nil => rfl
  | cons op ops ih =>
    rw [accepted, ← List.append_assoc] at hfew
    have hstep := s.consistent_step qs op h (by rw [List.length_append] at hfew; omega)
    rw [unresolved, accepted, List.filter_append, ih _ _ hstep hfew, run_cons]
    congr 1
    apply List.filter_congr
    intro q hmem
    -- the request waits once it is accepted, and then until it is decided or given up
    have haccepts : s.accepts op = some q := Option.mem_toList.1 hmem
    obtain ⟨henters, hrelay⟩ := s.enters_of_accepts op q haccepts
    have hwaits : (s.step op).2.relay.Waits q := by
      rw [hrelay]
      exact henters.waits h
    have hq : q ∈ qs ++ (s.accepts op).toList := List.mem_append_right _ hmem
    have hrun := consistent_run _ _ ops hstep hfew
    rw [Bool.eq_iff_iff, hrun.contains_iff_waits q (List.mem_append_left _ hq),
      waits_run _ _ hstep q hq ops hfew hwaits, Bool.and_eq_true, Option.isNone_iff_eq_none,
      decide_eq_true_eq]

end ClockedRelay

namespace Relay

variable {qs : List Accepted} {r : Relay}

/-! ## Queues after a sweep -/

/-- A sweep leaves the queues that have signers or requests that wait. -/
theorem get?_queues_sweep (r : Relay) (now : Nat) (node : NodeId) :
    ((r.sweep now).2.queues.get? node).isSome = true ↔
      ((r.sweep now).2.queueOf node).signers ≠ [] ∨
        ((r.sweep now).2.queueOf node).outstanding ≠ [] := by
  rw [queueOf_sweep, queueOf]
  simp only [sweep, resolve, Table.get?_filter, Table.get?_map]
  cases r.queues.get? node with
  | none => simp [prune]
  | some queue =>
    simp only [Option.map_some, Option.filter, Option.getD_some, Bool.or_eq_true,
      Bool.not_eq_true', List.isEmpty_eq_false_iff]
    split
    · next hkept => exact iff_of_true rfl hkept
    · next hdropped => exact iff_of_false Bool.false_ne_true hdropped

/-- The requests in a queue that was swept are those of its node that wait. -/
theorem outstanding_sweep (h : r.Consistent qs) (now : Nat) (node : NodeId) :
    ((r.sweep now).2.queueOf node).outstanding = (r.sweep now).2.waitingOf qs node := by
  have hswept := consistent_sweep h now
  rw [← hswept.backlog node, queueOf_sweep, prune_prune _ _ _ fun _ hid => hid]

/-- The requests of a node that wait are those of its entries in the table. -/
theorem waitingOf_ne_nil (h : r.Consistent qs) (node : NodeId) :
    r.waitingOf qs node ≠ [] ↔
      ∃ id e, r.pending.entries.get? id = some e ∧ e.context.node = node := by
  rw [waitingOf, ← List.length_pos_iff, List.length_pos_iff_exists_mem]
  simp only [List.mem_map, List.mem_filter, Bool.and_eq_true, decide_eq_true_eq]
  constructor
  · rintro ⟨_, q, ⟨hq, hnode, hcontains⟩, -⟩
    have hwaits := (h.contains_iff_waits q hq).1 hcontains
    exact ⟨q.id, _, hwaits.entry, hnode⟩
  · rintro ⟨id, e, he, hnode⟩
    obtain ⟨q, hq, rfl, rfl⟩ := h.entries id e he
    exact ⟨_, q, ⟨hq, hnode, (PendingTable.contains_iff _ _).2 ⟨_, he⟩⟩, rfl⟩

/-- A node has signers in its queue just if it has a session. -/
theorem Attends.signers_ne_nil {attached : List (Nat × NodeId)} (ha : r.Attends attached)
    (node : NodeId) :
    (r.queueOf node).signers ≠ [] ↔ ∃ session, (session, node) ∈ attached := by
  rw [ha.signers, ← List.length_pos_iff, List.length_pos_iff_exists_mem]
  simp only [List.mem_map, List.mem_filter, decide_eq_true_eq]
  constructor
  · rintro ⟨_, ⟨session, _⟩, ⟨hmem, rfl⟩, rfl⟩
    exact ⟨session, hmem⟩
  · rintro ⟨session, hmem⟩
    exact ⟨session, (session, node), ⟨hmem, rfl⟩, rfl⟩

/-- A relay in which nothing waits and no session is attached is cleared by a sweep. -/
theorem cleared_sweep (h : r.Consistent qs) (ha : r.Attends []) (now : Nat)
    (hnone : ∀ id, r.pending.entries.get? id = none) :
    (r.sweep now).2.pending.entries.entries = [] ∧ (r.sweep now).2.queues.entries = [] := by
  have hswept := consistent_sweep h now
  have hpending : ∀ id, (r.sweep now).2.pending.entries.get? id = none := by
    intro id
    rw [(ends_sweep h now).entries, hnone]
    rfl
  constructor
  · rw [List.eq_nil_iff_forall_not_mem]
    rintro ⟨id, e⟩ hmem
    rw [← Table.get?_eq_some_iff, hpending] at hmem
    cases hmem
  · rw [List.eq_nil_iff_forall_not_mem]
    rintro ⟨node, queue⟩ hmem
    have hsome : ((r.sweep now).2.queues.get? node).isSome = true := by
      rw [(Table.get?_eq_some_iff _ _ _).2 hmem]
      rfl
    rcases (get?_queues_sweep r now node).1 hsome with hsigners | houtstanding
    · rw [queueOf_sweep] at hsigners
      obtain ⟨session, hsession⟩ := (ha.signers_ne_nil node).1 hsigners
      cases hsession
    · rw [outstanding_sweep h, waitingOf_ne_nil hswept] at houtstanding
      obtain ⟨id, e, he, -⟩ := houtstanding
      rw [hpending] at he
      cases he

end Relay

namespace ClockedRelay

/-! ## Runs -/

theorem opens_of_start (settings : RelaySettings) (now : Nat) (ops : List RelayOp) :
    ((start settings now).run ops).relay.Opens (openIn ((start settings now).log ops)) :=
  opens_run (start settings now) (Relay.numbered_start settings) [] (Relay.opens_start settings) ops

section
variable (settings : RelaySettings) (now : Nat) (ops : List RelayOp)
  (hfew : ((start settings now).accepted ops).length < UInt32.size)
include hfew

theorem consistent_of_start :
    ((start settings now).run ops).relay.Consistent ((start settings now).accepted ops) :=
  consistent_run (start settings now) [] ops (Relay.consistent_start settings) hfew

theorem attends_of_start :
    ((start settings now).run ops).relay.Attends (attachedIn ((start settings now).log ops)) :=
  attends_run (start settings now) [] (Relay.consistent_start settings) []
    (Relay.attends_start settings) ops hfew

theorem mem_unresolved (q : Accepted) :
    q ∈ (start settings now).unresolved ops ↔
      q ∈ (start settings now).accepted ops ∧ ((start settings now).run ops).relay.Waits q := by
  have h := consistent_of_start settings now ops hfew
  rw [unresolved_eq (start settings now) [] (Relay.consistent_start settings) ops hfew,
    List.mem_filter]
  exact and_congr_right fun hq => h.contains_iff_waits q hq

/-- The table holds the unresolved requests, each on the stream of its submission, which is open. -/
theorem entry_iff_unresolved (id : UInt32) (e : PendingEntry) :
    ((start settings now).run ops).relay.pending.entries.get? id = some e ↔
      ∃ q ∈ (start settings now).unresolved ops, q.id = id ∧
        e = q.entry (q.node ∈ (attachedIn ((start settings now).log ops)).map Prod.snd) := by
  have h := consistent_of_start settings now ops hfew
  have ha := attends_of_start settings now ops hfew
  simp only [mem_unresolved settings now ops hfew, ← ha.hasSession_eq]
  constructor
  · intro he
    obtain ⟨q, hq, rfl, rfl⟩ := h.entries id e he
    exact ⟨q, ⟨hq, (h.waits_of_entry q hq _ he).2⟩, rfl, rfl⟩
  · rintro ⟨q, ⟨-, hwaits⟩, rfl, rfl⟩
    exact hwaits.entry

end

/-- After every run the table holds just the requests of which nothing was decided and whose tickets
are there, on the streams that are open; the open streams are counted, up to the size of the counter;
and after a sweep there are queues just for the nodes with a session or a request that waits, which
hold those requests.  So a sweep leaves nothing behind once all tickets and sessions are gone. -/
theorem holds_unresolved (settings : RelaySettings) (now : Nat) (ops : List RelayOp)
    (hfew : ((start settings now).accepted ops).length < UInt32.size) :
    let s := (start settings now).run ops
    let opened := openIn ((start settings now).log ops)
    let attached := attachedIn ((start settings now).log ops)
    let swept := (s.step .sweep).2
    (∀ id e, s.relay.pending.entries.get? id = some e ↔
        ∃ q ∈ (start settings now).unresolved ops, q.id = id ∧
          e = q.entry (q.node ∈ attached.map Prod.snd)) ∧
      (∀ q, q ∈ (start settings now).unresolved ops ↔
        q ∈ (start settings now).accepted ops ∧
          s.relay.tickets.get? q.ticket = some (q.ticketEntry .waiting)) ∧
      (∀ q ∈ (start settings now).unresolved ops, q.stream ∈ opened) ∧
      (∀ stream, stream ∉ opened →
        (∀ id e, s.relay.pending.entries.get? id = some e → e.stream ≠ stream) ∧
          ∀ dbid capabilities raw, s.step (.submit stream dbid capabilities raw) =
            (.refused (.connectionLost "node stream closed"), s)) ∧
      (∀ before op after stream node, ops = before ++ op :: after →
        (RelayOp.openStream node, RelayAnswer.opened stream) ∈ (start settings now).log before →
        op = .closeStream stream ∨ op = .dropStream stream → stream ∉ opened) ∧
      (opened.Nodup ∧ s.relay.openStreams = UInt64.ofNat opened.length ∧
        (opened.length < UInt64.size → s.relay.stats.nodeStreams = opened.length)) ∧
      (∀ node, (swept.relay.queues.get? node).isSome = true ↔
        (∃ session, (session, node) ∈ attached) ∨
          ∃ id e, swept.relay.pending.entries.get? id = some e ∧ e.context.node = node) ∧
      (∀ node queue, swept.relay.queues.get? node = some queue →
        queue.outstanding =
          requestsOf node ((start settings now).unresolved (ops ++ [.sweep]))) ∧
      ((∀ q ∈ (start settings now).accepted ops, s.relay.tickets.get? q.ticket = none) →
        attached = [] →
        swept.relay.pending.entries.entries = [] ∧ swept.relay.queues.entries = []) := by
  intro s opened attached swept
  have h : s.relay.Consistent ((start settings now).accepted ops) :=
    consistent_of_start settings now ops hfew
  have ha : s.relay.Attends attached := attends_of_start settings now ops hfew
  have ho : s.relay.Opens opened := opens_of_start settings now ops
  have hentry := entry_iff_unresolved settings now ops hfew
  have hwaiting := mem_unresolved settings now ops hfew
  have hstreams : ∀ q ∈ (start settings now).unresolved ops, q.stream ∈ opened := by
    intro q hq
    rw [ho.streams]
    exact ⟨_, h.openStreams q.id _ ((hwaiting q).1 hq).2.entry⟩
  refine ⟨hentry, ?_, hstreams, ?_, ?_, ⟨ho.nodup, ho.counter, ho.nodeStreams_eq⟩, ?_, ?_, ?_⟩
  · intro q
    rw [hwaiting]
    refine and_congr_right fun hq => ⟨fun hwaits => hwaits.ticket, fun ht => ?_⟩
    exact (waits_iff s.relay _ h q hq).2 ⟨_, ht, rfl⟩
  · intro stream hclosed
    refine ⟨?_, submit_of_not_open s opened ho stream hclosed⟩
    rintro id e he rfl
    obtain ⟨q, hq, -, rfl⟩ := (hentry id e).1 he
    exact hclosed (hstreams q hq)
  · rintro before op after stream node rfl hopened hop
    exact not_mem_openIn (start settings now) before after op stream hop node hopened
  · intro node
    have hswept := Relay.consistent_sweep h s.now
    show ((s.relay.sweep s.now).2.queues.get? node).isSome = true ↔ _
    rw [Relay.get?_queues_sweep, Relay.outstanding_sweep h, Relay.waitingOf_ne_nil hswept,
      Relay.queueOf_sweep]
    exact or_congr (ha.signers_ne_nil node) Iff.rfl
  · intro node queue hqueue
    have hmore : (start settings now).accepted (ops ++ [.sweep]) =
        (start settings now).accepted ops := by
      rw [accepted_append]
      exact List.append_nil _
    have hout := Relay.outstanding_sweep h s.now node
    rw [Relay.queueOf, show (s.relay.sweep s.now).2.queues.get? node = some queue from hqueue,
      Option.getD_some] at hout
    rw [hout, unresolved_eq (start settings now) [] (Relay.consistent_start settings) _
      (by rw [hmore]; exact hfew), hmore, run_append, requestsOf, Relay.waitingOf,
      List.filter_filter]
    rfl
  · intro hgone hnone
    rw [hnone] at ha
    refine Relay.cleared_sweep h ha s.now fun id => ?_
    rw [Option.eq_none_iff_forall_ne_some]
    intro e he
    obtain ⟨q, hq, -, -⟩ := (hentry id e).1 he
    obtain ⟨hmem, hwaits⟩ := (hwaiting q).1 hq
    have hticket := hwaits.ticket
    rw [show ((start settings now).run ops).relay.tickets.get? q.ticket = none from
      hgone q hmem] at hticket
    cases hticket

/-- Of three requests one is given up and one fails with its stream, which is closed twice; the one
of the other stream is what stays, also in the queue. -/
theorem holds_request_of_open_stream :
    let node : NodeId := ⟨List.replicate 32 7, rfl⟩
    let ops := [RelayOp.openStream node, .openStream node, .submit 1 0 4 [1], .submit 2 0 4 [2],
      .abandon 1, .submit 1 0 4 [3], .closeStream 1, .closeStream 1]
    let s := (start ⟨10, 5⟩ 0).run ops
    ((start ⟨10, 5⟩ 0).accepted ops).length < UInt32.size ∧
      (∀ id e, s.relay.pending.entries.get? id = some e ↔
        id = 2 ∧ e = ⟨⟨node, 0, 4⟩, 2, 10, false, 2⟩) ∧
      s.relay.stats.nodeStreams = 1 ∧
      (s.step (.submit 1 0 4 [4])).1 = .refused (.connectionLost "node stream closed") ∧
      ((s.step .sweep).2.relay.queues.get? node).map NodeQueue.outstanding =
        some [⟨2, ⟨node, 0, 4⟩, [2]⟩] := by
  intro node ops
  have hfew : ((start ⟨10, 5⟩ 0).accepted ops).length < UInt32.size := by decide +kernel
  have hunresolved : (start ⟨10, 5⟩ 0).unresolved ops =
      [⟨⟨2, ⟨node, 0, 4⟩, [2]⟩, 2, 10, 2⟩] := by decide +kernel
  have hqueued : requestsOf node ((start ⟨10, 5⟩ 0).unresolved (ops ++ [.sweep])) =
      [⟨2, ⟨node, 0, 4⟩, [2]⟩] := by decide +kernel
  have hopened : openIn ((start ⟨10, 5⟩ 0).log ops) = [2] := by decide +kernel
  have hattached : attachedIn ((start ⟨10, 5⟩ 0).log ops) = [] := by decide +kernel
  have hqueue : ((((start ⟨10, 5⟩ 0).run ops).step .sweep).2.relay.queues.get? node).isSome =
      true := by decide +kernel
  obtain ⟨hentry, -, -, hclosed, -, ⟨-, -, hcount⟩, -, hout, -⟩ :=
    holds_unresolved ⟨10, 5⟩ 0 ops hfew
  rw [hunresolved, hattached] at hentry
  rw [hopened] at hclosed hcount
  specialize hout node
  rw [hqueued] at hout
  -- only what was read off the run from here on
  generalize (start ⟨10, 5⟩ 0).run ops = s at hqueue hentry hclosed hcount hout ⊢
  refine ⟨hfew, fun id e => ?_, hcount (by decide), ?_, ?_⟩
  · rw [hentry]
    simp [Accepted.id, Accepted.entry, eq_comm]
  · rw [(hclosed 1 (by decide)).2 0 4 [4]]
  · obtain ⟨queue, hthere⟩ := Option.isSome_iff_exists.1 hqueue
    rw [hthere, Option.map_some, hout queue hthere]

end ClockedRelay

end SigningGateway
