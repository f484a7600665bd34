import SigningGateway.Proofs.Relay.Origin
import SigningGateway.Proofs.Totals

/-!
# Sessions, marks and counts

A request that waits is marked as delivered just if a signer session of its node is attached, which
is read off the log of the run.  So what the relay counts as queued is what waits for a node without
a session, and the end of the last session of a node ends all requests of the node at once.

    a request that waits is delivered ↔ a session of its node is attached   (delivered_iff_attached)
    queues and sessions are those of the log                                               (Attends)
-/

namespace SigningGateway

namespace Relay

variable {qs : List Accepted} {r : Relay}

/-- The requests that wait for a node without a session. -/
def unattended (r : Relay) (qs : List Accepted) : List Accepted :=
  qs.filter fun q => r.pending.contains q.id && !r.hasSession q.node

theorem awaitsDelivery_iff (h : r.Consistent qs) (q : Accepted) (hq : q ∈ qs) :
    r.pending.awaitsDelivery q.id = (r.pending.contains q.id && !r.hasSession q.node) := by
  rw [PendingTable.awaitsDelivery]
  cases he : r.pending.entries.get? q.id with
  | none => simp [PendingTable.contains, Table.contains, he]
  | some e =>
    obtain ⟨rfl, -⟩ := h.waits_of_entry q hq e he
    simp [PendingTable.contains, Table.contains, he, Accepted.entry]

/-- A queue counts the requests of its node that wait without a session. -/
theorem queuedIn_eq (h : r.Consistent qs) (node : NodeId) :
    queuedIn r.pending (r.queueOf node) =
      ((r.unattended qs).filter fun q => q.node = node).length := by
  have hprune : ∀ requests : List Request,
      requests.filter (fun request => r.pending.awaitsDelivery request.id) =
        (prune r.pending requests).filter fun request =>
          r.pending.awaitsDelivery request.id := by
    intro requests
    rw [prune, List.filter_filter]
    apply List.filter_congr
    intro request _
    rw [PendingTable.awaitsDelivery, PendingTable.contains, Table.contains]
    cases r.pending.entries.get? request.id <;> simp
  rw [queuedIn, hprune, h.backlog, waitingOf, List.filter_map, List.length_map, unattended,
    List.filter_filter, List.filter_filter]
  congr 1
  apply List.filter_congr
  intro q hq
  have hawaits := awaitsDelivery_iff h q hq
  rw [Accepted.id] at hawaits
  simp only [Function.comp_apply, hawaits, Accepted.id]
  cases r.pending.contains q.request.id <;> cases r.hasSession q.node <;> simp

/-- The requests that wait without a session are the entries of their nodes. -/
theorem length_unattended (h : r.Consistent qs) :
    (r.unattended qs).length =
      (r.pending.entries.values.filter fun e => !r.hasSession e.context.node).length := by
  have hnodup : ((r.unattended qs).map Accepted.id).Nodup :=
    h.nodup_ids.sublist (List.filter_sublist.map _)
  have hnodup' : ((r.pending.entries.entries.filter fun e =>
      !r.hasSession e.2.context.node).map Prod.fst).Nodup :=
    r.pending.entries.nodup_keys.sublist (List.filter_sublist.map _)
  have hperm := (List.perm_ext_iff_of_nodup hnodup hnodup').2 (by
    intro id
    simp only [unattended, List.mem_map, List.mem_filter, Bool.and_eq_true, Bool.not_eq_true']
    constructor
    · rintro ⟨q, ⟨hq, hcontains, hnone⟩, rfl⟩
      have hwaits := (h.contains_iff_waits q hq).1 hcontains
      exact ⟨(q.id, _), ⟨(Table.get?_eq_some_iff _ _ _).1 hwaits.entry, hnone⟩, rfl⟩
    · rintro ⟨⟨id, e⟩, ⟨he, hnone⟩, rfl⟩
      rw [← Table.get?_eq_some_iff] at he
      obtain ⟨q, hq, rfl, rfl⟩ := h.entries id e he
      exact ⟨q, ⟨hq, (PendingTable.contains_iff _ _).2 ⟨_, he⟩, hnone⟩, rfl⟩)
  have hlength := hperm.length_eq
  rw [List.length_map, List.length_map] at hlength
  rw [hlength, Table.values, List.filter_map, List.length_map]
  rfl

theorem queued_eq (h : r.Consistent qs) :
    r.stats.queued =
      (r.pending.entries.values.filter fun e => !r.hasSession e.context.node).length := by
  rw [← length_unattended h]
  apply r.queues.total_eq_length (queuedIn r.pending) Accepted.node (r.unattended qs)
  · intro node queue hqueue
    rw [← queuedIn_eq h, queueOf, hqueue, Option.getD_some]
  · intro q hq
    rw [unattended, List.mem_filter, Bool.and_eq_true] at hq
    -- the queue of its node holds the request
    have hmem : q.request ∈ prune r.pending (r.queueOf q.node).outstanding := by
      rw [h.backlog, waitingOf]
      exact List.mem_map.2 ⟨q, List.mem_filter.2 ⟨hq.1, by simp [hq.2.1]⟩, rfl⟩
    rw [Table.mem_keys_iff]
    cases hqueue : r.queues.get? q.node with
    | none =>
      rw [queueOf, hqueue] at hmem
      cases hmem
    | some queue => rfl

end Relay

/-! ## Sessions of a log -/

namespace ClockedRelay

/-- The sessions that are attached after one more operation, with their nodes. -/
def noteSession (attached : List (Nat × NodeId)) :
    RelayOp × RelayAnswer → List (Nat × NodeId)
  | (.attach node, .attached session) => attached ++ [(session, node)]
  | (.detach session, _) => attached.filter fun k => k.1 ≠ session
  | _ => attached

/-- The sessions that attached in a log and were not ended, with their nodes. -/
def attachedIn (log : List (RelayOp × RelayAnswer)) : List (Nat × NodeId) :=
  log.foldl noteSession []

end ClockedRelay

namespace Relay

/-- The sessions of a relay are those of a list, and the queue of a node has those of the node. -/
structure Attends (attached : List (Nat × NodeId)) (r : Relay) : Prop where
  sessions : ∀ session node, (session, node) ∈ attached ↔ session ∈ r.sessionsOf node
  signers : ∀ node,
    (r.queueOf node).signers = (attached.filter fun k => k.2 = node).map Prod.fst

variable {attached : List (Nat × NodeId)} {qs : List Accepted} {r : Relay}

theorem attends_start (settings : RelaySettings) : (start settings).Attends [] where
  sessions := by intro session node; constructor <;> intro hmem <;> cases hmem
  signers := by intro node; rfl

namespace Attends

/-- A relay with the same sessions and signers. -/
theorem frame (ha : r.Attends attached) (r' : Relay)
    (hsessions : ∀ node session, session ∈ r'.sessionsOf node ↔ session ∈ r.sessionsOf node)
    (hsigners : ∀ node, (r'.queueOf node).signers = (r.queueOf node).signers) :
    r'.Attends attached where
  sessions := by
    intro session node
    rw [hsessions]
    exact ha.sessions session node
  signers := by
    intro node
    rw [hsigners]
    exact ha.signers node

theorem attach (ha : r.Attends attached) (h : r.Consistent qs) (node : NodeId) :
    (r.attach node).2.Attends (attached ++ [(r.nextSession, node)]) where
  sessions := by
    intro session node'
    rw [mem_sessionsOf_attach h, List.mem_append, ha.sessions, List.mem_singleton, Prod.mk.injEq]
  signers := by
    intro node'
    rw [queueOf_attach]
    by_cases hnode : node' = node
    · subst hnode
      simp [ha.signers]
    · have hnode' : ¬node = node' := fun heq => hnode heq.symm
      simp [hnode, hnode', ha.signers]

theorem detach (ha : r.Attends attached) (h : r.Consistent qs) (session : Nat) :
    (r.detach session).Attends (attached.filter fun k => k.1 ≠ session) where
  sessions := by
    intro other node
    rw [mem_sessionsOf_detach h, List.mem_filter, ha.sessions, decide_eq_true_eq]
  signers := by
    intro node
    obtain ⟨-, -, -, -, -, -, hsigners, -⟩ := detach_frame h session
    rw [hsigners, ha.signers, List.filter_map, List.filter_filter, List.filter_filter]
    congr 1
    apply List.filter_congr
    intro k _
    exact Bool.and_comm _ _

theorem hasSession_eq (ha : r.Attends attached) (node : NodeId) :
    r.hasSession node = decide (node ∈ attached.map Prod.snd) := by
  rw [Bool.eq_iff_iff, hasSession_iff, decide_eq_true_eq, List.mem_map]
  constructor
  · rintro ⟨session, hmem⟩
    exact ⟨(session, node), (ha.sessions session node).2 hmem, rfl⟩
  · rintro ⟨⟨session, node⟩, hmem, rfl⟩
    exact ⟨session, (ha.sessions session node).1 hmem⟩

/-- Every signer in a queue is one attached session. -/
theorem signers_eq (ha : r.Attends attached) : r.stats.signers = attached.length := by
  apply r.queues.total_eq_length (fun q => q.signers.length) Prod.snd attached
  · intro node queue hqueue
    have hsigners := ha.signers node
    rw [queueOf, hqueue, Option.getD_some] at hsigners
    rw [hsigners, List.length_map]
  · intro k hk
    rw [Table.mem_keys_iff]
    have hmem : k.1 ∈ (r.queueOf k.2).signers := by
      rw [ha.signers]
      exact List.mem_map.2 ⟨k, List.mem_filter.2 ⟨hk, decide_eq_true rfl⟩, rfl⟩
    cases hqueue : r.queues.get? k.2 with
    | none =>
      rw [queueOf, hqueue] at hmem
      cases hmem
    | some queue => rfl

end Attends

end Relay

namespace ClockedRelay

/-- An operation keeps sessions and queues those of the log. -/
theorem attends_step (s : ClockedRelay) (qs : List Accepted) (h : s.relay.Consistent qs)
    (attached : List (Nat × NodeId)) (ha : s.relay.Attends attached) (op : RelayOp) :
    (s.step op).2.relay.Attends (noteSession attached (op, (s.step op).1)) := by
  cases haccepts : s.accepts op with
  | some q =>
    obtain ⟨hop, -⟩ := s.submit_of_accepts op q haccepts
    obtain ⟨henters, hrelay⟩ := s.enters_of_accepts op q haccepts
    have hsame : noteSession attached (op, (s.step op).1) = attached := by rw [hop]; rfl
    rw [hsame, hrelay]
    apply ha.frame
    · exact fun node session => Relay.sessionsOf_dispatch _ _ _ _ _ node session
    · intro node
      rw [henters.queueOf]
      split <;> rfl
  | none =>
    cases op with
    | attach node => exact ha.attach h node
    | detach session => exact ha.detach h session
    | sweep =>
      refine ha.frame _ (fun _ _ => Iff.rfl) fun node => ?_
      simp only [step, Relay.queueOf_sweep]
    | take session count =>
      apply ha.frame
      · intro node other
        simp only [step, Relay.mem_sessionsOf, Relay.get?_sessions_take, Option.map_eq_some_iff]
        constructor
        · rintro ⟨_, ⟨e, he, rfl⟩, hnode⟩
          refine ⟨e, he, ?_⟩
          split at hnode <;> exact hnode
        · rintro ⟨e, he, hnode⟩
          refine ⟨_, ⟨e, he, rfl⟩, ?_⟩
          split <;> exact hnode
      · intro node
        obtain ⟨hqueues, -⟩ := s.queues_step (.take session count) haccepts (by simp) (by simp)
          (by simp)
        rw [Relay.queueOf, Relay.queueOf, hqueues]
    | _ =>
      have hsessions := s.sessions_step _ haccepts (by simp) (by simp) (by simp)
      obtain ⟨hqueues, -⟩ := s.queues_step _ haccepts (by simp) (by simp) (by simp)
      refine ha.frame _ (fun node other => ?_) fun node => ?_
      · rw [Relay.sessionsOf, Relay.sessionsOf, hsessions]
      · rw [Relay.queueOf, Relay.queueOf, hqueues]

/-- A run keeps sessions and queues those of its log. -/
theorem attends_run (s : ClockedRelay) (qs : List Accepted) (h : s.relay.Consistent qs)
    (attached : List (Nat × NodeId)) (ha : s.relay.Attends attached) (ops : List RelayOp)
    (hfew : (qs ++ s.accepted ops).length < UInt32.size) :
    (s.run ops).relay.Attends ((s.log ops).foldl noteSession attached) := by
  induction ops generalizing s qs attached with
  | nil => exact ha
  | cons op ops ih =>
    rw [accepted, ← List.append_assoc] at hfew
    have hstep := s.consistent_step qs op h (by rw [List.length_append] at hfew; omega)
    exact ih _ _ hstep _ (s.attends_step qs h attached ha op) hfew

/-- The end of the last session of a node ends every request of the node, whose ticket reports it;
requests of other nodes wait on. -/
theorem detach_last (s : ClockedRelay) (qs : List Accepted) (h : s.relay.Consistent qs)
    (session : Nat) (node : NodeId) (hlast : s.relay.isLast session node = true) (id : UInt32)
    (e : PendingEntry) (he : s.relay.pending.entries.get? id = some e) :
    let ended := (s.step (.detach session)).2
    (e.context.node = node → ended.relay.pending.contains id = false ∧
        (ended.step (.poll e.ticket)).1 = .polled (some (.error PendingTable.sessionEnded))) ∧
      (e.context.node ≠ node → ended.relay.pending.entries.get? id = some e) := by
  intro ended
  have hends := Relay.ends_detach h session
  obtain ⟨q, hq, rfl, rfl⟩ := h.entries id e he
  have hwaits := (h.waits_of_entry q hq _ he).2
  refine ⟨fun hnode => ?_, fun hnode => ?_⟩
  · have hnode' : q.request.context.node = node := hnode
    obtain ⟨hgone, hticket⟩ := hends.decides q hwaits (.error PendingTable.sessionEnded) (by
      simp [Accepted.entry, hnode', hlast])
    refine ⟨(PendingTable.contains_eq_false_iff _ _).2 hgone, ?_⟩
    have hpoll := (Relay.poll_of_resolved (Relay.consistent_detach h session) q hq _ hticket
      s.now).1
    show RelayAnswer.polled _ = _
    exact congrArg RelayAnswer.polled hpoll
  · have hnot : ¬s.relay.isLast session q.request.context.node = true := fun hlast' =>
      hnode (s.relay.node_unique session _ node ((Relay.isLast_iff _ _ _).1 hlast').1
        ((Relay.isLast_iff _ _ _).1 hlast).1)
    show (s.relay.detach session).pending.entries.get? q.id = _
    rw [hends.entries, he]
    simp [Option.filter, Accepted.entry, hnot]

/-- The end of a session while another one of its node is attached ends no request. -/
theorem detach_other (s : ClockedRelay) (qs : List Accepted) (h : s.relay.Consistent qs)
    (session other : Nat) (node : NodeId) (hmem : session ∈ s.relay.sessionsOf node)
    (hother : other ∈ s.relay.sessionsOf node) (hne : other ≠ session) :
    (s.step (.detach session)).2.relay.pending = s.relay.pending ∧
      (s.step (.detach session)).2.relay.tickets = s.relay.tickets := by
  simp only [step]
  rcases Relay.detach_cases h session with ⟨heq, -⟩ | ⟨node', hmem', ⟨-, heq⟩ | ⟨hlast, -⟩⟩
  · rw [heq]
    exact ⟨rfl, rfl⟩
  · rw [heq]
    exact ⟨rfl, rfl⟩
  · obtain rfl := s.relay.node_unique session node node' hmem hmem'
    exact absurd (((Relay.isLast_iff _ _ _).1 hlast).2 other hother) hne

/-- At every moment of a run a request that waits is marked as delivered just if a session of its
node is attached; the counts of queued requests and of signers are those of the log; and a session
that ends takes all requests of its node with it if it is the last one, and none otherwise. -/
theorem delivered_iff_attached (settings : RelaySettings) (now : Nat) (ops : List RelayOp)
    (hfew : ((start settings now).accepted ops).length < UInt32.size) :
    let s := (start settings now).run ops
    let attached := attachedIn ((start settings now).log ops)
    (∀ id e, s.relay.pending.entries.get? id = some e →
        (e.delivered = true ↔ ∃ session, (session, e.context.node) ∈ attached)) ∧
      s.relay.stats.queued = (s.relay.pending.entries.values.filter fun e =>
        e.context.node ∉ attached.map Prod.snd).length ∧
      s.relay.stats.signers = attached.length ∧
      ∀ session node, (session, node) ∈ attached →
        let ended := (s.step (.detach session)).2
        ((∀ other, (other, node) ∈ attached → other = session) →
          (∀ id e, s.relay.pending.entries.get? id = some e → e.context.node = node →
            (ended.step (.poll e.ticket)).1 =
              .polled (some (.error (.connectionLost "signer session ended")))) ∧
          ∀ id e, ended.relay.pending.entries.get? id = some e ↔
            s.relay.pending.entries.get? id = some e ∧ e.context.node ≠ node) ∧
        (∀ other, (other, node) ∈ attached → other ≠ session →
          ended.relay.pending = s.relay.pending ∧ ended.relay.tickets = s.relay.tickets) := by
  intro s attached
  have h : s.relay.Consistent ((start settings now).accepted ops) :=
    consistent_run (start settings now) [] ops (Relay.consistent_start settings) hfew
  have ha : s.relay.Attends attached := attends_run (start settings now) []
    (Relay.consistent_start settings) [] (Relay.attends_start settings) ops hfew
  refine ⟨?_, ?_, ha.signers_eq, ?_⟩
  · intro id e he
    obtain ⟨q, hq, rfl, rfl⟩ := h.entries id e he
    show s.relay.hasSession q.node = true ↔ _
    rw [Relay.hasSession_iff]
    exact exists_congr fun session => (ha.sessions session q.node).symm
  · rw [Relay.queued_eq h]
    simp only [ha.hasSession_eq, decide_not]
  · intro session node hmem ended
    have hattached := (ha.sessions session node).1 hmem
    refine ⟨fun honly => ?_, fun other hother hne => ?_⟩
    · have hlast : s.relay.isLast session node = true := (Relay.isLast_iff _ _ _).2
        ⟨hattached, fun other hother => honly other ((ha.sessions other node).2 hother)⟩
      have hdetach := s.detach_last _ h session node hlast
      refine ⟨fun id e he hnode => ((hdetach id e he).1 hnode).2, fun id e => ⟨fun he => ?_, ?_⟩⟩
      · have he₀ := ((Relay.ends_detach h session).entries_subset id e he).1
        refine ⟨he₀, fun hnode => ?_⟩
        have hgone := ((hdetach id e he₀).1 hnode).1
        rw [PendingTable.contains_eq_false_iff] at hgone
        rw [hgone] at he
        cases he
      · rintro ⟨he₀, hnode⟩
        exact (hdetach id e he₀).2 hnode
    · exact s.detach_other _ h session other node hattached
        ((ha.sessions other node).1 hother) hne

/-- Of two sessions the first one that ends takes no request with it, and the second one does. -/
theorem marks_of_second_session :
    let node : NodeId := ⟨List.replicate 32 7, rfl⟩
    let ops := [RelayOp.openStream node, .submit 1 0 4 [1], .attach node, .attach node, .detach 1]
    let s := (start ⟨10, 5⟩ 0).run ops
    let e : PendingEntry := ⟨⟨node, 0, 4⟩, 1, 10, true, 1⟩
    ((start ⟨10, 5⟩ 0).accepted ops).length < UInt32.size ∧
      s.relay.pending.entries.get? 1 = some e ∧ s.relay.stats.signers = 1 ∧
      ((s.step (.detach 2)).2.step (.poll 1)).1 =
        .polled (some (.error (.connectionLost "signer session ended"))) ∧
      (s.step (.detach 2)).2.relay.pending.entries.get? 1 = none := by
  intro node ops
  have hfew : ((start ⟨10, 5⟩ 0).accepted ops).length < UInt32.size := by decide
  have hattached : attachedIn ((start ⟨10, 5⟩ 0).log ops) = [(2, node)] := by decide +kernel
  have hentry : ((start ⟨10, 5⟩ 0).run ops).relay.pending.entries.get? 1 =
      some ⟨⟨node, 0, 4⟩, 1, 10, true, 1⟩ := by rfl
  have hall := delivered_iff_attached ⟨10, 5⟩ 0 ops hfew
  rw [hattached] at hall
  -- only the entry and the session count from here on
  generalize (start ⟨10, 5⟩ 0).run ops = s at hall hentry ⊢
  intro _ e
  have hends := (hall.2.2.2 2 node (List.mem_singleton.2 rfl)).1 fun other hother =>
    (Prod.mk.inj (List.mem_singleton.1 hother)).1
  refine ⟨hfew, hentry, hall.2.2.1, hends.1 1 e hentry rfl, ?_⟩
  cases hget : (s.step (.detach 2)).2.relay.pending.entries.get? 1 with
  | none => rfl
  | some e' =>
    obtain ⟨hkept, hne⟩ := (hends.2 1 e').1 hget
    obtain rfl := Option.some.inj (hentry.symm.trans hkept)
    exact absurd rfl hne

end ClockedRelay

end SigningGateway
