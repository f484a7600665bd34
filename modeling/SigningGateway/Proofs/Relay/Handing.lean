import SigningGateway.Proofs.Relay.Steps

/-!
# Sessions that come and go

A session that attaches is handed what still waits; the end of the last session of a node fails
what was handed out.  Both keep the invariant.
-/

namespace SigningGateway

namespace Relay

variable {qs : List Accepted} {r : Relay}

/-! ## Attaching -/

theorem mem_sessionsOf_attach (h : r.Consistent qs) (node node' : NodeId) (session : Nat) :
    session ∈ (r.attach node).2.sessionsOf node' ↔
      session ∈ r.sessionsOf node' ∨ (session = r.nextSession ∧ node' = node) := by
  simp only [mem_sessionsOf, attach, Table.get?_set]
  by_cases hsession : session = r.nextSession
  · subst hsession
    have hnone : ∀ s, r.sessions.get? r.nextSession ≠ some s := by
      intro s hs
      have := h.sessionNumbers _ s hs
      omega
    simp [hnone, eq_comm]
  · simp [hsession]

theorem hasSession_attach (h : r.Consistent qs) (node node' : NodeId) :
    (r.attach node).2.hasSession node' = (r.hasSession node' || decide (node' = node)) := by
  rw [Bool.eq_iff_iff, Bool.or_eq_true, hasSession_iff, hasSession_iff, decide_eq_true_eq]
  simp only [mem_sessionsOf_attach h, exists_or, exists_eq_left]

theorem queueOf_attach (r : Relay) (node node' : NodeId) :
    (r.attach node).2.queueOf node' =
      if node' = node then
        ⟨(r.queueOf node).signers ++ [r.nextSession],
          prune r.pending (r.queueOf node).outstanding⟩
      else r.queueOf node' := by
  simp only [attach, queueOf, Table.get?_set]
  split <;> simp

theorem get?_sessions_attach (r : Relay) (node : NodeId) (session : Nat) :
    (r.attach node).2.sessions.get? session =
      if session = r.nextSession then
        some ⟨node, prune r.pending (r.queueOf node).outstanding, 0⟩
      else r.sessions.get? session := by
  simp only [attach, Table.get?_set]

/-- Attaching marks the waiting requests of the node as delivered. -/
theorem get?_pending_attach (h : r.Consistent qs) (node : NodeId) (q : Accepted) (hq : q ∈ qs) :
    (r.attach node).2.pending.entries.get? q.id =
      (r.pending.entries.get? q.id).map fun e =>
        { e with delivered := e.delivered || decide (q.node = node) } := by
  have hmem : r.pending.contains q.id = true → (q.id ∈
      (prune r.pending (r.queueOf node).outstanding).map Request.id ↔ q.node = node) := by
    intro hcontains
    rw [h.backlog, waitingOf, List.map_map]
    simp only [List.mem_map, List.mem_filter, Bool.and_eq_true, decide_eq_true_eq]
    constructor
    · rintro ⟨q', ⟨hq', hnode, -⟩, hid⟩
      rw [← h.id_inj q' q hq' hq hid]
      exact hnode
    · intro hnode
      exact ⟨q, ⟨hq, hnode, hcontains⟩, rfl⟩
  show (markAll _ _).entries.get? _ = _
  rw [PendingTable.get?_markAll]
  cases he : r.pending.entries.get? q.id with
  | none => simp
  | some e =>
    have hiff := hmem ((PendingTable.contains_iff _ _).2 ⟨e, he⟩)
    by_cases hnode : q.node = node
    · rw [if_pos (hiff.2 hnode)]
      simp [hnode]
    · rw [if_neg (mt hiff.1 hnode)]
      simp [hnode]

theorem contains_attach (r : Relay) (node : NodeId) (id : UInt32) :
    (r.attach node).2.pending.contains id = r.pending.contains id := by
  simp only [attach, PendingTable.contains, Table.contains, PendingTable.get?_markAll]
  split <;> simp

theorem consistent_attach (h : r.Consistent qs) (node : NodeId) :
    (r.attach node).2.Consistent qs where
  few := h.few
  numbered := h.numbered
  nextTicket := h.nextTicket
  nextId := by simp [attach, h.nextId]
  entries := by
    intro id e he
    have hcontains := (PendingTable.contains_iff _ _).2 ⟨e, he⟩
    rw [contains_attach, PendingTable.contains_iff] at hcontains
    obtain ⟨e₀, he₀⟩ := hcontains
    obtain ⟨q, hq, rfl, rfl⟩ := h.entries id e₀ he₀
    rw [get?_pending_attach h node q hq, he₀] at he
    exact ⟨q, hq, rfl, by rw [hasSession_attach h]; exact (Option.some.inj he).symm⟩
  tickets := h.tickets
  standing := by
    intro q hq
    have hentry := get?_pending_attach h node q hq
    rcases h.standing q hq with hwaits | hsettled
    · left
      exact ⟨by rw [hentry, hwaits.entry, hasSession_attach h]; rfl, hwaits.ticket⟩
    · right
      exact ⟨by rw [hentry, hsettled.entry]; rfl, hsettled.ticket⟩
  openStreams := by
    intro id e he
    have hcontains := (PendingTable.contains_iff _ _).2 ⟨e, he⟩
    rw [contains_attach, PendingTable.contains_iff] at hcontains
    obtain ⟨e₀, he₀⟩ := hcontains
    have hopen := h.openStreams id e₀ he₀
    obtain ⟨q, hq, rfl, rfl⟩ := h.entries id e₀ he₀
    rw [get?_pending_attach h node q hq, he₀] at he
    obtain rfl := Option.some.inj he
    exact hopen
  signers := by
    intro node' session
    rw [queueOf_attach, mem_sessionsOf_attach h]
    split
    · next hnode =>
      simp [hnode, h.signers]
    · next hnode =>
      simp [hnode, h.signers]
  queued := by
    intro node' request hmem
    rw [queueOf_attach] at hmem
    split at hmem
    · exact h.queued node request (List.mem_filter.1 hmem).1
    · exact h.queued node' request hmem
  backlog := by
    intro node'
    have hcontains : (r.attach node).2.pending.contains = r.pending.contains :=
      funext (contains_attach r node)
    have hprune : ∀ requests,
        prune (r.attach node).2.pending requests = prune r.pending requests := by
      intro requests
      rw [prune, prune, hcontains]
    rw [waitingOf, hcontains, hprune, queueOf_attach]
    split
    · next hnode =>
      rw [prune_prune _ _ _ fun _ hid => hid, hnode]
      exact h.backlog node
    · exact h.backlog node'
  handed := by
    intro session s hs q hq hnode hcontains
    rw [contains_attach] at hcontains
    rw [get?_sessions_attach] at hs
    split at hs
    · obtain rfl := Option.some.inj hs
      show q.request ∈ prune r.pending (r.queueOf node).outstanding
      rw [h.backlog, waitingOf, List.mem_map]
      exact ⟨q, List.mem_filter.2 ⟨hq, by simp [show q.node = node from hnode, hcontains]⟩, rfl⟩
    · exact h.handed session s hs q hq hnode hcontains
  sessionNumbers := by
    intro session s hs
    rw [get?_sessions_attach] at hs
    show session < r.nextSession + 1
    split at hs
    · omega
    · have := h.sessionNumbers session s hs
      omega
  streamNumbers := h.streamNumbers

/-! ## Detaching -/

/-- Whether a session is attached to a node and is its only one. -/
def isLast (r : Relay) (session : Nat) (node : NodeId) : Bool :=
  (r.sessionsOf node).contains session && (r.sessionsOf node).all fun other => other = session

theorem isLast_iff (r : Relay) (session : Nat) (node : NodeId) :
    r.isLast session node = true ↔
      session ∈ r.sessionsOf node ∧ ∀ other ∈ r.sessionsOf node, other = session := by
  simp [isLast]

/-- A session is attached to one node. -/
theorem node_unique (r : Relay) (session : Nat) (node node' : NodeId)
    (h : session ∈ r.sessionsOf node) (h' : session ∈ r.sessionsOf node') : node = node' := by
  rw [mem_sessionsOf] at h h'
  obtain ⟨s, hs, rfl⟩ := h
  obtain ⟨s', hs', rfl⟩ := h'
  rw [hs] at hs'
  rw [Option.some.inj hs']

/-- The relay from which a session of a node is taken out. -/
def withoutSession (r : Relay) (session : Nat) (node : NodeId) : Relay :=
  { r with
    sessions := r.sessions.erase session
    queues := r.queues.set node
      { r.queueOf node with signers := (r.queueOf node).signers.filter (· ≠ session) } }

/-- A session that ends is taken out, and if it was the last one what was handed out fails. -/
theorem detach_cases (h : r.Consistent qs) (session : Nat) :
    (r.detach session = r ∧ ∀ node, session ∉ r.sessionsOf node) ∨
    (∃ node, session ∈ r.sessionsOf node ∧
      ((r.isLast session node = false ∧ r.detach session = r.withoutSession session node) ∨
        (r.isLast session node = true ∧ r.detach session =
          { r.withoutSession session node with
            pending := (r.pending.failDelivered node).2 }.resolve
              (r.pending.failDelivered node).1))) := by
  cases hs : r.sessions.get? session with
  | none =>
    left
    refine ⟨by simp only [detach, hs], ?_⟩
    intro node hmem
    rw [mem_sessionsOf, hs] at hmem
    obtain ⟨s, hs', -⟩ := hmem
    cases hs'
  | some s =>
    right
    have hmem : session ∈ r.sessionsOf s.node := (mem_sessionsOf _ _ _).2 ⟨s, hs, rfl⟩
    refine ⟨s.node, hmem, ?_⟩
    have hsigner := (h.signers s.node session).2 hmem
    cases hqueue : r.queues.get? s.node with
    | none =>
      rw [queueOf, hqueue] at hsigner
      cases hsigner
    | some queue =>
      have hqueueOf : r.queueOf s.node = queue := by rw [queueOf, hqueue, Option.getD_some]
      have hempty : (queue.signers.filter (· ≠ session)).isEmpty = r.isLast session s.node := by
        rw [Bool.eq_iff_iff, isLast_iff, List.isEmpty_iff, List.filter_eq_nil_iff]
        simp only [← h.signers, hqueueOf]
        constructor
        · intro hall
          exact ⟨hqueueOf ▸ hsigner, fun other hother => by simpa using hall other hother⟩
        · rintro ⟨-, hall⟩ other hother
          simpa using hall other hother
      cases hlast : r.isLast session s.node with
      | false =>
        left
        rw [hlast] at hempty
        simp only [detach, hs, hqueue, hempty, withoutSession, hqueueOf, Bool.false_eq_true,
          if_false, and_self]
      | true =>
        right
        rw [hlast] at hempty
        simp only [detach, hs, hqueue, hempty, withoutSession, hqueueOf, if_true, and_self]

/-- What the end of a session leaves alone, and what it does to sessions and queues. -/
theorem detach_frame (h : r.Consistent qs) (session : Nat) :
    (r.detach session).streams = r.streams ∧ (r.detach session).nextTicket = r.nextTicket ∧
      (r.detach session).nextSession = r.nextSession ∧
      (r.detach session).nextStream = r.nextStream ∧
      (r.detach session).pending.nextId = r.pending.nextId ∧
      (∀ other, (r.detach session).sessions.get? other =
        if other = session then none else r.sessions.get? other) ∧
      (∀ node, ((r.detach session).queueOf node).signers =
        (r.queueOf node).signers.filter (· ≠ session)) ∧
      ∀ node, ((r.detach session).queueOf node).outstanding = (r.queueOf node).outstanding := by
  have hsigners : ∀ node, session ∉ r.sessionsOf node →
      (r.queueOf node).signers.filter (· ≠ session) = (r.queueOf node).signers := by
    intro node hnot
    apply List.filter_eq_self.2
    intro other hother
    rw [decide_eq_true_eq]
    rintro rfl
    exact hnot ((h.signers node other).1 hother)
  have hwithout : ∀ node, session ∈ r.sessionsOf node →
      (∀ other, (r.withoutSession session node).sessions.get? other =
        if other = session then none else r.sessions.get? other) ∧
      (∀ node', ((r.withoutSession session node).queueOf node').signers =
        (r.queueOf node').signers.filter (· ≠ session)) ∧
      ∀ node', ((r.withoutSession session node).queueOf node').outstanding =
        (r.queueOf node').outstanding := by
    intro node hmem
    have hqueueOf : ∀ node', (r.withoutSession session node).queueOf node' = if node' = node then
        { r.queueOf node with signers := (r.queueOf node).signers.filter (· ≠ session) }
        else r.queueOf node' := by
      intro node'
      simp only [withoutSession, queueOf, Table.get?_set]
      split <;> simp
    refine ⟨fun other => Table.get?_erase _ _ _, ?_, ?_⟩
    · intro node'
      rw [hqueueOf]
      split
      · next hnode => rw [hnode]
      · next hnode =>
        rw [hsigners node' fun hmem' => hnode (r.node_unique session node' node hmem' hmem)]
    · intro node'
      rw [hqueueOf]
      split
      · next hnode => rw [hnode]
      · rfl
  rcases detach_cases h session with ⟨heq, hnot⟩ | ⟨node, hmem, ⟨-, heq⟩ | ⟨-, heq⟩⟩
  · rw [heq]
    refine ⟨rfl, rfl, rfl, rfl, rfl, ?_, fun node => (hsigners node (hnot node)).symm, fun _ => rfl⟩
    intro other
    split
    · next hother =>
      cases hs : r.sessions.get? other with
      | none => rfl
      | some s => exact absurd ((mem_sessionsOf _ _ _).2 ⟨s, hother ▸ hs, rfl⟩) (hnot s.node)
    · rfl
  · rw [heq]
    exact ⟨rfl, rfl, rfl, rfl, rfl, hwithout node hmem⟩
  · rw [heq]
    exact ⟨rfl, rfl, rfl, rfl, rfl, hwithout node hmem⟩

/-- The end of the last session of a node fails the requests of the node. -/
theorem ends_detach (h : r.Consistent qs) (session : Nat) :
    Ends (fun _ e => if r.isLast session e.context.node then some (.error PendingTable.sessionEnded)
      else none) r (r.detach session) := by
  rcases detach_cases h session with ⟨heq, hnot⟩ | ⟨node, hmem, ⟨hlast, heq⟩ | ⟨hlast, heq⟩⟩
  · rw [heq]
    apply (ends_nothing r r rfl rfl).congr
    intro id e _
    have hnotLast : r.isLast session e.context.node = false := by
      simp [isLast, hnot e.context.node]
    simp [hnotLast]
  · rw [heq]
    apply (ends_nothing r (r.withoutSession session node) rfl rfl).congr
    intro id e _
    have hnotLast : ¬r.isLast session e.context.node = true := by
      intro hlast'
      have hnode := r.node_unique session _ node ((isLast_iff _ _ _).1 hlast').1 hmem
      rw [hnode, hlast] at hlast'
      cases hlast'
    rw [if_neg hnotLast]
  · rw [heq]
    apply (h.ends_removeWhere (fun e => e.delivered && e.context.node = node)
      (fun _ => .error PendingTable.sessionEnded)
      { r.withoutSession session node with pending := (r.pending.failDelivered node).2 }
      rfl rfl).congr
    intro id e he
    obtain ⟨q, -, -, rfl⟩ := h.entries id e he
    by_cases hnode : q.node = node
    · -- the request waits for a node with a session, so it was handed out
      have hdelivered : r.hasSession q.node = true :=
        (hasSession_iff _ _).2 ⟨session, hnode ▸ hmem⟩
      have hnode' : q.request.context.node = node := hnode
      simp [Accepted.entry, hdelivered, hnode', hlast]
    · have hnotLast : ¬r.isLast session q.request.context.node = true := fun hlast' =>
        hnode (r.node_unique session _ node ((isLast_iff _ _ _).1 hlast').1 hmem)
      have hnode' : ¬q.request.context.node = node := hnode
      simp [Accepted.entry, hnode', hnotLast]

theorem mem_sessionsOf_detach (h : r.Consistent qs) (session other : Nat) (node : NodeId) :
    other ∈ (r.detach session).sessionsOf node ↔ other ∈ r.sessionsOf node ∧ other ≠ session := by
  obtain ⟨-, -, -, -, -, hsessions, -⟩ := detach_frame h session
  rw [mem_sessionsOf, mem_sessionsOf, hsessions]
  by_cases hother : other = session <;> simp [hother]

theorem consistent_detach (h : r.Consistent qs) (session : Nat) :
    (r.detach session).Consistent qs := by
  have hends := ends_detach h session
  obtain ⟨hstreams, hticket, hsession, hstream, hid, hsessions, hsigners, houtstanding⟩ :=
    detach_frame h session
  have hflag : ∀ id e, (r.detach session).pending.entries.get? id = some e →
      (r.detach session).hasSession e.context.node = r.hasSession e.context.node := by
    intro id e he
    obtain ⟨-, hnone⟩ := hends.entries_subset id e he
    have hnotLast : ¬r.isLast session e.context.node = true := by
      intro hlast
      rw [if_pos hlast] at hnone
      cases hnone
    rw [Bool.eq_iff_iff, hasSession_iff, hasSession_iff]
    simp only [mem_sessionsOf_detach h]
    constructor
    · rintro ⟨other, hmem, -⟩
      exact ⟨other, hmem⟩
    · rintro ⟨other, hmem⟩
      apply Classical.byContradiction
      intro hnone'
      have hall : ∀ k ∈ r.sessionsOf e.context.node, k = session := fun k hk =>
        Classical.byContradiction fun hne => hnone' ⟨k, hk, hne⟩
      exact hnotLast ((isLast_iff _ _ _).2 ⟨hall other hmem ▸ hmem, hall⟩)
  apply h.shrink _ hticket hid
  · exact fun id e he => ⟨(hends.entries_subset id e he).1, hflag id e he, by rw [hstreams]⟩
  · exact hends.tickets_subset
  · exact h.standing_of_ends hends hflag
  · intro node other
    rw [hsigners, mem_sessionsOf_detach h, List.mem_filter, h.signers, decide_eq_true_eq]
  · intro node request hmem
    rwa [houtstanding] at hmem
  · intro node
    rw [houtstanding]
  · intro other s hs
    rw [hsessions] at hs
    split at hs
    · cases hs
    · rw [hsession]
      exact ⟨h.sessionNumbers other s hs, s, hs, rfl, rfl⟩
  · intro stream s hs
    rw [hstreams] at hs
    rw [hstream]
    exact h.streamNumbers stream s hs

end Relay

end SigningGateway
