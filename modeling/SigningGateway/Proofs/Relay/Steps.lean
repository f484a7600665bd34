import SigningGateway.Proofs.Relay.Ending

/-!
# Operations that keep the relay consistent

Streams that open and close, signers that take requests and answer them, handles that poll or are
dropped, and sweeps: each of them keeps `Consistent`, and each that ends requests is an `Ends`.

    the answered entry is resolved with the bytes of its answer                     (ends_respond)
    the entries of a closed stream fail, those of a sweep time out  (ends_closeStream, ends_sweep)
    a dropped handle takes its own entry with it and no other                    (forgets_abandon)
-/

namespace SigningGateway

namespace Relay

variable {qs : List Accepted} {r : Relay}

/-! ## Node streams -/

theorem consistent_openStream (h : r.Consistent qs) (node : NodeId) :
    (r.openStream node).2.Consistent qs := by
  have hother : ∀ stream s, r.streams.get? stream = some s →
      (r.openStream node).2.streams.get? stream = r.streams.get? stream := by
    intro stream s hs
    have hlt := h.streamNumbers stream s hs
    simp only [openStream, Table.get?_set]
    rw [if_neg (by omega)]
  apply h.frame (r.openStream node).2 rfl rfl rfl rfl
  · exact fun _ _ => Iff.rfl
  · exact fun session s hs => ⟨h.sessionNumbers session s hs, s, hs, rfl, rfl⟩
  · exact fun id e he => hother _ _ (h.openStreams id e he)
  · intro stream s hs
    simp only [openStream, Table.get?_set] at hs ⊢
    split at hs
    · omega
    · have := h.streamNumbers stream s hs
      omega

/-- A stream that is open is closed and its requests fail; otherwise nothing happens. -/
theorem closeStream_cases (r : Relay) (stream : Nat) :
    (r.closeStream stream = r ∧ ∀ s, r.streams.get? stream = some s → s.closed = true) ∨
    (∃ s, r.streams.get? stream = some s ∧ s.closed = false ∧
      r.closeStream stream =
        { r with
          pending := (r.pending.failStream stream).2
          streams := r.streams.set stream { s with closed := true }
          openStreams := r.openStreams - 1 }.resolve
            (r.pending.failStream stream).1) := by
  unfold closeStream
  split
  · next hnone => exact Or.inl ⟨rfl, by simp [hnone]⟩
  · next s hs =>
    by_cases hclosed : s.closed = true
    · left
      refine ⟨by simp [hclosed], ?_⟩
      intro s' hs'
      rw [hs] at hs'
      exact Option.some.inj hs' ▸ hclosed
    · right
      exact ⟨s, hs, by simpa using hclosed, by simp [hclosed]⟩

/-- Closing a stream fails the requests of the stream. -/
theorem ends_closeStream (h : r.Consistent qs) (stream : Nat) :
    Ends (fun _ e => if e.stream = stream then some (.error PendingTable.streamClosed) else none)
      r (r.closeStream stream) := by
  rcases closeStream_cases r stream with ⟨heq, hclosed⟩ | ⟨s, hs, hopen, heq⟩
  · rw [heq]
    -- no request is on a stream that is not open
    have hnone : ∀ id e, r.pending.entries.get? id = some e → e.stream ≠ stream := by
      rintro id e he rfl
      have := hclosed _ (h.openStreams id e he)
      cases this
    exact (ends_nothing r r rfl rfl).congr fun id e he => by simp [hnone id e he]
  · rw [heq]
    have hends := h.ends_removeWhere (fun e => e.stream = stream)
      (fun _ => .error PendingTable.streamClosed)
      { r with
        pending := (r.pending.failStream stream).2
        streams := r.streams.set stream { s with closed := true }
        openStreams := r.openStreams - 1 } rfl rfl
    exact hends.congr fun id e _ => by simp

/-- After a stream is closed no open stream has its number. -/
theorem get?_streams_closeStream (r : Relay) (stream stream' : Nat) :
    (stream' ≠ stream →
      (r.closeStream stream).streams.get? stream' = r.streams.get? stream') ∧
    ∀ s, (r.closeStream stream).streams.get? stream = some s → s.closed = true := by
  rcases closeStream_cases r stream with ⟨heq, hclosed⟩ | ⟨s, hs, hopen, heq⟩
  · rw [heq]
    exact ⟨fun _ => rfl, hclosed⟩
  · rw [heq]
    refine ⟨fun hne => ?_, fun s' hs' => ?_⟩
    · simp only [resolve, Table.get?_set, if_neg hne]
    · simp only [resolve, Table.get?_set, if_true, Option.some.injEq] at hs'
      exact hs' ▸ rfl

/-- What closing a stream leaves alone. -/
theorem closeStream_frame (r : Relay) (stream : Nat) :
    (r.closeStream stream).queues = r.queues ∧ (r.closeStream stream).sessions = r.sessions ∧
      (r.closeStream stream).nextTicket = r.nextTicket ∧
      (r.closeStream stream).nextSession = r.nextSession ∧
      (r.closeStream stream).nextStream = r.nextStream ∧
      (r.closeStream stream).pending.nextId = r.pending.nextId := by
  rcases closeStream_cases r stream with ⟨heq, -⟩ | ⟨s, -, -, heq⟩
  · rw [heq]
    exact ⟨rfl, rfl, rfl, rfl, rfl, rfl⟩
  · rw [heq]
    exact ⟨rfl, rfl, rfl, rfl, rfl, rfl⟩

theorem consistent_closeStream (h : r.Consistent qs) (stream : Nat) :
    (r.closeStream stream).Consistent qs := by
  have hends := ends_closeStream h stream
  obtain ⟨hqueues, hsessions, hticket, hsession, hstream, hid⟩ := closeStream_frame r stream
  have hflag : ∀ node, (r.closeStream stream).hasSession node = r.hasSession node := by
    intro node
    rw [hasSession, hasSession, sessionsOf, sessionsOf, hsessions]
  have hqueueOf : ∀ node, (r.closeStream stream).queueOf node = r.queueOf node := by
    intro node
    rw [queueOf, queueOf, hqueues]
  apply h.shrink _ hticket hid
  · intro id e he
    obtain ⟨he₀, hnone⟩ := hends.entries_subset id e he
    refine ⟨he₀, hflag _, (get?_streams_closeStream r stream e.stream).1 ?_⟩
    intro heq
    simp [heq] at hnone
  · exact hends.tickets_subset
  · exact h.standing_of_ends hends fun _ _ _ => hflag _
  · intro node session
    rw [hqueueOf, sessionsOf, hsessions]
    exact h.signers node session
  · intro node request hmem
    rwa [hqueueOf] at hmem
  · intro node
    rw [hqueueOf]
  · intro session s hs
    rw [hsessions] at hs
    rw [hsession]
    exact ⟨h.sessionNumbers session s hs, s, hs, rfl, rfl⟩
  · intro stream' s hs
    rw [hstream]
    rcases closeStream_cases r stream with ⟨heq, -⟩ | ⟨s₀, hs₀, -, heq⟩
    · rw [heq] at hs
      exact h.streamNumbers stream' s hs
    · rw [heq] at hs
      simp only [resolve, Table.get?_set] at hs
      split at hs
      · next hsame => exact hsame ▸ h.streamNumbers stream s₀ hs₀
      · exact h.streamNumbers stream' s hs

theorem consistent_dropStream (h : r.Consistent qs) (stream : Nat) :
    (r.dropStream stream).Consistent qs := by
  have hclose := consistent_closeStream h stream
  have hnone : ∀ id e, (r.closeStream stream).pending.entries.get? id = some e →
      e.stream ≠ stream := by
    rintro id e he rfl
    have := (get?_streams_closeStream r e.stream e.stream).2 _ (hclose.openStreams id e he)
    cases this
  have hother : ∀ stream', stream' ≠ stream →
      (r.dropStream stream).streams.get? stream' =
        (r.closeStream stream).streams.get? stream' := by
    intro stream' hne
    simp only [dropStream, Table.get?_erase, if_neg hne]
  apply hclose.frame (r.dropStream stream) rfl rfl rfl rfl
  · exact fun _ _ => Iff.rfl
  · exact fun session s hs => ⟨hclose.sessionNumbers session s hs, s, hs, rfl, rfl⟩
  · exact fun id e he => hother _ (hnone id e he)
  · intro stream' s hs
    apply hclose.streamNumbers stream' s
    simp only [dropStream, Table.get?_erase] at hs
    split at hs
    · cases hs
    · exact hs

/-- A grant changes the grants only. -/
theorem grant_eq_ok (r' : Relay) (stream : Nat) (dbid capabilities : UInt64)
    (hgrant : r.grant stream dbid capabilities = .ok r') : ∃ grants, r' = { r with grants } := by
  simp only [grant] at hgrant
  split at hgrant
  · cases hgrant
  · next s _ =>
    cases hg : r.grants.grant s.node dbid capabilities with
    | error cause => rw [hg] at hgrant; cases hgrant
    | ok grants =>
      rw [hg] at hgrant
      exact ⟨grants, (Except.ok.inj hgrant).symm⟩

theorem consistent_grant (h : r.Consistent qs) (r' : Relay) (stream : Nat)
    (dbid capabilities : UInt64) (hgrant : r.grant stream dbid capabilities = .ok r') :
    r'.Consistent qs := by
  obtain ⟨grants, rfl⟩ := grant_eq_ok r' stream dbid capabilities hgrant
  apply h.frame { r with grants } rfl rfl rfl rfl
  · exact fun _ _ => Iff.rfl
  · exact fun session s hs => ⟨h.sessionNumbers session s hs, s, hs, rfl, rfl⟩
  · exact fun _ _ _ => rfl
  · exact h.streamNumbers

/-! ## Signer sessions -/

/-- Taking requests moves the mark of the session and nothing else. -/
theorem get?_sessions_take (r : Relay) (session count session' : Nat) :
    (r.take session count).2.sessions.get? session' =
      (r.sessions.get? session').map fun s =>
        if session' = session then
          { s with taken := s.taken + ((s.handed.drop s.taken).take count).length }
        else s := by
  unfold take
  split
  · next hnone =>
    by_cases hsession : session' = session
    · subst hsession
      simp [hnone]
    · simp [hsession]
  · next s hs =>
    rw [Table.get?_set]
    by_cases hsession : session' = session
    · subst hsession
      simp [hs]
    · simp [hsession]

theorem consistent_take (h : r.Consistent qs) (session count : Nat) :
    (r.take session count).2.Consistent qs := by
  have hframe : (r.take session count).2 =
      { r with sessions := (r.take session count).2.sessions } := by
    unfold take
    split <;> rfl
  have hsession : ∀ session' s, (r.take session count).2.sessions.get? session' = some s →
      ∃ s₀, r.sessions.get? session' = some s₀ ∧ s₀.node = s.node ∧ s₀.handed = s.handed := by
    intro session' s hs
    rw [get?_sessions_take, Option.map_eq_some_iff] at hs
    obtain ⟨s₀, hs₀, rfl⟩ := hs
    refine ⟨s₀, hs₀, ?_, ?_⟩ <;> split <;> rfl
  rw [hframe]
  apply h.frame { r with sessions := (r.take session count).2.sessions } rfl rfl rfl rfl
  · intro node session'
    rw [mem_sessionsOf, mem_sessionsOf]
    simp only [get?_sessions_take, Option.map_eq_some_iff]
    constructor
    · rintro ⟨_, ⟨s, hs, rfl⟩, hnode⟩
      refine ⟨s, hs, ?_⟩
      split at hnode <;> exact hnode
    · rintro ⟨s, hs, hnode⟩
      refine ⟨_, ⟨s, hs, rfl⟩, ?_⟩
      split <;> exact hnode
  · intro session' s hs
    obtain ⟨s₀, hs₀, hsame⟩ := hsession session' s hs
    exact ⟨h.sessionNumbers session' s₀ hs₀, s₀, hs₀, hsame⟩
  · exact fun _ _ _ => rfl
  · exact h.streamNumbers

/-- A relay in which requests have ended and nothing else has changed is consistent. -/
theorem consistent_of_ends (h : r.Consistent qs) (pending : PendingTable)
    (resolutions : List Resolution) (verdict : UInt32 → PendingEntry → Option Outcome)
    (hid : pending.nextId = r.pending.nextId)
    (hends : Ends verdict r ({ r with pending }.resolve resolutions)) :
    ({ r with pending }.resolve resolutions).Consistent qs := by
  apply h.shrink
  · rfl
  · exact hid
  · exact fun id e he => ⟨(hends.entries_subset id e he).1, rfl, rfl⟩
  · exact hends.tickets_subset
  · exact h.standing_of_ends hends fun _ _ _ => rfl
  · exact h.signers
  · exact fun _ _ hmem => hmem
  · exact fun _ => rfl
  · exact fun session s hs => ⟨h.sessionNumbers session s hs, s, hs, rfl, rfl⟩
  · exact h.streamNumbers

/-- An answer is taken just if it comes from a session of the node whose request waits. -/
theorem respond_eq_ok_iff (r r' : Relay) (session : Nat) (response : Response) :
    r.respond session response = .ok r' ↔
      (∃ e, r.pending.entries.get? response.id = some e ∧
        session ∈ r.sessionsOf e.context.node) ∧
      r' = { r with
        pending := (r.pending.remove response.id (some (.ok response.raw))).2 }.resolve
          (r.pending.remove response.id (some (.ok response.raw))).1.toList := by
  unfold respond
  split
  · next hnone =>
    simp [mem_sessionsOf, hnone]
  · next s hs =>
    constructor
    · intro hok
      cases hcomplete : r.pending.complete s.node response.id response.raw with
      | error cause => rw [hcomplete] at hok; cases hok
      | ok ended =>
        rw [hcomplete] at hok
        obtain ⟨⟨e, he, hnode⟩, rfl⟩ := (PendingTable.complete_eq_ok_iff _ _ _ _ _).1 hcomplete
        exact ⟨⟨e, he, (mem_sessionsOf _ _ _).2 ⟨s, hs, hnode.symm⟩⟩, (Except.ok.inj hok).symm⟩
    · rintro ⟨⟨e, he, hmem⟩, rfl⟩
      obtain ⟨s', hs', hnode⟩ := (mem_sessionsOf _ _ _).1 hmem
      rw [hs] at hs'
      obtain rfl := Option.some.inj hs'
      have hcomplete := (PendingTable.complete_eq_ok_iff r.pending s.node response.id response.raw
        _).2 ⟨⟨e, he, hnode.symm⟩, rfl⟩
      rw [hcomplete]
      rfl

/-- An answer that is not taken is told to be a duplicate. -/
theorem respond_eq_error (r : Relay) (session : Nat) (response : Response)
    (h : ¬∃ e, r.pending.entries.get? response.id = some e ∧
      session ∈ r.sessionsOf e.context.node) :
    r.respond session response = .error (.duplicateResponse response.id) := by
  unfold respond
  split
  · rfl
  · next s hs =>
    have hcomplete := PendingTable.complete_eq_error r.pending s.node response.id response.raw (by
      rintro ⟨e, he, hnode⟩
      exact h ⟨e, he, (mem_sessionsOf _ _ _).2 ⟨s, hs, hnode.symm⟩⟩)
    rw [hcomplete]
    rfl

/-- An answer ends the request whose id it carries. -/
theorem ends_respond (r r' : Relay) (session : Nat) (response : Response)
    (hok : r.respond session response = .ok r') :
    Ends (fun id _ => if id = response.id then some (.ok response.raw) else none) r r' := by
  obtain ⟨-, rfl⟩ := (respond_eq_ok_iff r r' session response).1 hok
  exact ends_remove r response.id (.ok response.raw) _ rfl rfl

theorem consistent_respond (h : r.Consistent qs) (r' : Relay) (session : Nat)
    (response : Response) (hok : r.respond session response = .ok r') : r'.Consistent qs := by
  have hends := ends_respond r r' session response hok
  obtain ⟨-, rfl⟩ := (respond_eq_ok_iff r r' session response).1 hok
  exact consistent_of_ends h _ _ _ (by simp) hends

/-! ## Tickets -/

/-- The relay `after` is `before` without the entry and the ticket of a request. -/
structure Forgets (q : Accepted) (before after : Relay) : Prop where
  entries : ∀ id, after.pending.entries.get? id =
    if id = q.id then none else before.pending.entries.get? id
  tickets : ∀ ticket, after.tickets.get? ticket =
    if ticket = q.ticket then none else before.tickets.get? ticket
  frame : after = { before with pending := after.pending, tickets := after.tickets }
  nextId : after.pending.nextId = before.pending.nextId

theorem consistent_of_forgets (h : r.Consistent qs) (q : Accepted) (hq : q ∈ qs) (r' : Relay)
    (hforgets : Forgets q r r') : r'.Consistent qs := by
  obtain ⟨hentries, htickets, hframe, hid⟩ := hforgets
  have hsub : ∀ id e, r'.pending.entries.get? id = some e →
      r.pending.entries.get? id = some e := by
    intro id e he
    rw [hentries] at he
    split at he
    · cases he
    · exact he
  have hflag : ∀ node, r'.hasSession node = r.hasSession node := by
    intro node
    rw [hframe]
    rfl
  apply h.shrink
  · rw [hframe]
  · exact hid
  · intro id e he
    exact ⟨hsub id e he, hflag _, by rw [hframe]⟩
  · intro ticket t ht
    rw [htickets] at ht
    split at ht
    · cases ht
    · exact ⟨t, ht⟩
  · intro q' hq'
    by_cases hsame : q' = q
    · subst hsame
      right
      exact ⟨by rw [hentries, if_pos rfl], fun t ht => by rw [htickets, if_pos rfl] at ht; cases ht⟩
    · have hid' : q'.id ≠ q.id := fun heq => hsame (h.id_inj q' q hq' hq heq)
      have hticket' : q'.ticket ≠ q.ticket := fun heq => hsame (h.ticket_inj q' q hq' hq heq)
      rcases h.standing q' hq' with hwaits | hsettled
      · left
        exact ⟨by rw [hentries, if_neg hid', hflag, hwaits.entry],
          by rw [htickets, if_neg hticket', hwaits.ticket]⟩
      · right
        exact ⟨by rw [hentries, if_neg hid', hsettled.entry],
          by rw [htickets, if_neg hticket']; exact hsettled.ticket⟩
  · rw [hframe]
    exact h.signers
  · rw [hframe]
    exact fun _ _ hmem => hmem
  · rw [hframe]
    exact fun _ => rfl
  · rw [hframe]
    exact fun session s hs => ⟨h.sessionNumbers session s hs, s, hs, rfl, rfl⟩
  · rw [hframe]
    exact h.streamNumbers

/-- Taking the entry of a request out when its ticket is gone already. -/
theorem forgets_remove (h : r.Consistent qs) (q : Accepted) (hq : q ∈ qs)
    (outcome : Option Outcome) :
    Forgets q r
      ({ r with
        pending := (r.pending.remove q.id outcome).2
        tickets := r.tickets.erase q.ticket }.resolve
          (r.pending.remove q.id outcome).1.toList) where
  entries := fun id => PendingTable.get?_remove r.pending q.id id outcome
  tickets := by
    intro ticket
    have herase := Table.get?_erase r.tickets q.ticket ticket
    by_cases hticket : ticket = q.ticket
    · subst hticket
      rw [if_pos rfl] at herase ⊢
      -- the only ticket that could be changed is not there
      rw [PendingTable.fst_remove]
      cases r.pending.entries.get? q.id with
      | none => exact herase
      | some e =>
        simp only [resolve, Option.map_some, Option.toList_some, List.foldl_cons, List.foldl_nil,
          Table.get?_modify]
        split <;> simp [herase]
    · rw [if_neg hticket] at herase ⊢
      rw [get?_tickets_resolve_of_not_mem]
      · exact herase
      · rw [PendingTable.fst_remove]
        cases he : r.pending.entries.get? q.id with
        | none => simp
        | some e =>
          obtain ⟨rfl, -⟩ := h.waits_of_entry q hq e he
          simpa [Accepted.entry] using hticket
  frame := rfl
  nextId := by simp [resolve]

/-- Giving a ticket up takes the request out of the table. -/
theorem forgets_abandon (h : r.Consistent qs) (q : Accepted) (hq : q ∈ qs) (t : TicketEntry)
    (ht : r.tickets.get? q.ticket = some t) : Forgets q r (r.abandon q.ticket) := by
  have hid : t.id = q.id := by
    rcases h.standing q hq with hwaits | hsettled
    · have := hwaits.ticket
      rw [ht] at this
      exact Option.some.inj this ▸ rfl
    · obtain ⟨o, rfl⟩ := hsettled.ticket t ht
      rfl
  have hforgets := forgets_remove h q hq none
  simp only [abandon, ht, hid]
  exact hforgets

/-- A waiting ticket whose deadline has come reports the timeout. -/
theorem poll_of_waits (h : r.Consistent qs) (q : Accepted) (hq : q ∈ qs) (hwaits : r.Waits q)
    (now : Nat) (hnow : q.deadline ≤ now) :
    (r.poll now q.ticket).1 = some (.error (.requestTimeout q.id)) ∧
      Forgets q r (r.poll now q.ticket).2 := by
  have hforgets := forgets_remove h q hq (some (.error (.requestTimeout q.id)))
  simp only [poll, hwaits.ticket, Accepted.ticketEntry, hnow, if_true]
  exact ⟨trivial, hforgets⟩

/-- Before its deadline a waiting ticket is pending. -/
theorem poll_early (q : Accepted) (hwaits : r.Waits q) (now : Nat) (hnow : now < q.deadline) :
    r.poll now q.ticket = (none, r) := by
  simp only [poll, hwaits.ticket, Accepted.ticketEntry, Nat.not_le.2 hnow, if_false]

/-- A ticket reports the outcome that is laid down on it, and is used up. -/
theorem poll_of_resolved (h : r.Consistent qs) (q : Accepted) (hq : q ∈ qs) (o : Outcome)
    (ht : r.tickets.get? q.ticket = some (q.ticketEntry (.resolved o))) (now : Nat) :
    (r.poll now q.ticket).1 = some o ∧ Forgets q r (r.poll now q.ticket).2 := by
  have hentry : r.pending.entries.get? q.id = none := by
    rcases h.standing q hq with hwaits | hsettled
    · have := hwaits.ticket
      rw [ht] at this
      cases this
    · exact hsettled.entry
  simp only [poll, ht, Accepted.ticketEntry]
  refine ⟨trivial, ?_, ?_, rfl, rfl⟩
  · intro id
    by_cases hid : id = q.id
    · rw [if_pos hid, hid]
      exact hentry
    · rw [if_neg hid]
  · exact fun ticket => Table.get?_erase r.tickets q.ticket ticket

/-- A ticket that does not exist is pending for ever. -/
theorem poll_of_none (now ticket : Nat) (ht : r.tickets.get? ticket = none) :
    r.poll now ticket = (none, r) := by
  simp only [poll, ht]

theorem consistent_poll (h : r.Consistent qs) (now ticket : Nat) :
    (r.poll now ticket).2.Consistent qs := by
  cases ht : r.tickets.get? ticket with
  | none =>
    rw [poll_of_none now ticket ht]
    exact h
  | some t =>
    obtain ⟨q, hq, rfl⟩ := h.tickets ticket t ht
    rcases h.standing q hq with hwaits | hsettled
    · by_cases hnow : q.deadline ≤ now
      · exact consistent_of_forgets h q hq _ (poll_of_waits h q hq hwaits now hnow).2
      · rw [poll_early q hwaits now (by omega)]
        exact h
    · obtain ⟨o, rfl⟩ := hsettled.ticket t ht
      exact consistent_of_forgets h q hq _ (poll_of_resolved h q hq o ht now).2

theorem consistent_abandon (h : r.Consistent qs) (ticket : Nat) :
    (r.abandon ticket).Consistent qs := by
  cases ht : r.tickets.get? ticket with
  | none =>
    simp only [abandon, ht]
    exact h
  | some t =>
    obtain ⟨q, hq, rfl⟩ := h.tickets ticket t ht
    exact consistent_of_forgets h q hq _ (forgets_abandon h q hq t ht)

/-! ## Sweeping -/

/-- A sweep keeps the sessions of a queue and the requests in it that still wait. -/
theorem queueOf_sweep (r : Relay) (now : Nat) (node : NodeId) :
    (r.sweep now).2.queueOf node =
      ⟨(r.queueOf node).signers, prune (r.sweep now).2.pending (r.queueOf node).outstanding⟩ := by
  simp only [sweep, resolve, queueOf, Table.get?_filter, Table.get?_map]
  cases r.queues.get? node with
  | none => rfl
  | some queue =>
    simp only [Option.map_some, Option.filter, Option.getD_some]
    split
    · rfl
    · next hempty =>
      simp only [Bool.or_eq_true, Bool.not_eq_true', not_or, Bool.not_eq_false,
        List.isEmpty_iff] at hempty
      rw [Option.getD_none, hempty.1, hempty.2]

/-- A sweep times out the requests whose deadline has come. -/
theorem ends_sweep (h : r.Consistent qs) (now : Nat) :
    Ends (fun id e => if e.deadline ≤ now then some (.error (.requestTimeout id)) else none)
      r (r.sweep now).2 := by
  have hends := h.ends_removeWhere (fun e => e.deadline ≤ now)
    (fun id => .error (.requestTimeout id))
    { r with
      pending := (r.pending.sweep now).2
      queues := (r.sweep now).2.queues } rfl rfl
  exact hends.congr fun id e _ => by simp

theorem consistent_sweep (h : r.Consistent qs) (now : Nat) :
    (r.sweep now).2.Consistent qs := by
  have hends := ends_sweep h now
  apply h.shrink
  · rfl
  · rfl
  · exact fun id e he => ⟨(hends.entries_subset id e he).1, rfl, rfl⟩
  · exact hends.tickets_subset
  · exact h.standing_of_ends hends fun _ _ _ => rfl
  · intro node session
    rw [queueOf_sweep]
    exact h.signers node session
  · intro node request hmem
    rw [queueOf_sweep] at hmem
    exact (List.mem_filter.1 hmem).1
  · intro node
    rw [queueOf_sweep, prune_prune _ _ _ fun _ hid => hid]
  · exact fun session s hs => ⟨h.sessionNumbers session s hs, s, hs, rfl, rfl⟩
  · exact h.streamNumbers

end Relay

end SigningGateway
