import SigningGateway.Proofs.Relay.Delivery
import SigningGateway.Proofs.Relay.Grants

/-!
# Where the requests of a session come from

Whatever a queue or a session of a node holds was submitted on an open stream of that node, within
what was granted at that moment.  No bound on the number of requests is needed: ids may come around
again, but a request stays what it was when it was submitted.

    request handed in (run s ops) → request accepted in ops                         (traced_run)
    accepted in ops ↔ accepted by one operation of ops                            (mem_accepted)
-/

namespace SigningGateway

namespace Relay

/-! ## One relay -/

/-- What the queue or a session of a node holds is a request of the node and one of `requests`. -/
structure Traced (requests : List Request) (r : Relay) : Prop where
  queued : ∀ node, ∀ request ∈ (r.queueOf node).outstanding,
    request.context.node = node ∧ request ∈ requests
  handed : ∀ session e, r.sessions.get? session = some e → ∀ request ∈ e.handed,
    request.context.node = e.node ∧ request ∈ requests
  signers : ∀ node, ∀ session ∈ (r.queueOf node).signers, session < r.nextSession ∧
    ∀ e, r.sessions.get? session = some e → e.node = node

theorem traced_start (settings : RelaySettings) : (start settings).Traced [] where
  queued := by intro node request hmem; cases hmem
  handed := by intro session e he; cases he
  signers := by intro node session hmem; cases hmem

namespace Traced

variable {requests : List Request} {r : Relay}

/-- Queues and sessions that only lose requests stay traced. -/
theorem shrink (h : r.Traced requests) (r' : Relay)
    (houtstanding : ∀ node, (r'.queueOf node).outstanding ⊆ (r.queueOf node).outstanding)
    (hsigners : ∀ node, (r'.queueOf node).signers ⊆ (r.queueOf node).signers)
    (hsessions : ∀ session e, r'.sessions.get? session = some e →
      ∃ e₀, r.sessions.get? session = some e₀ ∧ e₀.node = e.node ∧ e₀.handed = e.handed)
    (hnext : r'.nextSession = r.nextSession) : r'.Traced requests where
  queued := fun node request hmem => h.queued node request (houtstanding node hmem)
  handed := by
    intro session e he request hmem
    obtain ⟨e₀, he₀, hnode, hhanded⟩ := hsessions session e he
    rw [← hnode]
    exact h.handed session e₀ he₀ request (hhanded ▸ hmem)
  signers := by
    intro node session hmem
    obtain ⟨hlt, hsession⟩ := h.signers node session (hsigners node hmem)
    refine ⟨hnext ▸ hlt, ?_⟩
    intro e he
    obtain ⟨e₀, he₀, hnode, -⟩ := hsessions session e he
    rw [← hnode]
    exact hsession e₀ he₀

theorem take (h : r.Traced requests) (session count : Nat) :
    (r.take session count).2.Traced requests := by
  have hqueues : (r.take session count).2.queues = r.queues := by
    unfold Relay.take
    split <;> rfl
  apply h.shrink
  · intro node
    rw [queueOf, hqueues]
    exact List.Subset.refl _
  · intro node
    rw [queueOf, hqueues]
    exact List.Subset.refl _
  · intro session' e he
    rw [get?_sessions_take, Option.map_eq_some_iff] at he
    obtain ⟨e₀, he₀, rfl⟩ := he
    refine ⟨e₀, he₀, ?_, ?_⟩ <;> split <;> rfl
  · unfold Relay.take
    split <;> rfl

theorem detach (h : r.Traced requests) (session : Nat) : (r.detach session).Traced requests := by
  have hsessions : ∀ r' : Relay, r'.sessions = r.sessions.erase session → ∀ other e,
      r'.sessions.get? other = some e →
        ∃ e₀, r.sessions.get? other = some e₀ ∧ e₀.node = e.node ∧ e₀.handed = e.handed := by
    intro r' herase other e he
    rw [herase, Table.get?_erase] at he
    split at he
    · cases he
    · exact ⟨e, he, rfl, rfl⟩
  unfold Relay.detach
  split
  · exact h
  · next e he =>
    dsimp only
    split
    · apply h.shrink
      · exact fun _ => List.Subset.refl _
      · exact fun _ => List.Subset.refl _
      · exact hsessions _ rfl
      · rfl
    · next queue hqueue =>
      -- only the signers of one queue are changed, and the resolved tickets do not matter
      have hshrink : ∀ r' : Relay, r'.sessions = r.sessions.erase session →
          r'.queues = r.queues.set e.node
            { queue with signers := queue.signers.filter (· ≠ session) } →
          r'.nextSession = r.nextSession → r'.Traced requests := by
        intro r' herase hset hnext
        apply h.shrink r' ?_ ?_ (hsessions r' herase) hnext
        · intro node request hmem
          rw [queueOf, hset, Table.get?_set] at hmem
          split at hmem
          · next hnode =>
            rw [hnode, queueOf, hqueue]
            exact hmem
          · exact hmem
        · intro node other hmem
          rw [queueOf, hset, Table.get?_set] at hmem
          split at hmem
          · next hnode =>
            rw [hnode, queueOf, hqueue]
            exact (List.mem_filter.1 hmem).1
          · exact hmem
      split
      · exact hshrink _ rfl rfl rfl
      · exact hshrink _ rfl rfl rfl

theorem sweep (h : r.Traced requests) (now : Nat) : (r.sweep now).2.Traced requests := by
  apply h.shrink
  · intro node request hmem
    rw [queueOf_sweep] at hmem
    exact (List.mem_filter.1 hmem).1
  · intro node
    rw [queueOf_sweep]
    exact List.Subset.refl _
  · exact fun session e he => ⟨e, he, rfl, rfl⟩
  · rfl

theorem attach (h : r.Traced requests) (node : NodeId) : (r.attach node).2.Traced requests where
  queued := by
    intro node' request hmem
    rw [queueOf_attach] at hmem
    split at hmem
    · next hnode =>
      rw [hnode]
      exact h.queued node request (List.mem_filter.1 hmem).1
    · exact h.queued node' request hmem
  handed := by
    intro session e he request hmem
    rw [get?_sessions_attach] at he
    split at he
    · obtain rfl := Option.some.inj he
      exact h.queued node request (List.mem_filter.1 hmem).1
    · exact h.handed session e he request hmem
  signers := by
    intro node' session hmem
    have hold : session ∈ (r.queueOf node').signers → session < r.nextSession + 1 ∧
        ∀ e, (r.attach node).2.sessions.get? session = some e → e.node = node' := by
      intro hmem
      obtain ⟨hlt, hsession⟩ := h.signers node' session hmem
      refine ⟨by omega, ?_⟩
      intro e he
      rw [get?_sessions_attach, if_neg (by omega)] at he
      exact hsession e he
    rw [queueOf_attach] at hmem
    split at hmem
    · next hnode =>
      rw [List.mem_append, List.mem_singleton] at hmem
      rcases hmem with hmem | rfl
      · exact hold (hnode ▸ hmem)
      · refine ⟨Nat.lt_succ_self _, ?_⟩
        intro e he
        rw [get?_sessions_attach, if_pos rfl] at he
        rw [← Option.some.inj he, hnode]
    · exact hold hmem

/-- A request that is entered joins the others. -/
theorem dispatch (h : r.Traced requests) (now stream : Nat) (context : RequestContext)
    (raw : Bytes) : (r.dispatch now stream context raw).2.Traced
      (requests ++ [⟨r.pending.freeId, context, raw⟩]) where
  queued := by
    intro node request hmem
    have hold : request ∈ (r.queueOf node).outstanding → request.context.node = node ∧
        request ∈ requests ++ [⟨r.pending.freeId, context, raw⟩] := fun hmem =>
      ⟨(h.queued node request hmem).1, List.mem_append_left _ (h.queued node request hmem).2⟩
    rw [queueOf_dispatch] at hmem
    split at hmem
    · next hnode =>
      rw [List.mem_append, List.mem_singleton] at hmem
      rcases hmem with hmem | rfl
      · exact hold ((List.dropWhile_sublist _).subset hmem)
      · exact ⟨hnode.symm, List.mem_append_right _ List.mem_cons_self⟩
    · exact hold hmem
  handed := by
    intro session e he request hmem
    rw [get?_sessions_dispatch, Option.map_eq_some_iff] at he
    obtain ⟨e₀, he₀, rfl⟩ := he
    have hold : request ∈ e₀.handed → request.context.node = e₀.node ∧
        request ∈ requests ++ [⟨r.pending.freeId, context, raw⟩] := fun hmem =>
      ⟨(h.handed session e₀ he₀ request hmem).1,
        List.mem_append_left _ (h.handed session e₀ he₀ request hmem).2⟩
    split at hmem
    · next hsigner =>
      rw [if_pos hsigner]
      rcases List.mem_append.1 hmem with hmem | hnew
      · exact hold hmem
      · obtain rfl := List.mem_singleton.1 hnew
        exact ⟨((h.signers _ session hsigner).2 e₀ he₀).symm,
          List.mem_append_right _ List.mem_cons_self⟩
    · next hsigner =>
      rw [if_neg hsigner]
      exact hold hmem
  signers := by
    intro node session hmem
    have hmem' : session ∈ (r.queueOf node).signers := by
      rw [queueOf_dispatch] at hmem
      split at hmem
      · next hnode => exact hmem
      · exact hmem
    obtain ⟨hlt, hsession⟩ := h.signers node session hmem'
    refine ⟨hlt, ?_⟩
    intro e he
    rw [get?_sessions_dispatch, Option.map_eq_some_iff] at he
    obtain ⟨e₀, he₀, rfl⟩ := he
    rw [← hsession e₀ he₀]
    split <;> rfl

end Traced

end Relay

namespace ClockedRelay

/-! ## One operation -/

/-- Queues change only with submissions, sweeps and sessions that come and go. -/
theorem queues_step (s : ClockedRelay) (op : RelayOp) (haccepts : s.accepts op = none)
    (hattach : ∀ node, op ≠ .attach node) (hdetach : ∀ session, op ≠ .detach session)
    (hsweep : op ≠ .sweep) :
    (s.step op).2.relay.queues = s.relay.queues ∧
      (s.step op).2.relay.nextSession = s.relay.nextSession := by
  cases op with
  | attach node => exact absurd rfl (hattach node)
  | detach session => exact absurd rfl (hdetach session)
  | sweep => exact absurd rfl hsweep
  | submit stream dbid capabilities raw =>
    rw [s.step_submit_of_not_accepts stream dbid capabilities raw haccepts]
    exact ⟨rfl, rfl⟩
  | closeStream stream =>
    obtain ⟨hqueues, -, -, hnext, -⟩ := s.relay.closeStream_frame stream
    exact ⟨hqueues, hnext⟩
  | dropStream stream =>
    obtain ⟨hqueues, -, -, hnext, -⟩ := s.relay.closeStream_frame stream
    exact ⟨hqueues, hnext⟩
  | grant stream dbid capabilities =>
    simp only [step]
    split
    · next relay hgrant =>
      obtain ⟨grants, rfl⟩ := Relay.grant_eq_ok relay stream dbid capabilities hgrant
      exact ⟨rfl, rfl⟩
    · exact ⟨rfl, rfl⟩
  | take session count =>
    simp only [step, Relay.take]
    split <;> exact ⟨rfl, rfl⟩
  | respond session response =>
    simp only [step]
    split
    · next relay hok =>
      obtain ⟨-, rfl⟩ := (Relay.respond_eq_ok_iff _ _ _ _).1 hok
      exact ⟨rfl, rfl⟩
    · exact ⟨rfl, rfl⟩
  | poll ticket =>
    simp only [step, Relay.poll]
    split
    · exact ⟨rfl, rfl⟩
    · split
      · exact ⟨rfl, rfl⟩
      · exact ⟨rfl, rfl⟩
      · split <;> exact ⟨rfl, rfl⟩
  | abandon ticket =>
    simp only [step, Relay.abandon]
    split <;> exact ⟨rfl, rfl⟩
  | openStream node => exact ⟨rfl, rfl⟩
  | advance duration => exact ⟨rfl, rfl⟩

/-- An operation hands out only what was accepted. -/
theorem traced_step (s : ClockedRelay) (requests : List Request)
    (h : s.relay.Traced requests) (op : RelayOp) :
    (s.step op).2.relay.Traced
      (requests ++ (s.accepts op).toList.map Accepted.request) := by
  cases haccepts : s.accepts op with
  | some q =>
    obtain ⟨henters, hrelay⟩ := s.enters_of_accepts op q haccepts
    rw [hrelay, Option.toList_some, List.map_singleton, ← henters.request]
    exact h.dispatch s.now q.stream q.request.context q.request.raw
  | none =>
    rw [Option.toList_none, List.map_nil, List.append_nil]
    cases op with
    | attach node => exact h.attach node
    | detach session => exact h.detach session
    | sweep => exact h.sweep s.now
    | take session count => exact h.take session count
    | _ =>
      have hsessions := s.sessions_step _ haccepts (by simp) (by simp) (by simp)
      obtain ⟨hqueues, hnext⟩ := s.queues_step _ haccepts (by simp) (by simp) (by simp)
      apply h.shrink
      · intro node
        rw [Relay.queueOf, hqueues]
        exact List.Subset.refl _
      · intro node
        rw [Relay.queueOf, hqueues]
        exact List.Subset.refl _
      · intro session e he
        rw [hsessions] at he
        exact ⟨e, he, rfl, rfl⟩
      · exact hnext

/-- A request that is accepted is what was submitted, within the grant of that moment. -/
theorem submit_of_accepts (s : ClockedRelay) (op : RelayOp) (q : Accepted)
    (h : s.accepts op = some q) :
    op = .submit q.stream q.request.context.dbid q.request.context.capabilities q.request.raw ∧
      (s.step op).1 = .submitted q.ticket q.id ∧
      s.relay.grants.allows q.node q.request.context.dbid q.request.context.capabilities =
        true := by
  cases op with
  | submit stream dbid capabilities raw =>
    simp only [accepts] at h
    split at h
    · next opened ticket id relay hopened hsubmit =>
      obtain rfl := Option.some.inj h
      refine ⟨rfl, by simp only [step, hsubmit]; rfl, ?_⟩
      show s.relay.grants.allows opened.node dbid capabilities = true
      apply Classical.byContradiction
      intro hnot
      have hcheck : ∃ cause, s.relay.grants.check opened.node dbid capabilities = .error cause :=
        ⟨_, if_neg hnot⟩
      obtain ⟨cause, hcheck⟩ := hcheck
      simp only [Relay.submit, hopened, hcheck] at hsubmit
      split at hsubmit <;> cases hsubmit
    · cases h
  | _ => cases h

/-! ## Runs -/

/-- A run hands out only what was accepted. -/
theorem traced_run (s : ClockedRelay) (requests : List Request) (h : s.relay.Traced requests)
    (ops : List RelayOp) :
    (s.run ops).relay.Traced (requests ++ (s.accepted ops).map Accepted.request) := by
  induction ops generalizing s requests with
  | nil => simpa [accepted] using h
  | cons op ops ih =>
    rw [accepted, List.map_append, ← List.append_assoc]
    exact ih _ _ (s.traced_step requests h op)

/-- A request that a run accepted was accepted by one of its operations. -/
theorem mem_accepted (s : ClockedRelay) (ops : List RelayOp) (q : Accepted)
    (hq : q ∈ s.accepted ops) :
    ∃ before op after, ops = before ++ op :: after ∧ (s.run before).accepts op = some q := by
  induction ops generalizing s with
  | nil => cases hq
  | cons op ops ih =>
    rw [accepted, List.mem_append, Option.mem_toList] at hq
    rcases hq with hq | hq
    · exact ⟨[], op, ops, rfl, hq⟩
    · obtain ⟨before, op', after, rfl, haccepts⟩ := ih _ hq
      exact ⟨op :: before, op', after, rfl, haccepts⟩

/-- A submission that is not accepted is refused. -/
theorem refused_of_not_accepts (s : ClockedRelay) (stream : Nat) (dbid capabilities : UInt64)
    (raw : Bytes) (h : s.accepts (.submit stream dbid capabilities raw) = none) :
    ∃ cause, (s.step (.submit stream dbid capabilities raw)).1 = .refused cause := by
  simp only [step]
  split
  · next ticket id relay hsubmit =>
    simp only [accepts, hsubmit] at h
    simp only [Relay.submit] at hsubmit
    split at hsubmit
    · cases hsubmit
    · next opened hopened => simp [hopened] at h
  · next cause hsubmit => exact ⟨cause, rfl⟩

/-- What is refused changes nothing. -/
theorem step_of_refused (s : ClockedRelay) (op : RelayOp) (cause : Error)
    (h : (s.step op).1 = .refused cause) : (s.step op).2 = s := by
  cases op with
  | submit stream dbid capabilities raw =>
    simp only [step] at h ⊢
    split at h
    · cases h
    · rfl
  | grant stream dbid capabilities =>
    simp only [step] at h ⊢
    split at h
    · cases h
    · rfl
  | respond session response =>
    simp only [step] at h ⊢
    split at h
    · cases h
    · rfl
  | _ => cases h

/-- What an id of a node other than its own holds at the end of a run. -/
theorem client_grant (settings : RelaySettings) (now : Nat) (ops : List RelayOp) (node : NodeId)
    (dbid : UInt64) (hdbid : dbid ≠ masterDbid) :
    ((start settings now).run ops).relay.grants.get? node dbid =
        ((start settings now).grantedTo node dbid ops).getLast? ∧
      ∀ granted, ((start settings now).run ops).relay.grants.get? node dbid = some granted →
        granted.contains .master = false ∧
          ∀ bit, granted.has bit = true → ∃ c ∈ Capabilities.named, c.has bit = true := by
  have hlast := get?_grants_last _ (mastered_start settings now) node dbid hdbid ops
  rw [show (start settings now).relay.grants.get? node dbid = none from rfl,
    Option.or_none] at hlast
  refine ⟨hlast, ?_⟩
  intro granted hgranted
  rw [hlast] at hgranted
  rw [← Capabilities.isGrantable_iff]
  exact isGrantable_of_grantedTo _ (mastered_start settings now) node dbid ops granted
    (List.mem_of_getLast? hgranted)

/-- An id of a node other than its own cannot submit a request with the right to grant or with a bit
that has no name. -/
theorem refused_of_bit (settings : RelaySettings) (now : Nat) (ops : List RelayOp) (stream : Nat)
    (dbid capabilities : UInt64) (raw : Bytes) (bit : Nat) (hdbid : dbid ≠ masterDbid)
    (hbit : (⟨capabilities⟩ : Capabilities).has bit = true)
    (hforbidden : Capabilities.master.has bit = true ∨
      ∀ c ∈ Capabilities.named, c.has bit = false) :
    ∃ cause, (((start settings now).run ops).step
      (.submit stream dbid capabilities raw)).1 = .refused cause := by
  apply refused_of_not_accepts
  cases haccepts : accepts _ (.submit stream dbid capabilities raw) with
  | none => rfl
  | some q =>
    exfalso
    obtain ⟨hop, -, hallows⟩ := submit_of_accepts _ _ q haccepts
    simp only [RelayOp.submit.injEq] at hop
    obtain ⟨-, rfl, rfl, -⟩ := hop
    obtain ⟨granted, hget, hbits⟩ := (Grants.allows_iff _ _ _ _).1 hallows
    obtain ⟨hmaster, hnamed⟩ := (client_grant settings now ops _ _ hdbid).2 granted hget
    rcases hforbidden with hmasterBit | hnameless
    · -- the right to grant is one bit, so a set with that bit contains it
      have hcontains := (Capabilities.contains_iff granted .master).2 fun other hother => by
        rw [(Capabilities.has_master other).1 hother, ← (Capabilities.has_master bit).1 hmasterBit]
        exact hbits bit hbit
      rw [hmaster] at hcontains
      cases hcontains
    · obtain ⟨c, hc, hcbit⟩ := hnamed bit (hbits bit hbit)
      rw [hnameless c hc] at hcbit
      cases hcbit

/-- A request that a session was handed was submitted on an open stream of the node of the session,
when a grant of its id held every bit of its capabilities.  The grants of a node depend on nothing
but what the node was asked.  Its own id holds every named capability once a stream of the node was
opened, and nothing before; any other id holds what it was granted last, without the right to grant
and without bits that have no name.  So a submission of such an id with one of these bits is
refused, and what is refused changes nothing. -/
theorem handed_within_grants (settings : RelaySettings) (now : Nat) (ops : List RelayOp) :
    let s := (start settings now).run ops
    (∀ session e, s.relay.sessions.get? session = some e → ∀ request ∈ e.handed,
      ∃ before after stream, ops = before ++ .submit stream request.context.dbid
          request.context.capabilities request.raw :: after ∧
        let t := (start settings now).run before
        (∃ ticket, (t.step (.submit stream request.context.dbid request.context.capabilities
          request.raw)).1 = .submitted ticket request.id) ∧
        request.context.node = e.node ∧ t.relay.streams.get? stream = some ⟨e.node, false⟩ ∧
        ∃ granted, t.relay.grants.get? e.node request.context.dbid = some granted ∧
          ∀ bit, (⟨request.context.capabilities⟩ : Capabilities).has bit = true →
            granted.has bit = true) ∧
    (∀ node : NodeId,
      (∀ settings' now' ops',
        (start settings' now').asked node ops' = (start settings now).asked node ops →
        ((start settings' now').run ops').relay.grants.get? node = s.relay.grants.get? node) ∧
      (s.relay.grants.get? node masterDbid =
        if .openStream node ∈ ops then some .all else none) ∧
      ∀ dbid, dbid ≠ masterDbid →
        s.relay.grants.get? node dbid = ((start settings now).grantedTo node dbid ops).getLast? ∧
        ∀ granted, s.relay.grants.get? node dbid = some granted →
          granted.contains .master = false ∧
            ∀ bit, granted.has bit = true → ∃ c ∈ Capabilities.named, c.has bit = true) ∧
    (∀ bit, Capabilities.all.has bit = true ↔ ∃ c ∈ Capabilities.named, c.has bit = true) ∧
    (∀ stream dbid capabilities raw bit, dbid ≠ masterDbid →
      (⟨capabilities⟩ : Capabilities).has bit = true →
      Capabilities.master.has bit = true ∨ (∀ c ∈ Capabilities.named, c.has bit = false) →
      ∃ cause, (s.step (.submit stream dbid capabilities raw)).1 = .refused cause) ∧
    ∀ op cause, (s.step op).1 = .refused cause → (s.step op).2 = s := by
  intro s
  have hstart := mastered_start settings now
  refine ⟨?_, ?_, Capabilities.has_all, ?_, fun op cause => s.step_of_refused op cause⟩
  · intro session e he request hmem
    have htraced := traced_run (start settings now) [] (Relay.traced_start settings) ops
    obtain ⟨hnode, haccepted⟩ := htraced.handed session e he request hmem
    obtain ⟨q, hq, rfl⟩ := List.mem_map.1 haccepted
    obtain ⟨before, op, after, rfl, haccepts⟩ := mem_accepted _ ops q hq
    obtain ⟨rfl, hanswer, hallows⟩ := submit_of_accepts _ op q haccepts
    obtain ⟨opened, hopened, hclosed, hsame, -⟩ := accepts_eq_some _ _ q haccepts
    have hopen : opened = ⟨e.node, false⟩ := by
      rw [← hnode, ← hclosed]
      exact congrArg (NodeStream.mk · opened.closed) hsame
    refine ⟨before, after, q.stream, rfl, ⟨q.ticket, hanswer⟩, hnode, hopen ▸ hopened, ?_⟩
    rw [← hnode]
    exact (Grants.allows_iff _ _ _ _).1 hallows
  · intro node
    refine ⟨?_, ?_, fun dbid hdbid => client_grant settings now ops node dbid hdbid⟩
    · intro settings' now' ops' hasked
      rw [get?_grants_run _ (mastered_start settings' now') node ops',
        get?_grants_run _ hstart node ops, hasked]
      rfl
    · rw [get?_grants_run _ hstart node ops, GrantOp.foldl_apply_master]
      simp only [opens_mem_asked]
      rfl
  · intro stream dbid capabilities raw bit hdbid hbit hforbidden
    exact refused_of_bit settings now ops stream dbid capabilities raw bit hdbid hbit hforbidden

/-- A channel that was granted two capabilities asks for one of them, before its grant is replaced;
the right to grant stays out of its reach. -/
theorem channel_request_within_grant :
    let node : NodeId := ⟨List.replicate 32 7, rfl⟩
    let ops := [RelayOp.openStream node, .grant 1 5 6, .attach node, .submit 1 5 4 [1],
      .grant 1 5 2]
    let s := (start ⟨10, 5⟩ 0).run ops
    (∃ e, s.relay.sessions.get? 1 = some e ∧ e.node = node ∧ ⟨1, ⟨node, 5, 4⟩, [1]⟩ ∈ e.handed ∧
      ∃ before after stream, ops = before ++ .submit stream 5 4 [1] :: after ∧
        ∃ granted, ((start ⟨10, 5⟩ 0).run before).relay.grants.get? node 5 = some granted ∧
          granted.has 2 = true) ∧
    s.relay.grants.get? node 5 = some ⟨2⟩ ∧ (⟨2⟩ : Capabilities).contains .master = false ∧
    ∃ cause, (s.step (.submit 1 5 1024 [])).1 = .refused cause := by
  intro node ops s
  obtain ⟨hhanded, hgrants, -, hrefused, -⟩ := handed_within_grants ⟨10, 5⟩ 0 ops
  have hsession : (s.relay.sessions.get? 1).map (fun e => (e.node, e.handed)) =
      some (node, [⟨1, ⟨node, 5, 4⟩, [1]⟩]) := by decide +kernel
  have hgranted : s.relay.grants.get? node 5 = some ⟨2⟩ := by decide
  refine ⟨?_, hgranted, ?_, hrefused 1 5 1024 [] 10 (by decide) (by decide) (Or.inl (by decide))⟩
  · obtain ⟨e, he, hsame⟩ := Option.map_eq_some_iff.1 hsession
    obtain ⟨hnode, hall⟩ := Prod.mk.inj hsame
    have hmem : ⟨1, ⟨node, 5, 4⟩, [1]⟩ ∈ e.handed := by
      rw [hall]
      exact List.mem_cons_self
    obtain ⟨before, after, stream, hops, -, -, -, granted, hget, hbits⟩ := hhanded 1 e he _ hmem
    exact ⟨e, he, hnode, hmem, before, after, stream, hops, granted, hnode ▸ hget,
      hbits 2 (by decide)⟩
  · exact ((hgrants node).2.2 5 (by decide)).2 ⟨2⟩ hgranted |>.1

end ClockedRelay

end SigningGateway
