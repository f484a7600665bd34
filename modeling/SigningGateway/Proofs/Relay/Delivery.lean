import SigningGateway.Proofs.Relay.Invariant

/-!
# What a session is handed

A session is handed the requests of its node that wait when it attaches, in the order of their
submission, and then every request of its node that is accepted, one after the other.  What its
signer has taken and what is still in its channel, put together, is just that sequence, whatever
happens to the requests meanwhile.

    takenBy session log ++ channel = waiting at attach ++ accepted since      (delivered_in_order)
-/

namespace SigningGateway

namespace SignerSession

/-- The requests handed to a session that its signer has not taken. -/
def channel (e : SignerSession) : List Request := e.handed.drop e.taken

/-- A session is handed the requests `new` while its signer takes the requests `taken`. -/
structure Receives (e e' : SignerSession) (taken new : List Request) : Prop where
  node : e'.node = e.node
  handed : e'.handed = e.handed ++ new
  channel : taken ++ e'.channel = e.channel ++ new
  within : e'.taken ≤ e'.handed.length

/-- Nothing is handed and nothing taken. -/
theorem receives_nothing (e : SignerSession) (hwithin : e.taken ≤ e.handed.length) :
    e.Receives e [] [] := ⟨rfl, by simp, by simp, hwithin⟩

/-- A request is handed. -/
theorem receives_request (e : SignerSession) (hwithin : e.taken ≤ e.handed.length)
    (request : Request) :
    e.Receives { e with handed := e.handed ++ [request] } [] [request] where
  node := rfl
  handed := rfl
  channel := by
    simp only [SignerSession.channel, List.nil_append]
    exact List.drop_append_of_le_length hwithin
  within := by
    show e.taken ≤ (e.handed ++ [request]).length
    rw [List.length_append]
    omega

/-- The signer takes the next requests. -/
theorem receives_take (e : SignerSession) (hwithin : e.taken ≤ e.handed.length) (count : Nat) :
    e.Receives { e with taken := e.taken + (e.channel.take count).length }
      (e.channel.take count) [] where
  node := rfl
  handed := (List.append_nil _).symm
  channel := by
    have hdrop : e.handed.drop (e.taken + (e.channel.take count).length) =
        e.channel.drop (e.channel.take count).length := List.drop_drop.symm
    have hrest : e.channel.drop (e.channel.take count).length = e.channel.drop count := by
      rw [List.length_take]
      rcases Nat.le_total count e.channel.length with hle | hle
      · rw [Nat.min_eq_left hle]
      · rw [Nat.min_eq_right hle, List.drop_length, List.drop_eq_nil_of_le hle]
    show _ ++ e.handed.drop _ = _
    rw [hdrop, hrest, List.take_append_drop, List.append_nil]
  within := by
    simp only [SignerSession.channel, List.length_take, List.length_drop]
    omega

theorem Receives.trans {e e' e'' : SignerSession} {taken taken' new new' : List Request}
    (h : e.Receives e' taken new) (h' : e'.Receives e'' taken' new') :
    e.Receives e'' (taken ++ taken') (new ++ new') where
  node := h'.node.trans h.node
  handed := by rw [h'.handed, h.handed, List.append_assoc]
  channel := by
    rw [List.append_assoc, h'.channel, ← List.append_assoc, h.channel, List.append_assoc]
  within := h'.within

end SignerSession

namespace ClockedRelay

/-! ## One operation -/

/-- The requests that the signer of a session takes in an answer. -/
def takes (session : Nat) : RelayOp × RelayAnswer → List Request
  | (.take taker _, .taken requests) => if taker = session then requests else []
  | _ => []

/-- The requests that the signer of a session has taken. -/
def takenBy (session : Nat) (log : List (RelayOp × RelayAnswer)) : List Request :=
  log.flatMap (takes session)

/-- The requests of a node among accepted ones. -/
def requestsOf (node : NodeId) (qs : List Accepted) : List Request :=
  (qs.filter fun q => q.node = node).map Accepted.request

/-- An operation that neither accepts a request nor is about sessions leaves sessions alone. -/
theorem sessions_step (s : ClockedRelay) (op : RelayOp) (haccepts : s.accepts op = none)
    (hattach : ∀ node, op ≠ .attach node) (htake : ∀ session count, op ≠ .take session count)
    (hdetach : ∀ session, op ≠ .detach session) :
    (s.step op).2.relay.sessions = s.relay.sessions := by
  cases op with
  | attach node => exact absurd rfl (hattach node)
  | take session count => exact absurd rfl (htake session count)
  | detach session => exact absurd rfl (hdetach session)
  | submit stream dbid capabilities raw =>
    rw [s.step_submit_of_not_accepts stream dbid capabilities raw haccepts]
  | closeStream stream =>
    simp only [step, Relay.closeStream]
    split
    · rfl
    · split <;> rfl
  | dropStream stream =>
    simp only [step, Relay.dropStream, Relay.closeStream]
    split
    · rfl
    · split <;> rfl
  | grant stream dbid capabilities =>
    simp only [step]
    split
    · next relay hgrant =>
      obtain ⟨grants, rfl⟩ := Relay.grant_eq_ok relay stream dbid capabilities hgrant
      rfl
    · rfl
  | respond session response =>
    simp only [step]
    split
    · next relay hok =>
      obtain ⟨-, rfl⟩ := (Relay.respond_eq_ok_iff _ _ _ _).1 hok
      rfl
    · rfl
  | poll ticket =>
    simp only [step, Relay.poll]
    split
    · rfl
    · split
      · rfl
      · rfl
      · split <;> rfl
  | abandon ticket =>
    simp only [step, Relay.abandon]
    split <;> rfl
  | openStream node => rfl
  | sweep => rfl
  | advance duration => rfl

/-- A session that is not ended receives the requests of its node that are accepted. -/
theorem receives_step (s : ClockedRelay) (qs : List Accepted) (h : s.relay.Consistent qs)
    (op : RelayOp) (session : Nat) (hdetach : op ≠ .detach session) (e : SignerSession)
    (he : s.relay.sessions.get? session = some e) (hwithin : e.taken ≤ e.handed.length) :
    ∃ e', (s.step op).2.relay.sessions.get? session = some e' ∧
      e.Receives e' (takes session (op, (s.step op).1))
        (requestsOf e.node (s.accepts op).toList) := by
  cases haccepts : s.accepts op with
  | some q =>
    obtain ⟨henters, hrelay⟩ := s.enters_of_accepts op q haccepts
    have hsilent : takes session (op, (s.step op).1) = [] := by
      cases op <;> first | rfl | cases haccepts
    rw [hsilent, hrelay, henters.get?_sessions, he, Option.map_some]
    refine ⟨_, rfl, ?_⟩
    have hsigner : session ∈ (s.relay.queueOf q.node).signers ↔ e.node = q.node := by
      rw [h.signers, Relay.mem_sessionsOf, he]
      simp
    by_cases hnode : e.node = q.node
    · rw [if_pos (hsigner.2 hnode)]
      simpa [requestsOf, hnode] using e.receives_request hwithin q.request
    · rw [if_neg (mt hsigner.1 hnode)]
      have hnode' : ¬q.node = e.node := fun heq => hnode heq.symm
      simpa [requestsOf, hnode'] using e.receives_nothing hwithin
  | none =>
    have hnothing : ∀ answer, takes session (op, answer) = [] →
        e.Receives e (takes session (op, answer)) (requestsOf e.node []) := by
      intro answer hsilent
      rw [hsilent]
      exact e.receives_nothing hwithin
    rw [Option.toList_none]
    cases op with
    | attach node =>
      refine ⟨e, ?_, hnothing _ rfl⟩
      have hlt := h.sessionNumbers session e he
      show (s.relay.attach node).2.sessions.get? session = some e
      rw [Relay.get?_sessions_attach, if_neg (by omega), he]
    | detach other =>
      refine ⟨e, ?_, hnothing _ rfl⟩
      obtain ⟨-, -, -, -, -, hsessions, -⟩ := Relay.detach_frame h other
      have hother : session ≠ other := fun heq => hdetach (by rw [heq])
      show (s.relay.detach other).sessions.get? session = some e
      rw [hsessions, if_neg hother, he]
    | take taker count =>
      show ∃ e', (s.relay.take taker count).2.sessions.get? session = some e' ∧ _
      rw [Relay.get?_sessions_take, he, Option.map_some]
      refine ⟨_, rfl, ?_⟩
      by_cases htaker : session = taker
      · subst htaker
        have hrequests : takes session (.take session count, (s.step (.take session count)).1) =
            e.channel.take count := by
          simp only [step, Relay.take, he, takes, if_true]
          rfl
        rw [if_pos rfl, hrequests]
        exact e.receives_take hwithin count
      · rw [if_neg htaker]
        exact hnothing _ (if_neg fun heq => htaker heq.symm)
    | _ =>
      refine ⟨e, ?_, hnothing _ rfl⟩
      rw [sessions_step s _ haccepts (by intros; simp) (by intros; simp) (by intros; simp)]
      exact he

/-! ## Runs -/

/-- A session that is not ended receives the accepted requests of its node in a run. -/
theorem receives_run (s : ClockedRelay) (qs : List Accepted) (h : s.relay.Consistent qs)
    (ops : List RelayOp) (hfew : (qs ++ s.accepted ops).length < UInt32.size) (session : Nat)
    (hdetach : RelayOp.detach session ∉ ops) (e : SignerSession)
    (he : s.relay.sessions.get? session = some e) (hwithin : e.taken ≤ e.handed.length) :
    ∃ e', (s.run ops).relay.sessions.get? session = some e' ∧
      e.Receives e' (takenBy session (s.log ops)) (requestsOf e.node (s.accepted ops)) := by
  induction ops generalizing s qs e with
  | nil => exact ⟨e, he, e.receives_nothing hwithin⟩
  | cons op ops ih =>
    rw [List.mem_cons, not_or] at hdetach
    rw [accepted, ← List.append_assoc] at hfew
    have hstep := s.consistent_step qs op h (by rw [List.length_append] at hfew; omega)
    obtain ⟨e₁, he₁, hfirst⟩ :=
      receives_step s qs h op session (fun heq => hdetach.1 heq.symm) e he hwithin
    obtain ⟨e₂, he₂, hrest⟩ := ih (s.step op).2 _ hstep hfew hdetach.2 e₁ he₁ hfirst.within
    refine ⟨e₂, he₂, ?_⟩
    have hboth := hfirst.trans hrest
    rw [hfirst.node] at hboth
    simpa [takenBy, log, requestsOf, accepted] using hboth

/-- While it is attached, a session has been handed the requests of its node that waited when it
attached and then those accepted since, each once and in the order of submission; its signer takes
them in that order. -/
theorem delivered_in_order (settings : RelaySettings) (now : Nat) (before after : List RelayOp)
    (node : NodeId) (session : Nat)
    (hattach : (((start settings now).run before).step (.attach node)).1 = .attached session)
    (hdetach : RelayOp.detach session ∉ after)
    (hfew : ((start settings now).accepted (before ++ .attach node :: after)).length <
      UInt32.size) :
    let s := (start settings now).run before
    let attached := (s.step (.attach node)).2
    let sequence := s.relay.waitingOf ((start settings now).accepted before) node ++
      requestsOf node (attached.accepted after)
    ∃ e, (attached.run after).relay.sessions.get? session = some e ∧ e.node = node ∧
      e.handed = sequence ∧ takenBy session (attached.log after) ++ e.channel = sequence ∧
      (sequence.map Request.id).Nodup := by
  intro s attached sequence
  have hsession : s.relay.nextSession = session := RelayAnswer.attached.inj hattach
  rw [accepted_append] at hfew
  have hattached : ((start settings now).accepted before ++ attached.accepted after).length <
      UInt32.size := hfew
  have hs := consistent_run (start settings now) [] before (Relay.consistent_start settings)
    (by rw [List.nil_append]; rw [List.length_append] at hattached; omega)
  rw [List.nil_append] at hs
  have hconsistent : attached.relay.Consistent ((start settings now).accepted before) :=
    Relay.consistent_attach hs node
  have hentry : attached.relay.sessions.get? session =
      some ⟨node, s.relay.waitingOf ((start settings now).accepted before) node, 0⟩ := by
    show (s.relay.attach node).2.sessions.get? session = _
    rw [Relay.get?_sessions_attach, if_pos hsession.symm, hs.backlog]
  obtain ⟨e, he, hreceives⟩ :=
    receives_run attached _ hconsistent after hattached session hdetach _ hentry (Nat.zero_le _)
  refine ⟨e, he, hreceives.node, hreceives.handed, hreceives.channel, ?_⟩
  -- what was handed is a part of all that was accepted
  have hids := (consistent_run attached _ after hconsistent hattached).nodup_ids
  have hsublist : (sequence.map Request.id).Sublist
      (((start settings now).accepted before ++ attached.accepted after).map Accepted.id) := by
    have hmap : ∀ qs : List Accepted, (qs.map Accepted.request).map Request.id =
        qs.map Accepted.id := by
      intro qs
      rw [List.map_map]
      rfl
    rw [List.map_append, List.map_append, Relay.waitingOf, requestsOf, hmap, hmap]
    exact ((List.filter_sublist).map _).append ((List.filter_sublist).map _)
  exact hsublist.nodup hids

/-- A second session is handed the request that the first has not answered and the one submitted
later, though that is answered before its signer takes it. -/
theorem delivered_to_second_session :
    let node : NodeId := ⟨List.replicate 32 7, rfl⟩
    let submit := fun raw => RelayOp.submit 1 0 4 raw
    let before := [RelayOp.openStream node, submit [1], submit [2], .attach node,
      .respond 1 ⟨1, [9]⟩]
    let after := [RelayOp.take 2 1, submit [3], .respond 1 ⟨3, [9]⟩, .detach 1, .sweep]
    (((start ⟨10, 5⟩ 0).run before).step (.attach node)).1 = .attached 2 ∧
      RelayOp.detach 2 ∉ after ∧
      ((start ⟨10, 5⟩ 0).accepted (before ++ .attach node :: after)).length < UInt32.size ∧
      ∃ e, ((((start ⟨10, 5⟩ 0).run before).step (.attach node)).2.run
          after).relay.sessions.get? 2 = some e ∧
        takenBy 2 ((((start ⟨10, 5⟩ 0).run before).step (.attach node)).2.log after) ++ e.channel =
          [⟨2, ⟨node, 0, 4⟩, [2]⟩, ⟨3, ⟨node, 0, 4⟩, [3]⟩] := by
  intro node submit before after
  have hnext : ((start ⟨10, 5⟩ 0).run before).relay.nextSession = 2 := by decide
  have hattach : (((start ⟨10, 5⟩ 0).run before).step (.attach node)).1 = .attached 2 :=
    congrArg RelayAnswer.attached hnext
  have hdetach : RelayOp.detach 2 ∉ after := by decide
  have hfew : ((start ⟨10, 5⟩ 0).accepted (before ++ .attach node :: after)).length <
      UInt32.size := by decide +kernel
  refine ⟨hattach, hdetach, hfew, ?_⟩
  have hsequence :
      ((start ⟨10, 5⟩ 0).run before).relay.waitingOf ((start ⟨10, 5⟩ 0).accepted before) node ++
        requestsOf node ((((start ⟨10, 5⟩ 0).run before).step (.attach node)).2.accepted after) =
          [⟨2, ⟨node, 0, 4⟩, [2]⟩, ⟨3, ⟨node, 0, 4⟩, [3]⟩] := by decide +kernel
  obtain ⟨e, he, -, -, hchannel, -⟩ :=
    delivered_in_order ⟨10, 5⟩ 0 before after node 2 hattach hdetach hfew
  exact ⟨e, he, hchannel.trans hsequence⟩

end ClockedRelay

end SigningGateway
