import SigningGateway.Proofs.Relay.Fate

/-!
# Accepted answers

A request completes with the first answer to it that is accepted.  While its ticket is held, what
the ticket reports is that answer, or a timeout or a lost connection if there is none; it reports
once, and no answer is accepted afterwards.

    Standing r q first told → Standing (r.step op) q (first or an answer) (told or a report)
                                                                                (standing_step)
-/

namespace SigningGateway

/-- A request that was accepted ends with an answer, or because its time is over or because a stream
or session was lost. -/
def Outcome.IsEnd (o : Outcome) : Prop :=
  ∀ cause, o = .error cause → cause.kind = "request_timeout" ∨ cause.kind = "connection_lost"

namespace ClockedRelay

/-- The answer to a request that is accepted. -/
def answer (id : UInt32) : RelayOp × RelayAnswer → Option Bytes
  | (.respond _ response, .done) => if response.id = id then some response.raw else none
  | _ => none

/-- The answers to a request that were accepted. -/
def answersTo (id : UInt32) (log : List (RelayOp × RelayAnswer)) : List Bytes :=
  log.filterMap (answer id)

theorem answer_of_ne {id : UInt32} {session : Nat} {response : Response} (hid : response.id ≠ id)
    (a : RelayAnswer) : answer id (.respond session response, a) = none := by
  cases a <;> simp [answer, hid]

/-- What an operation decides is an end of a request. -/
theorem isEnd_of_verdict (s : ClockedRelay) (q : Accepted) (op : RelayOp) (o : Outcome)
    (h : s.verdict q op = some o) : o.IsEnd := by
  intro cause hcause
  subst hcause
  unfold verdict at h
  repeat' split at h
  all_goals cases h
  all_goals first | exact Or.inl rfl | exact Or.inr rfl

section
variable (s : ClockedRelay) {qs : List Accepted} (h : s.relay.Consistent qs) (q : Accepted)
  (hq : q ∈ qs)
include h hq

/-- An answer to a request that waits is accepted just if it decides the request. -/
theorem answer_of_waits (hwaits : s.relay.Waits q) (op : RelayOp) :
    answer q.id (op, (s.step op).1) = (s.verdict q op).bind Except.toOption := by
  cases op with
  | respond session response =>
    obtain ⟨id, raw⟩ := response
    by_cases hid : id = q.id
    · subst hid
      obtain ⟨htaken, hrefused⟩ := respond_after_run s q qs h hq session raw
      by_cases hmem : session ∈ s.relay.sessionsOf q.node
      · rw [htaken ⟨hwaits, hmem⟩]
        simp [answer, verdict, hmem, Except.toOption]
      · rw [hrefused fun hboth => hmem hboth.2]
        simp [answer, verdict, hmem]
    · rw [answer_of_ne hid]
      simp [verdict, hid]
  | _ =>
    simp only [answer, verdict]
    repeat' split
    all_goals rfl

/-- No answer is accepted to a request that waits no longer. -/
theorem answer_of_not_waits (hnot : ¬s.relay.Waits q) (op : RelayOp) :
    answer q.id (op, (s.step op).1) = none := by
  cases op with
  | respond session response =>
    obtain ⟨id, raw⟩ := response
    by_cases hid : id = q.id
    · subst hid
      rw [(respond_after_run s q qs h hq session raw).2 fun hboth => hnot hboth.1]
      rfl
    · exact answer_of_ne hid _
  | _ => rfl

end

end ClockedRelay

namespace Relay

/-- How a request stands to which `first` was the first answer that was accepted, and whose ticket
has reported `told`. -/
inductive Standing (r : Relay) (q : Accepted) : Option Bytes → Option Outcome → Prop
  | waits : r.Waits q → r.Standing q none none
  | laidDown (o : Outcome) : r.tickets.get? q.ticket = some (q.ticketEntry (.resolved o)) →
    o.IsEnd → r.Standing q o.toOption none
  | told (o : Outcome) : r.tickets.get? q.ticket = none → o.IsEnd →
    r.Standing q o.toOption (some o)

/-- What a ticket has reported is the first answer that was accepted, or an error if there is
none. -/
theorem Standing.of_told {r : Relay} {q : Accepted} {first : Option Bytes} {o : Outcome}
    (h : r.Standing q first (some o)) : first = o.toOption ∧ o.IsEnd := by
  cases h with
  | told o hgone hend => exact ⟨rfl, hend⟩

/-- A request whose ticket is gone does not wait. -/
theorem not_waits_of_gone {r : Relay} {q : Accepted} (hgone : r.tickets.get? q.ticket = none) :
    ¬r.Waits q := by
  intro hwaits
  rw [hwaits.ticket] at hgone
  cases hgone

theorem not_waits_of_laidDown {r : Relay} {q : Accepted} {o : Outcome}
    (ht : r.tickets.get? q.ticket = some (q.ticketEntry (.resolved o))) : ¬r.Waits q := by
  intro hwaits
  rw [hwaits.ticket] at ht
  cases ht

end Relay

namespace ClockedRelay

/-- An operation keeps account of a request whose ticket is not given up before it has reported. -/
theorem standing_step (s : ClockedRelay) (qs : List Accepted) (h : s.relay.Consistent qs)
    (q : Accepted) (hq : q ∈ qs) {first : Option Bytes} {told : Option Outcome}
    (hstanding : s.relay.Standing q first told) (op : RelayOp)
    (hfew : (qs ++ (s.accepts op).toList).length < UInt32.size)
    (hkept : told = none → op ≠ .abandon q.ticket) :
    (s.step op).2.relay.Standing q (first.or (answer q.id (op, (s.step op).1)))
      (told.or (reported q.ticket (op, (s.step op).1))) := by
  have hstep := s.consistent_step qs op h hfew
  have hq' := List.mem_append_left (s.accepts op).toList hq
  cases hstanding with
  | waits hwaits =>
    rw [answer_of_waits s h q hq hwaits op, Option.none_or, Option.none_or]
    by_cases hpoll : op = .poll q.ticket
    · subst hpoll
      obtain ⟨hanswer, ⟨hsome, hforgets⟩ | ⟨hnone, hsame⟩⟩ := poll_step s qs h q hq _ hwaits.ticket
      · obtain ⟨o, ho⟩ := Option.ne_none_iff_exists'.1 hsome
        rw [hanswer, reported_poll, ho]
        have hverdict : s.verdict q (.poll q.ticket) = some o := ho
        rw [hverdict]
        exact .told o ((hforgets.tickets q.ticket).trans (if_pos rfl))
          (isEnd_of_verdict s q _ o hverdict)
      · rw [hanswer, reported_poll, hnone, hsame]
        have hverdict : s.verdict q (.poll q.ticket) = none := hnone
        rw [hverdict]
        exact .waits hwaits
    · rw [reported_of_ne q.ticket op _ hpoll]
      have hticket := ticket_step s qs h q hq op hpoll (hkept rfl)
      rw [hwaits.ticket] at hticket
      cases hverdict : s.verdict q op with
      | none =>
        rw [hverdict] at hticket
        exact .waits ((waits_iff _ _ hstep q hq').2 ⟨_, hticket, rfl⟩)
      | some o =>
        rw [hverdict] at hticket
        exact .laidDown o hticket (isEnd_of_verdict s q op o hverdict)
  | laidDown o ht hend =>
    rw [answer_of_not_waits s h q hq (Relay.not_waits_of_laidDown ht) op, Option.or_none,
      Option.none_or]
    by_cases hpoll : op = .poll q.ticket
    · subst hpoll
      obtain ⟨hreport, hforgets⟩ := Relay.poll_of_resolved h q hq o ht s.now
      have hanswer : (s.step (.poll q.ticket)).1 = .polled (some o) := congrArg _ hreport
      rw [hanswer, reported_poll]
      exact .told o ((hforgets.tickets q.ticket).trans (if_pos rfl)) hend
    · rw [reported_of_ne q.ticket op _ hpoll]
      refine .laidDown o ?_ hend
      rw [ticket_step s qs h q hq op hpoll (hkept rfl), ht]
      rfl
  | told o hgone hend =>
    rw [answer_of_not_waits s h q hq (Relay.not_waits_of_gone hgone) op, Option.or_none]
    exact .told o (gone_step s qs h q hq op hgone) hend

end ClockedRelay

end SigningGateway
