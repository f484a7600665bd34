import SigningGateway.Proofs.Relay.Entering

/-!
# The invariant of a run

Every operation keeps the relay consistent with the requests that it has accepted, and so does every
run that accepts fewer requests than there are ids.

    (qs ++ accepted ops).length < UInt32.size → Consistent qs s.relay →
      Consistent (qs ++ accepted ops) (s.run ops).relay                            (consistent_run)
-/

namespace SigningGateway

namespace ClockedRelay

/-- A submission that is not accepted changes nothing. -/
theorem step_submit_of_not_accepts (s : ClockedRelay) (stream : Nat)
    (dbid capabilities : UInt64) (raw : Bytes)
    (h : s.accepts (.submit stream dbid capabilities raw) = none) :
    (s.step (.submit stream dbid capabilities raw)).2 = s := by
  simp only [step]
  split
  · next ticket id relay hsubmit =>
    exfalso
    have hsubmit' := hsubmit
    simp only [Relay.submit] at hsubmit
    split at hsubmit
    · cases hsubmit
    · next opened hopened =>
      simp [accepts, hopened, hsubmit'] at h
  · rfl

/-- An operation that accepts a request enters it. -/
theorem enters_of_accepts (s : ClockedRelay) (op : RelayOp) (q : Accepted)
    (haccepts : s.accepts op = some q) :
    s.relay.Enters s.now q ∧ (s.step op).2.relay = s.relay.enter s.now q := by
  obtain ⟨opened, hopened, hclosed, hnode, hdeadline, hdispatch⟩ := s.accepts_eq_some op q haccepts
  have hnumbers := congrArg Prod.fst hdispatch
  refine ⟨⟨congrArg Prod.fst hnumbers, congrArg Prod.snd hnumbers, hdeadline, ?_⟩,
    congrArg Prod.snd hdispatch⟩
  rw [hopened, ← hnode, ← hclosed]

/-- An operation keeps the invariant; a request that it has accepted joins the others. -/
theorem consistent_step (s : ClockedRelay) (qs : List Accepted) (op : RelayOp)
    (h : s.relay.Consistent qs)
    (hfew : (qs ++ (s.accepts op).toList).length < UInt32.size) :
    (s.step op).2.relay.Consistent (qs ++ (s.accepts op).toList) := by
  cases haccepts : s.accepts op with
  | some q =>
    rw [haccepts] at hfew
    obtain ⟨henters, hrelay⟩ := s.enters_of_accepts op q haccepts
    rw [hrelay]
    exact Relay.consistent_enter h (by simpa using hfew) s.now q henters
  | none =>
    rw [Option.toList_none, List.append_nil]
    cases op with
    | openStream node => exact Relay.consistent_openStream h node
    | closeStream stream => exact Relay.consistent_closeStream h stream
    | dropStream stream => exact Relay.consistent_dropStream h stream
    | submit stream dbid capabilities raw =>
      rw [s.step_submit_of_not_accepts stream dbid capabilities raw haccepts]
      exact h
    | grant stream dbid capabilities =>
      simp only [step]
      split
      · next relay hgrant => exact Relay.consistent_grant h relay stream dbid capabilities hgrant
      · exact h
    | attach node => exact Relay.consistent_attach h node
    | take session count => exact Relay.consistent_take h session count
    | respond session response =>
      simp only [step]
      split
      · next relay hok => exact Relay.consistent_respond h relay session response hok
      · exact h
    | detach session => exact Relay.consistent_detach h session
    | poll ticket => exact Relay.consistent_poll h s.now ticket
    | abandon ticket => exact Relay.consistent_abandon h ticket
    | sweep => exact Relay.consistent_sweep h s.now
    | advance duration => exact h

/-- A run keeps the invariant as long as ids are not given out twice. -/
theorem consistent_run (s : ClockedRelay) (qs : List Accepted) (ops : List RelayOp)
    (h : s.relay.Consistent qs) (hfew : (qs ++ s.accepted ops).length < UInt32.size) :
    (s.run ops).relay.Consistent (qs ++ s.accepted ops) := by
  induction ops generalizing s qs with
  | nil =>
    rw [accepted, List.append_nil]
    exact h
  | cons op ops ih =>
    rw [accepted, ← List.append_assoc] at hfew ⊢
    apply ih
    · apply s.consistent_step qs op h
      rw [List.length_append] at hfew
      omega
    · exact hfew

end ClockedRelay

end SigningGateway
