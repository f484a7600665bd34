import SigningGateway.Auth.Authenticator

/-!
# What the parts of a call do

A check of a challenge passes just if the challenge is live, its time is not over and it was not
used up.  Apart from its answer it changes nothing that matters: it may drop a challenge whose time
is over.  A cleanup drops no more than that, and used challenges, which only tell replays.

    check passes ↔ not used ∧ live ∧ now < expiry                           (checkChallenge_ok_iff)
-/

namespace SigningGateway

namespace Authenticator

/-! ## Dropping what is over -/

/-- At the time `now` some challenges that are over were dropped, some used ones forgotten and some
locks changed, and nothing else. -/
structure Sheds (now : Nat) (a a' : Authenticator) : Prop where
  settings : a'.settings = a.settings
  store : a'.store = a.store
  verifier : a'.verifier = a.verifier
  live : ∀ key c, a'.live.get? key = some c → a.live.get? key = some c
  kept : ∀ key c, a.live.get? key = some c → now < c.expiresAt → a'.live.get? key = some c
  used : ∀ value, a'.used.contains value = true → a.used.contains value = true

theorem Sheds.refl (now : Nat) (a : Authenticator) : Sheds now a a :=
  ⟨rfl, rfl, rfl, fun _ _ h => h, fun _ _ h _ => h, fun _ h => h⟩

theorem Sheds.lock {now : Nat} {a a' : Authenticator} (h : Sheds now a a') (node : NodeId)
    (held : Bool) : Sheds now a (a'.lock node held) :=
  ⟨h.settings, h.store, h.verifier, h.live, h.kept, h.used⟩

theorem sheds_cleanup (a : Authenticator) (now : Nat) : Sheds now a (a.cleanup now) where
  settings := rfl
  store := rfl
  verifier := rfl
  live := by
    intro key c h
    rw [cleanup, Table.get?_filter] at h
    exact (Option.filter_eq_some_iff.1 h).1
  kept := by
    intro key c h hnow
    rw [cleanup, Table.get?_filter, h]
    simp [Challenge.isExpired, hnow]
  used := by
    intro value h
    rw [Table.contains, cleanup, Table.get?_filter] at h
    rw [Table.contains]
    cases hget : a.used.get? value with
    | none =>
      rw [hget] at h
      cases h
    | some u => rfl

/-! ## Checking a challenge -/

/-- A challenge passes just if it was not used up and is the live one, and its time is not over. -/
theorem checkChallenge_ok_iff (a : Authenticator) (now : Nat) (node : NodeId) (scope : Scope)
    (presented : Bytes) :
    (a.checkChallenge now node scope presented).1 = .ok () ↔
      a.used.contains presented = false ∧ presented.length = challengeSize ∧
        ∃ c, a.live.get? (node, scope) = some c ∧ c.value = presented ∧ now < c.expiresAt := by
  unfold checkChallenge
  by_cases hlength : presented.length = challengeSize
  · cases hused : a.used.contains presented with
    | true => simp [hlength]
    | false =>
      cases hlive : a.live.get? (node, scope) with
      | none => simp [hlength]
      | some c =>
        by_cases hvalue : presented = c.value
        · have hlength' : c.value.length = challengeSize := hvalue ▸ hlength
          by_cases hnow : now < c.expiresAt
          · have hlive' : ¬c.expiresAt ≤ now := by omega
            simp [hvalue, hlength', Challenge.isExpired, hnow, hlive']
          · have hover : c.expiresAt ≤ now := by omega
            simp [hvalue, hlength', Challenge.isExpired, hnow, hover]
        · simp [hlength, hvalue, Ne.symm hvalue]
  · cases hlive : a.live.get? (node, scope) with
    | none => simp [hlength]
    | some c => simp [hlength]

/-- A check drops no more than a challenge whose time is over. -/
theorem sheds_checkChallenge (a : Authenticator) (now : Nat) (node : NodeId) (scope : Scope)
    (presented : Bytes) : Sheds now a (a.checkChallenge now node scope presented).2 := by
  unfold checkChallenge
  split
  · exact .refl now a
  · split
    · exact .refl now a
    · next c hlive =>
      split
      · exact .refl now a
      · split
        · next hexpired =>
          refine ⟨rfl, rfl, rfl, ?_, ?_, fun _ h => h⟩
          · intro key c' h
            rw [Table.get?_erase] at h
            split at h
            · cases h
            · exact h
          · intro key c' h hnow
            rw [Table.get?_erase]
            split
            · next hkey =>
              subst hkey
              rw [hlive] at h
              obtain rfl := Option.some.inj h
              rw [Challenge.isExpired, decide_eq_true_eq] at hexpired
              omega
            · exact h
        · exact .refl now a

/-- A check that passes changes nothing. -/
theorem checkChallenge_of_ok (a : Authenticator) (now : Nat) (node : NodeId) (scope : Scope)
    (presented : Bytes) (h : (a.checkChallenge now node scope presented).1 = .ok ()) :
    a.checkChallenge now node scope presented = (.ok (), a) := by
  unfold checkChallenge at h ⊢
  split at h
  · cases h
  · next hreplay =>
    rw [if_neg hreplay]
    split at h
    · cases h
    · next c hlive =>
      split at h
      · cases h
      · next hmatch =>
        split at h
        · cases h
        · next hexpired => rw [if_neg hmatch, if_neg hexpired]

/-! ## The halves of a call -/

/-- A call is admitted just if its challenge and its signature pass; otherwise it changes nothing
that matters. -/
theorem prepare_cases (a : Authenticator) (clock : Clock) (node : NodeId) (scope : Scope)
    (metadata : Option Metadata) (challenge message signature : Bytes) (name : String)
    (e : Entropy) :
    (((a.checkChallenge clock.steady node scope challenge).1 = .ok () ∧
          a.verifier node message signature = .ok ()) ∧
        a.prepare clock node scope metadata challenge message signature name e =
          ((.ok (a.mint clock node scope metadata name e).1, a.lock node true),
            (a.mint clock node scope metadata name e).2)) ∨
      (¬((a.checkChallenge clock.steady node scope challenge).1 = .ok () ∧
          a.verifier node message signature = .ok ()) ∧
        ∃ cause a', a.prepare clock node scope metadata challenge message signature name e =
          ((.error cause, a'), e) ∧ Sheds clock.steady a a') := by
  have hsheds := sheds_checkChallenge a clock.steady node scope challenge
  rcases hcheck : a.checkChallenge clock.steady node scope challenge with ⟨cause | _, a'⟩
  · right
    rw [hcheck] at hsheds
    refine ⟨?_, cause, a'.lock node false, ?_, hsheds.lock node false⟩
    · rintro ⟨h, -⟩
      cases h
    · simp only [prepare, hcheck]
  · have hpass := checkChallenge_of_ok a clock.steady node scope challenge (by rw [hcheck])
    rw [hcheck] at hpass
    obtain rfl : a' = a := congrArg Prod.snd hpass
    cases hverify : a'.verifier node message signature with
    | error cause =>
      right
      refine ⟨?_, cause, a'.lock node false, ?_, (Sheds.refl _ a').lock _ _⟩
      · rintro ⟨-, h⟩
        cases h
      · simp only [prepare, hcheck, hverify]
    | ok _ =>
      left
      refine ⟨⟨rfl, rfl⟩, ?_⟩
      simp only [prepare, hcheck, hverify]

/-- What a write to the store leaves registered. -/
theorem isRegistered_commit (s store : Store) (fault : Option WriteFault) (node : NodeId)
    (change : Option Registration → Except Error Registration)
    (h : s.commit fault node change = .ok store) :
    (∃ r, change (s.registration node) = .ok r) ∧
      ∀ n, store.isRegistered n = true ↔ n = node ∨ s.isRegistered n = true := by
  cases hchange : change (s.registration node) with
  | error cause =>
    rw [Store.commit, hchange] at h
    cases h
  | ok r =>
    refine ⟨⟨r, rfl⟩, ?_⟩
    have hset : store.registrations = s.registrations.set node r := by
      simp only [Store.commit, hchange, bind, Except.bind] at h
      split at h
      · rw [← Except.ok.inj h]
      · split at h
        · rw [← Except.ok.inj h]
        · cases h
    intro n
    rw [Store.isRegistered, Store.isRegistered, Table.contains, Table.contains, hset,
      Table.get?_set]
    by_cases hn : n = node <;> simp [hn]

/-- Only a registered node has its recovery recorded, and recording makes a node registered. -/
theorem isRegistered_record (a : Authenticator) (fault : Option WriteFault) (now : Moment)
    (admission : Admission) (store : Store) (h : a.record fault now admission = .ok store) :
    (admission.metadata = none → a.store.isRegistered admission.node = true) ∧
      ∀ n, store.isRegistered n = true ↔
        n = admission.node ∨ a.store.isRegistered n = true := by
  unfold record at h
  split at h
  · next metadata hmetadata =>
    refine ⟨?_, (isRegistered_commit _ _ _ _ _ h).2⟩
    intro hnone
    rw [hmetadata] at hnone
    cases hnone
  · obtain ⟨⟨r, hr⟩, hregistered⟩ := isRegistered_commit _ _ _ _ _ h
    refine ⟨fun _ => ?_, hregistered⟩
    rw [Store.isRegistered, Table.contains]
    rw [Store.registration] at hr
    cases hget : a.store.registrations.get? admission.node with
    | none =>
      rw [hget] at hr
      cases hr
    | some _ => rfl

/-! ## Using a challenge up -/

theorem useChallenge_frame (a : Authenticator) (now : Nat) (node : NodeId) (scope : Scope) :
    (a.useChallenge now node scope).settings = a.settings ∧
      (a.useChallenge now node scope).store = a.store ∧
      (a.useChallenge now node scope).verifier = a.verifier := by
  unfold useChallenge
  split <;> exact ⟨rfl, rfl, rfl⟩

theorem get?_live_useChallenge (a : Authenticator) (now : Nat) (node : NodeId) (scope : Scope)
    (key : NodeId × Scope) :
    (a.useChallenge now node scope).live.get? key =
      if key = (node, scope) then none else a.live.get? key := by
  unfold useChallenge
  split
  · next hnone =>
    split
    · next hkey => rw [hkey, hnone]
    · rfl
  · exact Table.get?_erase _ _ _

theorem used_useChallenge (a : Authenticator) (now : Nat) (node : NodeId) (scope : Scope)
    (value : Bytes) (h : (a.useChallenge now node scope).used.contains value = true) :
    a.used.contains value = true ∨
      ∃ c, a.live.get? (node, scope) = some c ∧ c.value = value := by
  unfold useChallenge at h
  split at h
  · exact Or.inl h
  · next c hc =>
    rw [Table.contains, Table.get?_set] at h
    split at h
    · next hvalue => exact Or.inr ⟨c, hc, hvalue.symm⟩
    · exact Or.inl h

end Authenticator

end SigningGateway
