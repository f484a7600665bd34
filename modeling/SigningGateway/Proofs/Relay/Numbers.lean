import SigningGateway.Proofs.Relay.Delivery
import SigningGateway.Proofs.Relay.Grants

/-!
# The numbers of streams and sessions

Streams and sessions are numbered as they come, and a number is never given out again, whatever
becomes of the ids of requests.

    Numbered s.relay → Numbered (s.step op).2.relay                              (numbered_step)
-/

namespace SigningGateway

namespace Relay

/-- Every stream and every session has a number that was given out. -/
structure Numbered (r : Relay) : Prop where
  streams : ∀ stream e, r.streams.get? stream = some e → stream < r.nextStream
  sessions : ∀ session e, r.sessions.get? session = some e → session < r.nextSession

theorem numbered_start (settings : RelaySettings) : (start settings).Numbered where
  streams := by intro stream e h; cases h
  sessions := by intro session e h; cases h

theorem Numbered.free {r : Relay} (h : r.Numbered) :
    r.streams.get? r.nextStream = none ∧ r.sessions.get? r.nextSession = none := by
  constructor <;> rw [Option.eq_none_iff_forall_ne_some] <;> intro e he
  · exact Nat.lt_irrefl _ (h.streams _ e he)
  · exact Nat.lt_irrefl _ (h.sessions _ e he)

theorem numbered_openStream {r : Relay} (h : r.Numbered) (node : NodeId) :
    (r.openStream node).2.Numbered where
  streams := by
    intro stream e he
    have hget := (Table.get?_set _ _ _ _).symm.trans he
    split at hget
    · next hnew => exact hnew ▸ Nat.lt_succ_self _
    · exact Nat.lt_succ_of_lt (h.streams stream e hget)
  sessions := h.sessions

theorem numbered_attach {r : Relay} (h : r.Numbered) (node : NodeId) :
    (r.attach node).2.Numbered where
  streams := h.streams
  sessions := by
    intro session e he
    have hget := (Table.get?_set _ _ _ _).symm.trans he
    split at hget
    · next hnew => exact hnew ▸ Nat.lt_succ_self _
    · exact Nat.lt_succ_of_lt (h.sessions session e hget)

/-- Streams and sessions that only change or go keep their numbers. -/
theorem Numbered.shrink {r : Relay} (h : r.Numbered) (r' : Relay)
    (hstreams : ∀ stream e, r'.streams.get? stream = some e → ∃ e₀, r.streams.get? stream = some e₀)
    (hsessions : ∀ session e, r'.sessions.get? session = some e →
      ∃ e₀, r.sessions.get? session = some e₀)
    (hnext : r'.nextStream = r.nextStream ∧ r'.nextSession = r.nextSession) : r'.Numbered where
  streams := by
    intro stream e he
    obtain ⟨e₀, he₀⟩ := hstreams stream e he
    exact hnext.1 ▸ h.streams stream e₀ he₀
  sessions := by
    intro session e he
    obtain ⟨e₀, he₀⟩ := hsessions session e he
    exact hnext.2 ▸ h.sessions session e₀ he₀

end Relay

namespace ClockedRelay

/-- Numbers are given out with new streams and sessions alone. -/
theorem numbers_step (s : ClockedRelay) (op : RelayOp) (hopen : ∀ node, op ≠ .openStream node)
    (hattach : ∀ node, op ≠ .attach node) :
    (s.step op).2.relay.nextStream = s.relay.nextStream ∧
      (s.step op).2.relay.nextSession = s.relay.nextSession := by
  cases op with
  | openStream node => exact absurd rfl (hopen node)
  | attach node => exact absurd rfl (hattach node)
  | closeStream stream =>
    obtain ⟨-, -, -, hsession, hstream, -⟩ := s.relay.closeStream_frame stream
    exact ⟨hstream, hsession⟩
  | dropStream stream =>
    obtain ⟨-, -, -, hsession, hstream, -⟩ := s.relay.closeStream_frame stream
    exact ⟨hstream, hsession⟩
  | submit stream dbid capabilities raw =>
    cases haccepts : s.accepts (.submit stream dbid capabilities raw) with
    | some q =>
      rw [(s.enters_of_accepts _ q haccepts).2]
      exact ⟨rfl, rfl⟩
    | none =>
      rw [s.step_submit_of_not_accepts stream dbid capabilities raw haccepts]
      exact ⟨rfl, rfl⟩
  | grant stream dbid capabilities =>
    simp only [step]
    split
    · next relay hgrant =>
      obtain ⟨grants, rfl⟩ := Relay.grant_eq_ok relay stream dbid capabilities hgrant
      exact ⟨rfl, rfl⟩
    · exact ⟨rfl, rfl⟩
  | take session count =>
    simp only [step, Relay.take]
    split <;> exact ⟨rfl, rfl⟩
  | respond session response =>
    simp only [step]
    split
    · next relay hok =>
      obtain ⟨-, rfl⟩ := (Relay.respond_eq_ok_iff _ _ _ _).1 hok
      exact ⟨rfl, rfl⟩
    · exact ⟨rfl, rfl⟩
  | detach session =>
    simp only [step, Relay.detach]
    split
    · exact ⟨rfl, rfl⟩
    · split
      · exact ⟨rfl, rfl⟩
      · split <;> exact ⟨rfl, rfl⟩
  | poll ticket =>
    simp only [step, Relay.poll]
    split
    · exact ⟨rfl, rfl⟩
    · split
      · exact ⟨rfl, rfl⟩
      · exact ⟨rfl, rfl⟩
      · split <;> exact ⟨rfl, rfl⟩
  | abandon ticket =>
    simp only [step, Relay.abandon]
    split <;> exact ⟨rfl, rfl⟩
  | sweep => exact ⟨rfl, rfl⟩
  | advance duration => exact ⟨rfl, rfl⟩

/-- A session after an operation was there before, or is a new one. -/
theorem session_of_step (s : ClockedRelay) (op : RelayOp) (hattach : ∀ node, op ≠ .attach node)
    (session : Nat) (e : SignerSession)
    (he : (s.step op).2.relay.sessions.get? session = some e) :
    ∃ e₀, s.relay.sessions.get? session = some e₀ := by
  cases haccepts : s.accepts op with
  | some q =>
    rw [(s.enters_of_accepts _ q haccepts).2, Relay.enter, Relay.get?_sessions_dispatch,
      Option.map_eq_some_iff] at he
    obtain ⟨e₀, he₀, -⟩ := he
    exact ⟨e₀, he₀⟩
  | none =>
    cases op with
    | attach node => exact absurd rfl (hattach node)
    | take taker count =>
      rw [step, Relay.get?_sessions_take, Option.map_eq_some_iff] at he
      obtain ⟨e₀, he₀, -⟩ := he
      exact ⟨e₀, he₀⟩
    | detach gone =>
      have hless : ∀ r : Relay, r.sessions = s.relay.sessions.erase gone →
          r.sessions.get? session = some e → ∃ e₀, s.relay.sessions.get? session = some e₀ := by
        intro r hr he
        rw [hr, Table.get?_erase] at he
        split at he
        · cases he
        · exact ⟨e, he⟩
      simp only [step, Relay.detach] at he
      split at he
      · exact ⟨e, he⟩
      · split at he
        · exact hless _ rfl he
        · split at he
          · exact hless _ rfl he
          · exact hless _ rfl he
    | _ =>
      rw [s.sessions_step _ haccepts (by simp) (by simp) (by simp)] at he
      exact ⟨e, he⟩

/-- Numbers are kept by every operation. -/
theorem numbered_step (s : ClockedRelay) (h : s.relay.Numbered) (op : RelayOp) :
    (s.step op).2.relay.Numbered := by
  by_cases hopen : ∃ node, op = .openStream node
  · obtain ⟨node, rfl⟩ := hopen
    exact Relay.numbered_openStream h node
  by_cases hattach : ∃ node, op = .attach node
  · obtain ⟨node, rfl⟩ := hattach
    exact Relay.numbered_attach h node
  have hopen' : ∀ node, op ≠ .openStream node := fun node heq => hopen ⟨node, heq⟩
  have hattach' : ∀ node, op ≠ .attach node := fun node heq => hattach ⟨node, heq⟩
  apply h.shrink _ _ (s.session_of_step op hattach') (s.numbers_step op hopen' hattach')
  intro stream e he
  rcases s.node_of_stream_step op stream e he with heq | ⟨before, hbefore, -⟩
  · exact absurd heq (hopen' e.node)
  · exact ⟨before, hbefore⟩

end ClockedRelay

end SigningGateway
