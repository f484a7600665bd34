import Mathlib.Data.List.Nodup
import SigningGateway.Launch.PortPool

/-!
# The walk through the ports

Counted from the low end, the ports of the range are numbered below its span, and the walk goes from
number to number modulo the span: from whatever the counter holds, inside the range or not, as many
steps as there are ports meet each port once.  So a lease is refused just if no port is free.

    number of the port after a step = (number + 1) % span                         (place_walk)
    lease = none ↔ every port of the range is leased                      (lease_eq_none_iff)
-/

namespace SigningGateway

namespace PortPool

variable (p : PortPool)

/-! ## Ports by their numbers -/

/-- The port of a number, counted from the low end and around. -/
def portAt (k : Nat) : UInt16 := p.low + UInt16.ofNat (k % p.span)

/-- The number of the port that the walk takes next. -/
def place : Nat := if p.inRange p.next then p.next.toNat - p.low.toNat else 0

/-- The range holds a port at least. -/
def IsRange : Prop := p.low ≤ p.high

theorem inRange_iff (port : UInt16) :
    p.inRange port = true ↔ p.low.toNat ≤ port.toNat ∧ port.toNat ≤ p.high.toNat := by
  rw [inRange, Bool.and_eq_true, decide_eq_true_eq, decide_eq_true_eq, UInt16.le_iff_toNat_le,
    UInt16.le_iff_toNat_le]

theorem span_pos : 0 < p.span := Nat.succ_pos _

section
variable {p : PortPool} (h : p.IsRange)
include h

theorem IsRange.toNat_le : p.low.toNat ≤ p.high.toNat := UInt16.le_iff_toNat_le.1 h

theorem IsRange.span_eq : p.span = p.high.toNat - p.low.toNat + 1 := by
  rw [span, UInt16.toNat_sub_of_le _ _ h]

theorem IsRange.toNat_portAt (k : Nat) : (p.portAt k).toNat = p.low.toNat + k % p.span := by
  have hk := Nat.mod_lt k p.span_pos
  have hle := h.toNat_le
  have hhigh := p.high.toNat_lt
  have hspan := h.span_eq
  rw [portAt, UInt16.toNat_add, UInt16.toNat_ofNat_of_lt' (by simp only [UInt16.size]; omega)]
  exact Nat.mod_eq_of_lt (by omega)

theorem IsRange.inRange_portAt (k : Nat) : p.inRange (p.portAt k) = true := by
  have hk := Nat.mod_lt k p.span_pos
  have hle := h.toNat_le
  have hspan := h.span_eq
  rw [inRange_iff, h.toNat_portAt]
  omega

theorem IsRange.portAt_of_inRange (port : UInt16) (hport : p.inRange port = true) :
    p.portAt (port.toNat - p.low.toNat) = port := by
  rw [inRange_iff] at hport
  have hspan := h.span_eq
  apply UInt16.toNat_inj.1
  rw [h.toNat_portAt, Nat.mod_eq_of_lt (by omega)]
  omega

theorem IsRange.place_lt : p.place < p.span := by
  have hspan := h.span_eq
  unfold place
  split
  · next hnext =>
    have := (p.inRange_iff _).1 hnext
    omega
  · exact p.span_pos

/-! ## The walk -/

theorem IsRange.walk_eq :
    p.walk = (p.portAt p.place, { p with next := p.portAt p.place + 1 }) := by
  have hport : (if p.inRange p.next then p.next else p.low) = p.portAt p.place := by
    unfold place
    split
    · next hnext => exact (h.portAt_of_inRange _ hnext).symm
    · simp [portAt, Nat.zero_mod]
  rw [walk, hport]

/-- A step of the walk goes to the next number.  Behind the last port of all the counter starts over
at zero, which lies in the range only as its first port. -/
theorem IsRange.place_walk : p.walk.2.place = (p.place + 1) % p.span := by
  have hle := h.toNat_le
  have hspan := h.span_eq
  have hplace := h.place_lt
  have hhigh := p.high.toNat_lt
  have hnext : (p.portAt p.place + 1).toNat = (p.low.toNat + p.place + 1) % 65536 := by
    rw [UInt16.toNat_add, h.toNat_portAt, Nat.mod_eq_of_lt hplace]
    rfl
  have hin := { p with next := p.portAt p.place + 1 }.inRange_iff (p.portAt p.place + 1)
  rw [h.walk_eq]
  obtain hmore | hlast : p.place + 1 < p.span ∨ p.place + 1 = p.span := by omega
  · rw [Nat.mod_eq_of_lt hmore, place, if_pos (hin.2 (by dsimp only; omega))]
    dsimp only
    omega
  · rw [hlast, Nat.mod_self, place]
    split
    · next hagain =>
      have := hin.1 hagain
      dsimp only at this ⊢
      omega
    · rfl

/-! ## Leases -/

/-- The numbers mean the same ports after a step. -/
theorem IsRange.portAt_walk (k : Nat) :
    p.walk.2.portAt (p.walk.2.place + k) = p.portAt (p.place + (k + 1)) := by
  rw [h.place_walk]
  show p.portAt _ = _
  rw [portAt, portAt, Nat.mod_add_mod, Nat.add_assoc, Nat.add_comm 1 k]

/-- The tries end at the first free port of the walk, or each of them meets a leased port. -/
theorem IsRange.leaseAmong_spec (tries : Nat) (node : NodeId) :
    (∃ k < tries, p.leases.contains (p.portAt (p.place + k)) = false ∧ ∃ next,
        leaseAmong tries p node = (some (p.portAt (p.place + k)),
          { p with next, leases := p.leases.set (p.portAt (p.place + k)) node })) ∨
      ((∀ k < tries, p.leases.contains (p.portAt (p.place + k)) = true) ∧ ∃ next,
        leaseAmong tries p node = (none, { p with next })) := by
  induction tries generalizing p with
  | zero => exact Or.inr ⟨fun k hk => absurd hk (Nat.not_lt_zero k), p.next, rfl⟩
  | succ tries ih =>
    have hwalk := h.walk_eq
    have hshift := h.portAt_walk
    cases hport : p.leases.contains (p.portAt p.place) with
    | false =>
      refine Or.inl ⟨0, Nat.succ_pos _, hport, p.portAt p.place + 1, ?_⟩
      simp only [leaseAmong, hwalk, hport, Bool.false_eq_true, if_false, Nat.add_zero]
    | true =>
      have hstep : leaseAmong (tries + 1) p node = leaseAmong tries p.walk.2 node := by
        simp only [leaseAmong, hwalk, hport, if_true]
      rw [hstep]
      rcases ih (p := p.walk.2) h with ⟨k, hk, hfree, next, heq⟩ | ⟨hall, next, heq⟩
      · rw [hshift] at hfree heq
        exact Or.inl ⟨k + 1, Nat.succ_lt_succ hk, hfree, next, heq⟩
      · refine Or.inr ⟨fun k hk => ?_, next, heq⟩
        cases k with
        | zero => exact hport
        | succ k =>
          rw [← hshift]
          exact hall k (Nat.lt_of_succ_lt_succ hk)

/-- As many steps as there are ports meet every port. -/
theorem IsRange.met_of_inRange (port : UInt16) (hport : p.inRange port = true) :
    ∃ k < p.span, p.portAt (p.place + k) = port := by
  have hplace := h.place_lt
  have hspan := h.span_eq
  have hin := (p.inRange_iff port).1 hport
  refine ⟨(port.toNat - p.low.toNat + (p.span - p.place)) % p.span, Nat.mod_lt _ p.span_pos, ?_⟩
  have hback : p.place + (port.toNat - p.low.toNat + (p.span - p.place)) =
      port.toNat - p.low.toNat + p.span := by omega
  rw [portAt, Nat.add_mod_mod, hback, Nat.add_mod_right]
  exact h.portAt_of_inRange port hport

/-- A lease is refused, or takes a free port of the range and leaves the others alone. -/
theorem IsRange.lease_cases (node : NodeId) :
    (∃ port next, p.inRange port = true ∧ p.leases.contains port = false ∧
        p.lease node = (some port, { p with next, leases := p.leases.set port node })) ∨
      ((∀ port, p.inRange port = true → p.leases.contains port = true) ∧
        ∃ next, p.lease node = (none, { p with next })) := by
  rcases h.leaseAmong_spec p.span node with ⟨k, -, hfree, next, heq⟩ | ⟨hall, next, heq⟩
  · exact Or.inl ⟨_, next, h.inRange_portAt _, hfree, heq⟩
  · refine Or.inr ⟨fun port hport => ?_, next, heq⟩
    obtain ⟨k, hk, rfl⟩ := h.met_of_inRange port hport
    exact hall k hk

/-- No port is leased just if all of them are. -/
theorem IsRange.lease_eq_none_iff (node : NodeId) :
    (p.lease node).1 = none ↔ ∀ port, p.inRange port = true → p.leases.contains port = true := by
  rcases h.lease_cases node with ⟨port, next, hport, hfree, heq⟩ | ⟨hall, next, heq⟩
  · simp only [heq, reduceCtorEq, false_iff, not_forall]
    exact ⟨port, hport, by simp [hfree]⟩
  · simp only [heq, true_iff]
    exact hall

end

end PortPool

end SigningGateway
