import Mathlib.Algebra.BigOperators.Group.List.Basic
import Mathlib.Algebra.GroupWithZero.Nat
import SigningGateway.Table

/-!
# Sums over tables

A sum over the entries of a table changes as the one entry does that is set or erased.

    total (t.set k v) + share of k before = total t + count v                         (total_set)
    total (t.erase k) + share of k before = total t                                 (total_erase)
-/

namespace SigningGateway

namespace Table

variable {κ α : Type} [DecidableEq κ]

/-! ## Setting and erasing an entry -/

omit [DecidableEq κ] in
theorem total_eq_sum (t : Table κ α) (count : α → Nat) :
    t.total count = (t.values.map count).sum := rfl

/-- What the entry of a key adds to a sum. -/
def share (t : Table κ α) (count : α → Nat) (k : κ) : Nat := ((t.get? k).map count).getD 0

theorem sum_filter (entries : List (κ × α)) (count : α → Nat) (k : κ)
    (h : (entries.map Prod.fst).Nodup) :
    (((entries.filter fun e => decide (e.1 ≠ k)).map Prod.snd).map count).sum +
        ((lookup entries k).map count).getD 0 =
      ((entries.map Prod.snd).map count).sum := by
  induction entries with
  | nil => rfl
  | cons e rest ih =>
    rw [List.map_cons, List.nodup_cons] at h
    have hrest := ih h.2
    by_cases hk : e.1 = k
    · subst hk
      rw [lookup_eq_none rest e.1 h.1] at hrest
      rw [List.filter_cons_of_neg (by simp), lookup, if_pos rfl, List.map_cons, List.map_cons,
        List.sum_cons, ← hrest]
      exact Nat.add_comm _ _
    · rw [List.filter_cons_of_pos (by simpa using hk), lookup, if_neg hk]
      simp only [List.map_cons, List.sum_cons, Nat.add_assoc, hrest]

theorem total_erase (t : Table κ α) (count : α → Nat) (k : κ) :
    (t.erase k).total count + t.share count k = t.total count :=
  sum_filter t.entries count k t.nodup_keys

theorem total_set (t : Table κ α) (count : α → Nat) (k : κ) (v : α) :
    (t.set k v).total count + t.share count k = t.total count + count v := by
  have herase := total_erase t count k
  have hset : (t.set k v).total count = (t.erase k).total count + count v := by
    simp only [total_eq_sum, values, set, List.map_append, List.map_cons, List.map_nil,
      List.sum_append, List.sum_singleton]
  omega

theorem share_of_get? (t : Table κ α) (count : α → Nat) (k : κ) (v : α) (h : t.get? k = some v) :
    t.share count k = count v := by
  rw [share, h]
  rfl

theorem share_of_none (t : Table κ α) (count : α → Nat) (k : κ) (h : t.get? k = none) :
    t.share count k = 0 := by
  rw [share, h]
  rfl

/-! ## Comparing sums -/

/-- A sum depends only on what is counted of the entries. -/
theorem total_congr (t : Table κ α) (count count' : α → Nat)
    (h : ∀ k v, t.get? k = some v → count v = count' v) : t.total count = t.total count' := by
  have hmem : ∀ v ∈ t.values, count v = count' v := by
    intro v hv
    obtain ⟨⟨k, v'⟩, he, rfl⟩ := List.mem_map.1 hv
    exact h k v' ((t.get?_eq_some_iff k v').2 he)
  rw [total, total, List.map_congr_left hmem]

/-- A table without entries counts nothing. -/
theorem total_eq_zero (t : Table κ α) (count : α → Nat) (h : ∀ k, t.get? k = none) :
    t.total count = 0 := by
  have hcongr : t.total count = t.total fun _ => 0 := by
    apply t.total_congr
    intro k v hv
    rw [h k] at hv
    cases hv
  rw [hcongr, total_eq_sum, List.map_const', List.sum_const_nat, Nat.mul_zero]

omit [DecidableEq κ] in
theorem size_eq_total (t : Table κ α) : t.size = t.total fun _ => 1 := by
  rw [total_eq_sum, List.map_const', List.sum_const_nat, Nat.mul_one, values, List.length_map, size]

/-- A sum over a table counts a list if each entry counts the part of the list under its key. -/
theorem total_eq_length {β : Type} (t : Table κ α) (count : α → Nat)
    (key : β → κ) (xs : List β)
    (hcount : ∀ k v, t.get? k = some v → count v = (xs.filter fun x => key x = k).length)
    (hkeys : ∀ x ∈ xs, key x ∈ t.keys) : t.total count = xs.length := by
  have hentries : ∀ (entries : List (κ × α)) (ys : List β), (entries.map Prod.fst).Nodup →
      (∀ e ∈ entries, count e.2 = (ys.filter fun y => key y = e.1).length) →
      (∀ y ∈ ys, key y ∈ entries.map Prod.fst) →
      ((entries.map Prod.snd).map count).sum = ys.length := by
    intro entries
    induction entries with
    | nil =>
      intro ys _ _ hin
      cases ys with
      | nil => rfl
      | cons y ys => cases hin y List.mem_cons_self
    | cons e rest ih =>
      intro ys hnodup heach hin
      rw [List.map_cons, List.nodup_cons] at hnodup
      -- the rest of the table counts what is not under the first key
      have hrest := ih (ys.filter fun y => !decide (key y = e.1)) hnodup.2 (by
        intro e' he'
        rw [heach e' (List.mem_cons_of_mem _ he'), List.filter_filter]
        congr 1
        apply List.filter_congr
        intro y _
        have hne : e'.1 ≠ e.1 := fun heq => hnodup.1 (List.mem_map.2 ⟨e', he', heq⟩)
        by_cases hy : key y = e'.1 <;> simp [hy, hne]) (by
        intro y hy
        rw [List.mem_filter] at hy
        simpa [by simpa using hy.2] using hin y hy.1)
      have hsplit : ys.length = (ys.filter fun y => decide (key y = e.1)).length +
          (ys.filter fun y => !decide (key y = e.1)).length := by
        rw [← List.countP_eq_length_filter, ← List.countP_eq_length_filter,
          List.length_eq_countP_add_countP fun y => decide (key y = e.1)]
        simp
      rw [List.map_cons, List.map_cons, List.sum_cons, hrest, heach e List.mem_cons_self, hsplit]
  exact hentries t.entries xs t.nodup_keys
    (fun e he => hcount e.1 e.2 ((t.get?_eq_some_iff e.1 e.2).2 he)) hkeys

end Table

end SigningGateway
