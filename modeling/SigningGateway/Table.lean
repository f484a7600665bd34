/-!
# Finite tables

A `Table` maps keys to values and remembers the order in which the keys were last set.  It is
read through `get?`:

    (t.set k v).get? k' = if k' = k then some v else t.get? k'       (get?_set)
    (t.erase k).get? k' = if k' = k then none else t.get? k'         (get?_erase)
-/

namespace SigningGateway

/-- A finite map with the keys in the order in which they were last set. -/
structure Table (κ α : Type) where
  entries : List (κ × α)
  nodup_keys : (entries.map Prod.fst).Nodup

namespace Table

variable {κ α : Type} [DecidableEq κ]

/-! ## Operations -/

def empty : Table κ α := ⟨[], by simp⟩

instance : Inhabited (Table κ α) := ⟨empty⟩

/-- The keys, the one set last at the end. -/
def keys (t : Table κ α) : List κ := t.entries.map Prod.fst

def values (t : Table κ α) : List α := t.entries.map Prod.snd

def total (t : Table κ α) (count : α → Nat) : Nat := (t.values.map count).foldr (· + ·) 0

def size (t : Table κ α) : Nat := t.entries.length

/-- The value of the first entry with a key. -/
def lookup : List (κ × α) → κ → Option α
  | [], _ => none
  | (k', v) :: rest, k => if k' = k then some v else lookup rest k

def get? (t : Table κ α) (k : κ) : Option α := lookup t.entries k

def contains (t : Table κ α) (k : κ) : Bool := (t.get? k).isSome

/-- Keeps the entries that pass a test. -/
def filter (t : Table κ α) (p : κ → α → Bool) : Table κ α :=
  ⟨t.entries.filter fun e => p e.1 e.2,
    t.nodup_keys.sublist ((List.filter_sublist).map Prod.fst)⟩

def erase (t : Table κ α) (k : κ) : Table κ α := t.filter fun k' _ => k' ≠ k

/-- Gives a key a value and makes it the last one. -/
def set (t : Table κ α) (k : κ) (v : α) : Table κ α :=
  ⟨(t.erase k).entries ++ [(k, v)], by
    rw [List.map_append, List.nodup_append]
    refine ⟨(t.erase k).nodup_keys, by simp, ?_⟩
    intro a ha b hb
    simp only [List.map_cons, List.map_nil, List.mem_singleton] at hb
    subst hb
    simp only [erase, filter, List.mem_map, List.mem_filter, decide_eq_true_eq, ne_eq] at ha
    obtain ⟨e, ⟨-, hne⟩, rfl⟩ := ha
    exact hne⟩

/-- Changes every value, keys and order kept. -/
def map (t : Table κ α) (f : κ → α → α) : Table κ α :=
  ⟨t.entries.map fun e => (e.1, f e.1 e.2), by
    have h := t.nodup_keys
    rw [List.map_map]
    exact h⟩

/-- Changes the value of a key in place, if it has one. -/
def modify (t : Table κ α) (k : κ) (f : α → α) : Table κ α :=
  t.map fun k' v => if k' = k then f v else v

/-! ## Lemmas -/

@[simp] theorem get?_empty (k : κ) : (empty : Table κ α).get? k = none := rfl

theorem lookup_eq_none (entries : List (κ × α)) (k : κ) (h : k ∉ entries.map Prod.fst) :
    lookup entries k = none := by
  induction entries with
  | nil => rfl
  | cons e rest ih =>
    simp only [List.map_cons, List.mem_cons, not_or] at h
    rw [lookup, if_neg (Ne.symm h.1), ih h.2]

theorem lookup_append (xs ys : List (κ × α)) (k : κ) :
    lookup (xs ++ ys) k = (lookup xs k).or (lookup ys k) := by
  induction xs with
  | nil => rfl
  | cons e rest ih => by_cases h : e.1 = k <;> simp [lookup, h, ih]

theorem lookup_filter (entries : List (κ × α)) (p : κ → α → Bool) (k : κ)
    (h : (entries.map Prod.fst).Nodup) :
    lookup (entries.filter fun e => p e.1 e.2) k = (lookup entries k).filter (p k) := by
  induction entries with
  | nil => rfl
  | cons e rest ih =>
    obtain ⟨k', v⟩ := e
    rw [List.map_cons, List.nodup_cons] at h
    have hrest := ih h.2
    by_cases hp : p k' v = true
    · rw [List.filter_cons_of_pos (by simpa using hp)]
      by_cases hk : k' = k
      · subst hk; simp [lookup, Option.filter, hp]
      · simp [lookup, hk, hrest]
    · rw [List.filter_cons_of_neg (by simpa using hp), hrest]
      by_cases hk : k' = k
      · subst hk; simp [lookup, lookup_eq_none rest k' h.1, Option.filter, hp]
      · simp [lookup, hk]

theorem get?_filter (t : Table κ α) (p : κ → α → Bool) (k : κ) :
    (t.filter p).get? k = (t.get? k).filter (p k) :=
  lookup_filter t.entries p k t.nodup_keys

theorem get?_erase (t : Table κ α) (k k' : κ) :
    (t.erase k).get? k' = if k' = k then none else t.get? k' := by
  rw [erase, get?_filter]
  by_cases h : k' = k
  · subst h; cases t.get? k' <;> simp
  · cases t.get? k' <;> simp [h]

theorem get?_set (t : Table κ α) (k k' : κ) (v : α) :
    (t.set k v).get? k' = if k' = k then some v else t.get? k' := by
  have herase := get?_erase t k k'
  unfold get? at herase ⊢
  rw [set, lookup_append, herase]
  by_cases h : k' = k
  · subst h; simp [lookup]
  · simp [lookup, h, Ne.symm h]

theorem get?_map (t : Table κ α) (f : κ → α → α) (k : κ) :
    (t.map f).get? k = (t.get? k).map (f k) := by
  simp only [get?, map]
  induction t.entries with
  | nil => rfl
  | cons e rest ih =>
    by_cases hk : e.1 = k
    · subst hk; simp [lookup]
    · simpa [lookup, hk] using ih

theorem get?_modify (t : Table κ α) (k k' : κ) (f : α → α) :
    (t.modify k f).get? k' = if k' = k then (t.get? k').map f else t.get? k' := by
  rw [modify, get?_map]
  by_cases h : k' = k
  · subst h; simp
  · simp [h]

theorem lookup_eq_some_iff (entries : List (κ × α)) (k : κ) (v : α)
    (h : (entries.map Prod.fst).Nodup) : lookup entries k = some v ↔ (k, v) ∈ entries := by
  induction entries with
  | nil => simp [lookup]
  | cons e rest ih =>
    obtain ⟨k', v'⟩ := e
    rw [List.map_cons, List.nodup_cons] at h
    by_cases hk : k' = k
    · subst hk
      have hno : (k', v) ∉ rest := fun hm => h.1 (List.mem_map.2 ⟨_, hm, rfl⟩)
      simp [lookup, hno, eq_comm]
    · simp [lookup, hk, Ne.symm hk, ih h.2]

theorem get?_eq_some_iff (t : Table κ α) (k : κ) (v : α) :
    t.get? k = some v ↔ (k, v) ∈ t.entries :=
  lookup_eq_some_iff t.entries k v t.nodup_keys

omit [DecidableEq κ] in
/-- A filter that every entry passes changes nothing. -/
theorem filter_eq_self (t : Table κ α) (p : κ → α → Bool)
    (h : ∀ e ∈ t.entries, p e.1 e.2 = true) : t.filter p = t := by
  obtain ⟨entries, hkeys⟩ := t
  simp only [filter, mk.injEq]
  exact List.filter_eq_self.2 h

omit [DecidableEq κ] in
/-- A map that keeps every value changes nothing. -/
theorem map_eq_self (t : Table κ α) (f : κ → α → α) (h : ∀ e ∈ t.entries, f e.1 e.2 = e.2) :
    t.map f = t := by
  obtain ⟨entries, hkeys⟩ := t
  simp only [map, mk.injEq]
  conv => rhs; rw [← List.map_id entries]
  exact List.map_congr_left fun e he => Prod.ext rfl (h e he)

theorem mem_keys_iff (t : Table κ α) (k : κ) : k ∈ t.keys ↔ (t.get? k).isSome := by
  rw [keys, List.mem_map, Option.isSome_iff_exists]
  constructor
  · rintro ⟨e, he, rfl⟩; exact ⟨e.2, (get?_eq_some_iff t e.1 e.2).2 he⟩
  · rintro ⟨v, hv⟩; exact ⟨(k, v), (get?_eq_some_iff t k v).1 hv, rfl⟩

end Table

end SigningGateway
