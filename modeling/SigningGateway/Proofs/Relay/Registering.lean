import SigningGateway.Proofs.Relay.Rounds

/-!
# Entering requests into the pending table

Entering a request is a loop without a bound of its own: it takes the id that the counter shows,
moves the counter on, and goes round again while a request waits under the id.  It ends unless every
id is in use, and it ends where the bounded search of `register` does.  While the counter has not
come around, every id that it shows is new.

    t.size < 2 ^ 32 → (RegisterLoop e t r ↔ r = register t e)                   (registerLoop_iff)
    (∃ r, RegisterLoop e t r) ↔ t.size < 2 ^ 32                         (exists_registerLoop_iff)
    the ids given out in a run from the empty table are 1, 2, 3, …                (Counted.run)
-/

namespace SigningGateway

namespace PendingTable

/-! ## The loop -/

/-- The loop that enters a request: `RegisterLoop e t (id, after)` if it ends, begun with the table
`t`, with the entry `e` under `id` in the table `after`. -/
inductive RegisterLoop (e : PendingEntry) : PendingTable → UInt32 × PendingTable → Prop
  /-- The id that the counter shows is free. -/
  | enter (t : PendingTable) : t.contains t.nextId = false →
      RegisterLoop e t (t.nextId, ⟨t.entries.set t.nextId e, t.nextId + 1⟩)
  /-- A request waits under the id, and the loop goes round again. -/
  | skip {t : PendingTable} {r : UInt32 × PendingTable} : t.contains t.nextId = true →
      RegisterLoop e { t with nextId := t.nextId + 1 } r → RegisterLoop e t r

/-- The loop ends in one way at most. -/
theorem RegisterLoop.unique {e : PendingEntry} {t : PendingTable} {r r' : UInt32 × PendingTable}
    (h : RegisterLoop e t r) (h' : RegisterLoop e t r') : r = r' := by
  induction h with
  | enter t hfree =>
    cases h' with
    | enter _ _ => rfl
    | skip hused _ => rw [hfree] at hused; cases hused
  | skip hused _ ih =>
    cases h' with
    | enter _ hfree => rw [hfree] at hused; cases hused
    | skip _ hloop => exact ih hloop

/-- The loop passes over a row of ids in use and ends at the free one behind it. -/
theorem registerLoop_of_row (e : PendingEntry) (entries : Table UInt32 PendingEntry) (k : Nat)
    (id : UInt32)
    (hfree : (⟨entries, id⟩ : PendingTable).contains (id + UInt32.ofNat k) = false)
    (hrow : ∀ j < k, (⟨entries, id⟩ : PendingTable).contains (id + UInt32.ofNat j) = true) :
    RegisterLoop e ⟨entries, id⟩
      (id + UInt32.ofNat k,
        ⟨entries.set (id + UInt32.ofNat k) e, id + UInt32.ofNat k + 1⟩) := by
  induction k generalizing id with
  | zero =>
    have hzero : id + UInt32.ofNat 0 = id := UInt32.add_zero id
    rw [hzero] at hfree ⊢
    exact .enter ⟨entries, id⟩ hfree
  | succ k ih =>
    have hhere := hrow 0 (Nat.succ_pos k)
    rw [show id + UInt32.ofNat 0 = id from UInt32.add_zero id] at hhere
    rw [← succ_add_ofNat] at hfree ⊢
    refine .skip hhere (ih (id + 1) hfree fun j hj => ?_)
    have hnext := hrow (j + 1) (Nat.succ_lt_succ hj)
    rwa [← succ_add_ofNat] at hnext

/-- The loop enters a request as `register` does. -/
theorem registerLoop_iff (t : PendingTable) (context : RequestContext)
    (stream deadline ticket : Nat) (hroom : t.size < UInt32.size) (r : UInt32 × PendingTable) :
    RegisterLoop ⟨context, stream, deadline, false, ticket⟩ t r ↔
      r = t.register context stream deadline ticket := by
  obtain ⟨k, -, hid, hfree, hrow⟩ := t.freeId_spec hroom
  have hends : RegisterLoop ⟨context, stream, deadline, false, ticket⟩ t
      (t.register context stream deadline ticket) := by
    rw [hid] at hfree
    rw [register, hid]
    exact registerLoop_of_row _ t.entries k t.nextId hfree hrow
  constructor
  · exact fun hloop => hloop.unique hends
  · rintro rfl
    exact hends

/-- In a table with as many requests as there are ids, every id is in use. -/
theorem contains_of_full (t : PendingTable) (hfull : UInt32.size ≤ t.size) (id : UInt32) :
    t.contains id = true := by
  by_contra hfree
  have hnew : id ∉ t.entries.keys := fun hmem => hfree ((Table.mem_keys_iff t.entries id).1 hmem)
  have hnodup : (id :: t.entries.keys).Nodup := List.nodup_cons.2 ⟨hnew, t.entries.nodup_keys⟩
  have hids : ∀ id' ∈ id :: t.entries.keys, id' ∈ idsFrom 0 UInt32.size := fun id' _ =>
    mem_idsFrom.2 ⟨id'.toNat, id'.toNat_lt, by rw [UInt32.ofNat_toNat, UInt32.zero_add]⟩
  have hmany := (hnodup.subperm hids).length_le
  rw [List.length_cons, length_keys, length_idsFrom] at hmany
  omega

/-- The loop ends just if some id is free. -/
theorem exists_registerLoop_iff (t : PendingTable) (context : RequestContext)
    (stream deadline ticket : Nat) :
    (∃ r, RegisterLoop ⟨context, stream, deadline, false, ticket⟩ t r) ↔
      t.size < UInt32.size := by
  constructor
  · rintro ⟨r, hloop⟩
    by_contra hfull
    -- the rounds change the counter only, so the table stays full
    induction hloop with
    | enter t hfree =>
      rw [t.contains_of_full (Nat.not_lt.1 hfull)] at hfree
      cases hfree
    | skip _ _ ih => exact ih hfull
  · exact fun hroom => ⟨_, (registerLoop_iff t context stream deadline ticket hroom _).2 rfl⟩

end PendingTable

/-! ## Runs -/

/-- What is done to the pending table. -/
inductive PendingOp
  | register (context : RequestContext) (stream deadline ticket : Nat)
  | markDelivered (id : UInt32)
  | complete (node : NodeId) (id : UInt32) (raw : Bytes)
  | expire (id : UInt32)
  | cancel (id : UInt32)
  | failStream (stream : Nat)
  | failDelivered (node : NodeId)
  | sweep (now : Nat)

def PendingOp.isRegister : PendingOp → Bool
  | .register .. => true
  | _ => false

namespace PendingTable

/-- Applies an operation; entering a request answers with its id. -/
def apply (t : PendingTable) : PendingOp → Option UInt32 × PendingTable
  | .register context stream deadline ticket =>
    let (id, t) := t.register context stream deadline ticket
    (some id, t)
  | .markDelivered id => (none, t.markDelivered id)
  | .complete node id raw =>
    match t.complete node id raw with
    | .ok (_, t) => (none, t)
    | .error _ => (none, t)
  | .expire id => (none, (t.expire id).2)
  | .cancel id => (none, (t.cancel id).2)
  | .failStream stream => (none, (t.failStream stream).2)
  | .failDelivered node => (none, (t.failDelivered node).2)
  | .sweep now => (none, (t.sweep now).2)

def run (t : PendingTable) (ops : List PendingOp) : PendingTable :=
  ops.foldl (fun t op => (t.apply op).2) t

/-- The ids that a run gives out, in their order. -/
def ids (t : PendingTable) : List PendingOp → List UInt32
  | [] => []
  | op :: ops => (t.apply op).1.toList ++ ids (t.apply op).2 ops

theorem loses_markDelivered (t : PendingTable) (id : UInt32) : t.Loses (t.markDelivered id) where
  counter := t.nextId_markDelivered id
  entries := by
    intro id' e' he'
    rw [get?_markDelivered] at he'
    split at he'
    · obtain ⟨e, he, rfl⟩ := Option.map_eq_some_iff.1 he'
      exact ⟨e, he, rfl⟩
    · exact ⟨e', he', rfl⟩

/-- Other operations than entering a request give no id and enter none. -/
theorem apply_of_not_isRegister (t : PendingTable) (op : PendingOp) (h : op.isRegister = false) :
    (t.apply op).1 = none ∧ t.Loses (t.apply op).2 := by
  cases op with
  | register context stream deadline ticket => cases h
  | markDelivered id => exact ⟨rfl, t.loses_markDelivered id⟩
  | complete node id raw =>
    rw [apply]
    split
    · next ended after hok =>
      have hafter := congrArg Prod.snd ((complete_eq_ok_iff t node id raw _).1 hok).2
      rw [show after = (t.remove id (some (.ok raw))).2 from hafter]
      exact ⟨rfl, t.loses_remove id _⟩
    · exact ⟨rfl, .refl t⟩
  | expire id => exact ⟨rfl, t.loses_remove id _⟩
  | cancel id => exact ⟨rfl, t.loses_remove id _⟩
  | failStream stream => exact ⟨rfl, t.loses_removeWhere _ fun _ => .error streamClosed⟩
  | failDelivered node => exact ⟨rfl, t.loses_removeWhere _ fun _ => .error sessionEnded⟩
  | sweep now => exact ⟨rfl, t.loses_removeWhere _ fun id => .error (.requestTimeout id)⟩

/-- Tables that lose requests do not grow. -/
theorem Loses.size_le {t t' : PendingTable} (h : t.Loses t') : t'.size ≤ t.size := by
  have hkeys : t'.entries.keys ⊆ t.entries.keys := by
    intro id hid
    rw [Table.mem_keys_iff] at hid ⊢
    exact h.contains id hid
  have hle := (t'.entries.nodup_keys.subperm hkeys).length_le
  rwa [← Table.keys, length_keys, length_keys] at hle

theorem size_register_le (t : PendingTable) (context : RequestContext)
    (stream deadline ticket : Nat) :
    (t.register context stream deadline ticket).2.size ≤ t.size + 1 := by
  have hkept : (t.entries.erase t.freeId).entries.length ≤ t.entries.entries.length :=
    List.length_filter_le _ _
  simp only [register, size, Table.size, Table.set, List.length_append, List.length_singleton]
  omega

/-- So many requests were entered, and the counter stands behind their ids. -/
structure Counted (count : Nat) (t : PendingTable) : Prop where
  counter : t.nextId = UInt32.ofNat (count + 1)
  passed : ∀ id, t.contains id = true → id.toNat ≤ count
  few : t.size ≤ count

theorem counted_empty : Counted 0 empty where
  counter := rfl
  passed := by intro id h; cases h
  few := Nat.le_refl 0

theorem Counted.loses {count : Nat} {t t' : PendingTable} (h : t.Counted count)
    (hloses : t.Loses t') : t'.Counted count where
  counter := hloses.counter.trans h.counter
  passed := fun id hid => h.passed id (hloses.contains id hid)
  few := Nat.le_trans hloses.size_le h.few

section
variable {count : Nat} {t : PendingTable} (h : t.Counted count) (hroom : count + 1 < UInt32.size)
include h hroom

/-- Before the counter comes around, the next request gets the id that the counter shows. -/
theorem Counted.freeId_eq : t.freeId = UInt32.ofNat (count + 1) := by
  rw [PendingTable.freeId_eq, h.counter]
  by_contra hused
  rw [Bool.not_eq_false, h.counter] at hused
  have hpassed := h.passed _ hused
  rw [UInt32.toNat_ofNat_of_lt' hroom] at hpassed
  omega

theorem counted_register (context : RequestContext) (stream deadline ticket : Nat) :
    (t.register context stream deadline ticket).2.Counted (count + 1) where
  counter := by
    rw [UInt32.ofNat_add (count + 1) 1, ← h.freeId_eq hroom]
    rfl
  passed := by
    intro id hid
    obtain ⟨e, he⟩ := (contains_iff _ id).1 hid
    rw [get?_register, h.freeId_eq hroom] at he
    split at he
    · next heq => exact Nat.le_of_eq (by rw [heq, UInt32.toNat_ofNat_of_lt' hroom])
    · exact Nat.le_succ_of_le (h.passed id ((contains_iff t id).2 ⟨e, he⟩))
  few := Nat.le_trans (t.size_register_le context stream deadline ticket)
    (Nat.succ_le_succ h.few)

end

/-- A run goes on with the ids behind those given out. -/
theorem Counted.run {count : Nat} {t : PendingTable} (h : t.Counted count) (ops : List PendingOp)
    (hroom : count + ops.countP PendingOp.isRegister < UInt32.size) :
    (t.run ops).Counted (count + ops.countP PendingOp.isRegister) ∧
      (t.ids ops).map UInt32.toNat =
        List.range' (count + 1) (ops.countP PendingOp.isRegister) := by
  induction ops generalizing count t with
  | nil => exact ⟨h, rfl⟩
  | cons op ops ih =>
    have hrun : t.run (op :: ops) = (t.apply op).2.run ops := rfl
    rw [hrun, PendingTable.ids, List.map_append]
    cases hop : op.isRegister with
    | false =>
      obtain ⟨hnone, hloses⟩ := t.apply_of_not_isRegister op hop
      rw [List.countP_cons_of_neg (by simp [hop])] at hroom ⊢
      rw [hnone, Option.toList_none, List.map_nil, List.nil_append]
      exact ih (h.loses hloses) hroom
    | true =>
      rw [List.countP_cons_of_pos hop] at hroom ⊢
      cases op with
      | register context stream deadline ticket =>
        have hid : (t.register context stream deadline ticket).1.toNat = count + 1 := by
          rw [register, h.freeId_eq (by omega), UInt32.toNat_ofNat_of_lt' (by omega)]
        obtain ⟨hcounted, hids⟩ :=
          ih (counted_register h (by omega) context stream deadline ticket) (by omega)
        rw [Nat.add_right_comm, Nat.add_assoc] at hcounted
        rw [apply, Option.toList_some, List.map_singleton, hid, hids, List.range'_succ,
          List.singleton_append]
        exact ⟨hcounted, rfl⟩
      | _ => cases hop

/-- Entering a request into a table with fewer requests than there are ids, wherever the counter
stands: the loop ends, as `register` does, with the first id from the counter on, counted around,
under which no request waits.  The counter is moved behind it, the new request was handed to nobody
yet, and the others are as they were.  (With every id in use the loop would not end.)  So in every
run from the empty table in which fewer requests are entered than there are ids, the loop has room
and the ids are 1, 2, 3 and so on. -/
theorem register_first_free :
    (∀ (t : PendingTable) (context : RequestContext) (stream deadline ticket : Nat),
      let loop := RegisterLoop ⟨context, stream, deadline, false, ticket⟩ t
      let id := (t.register context stream deadline ticket).1
      let after := (t.register context stream deadline ticket).2
      ((∃ r, loop r) ↔ t.size < UInt32.size) ∧
      (t.size < UInt32.size →
        (∀ r, loop r ↔ r = (id, after)) ∧
        (∃ k < UInt32.size, id.toNat = (t.nextId.toNat + k) % UInt32.size ∧
          t.contains id = false ∧ ∀ j < k, t.contains (t.nextId + UInt32.ofNat j) = true) ∧
        after.nextId.toNat = (id.toNat + 1) % UInt32.size ∧
        after.entries.get? id = some ⟨context, stream, deadline, false, ticket⟩ ∧
        ∀ id' ≠ id, after.entries.get? id' = t.entries.get? id')) ∧
    ∀ ops : List PendingOp, ops.countP PendingOp.isRegister < UInt32.size →
      (empty.run ops).size ≤ ops.countP PendingOp.isRegister ∧
        (empty.ids ops).map UInt32.toNat = List.range' 1 (ops.countP PendingOp.isRegister) ∧
        (empty.ids ops).Nodup := by
  refine ⟨fun t context stream deadline ticket => ?_, fun ops hfew => ?_⟩
  · intro loop id after
    refine ⟨exists_registerLoop_iff t context stream deadline ticket, fun hroom => ?_⟩
    obtain ⟨k, hk, hid, hfree, hrow⟩ := t.freeId_spec hroom
    have hget := t.get?_register context stream deadline ticket
    refine ⟨registerLoop_iff t context stream deadline ticket hroom, ⟨k, by omega, ?_, hfree, hrow⟩,
      ?_, ?_, fun id' hne => ?_⟩
    · show t.freeId.toNat = _
      rw [hid, UInt32.toNat_add, UInt32.toNat_ofNat', Nat.add_mod_mod]
    · show (t.freeId + 1).toNat = _
      exact UInt32.toNat_add _ _
    · exact (hget id).trans (if_pos rfl)
    · exact (hget id').trans (if_neg hne)
  · obtain ⟨hcounted, hids⟩ := counted_empty.run ops (by rwa [Nat.zero_add])
    rw [Nat.zero_add] at hcounted hids
    have hnodup : ((empty.ids ops).map UInt32.toNat).Nodup := hids ▸ List.nodup_range'
    exact ⟨hcounted.few, hids, hnodup.of_map⟩

/-- The counter stands at the last id, and the requests with the ids 4294967295 and 0 wait: the loop
comes around and gives the id 1.  In a run from the empty table the id of a request that is over is
not given out again. -/
theorem register_around_zero :
    let context : RequestContext := ⟨⟨List.replicate 32 7, by decide⟩, 5, 6⟩
    let e : PendingEntry := ⟨context, 1, 90, true, 2⟩
    let t : PendingTable := ⟨(Table.empty.set 4294967295 e).set 0 e, 4294967295⟩
    let ops : List PendingOp :=
      [.register context 1 50 1, .register context 1 60 2, .expire 1, .register context 2 70 3]
    t.size < UInt32.size ∧ (t.register context 3 80 4).1 = 1 ∧
      (∀ r, RegisterLoop ⟨context, 3, 80, false, 4⟩ t r ↔ r = t.register context 3 80 4) ∧
      (t.register context 3 80 4).2.entries.get? 0 = some e ∧
      ops.countP PendingOp.isRegister < UInt32.size ∧
      (empty.ids ops).map UInt32.toNat = [1, 2, 3] := by
  intro context e t ops
  have hroom : t.size < UInt32.size := by decide
  have hfew : ops.countP PendingOp.isRegister < UInt32.size := by decide
  have hid : (t.register context 3 80 4).1 = 1 := by decide +kernel
  obtain ⟨hloop, -, -, -, hothers⟩ := (register_first_free.1 t context 3 80 4).2 hroom
  refine ⟨hroom, hid, hloop, ?_, hfew, (register_first_free.2 ops hfew).2.1⟩
  exact (hothers 0 (by rw [hid]; decide)).trans rfl

end PendingTable

end SigningGateway
