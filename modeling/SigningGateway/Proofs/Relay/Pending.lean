import SigningGateway.Relay.Basic

/-!
# What the operations of the pending table do

Each operation is described by what it does to the entry of an id, and each way to end requests by
the resolutions that it hands out.  With these statements later proofs never open an operation.

    t.contains t.nextId = false → t.freeId = t.nextId                             (freeId_eq)
    res ∈ (t.removeWhere p outcome).1 ↔ some entry that passes has this resolution (mem_removeWhere)
    outcomes that agree are laid down on the ticket they name                (get?_tickets_resolve)
-/

namespace SigningGateway

namespace PendingTable

/-! ## Entering requests -/

theorem contains_iff (t : PendingTable) (id : UInt32) :
    t.contains id = true ↔ ∃ e, t.entries.get? id = some e :=
  Option.isSome_iff_exists

theorem contains_eq_false_iff (t : PendingTable) (id : UInt32) :
    t.contains id = false ↔ t.entries.get? id = none := by
  simp [contains, Table.contains]

theorem freeId_eq (t : PendingTable) (h : t.contains t.nextId = false) : t.freeId = t.nextId := by
  rw [freeId, freeIdFrom]
  simp [h]

theorem get?_register (t : PendingTable) (context : RequestContext) (stream deadline ticket : Nat)
    (id : UInt32) :
    (t.register context stream deadline ticket).2.entries.get? id =
      if id = t.freeId then some ⟨context, stream, deadline, false, ticket⟩
      else t.entries.get? id := by
  simp [register, Table.get?_set]

theorem get?_markDelivered (t : PendingTable) (id id' : UInt32) :
    (t.markDelivered id).entries.get? id' =
      if id' = id then (t.entries.get? id').map fun e => { e with delivered := true }
      else t.entries.get? id' := by
  rw [markDelivered, Table.get?_modify]

@[simp] theorem nextId_markDelivered (t : PendingTable) (id : UInt32) :
    (t.markDelivered id).nextId = t.nextId := rfl

theorem get?_markAll (t : PendingTable) (requests : List Request) (id : UInt32) :
    (Relay.markAll t requests).entries.get? id =
      if id ∈ requests.map Request.id then
        (t.entries.get? id).map fun e => { e with delivered := true }
      else t.entries.get? id := by
  induction requests generalizing t with
  | nil => simp [Relay.markAll]
  | cons request rest ih =>
    have hrest := ih (t.markDelivered request.id)
    simp only [Relay.markAll, List.foldl_cons] at hrest ⊢
    rw [hrest, get?_markDelivered]
    by_cases hid : id = request.id
    · subst hid
      by_cases hmem : request.id ∈ rest.map Request.id <;> simp [hmem, Function.comp_def]
    · simp [hid]

@[simp] theorem nextId_markAll (t : PendingTable) (requests : List Request) :
    (Relay.markAll t requests).nextId = t.nextId := by
  induction requests generalizing t with
  | nil => rfl
  | cons request rest ih => exact ih (t.markDelivered request.id)

/-! ## Ending requests -/

theorem fst_remove (t : PendingTable) (id : UInt32) (outcome : Option Outcome) :
    (t.remove id outcome).1 = (t.entries.get? id).map fun e => ⟨e.ticket, id, outcome⟩ := by
  rw [remove]
  split <;> simp_all

theorem get?_remove (t : PendingTable) (id id' : UInt32) (outcome : Option Outcome) :
    (t.remove id outcome).2.entries.get? id' =
      if id' = id then none else t.entries.get? id' := by
  rw [remove]
  split
  · exact Table.get?_erase _ _ _
  · next hnone =>
    by_cases hid : id' = id
    · simp [hid, hnone]
    · simp [hid]

@[simp] theorem nextId_remove (t : PendingTable) (id : UInt32) (outcome : Option Outcome) :
    (t.remove id outcome).2.nextId = t.nextId := by
  rw [remove]
  split <;> rfl

theorem mem_removeWhere (t : PendingTable) (p : PendingEntry → Bool) (outcome : UInt32 → Outcome)
    (res : Resolution) :
    res ∈ (t.removeWhere p outcome).1 ↔
      ∃ id e, t.entries.get? id = some e ∧ p e = true ∧
        res = ⟨e.ticket, id, some (outcome id)⟩ := by
  simp only [removeWhere, List.mem_filterMap, Prod.exists, Table.get?_eq_some_iff]
  constructor
  · rintro ⟨id, e, hmem, hres⟩
    by_cases hp : p e = true
    · rw [if_pos hp] at hres
      exact ⟨id, e, hmem, hp, (Option.some.inj hres).symm⟩
    · rw [if_neg hp] at hres
      cases hres
  · rintro ⟨id, e, hmem, hp, rfl⟩
    exact ⟨id, e, hmem, by rw [if_pos hp]⟩

theorem get?_removeWhere (t : PendingTable) (p : PendingEntry → Bool)
    (outcome : UInt32 → Outcome) (id : UInt32) :
    (t.removeWhere p outcome).2.entries.get? id = (t.entries.get? id).filter fun e => !p e := by
  rw [removeWhere, Table.get?_filter]

@[simp] theorem nextId_removeWhere (t : PendingTable) (p : PendingEntry → Bool)
    (outcome : UInt32 → Outcome) : (t.removeWhere p outcome).2.nextId = t.nextId := rfl

/-- Requests that were swept are not swept again at the same time. -/
theorem sweep_sweep (t : PendingTable) (now : Nat) :
    (t.sweep now).2.sweep now = ([], (t.sweep now).2) := by
  have hlate : ∀ entry ∈ (t.sweep now).2.entries.entries, ¬entry.2.deadline ≤ now := by
    intro entry hmem
    have hkept := (List.mem_filter.1 hmem).2
    simpa using hkept
  have hnone : ((t.sweep now).2.sweep now).1 = [] := by
    refine List.filterMap_eq_nil_iff.2 fun entry hmem => ?_
    simp [hlate entry hmem]
  have hsame : ((t.sweep now).2.sweep now).2 = (t.sweep now).2 := by
    have hfilter := (t.sweep now).2.entries.filter_eq_self (fun _ e => !decide (e.deadline ≤ now))
      fun entry hmem => by simp [hlate entry hmem]
    show PendingTable.mk _ _ = _
    rw [hfilter]
  exact Prod.ext hnone hsame

/-- An answer is taken for an entry of the node of the session. -/
theorem complete_eq_ok_iff (t : PendingTable) (node : NodeId) (id : UInt32) (raw : Bytes)
    (ended : Option Resolution × PendingTable) :
    t.complete node id raw = .ok ended ↔
      (∃ e, t.entries.get? id = some e ∧ e.context.node = node) ∧
        ended = t.remove id (some (.ok raw)) := by
  rw [complete]
  split
  · next e he =>
    by_cases hnode : e.context.node = node
    · simp [he, hnode, eq_comm]
    · simp [he, hnode]
  · next he => simp [he]

/-- An answer that is not taken is told to be a duplicate. -/
theorem complete_eq_error (t : PendingTable) (node : NodeId) (id : UInt32) (raw : Bytes)
    (h : ¬∃ e, t.entries.get? id = some e ∧ e.context.node = node) :
    t.complete node id raw = .error (.duplicateResponse id) := by
  rw [complete]
  split
  · next e he =>
    have hnode : e.context.node ≠ node := fun hnode => h ⟨e, he, hnode⟩
    simp [hnode]
  · rfl

end PendingTable

namespace Relay

/-! ## Laying outcomes down -/

/-- Resolutions that name a ticket and agree on its outcome lay it down; others leave the ticket. -/
theorem get?_tickets_resolve (r : Relay) (resolutions : List Resolution) (ticket : Nat)
    (outcome : Outcome)
    (h : ∀ res ∈ resolutions, res.ticket = ticket → res.outcome = some outcome) :
    (r.resolve resolutions).tickets.get? ticket =
      if ticket ∈ resolutions.map Resolution.ticket then
        (r.tickets.get? ticket).map fun t => { t with state := .resolved outcome }
      else r.tickets.get? ticket := by
  induction resolutions generalizing r with
  | nil => simp [resolve]
  | cons res rest ih =>
    let first := r.resolve [res]
    have hfirst : first.tickets.get? ticket = if ticket = res.ticket then
        (r.tickets.get? ticket).map fun t => { t with state := .resolved outcome }
        else r.tickets.get? ticket := by
      simp only [first, resolve, List.foldl_cons, List.foldl_nil, Table.get?_modify]
      by_cases hticket : ticket = res.ticket
      · simp [hticket, h res List.mem_cons_self hticket.symm]
      · simp [hticket]
    have hrest := ih first fun res' hres' => h res' (List.mem_cons_of_mem _ hres')
    have hsplit : r.resolve (res :: rest) = first.resolve rest := rfl
    rw [hsplit, hrest, hfirst]
    by_cases hticket : ticket = res.ticket
    · subst hticket
      by_cases hmem : res.ticket ∈ rest.map Resolution.ticket <;> simp [hmem, Function.comp_def]
    · simp [hticket]

theorem get?_tickets_resolve_of_not_mem (r : Relay) (resolutions : List Resolution) (ticket : Nat)
    (h : ticket ∉ resolutions.map Resolution.ticket) :
    (r.resolve resolutions).tickets.get? ticket = r.tickets.get? ticket := by
  rw [get?_tickets_resolve r resolutions ticket (.ok [])]
  · rw [if_neg h]
  · intro res hres hticket
    exact absurd (List.mem_map.2 ⟨res, hres, hticket⟩) h

end Relay

end SigningGateway
