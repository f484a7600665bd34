import Mathlib.Data.List.Nodup
import Mathlib.Data.List.Perm.Subperm
import SigningGateway.Proofs.Relay.Deadlines

/-!
# Rounds of the id counter

Ids are counted modulo `2 ^ 32`, and an id is skipped only while a request waits under it.  Since
every id that the counter passes is given out or waited under, a round of the counter takes about
as many requests as there are ids, however many requests there were before.

    t.size < 2 ^ 32 → freeId is the first id from the counter on without a request   (freeId_spec)
    Round start old given t → Round start old (given ++ [t.freeId]) (t after a register)
                                                                                (Round.register)
    waiting + accepted ≤ 2 ^ 32 → the ids of the accepted requests differ             (nodup_ids)
-/

namespace SigningGateway

/-! ## Ids in a row -/

/-- The ids from `id` on, `count` of them. -/
def idsFrom (id : UInt32) (count : Nat) : List UInt32 :=
  (List.range count).map fun k => id + UInt32.ofNat k

theorem mem_idsFrom {id : UInt32} {count : Nat} {id' : UInt32} :
    id' ∈ idsFrom id count ↔ ∃ k < count, id + UInt32.ofNat k = id' := by
  simp [idsFrom]

@[simp] theorem length_idsFrom (id : UInt32) (count : Nat) : (idsFrom id count).length = count := by
  simp [idsFrom]

/-- Fewer ids than there are differ from each other. -/
theorem add_ofNat_inj {id : UInt32} {j k : Nat} (hj : j < UInt32.size) (hk : k < UInt32.size)
    (h : id + UInt32.ofNat j = id + UInt32.ofNat k) : j = k := by
  rw [UInt32.add_right_inj, UInt32.ofNat_eq_iff_mod_eq_toNat] at h
  rw [UInt32.toNat_ofNat_of_lt' hk] at h
  rwa [Nat.mod_eq_of_lt hj] at h

theorem nodup_idsFrom (id : UInt32) {count : Nat} (hcount : count ≤ UInt32.size) :
    (idsFrom id count).Nodup := by
  refine List.Nodup.map_on ?_ List.nodup_range
  intro j hj k hk h
  rw [List.mem_range] at hj hk
  exact add_ofNat_inj (by omega) (by omega) h

/-- Ids in a row are not more than a list that holds them all. -/
theorem count_le_of_idsFrom_subset (id : UInt32) {count : Nat} (hcount : count ≤ UInt32.size)
    (ids : List UInt32) (h : ∀ id' ∈ idsFrom id count, id' ∈ ids) : count ≤ ids.length := by
  have hsub := ((nodup_idsFrom id hcount).subperm h).length_le
  rwa [length_idsFrom] at hsub

namespace PendingTable

/-! ## The first free id -/

/-- The id after `id` begins what is left of a row. -/
theorem succ_add_ofNat (id : UInt32) (k : Nat) :
    id + 1 + UInt32.ofNat k = id + UInt32.ofNat (k + 1) := by
  rw [UInt32.ofNat_add, UInt32.add_assoc, UInt32.add_comm 1]
  rfl

/-- The search stops at the first free id of a row, or every id of the row is in use. -/
theorem freeIdFrom_spec (t : PendingTable) (fuel : Nat) (id : UInt32) :
    (∃ k < fuel, t.freeIdFrom fuel id = id + UInt32.ofNat k ∧
      t.contains (id + UInt32.ofNat k) = false ∧
      ∀ j < k, t.contains (id + UInt32.ofNat j) = true) ∨
    ∀ j < fuel, t.contains (id + UInt32.ofNat j) = true := by
  induction fuel generalizing id with
  | zero => exact Or.inr fun j hj => absurd hj (Nat.not_lt_zero j)
  | succ fuel ih =>
    have hzero : id + UInt32.ofNat 0 = id := UInt32.add_zero id
    by_cases hid : t.contains id = true
    · have hrow : ∀ {n : Nat}, (∀ j < n, t.contains (id + 1 + UInt32.ofNat j) = true) →
          ∀ j < n + 1, t.contains (id + UInt32.ofNat j) = true := by
        intro n hn j hj
        cases j with
        | zero => rwa [hzero]
        | succ j =>
          rw [← succ_add_ofNat]
          exact hn j (by omega)
      rw [freeIdFrom, if_pos hid]
      rcases ih (id + 1) with ⟨k, hk, hfree, hout, hin⟩ | hall
      · refine Or.inl ⟨k + 1, by omega, ?_, ?_, hrow hin⟩
        · rw [hfree, succ_add_ofNat]
        · rw [← succ_add_ofNat, hout]
      · exact Or.inr (hrow hall)
    · rw [freeIdFrom, if_neg hid]
      refine Or.inl ⟨0, by omega, hzero.symm, ?_, fun j hj => absurd hj (Nat.not_lt_zero j)⟩
      rw [hzero]
      exact Bool.eq_false_iff.2 hid

theorem mem_keys_of_contains (t : PendingTable) (id : UInt32) (h : t.contains id = true) :
    id ∈ t.entries.keys :=
  (Table.mem_keys_iff t.entries id).2 h

theorem length_keys (t : PendingTable) : t.entries.keys.length = t.size := by
  simp [Table.keys, size, Table.size]

/-- As long as some id is free, a request is entered under the first free one from the counter
on. -/
theorem freeId_spec (t : PendingTable) (hroom : t.size < UInt32.size) :
    ∃ k ≤ t.size, t.freeId = t.nextId + UInt32.ofNat k ∧ t.contains t.freeId = false ∧
      ∀ j < k, t.contains (t.nextId + UInt32.ofNat j) = true := by
  rcases t.freeIdFrom_spec (t.size + 1) t.nextId with ⟨k, hk, hfree, hout, hin⟩ | hall
  · refine ⟨k, by omega, hfree, ?_, hin⟩
    rw [freeId, hfree]
    exact hout
  · exfalso
    have hused : ∀ id ∈ idsFrom t.nextId (t.size + 1), id ∈ t.entries.keys := by
      intro id hid
      obtain ⟨j, hj, rfl⟩ := mem_idsFrom.1 hid
      exact t.mem_keys_of_contains _ (hall j hj)
    have hmany := count_le_of_idsFrom_subset t.nextId (by omega) _ hused
    rw [length_keys] at hmany
    omega

/-! ## One round -/

/-- The counter has come from `start` on past ids that were given out since or were waited under at
the start, and no id was given out twice. -/
structure Round (start : UInt32) (old given : List UInt32) (t : PendingTable) : Prop where
  counter : ∃ count, t.nextId = start + UInt32.ofNat count ∧
    (∀ id ∈ idsFrom start count, id ∈ given ∨ id ∈ old) ∧
    ∀ id ∈ given, id ∈ idsFrom start count
  distinct : given.Nodup
  pending : ∀ id, t.contains id = true → id ∈ given ∨ id ∈ old

theorem round_start (t : PendingTable) : t.Round t.nextId t.entries.keys [] where
  counter := by
    refine ⟨0, (UInt32.add_zero _).symm, ?_, ?_⟩
    · intro id hid
      cases hid
    · intro id hid
      cases hid
  distinct := List.nodup_nil
  pending := fun id hid => Or.inr (t.mem_keys_of_contains id hid)

/-- Requests that leave keep the round. -/
theorem Round.shrink {start : UInt32} {old given : List UInt32} {t t' : PendingTable}
    (h : t.Round start old given) (hnext : t'.nextId = t.nextId)
    (hpending : ∀ id, t'.contains id = true → t.contains id = true) :
    t'.Round start old given where
  counter := by
    rw [hnext]
    exact h.counter
  distinct := h.distinct
  pending := fun id hid => h.pending id (hpending id hid)

/-- What waits in a round waited before it or was given an id in it. -/
theorem Round.size_le {start : UInt32} {old given : List UInt32} {t : PendingTable}
    (h : t.Round start old given) : t.size ≤ given.length + old.length := by
  have hkeys : t.entries.keys ⊆ given ++ old := by
    intro id hid
    rw [List.mem_append]
    exact h.pending id ((Table.mem_keys_iff t.entries id).1 hid)
  have hle := (t.entries.nodup_keys.subperm hkeys).length_le
  rwa [List.length_append, ← Table.keys, t.length_keys] at hle

/-- In a round with room for one more request, the first free id lies ahead of every id given out,
less than once around from the start, and there is no free id between. -/
theorem Round.freeId_ahead {start : UInt32} {old given : List UInt32} {t : PendingTable}
    (h : t.Round start old given) (hroom : given.length + old.length < UInt32.size) :
    ∃ ahead < UInt32.size, t.freeId = start + UInt32.ofNat ahead ∧
      (∀ id ∈ idsFrom start ahead, id ∈ given ∨ id ∈ old) ∧
      ∀ id ∈ given, id ∈ idsFrom start ahead := by
  obtain ⟨count, hcounter, hpassed, hgiven⟩ := h.counter
  obtain ⟨skipped, -, hfree, -, hin⟩ := t.freeId_spec (Nat.lt_of_le_of_lt h.size_le hroom)
  rw [hcounter, UInt32.add_assoc, ← UInt32.ofNat_add] at hfree
  have hrow : ∀ id ∈ idsFrom start (count + skipped), id ∈ given ∨ id ∈ old := by
    intro id hid
    obtain ⟨k, hk, rfl⟩ := mem_idsFrom.1 hid
    by_cases hbefore : k < count
    · exact hpassed _ (mem_idsFrom.2 ⟨k, hbefore, rfl⟩)
    · apply h.pending
      have hskip := hin (k - count) (by omega)
      rw [hcounter, UInt32.add_assoc, ← UInt32.ofNat_add] at hskip
      rwa [Nat.add_sub_cancel' (by omega)] at hskip
  refine ⟨count + skipped, ?_, hfree, hrow, ?_⟩
  · by_contra hmany
    have hall := count_le_of_idsFrom_subset start (Nat.le_refl UInt32.size) (given ++ old) ?_
    · rw [List.length_append] at hall
      omega
    · intro id hid
      obtain ⟨k, hk, rfl⟩ := mem_idsFrom.1 hid
      exact List.mem_append.2 (hrow _ (mem_idsFrom.2 ⟨k, by omega, rfl⟩))
  · intro id hid
    obtain ⟨k, hk, rfl⟩ := mem_idsFrom.1 (hgiven id hid)
    exact mem_idsFrom.2 ⟨k, by omega, rfl⟩

/-- In a round with room for one more request, its id was not given out before. -/
theorem Round.register {start : UInt32} {old given : List UInt32} {t t' : PendingTable}
    (h : t.Round start old given) (hroom : given.length + old.length < UInt32.size)
    (hnext : t'.nextId = t.freeId + 1)
    (hpending : ∀ id, t'.contains id = true → id = t.freeId ∨ t.contains id = true) :
    t'.Round start old (given ++ [t.freeId]) := by
  obtain ⟨ahead, hahead, hfree, hpassed, hgiven⟩ := h.freeId_ahead hroom
  have hnew : t.freeId ∉ given := by
    intro hmem
    obtain ⟨k, hk, heq⟩ := mem_idsFrom.1 (hgiven _ hmem)
    rw [hfree] at heq
    have := add_ofNat_inj (by omega) hahead heq
    omega
  refine ⟨⟨ahead + 1, ?_, ?_, ?_⟩, ?_, ?_⟩
  · rw [hnext, hfree, UInt32.add_assoc, UInt32.ofNat_add ahead 1]
    rfl
  · intro id hid
    obtain ⟨k, hk, rfl⟩ := mem_idsFrom.1 hid
    rw [List.mem_append, or_right_comm, List.mem_singleton, hfree]
    rcases Nat.lt_succ_iff_lt_or_eq.1 hk with hlt | rfl
    · exact Or.inl (hpassed _ (mem_idsFrom.2 ⟨k, hlt, rfl⟩))
    · exact Or.inr rfl
  · intro id hid
    rw [List.mem_append, List.mem_singleton] at hid
    rcases hid with hid | rfl
    · obtain ⟨k, hk, rfl⟩ := mem_idsFrom.1 (hgiven id hid)
      exact mem_idsFrom.2 ⟨k, by omega, rfl⟩
    · exact mem_idsFrom.2 ⟨ahead, by omega, hfree.symm⟩
  · rw [List.nodup_append]
    refine ⟨h.distinct, List.nodup_singleton _, ?_⟩
    rintro id hid _ hfreeId rfl
    rw [List.mem_singleton] at hfreeId
    exact hnew (hfreeId ▸ hid)
  · intro id hid
    rw [List.mem_append, List.mem_singleton]
    rcases hpending id hid with rfl | hid
    · exact Or.inl (Or.inr rfl)
    · rcases h.pending id hid with hgivenId | hold
      · exact Or.inl (Or.inl hgivenId)
      · exact Or.inr hold

/-! ## Tables that only lose requests -/

/-- Every request of `t'` waits in `t` under the same id for the same ticket, and the counter
stands where it stood. -/
structure Loses (t t' : PendingTable) : Prop where
  counter : t'.nextId = t.nextId
  entries : ∀ id e', t'.entries.get? id = some e' →
    ∃ e, t.entries.get? id = some e ∧ e.ticket = e'.ticket

theorem Loses.refl (t : PendingTable) : t.Loses t := ⟨rfl, fun _ e' he' => ⟨e', he', rfl⟩⟩

theorem loses_remove (t : PendingTable) (id : UInt32) (outcome : Option Outcome) :
    t.Loses (t.remove id outcome).2 where
  counter := t.nextId_remove id outcome
  entries := by
    intro id' e' he'
    rw [get?_remove] at he'
    split at he'
    · cases he'
    · exact ⟨e', he', rfl⟩

theorem loses_removeWhere (t : PendingTable) (p : PendingEntry → Bool)
    (outcome : UInt32 → Outcome) : t.Loses (t.removeWhere p outcome).2 where
  counter := t.nextId_removeWhere p outcome
  entries := by
    intro id e' he'
    rw [get?_removeWhere, Option.filter_eq_some_iff] at he'
    exact ⟨e', he'.1, rfl⟩

theorem loses_markAll (t : PendingTable) (requests : List Request) :
    t.Loses (Relay.markAll t requests) where
  counter := t.nextId_markAll requests
  entries := by
    intro id e' he'
    rw [get?_markAll] at he'
    split at he'
    · obtain ⟨e, he, rfl⟩ := Option.map_eq_some_iff.1 he'
      exact ⟨e, he, rfl⟩
    · exact ⟨e', he', rfl⟩

theorem Loses.contains {t t' : PendingTable} (h : t.Loses t') (id : UInt32)
    (hid : t'.contains id = true) : t.contains id = true := by
  obtain ⟨e', he'⟩ := (contains_iff t' id).1 hid
  obtain ⟨e, he, -⟩ := h.entries id e' he'
  exact (contains_iff t id).2 ⟨e, he⟩

end PendingTable

namespace Relay

/-! ## Relays that only lose requests -/

/-- Requests leave and tickets go or get their outcome; a ticket that stays is for the same id. -/
structure Recedes (r r' : Relay) : Prop where
  pending : r.pending.Loses r'.pending
  tickets : ∀ ticket t', r'.tickets.get? ticket = some t' →
    ∃ t, r.tickets.get? ticket = some t ∧ t.id = t'.id
  nextTicket : r'.nextTicket = r.nextTicket

theorem Recedes.refl (r : Relay) : r.Recedes r := ⟨.refl _, fun _ t' ht' => ⟨t', ht', rfl⟩, rfl⟩

/-- Fewer requests with the same tickets. -/
theorem recedes_of_loses {r r' : Relay} (hpending : r.pending.Loses r'.pending)
    (htickets : r'.tickets = r.tickets) (hnext : r'.nextTicket = r.nextTicket) :
    r.Recedes r' where
  pending := hpending
  tickets := fun _ t' ht' => ⟨t', htickets ▸ ht', rfl⟩
  nextTicket := hnext

/-- One ticket less, with fewer requests. -/
theorem recedes_of_erase {r r' : Relay} (hpending : r.pending.Loses r'.pending) (ticket : Nat)
    (htickets : r'.tickets = r.tickets.erase ticket) (hnext : r'.nextTicket = r.nextTicket) :
    r.Recedes r' where
  pending := hpending
  tickets := by
    intro k t' ht'
    rw [htickets, Table.get?_erase] at ht'
    split at ht'
    · cases ht'
    · exact ⟨t', ht', rfl⟩
  nextTicket := hnext

/-- Laying outcomes down leaves the tickets to their ids. -/
theorem Recedes.resolve {r r' : Relay} (h : r.Recedes r') (resolutions : List Resolution) :
    r.Recedes (r'.resolve resolutions) := by
  induction resolutions generalizing r' with
  | nil => exact h
  | cons res rest ih =>
    have hfirst : r.Recedes (r'.resolve [res]) := by
      refine ⟨h.pending, fun ticket t' ht' => ?_, h.nextTicket⟩
      rw [Relay.resolve] at ht'
      simp only [List.foldl_cons, List.foldl_nil, Table.get?_modify] at ht'
      split at ht'
      · obtain ⟨t, ht, rfl⟩ := Option.map_eq_some_iff.1 ht'
        exact h.tickets ticket t ht
      · exact h.tickets ticket t' ht'
    exact ih hfirst

theorem recedes_closeStream (r : Relay) (stream : Nat) : r.Recedes (r.closeStream stream) := by
  rcases r.closeStream_cases stream with ⟨heq, -⟩ | ⟨e, -, -, heq⟩
  · rw [heq]
    exact .refl r
  · rw [heq]
    have hloses := r.pending.loses_removeWhere (fun e => e.stream = stream)
      fun _ => .error PendingTable.streamClosed
    apply Recedes.resolve
    exact recedes_of_loses hloses rfl rfl

theorem recedes_detach (r : Relay) (session : Nat) : r.Recedes (r.detach session) := by
  unfold detach
  split
  · exact .refl r
  · next s hs =>
    dsimp only
    split
    · exact recedes_of_loses (.refl _) rfl rfl
    · split
      · have hloses := r.pending.loses_removeWhere (fun e => e.delivered && e.context.node = s.node)
          fun _ => .error PendingTable.sessionEnded
        apply Recedes.resolve
        exact recedes_of_loses hloses rfl rfl
      · exact recedes_of_loses (.refl _) rfl rfl

theorem recedes_poll (r : Relay) (now ticket : Nat) : r.Recedes (r.poll now ticket).2 := by
  unfold poll
  split
  · exact .refl r
  · next t ht =>
    dsimp only
    split
    · exact recedes_of_erase (.refl _) ticket rfl rfl
    · exact recedes_of_erase (.refl _) ticket rfl rfl
    · split
      · apply Recedes.resolve
        exact recedes_of_erase (r.pending.loses_remove t.id _) ticket rfl rfl
      · exact .refl r

theorem recedes_abandon (r : Relay) (ticket : Nat) : r.Recedes (r.abandon ticket) := by
  unfold abandon
  split
  · exact .refl r
  · next t ht =>
    apply Recedes.resolve
    exact recedes_of_erase (r.pending.loses_remove t.id none) ticket rfl rfl

theorem recedes_sweep (r : Relay) (now : Nat) : r.Recedes (r.sweep now).2 := by
  have hloses := r.pending.loses_removeWhere (fun e => e.deadline ≤ now)
    fun id => .error (.requestTimeout id)
  apply Recedes.resolve
  exact recedes_of_loses hloses rfl rfl

end Relay

namespace ClockedRelay

/-! ## Runs -/

/-- An operation that accepts no request enters none and makes no ticket. -/
theorem recedes_step (s : ClockedRelay) (op : RelayOp) (haccepts : s.accepts op = none) :
    s.relay.Recedes (s.step op).2.relay := by
  cases op with
  | openStream node => exact Relay.recedes_of_loses (.refl _) rfl rfl
  | closeStream stream => exact s.relay.recedes_closeStream stream
  | dropStream stream =>
    have hclose := s.relay.recedes_closeStream stream
    exact ⟨hclose.pending, hclose.tickets, hclose.nextTicket⟩
  | submit stream dbid capabilities raw =>
    rw [s.step_submit_of_not_accepts stream dbid capabilities raw haccepts]
    exact .refl _
  | grant stream dbid capabilities =>
    simp only [step]
    split
    · next relay hgrant =>
      obtain ⟨grants, rfl⟩ := Relay.grant_eq_ok relay stream dbid capabilities hgrant
      exact Relay.recedes_of_loses (.refl _) rfl rfl
    · exact .refl _
  | attach node => exact Relay.recedes_of_loses (s.relay.pending.loses_markAll _) rfl rfl
  | take session count =>
    simp only [step, Relay.take]
    split
    · exact .refl _
    · exact Relay.recedes_of_loses (.refl _) rfl rfl
  | respond session response =>
    simp only [step]
    split
    · next relay hok =>
      obtain ⟨-, rfl⟩ := (Relay.respond_eq_ok_iff _ _ _ _).1 hok
      have hloses := s.relay.pending.loses_remove response.id (some (.ok response.raw))
      apply Relay.Recedes.resolve
      exact Relay.recedes_of_loses hloses rfl rfl
    · exact .refl _
  | detach session => exact s.relay.recedes_detach session
  | poll ticket => exact s.relay.recedes_poll s.now ticket
  | abandon ticket => exact s.relay.recedes_abandon ticket
  | sweep => exact s.relay.recedes_sweep s.now
  | advance duration => exact .refl _

/-- A request that is accepted is entered under the first free id, for a new ticket. -/
theorem entry_of_accepts (s : ClockedRelay) (op : RelayOp) (q : Accepted)
    (haccepts : s.accepts op = some q) :
    q.id = s.relay.pending.freeId ∧ (s.step op).2.relay.pending.nextId = q.id + 1 ∧
      ∃ e : PendingEntry, e.ticket = q.ticket ∧
        ∀ id, (s.step op).2.relay.pending.entries.get? id =
          if id = q.id then some e else s.relay.pending.entries.get? id := by
  obtain ⟨henters, hrelay⟩ := s.enters_of_accepts op q haccepts
  rw [hrelay, Relay.enter]
  refine ⟨henters.id, ?_, ⟨q.request.context, q.stream, s.now + s.relay.settings.requestTimeout,
    !(s.relay.queueOf q.request.context.node).signers.isEmpty, s.relay.nextTicket⟩,
    henters.ticket.symm, fun id => ?_⟩
  · rw [Relay.nextId_dispatch, henters.id]
  · rw [Relay.get?_pending_dispatch, henters.id]

theorem round_step (s : ClockedRelay) (op : RelayOp) {start : UInt32} {old given : List UInt32}
    (h : s.relay.pending.Round start old given)
    (hroom : given.length + (s.accepts op).toList.length + old.length ≤ UInt32.size) :
    (s.step op).2.relay.pending.Round start old
      (given ++ (s.accepts op).toList.map Accepted.id) := by
  cases haccepts : s.accepts op with
  | none =>
    have hloses := (s.recedes_step op haccepts).pending
    rw [Option.toList_none, List.map_nil, List.append_nil]
    exact h.shrink hloses.counter hloses.contains
  | some q =>
    rw [haccepts] at hroom
    obtain ⟨hid, hnext, entry, -, hentries⟩ := s.entry_of_accepts op q haccepts
    rw [Option.toList_some, List.map_singleton, hid]
    refine h.register ?_ (hid ▸ hnext) ?_
    · simp only [Option.toList_some, List.length_singleton] at hroom
      omega
    · intro id hin
      obtain ⟨e, he⟩ := (PendingTable.contains_iff _ id).1 hin
      rw [hentries, hid] at he
      split at he
      · next heq => exact Or.inl heq
      · exact Or.inr ((PendingTable.contains_iff _ id).2 ⟨e, he⟩)

theorem round_run (s : ClockedRelay) (ops : List RelayOp) {start : UInt32}
    {old given : List UInt32} (h : s.relay.pending.Round start old given)
    (hroom : given.length + (s.accepted ops).length + old.length ≤ UInt32.size) :
    (s.run ops).relay.pending.Round start old (given ++ (s.accepted ops).map Accepted.id) := by
  induction ops generalizing s given with
  | nil =>
    rw [accepted, List.map_nil, List.append_nil]
    exact h
  | cons op ops ih =>
    rw [accepted, List.length_append] at hroom
    rw [accepted, List.map_append, ← List.append_assoc]
    apply ih
    · exact s.round_step op h (by omega)
    · rw [List.length_append, List.length_map]
      omega

/-- Requests get ids that differ, as long as they are with those that wait at the start not more than
there are ids.  How many there were before does not matter. -/
theorem nodup_ids (s : ClockedRelay) (ops : List RelayOp)
    (hroom : s.relay.pending.size + (s.accepted ops).length ≤ UInt32.size) :
    ((s.accepted ops).map Accepted.id).Nodup := by
  have hround := s.round_run ops s.relay.pending.round_start (by
    rw [PendingTable.length_keys, List.length_nil]
    omega)
  exact hround.distinct

end ClockedRelay

end SigningGateway
