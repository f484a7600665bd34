import SigningGateway.Proofs.Relay.Numbers
import Mathlib.Data.List.Nodup

/-!
# Open streams

The streams that are open are those that were opened in the log of a run and neither closed nor let
go since, and the counter of open streams is their number; one that is closed twice counts down once.
A stream that was closed does not open again, since its number is not given out a second time.

    Opens opened s.relay → Opens (noteStream opened (op, answer)) (s.step op).2.relay   (opens_step)
    r.stats.nodeStreams = opened.length, as far as 64 bits go                   (Opens.nodeStreams_eq)
-/

namespace SigningGateway

namespace ClockedRelay

/-- The streams that are open after one more operation. -/
def noteStream (opened : List Nat) : RelayOp × RelayAnswer → List Nat
  | (.openStream _, .opened stream) => opened ++ [stream]
  | (.closeStream stream, _) | (.dropStream stream, _) => opened.filter fun k => k ≠ stream
  | _ => opened

/-- The streams that were opened in a log and neither closed nor let go since. -/
def openIn (log : List (RelayOp × RelayAnswer)) : List Nat := log.foldl noteStream []

end ClockedRelay

namespace Relay

/-- The open streams of a relay are those of a list, and it has counted them. -/
structure Opens (opened : List Nat) (r : Relay) : Prop where
  nodup : opened.Nodup
  streams : ∀ stream, stream ∈ opened ↔ ∃ node, r.streams.get? stream = some ⟨node, false⟩
  counter : r.openStreams = UInt64.ofNat opened.length

variable {opened : List Nat} {r : Relay}

/-- Of a list without repeats a member is taken out once. -/
theorem length_filter_ne (hnodup : opened.Nodup) (stream : Nat) (h : stream ∈ opened) :
    (opened.filter fun k => k ≠ stream).length + 1 = opened.length := by
  have hfilter : (opened.filter fun k => k ≠ stream) = opened.erase stream := by
    rw [hnodup.erase_eq_filter]
    exact List.filter_congr fun k _ => by by_cases hk : k = stream <;> simp [hk]
  rw [hfilter, List.length_erase_add_one h]

theorem opens_start (settings : RelaySettings) : (start settings).Opens [] where
  nodup := List.nodup_nil
  streams := by
    intro stream
    constructor
    · intro hmem
      cases hmem
    · rintro ⟨node, hget⟩
      cases hget
  counter := rfl

namespace Opens

/-- A new stream has a number of its own. -/
theorem openStream (h : r.Opens opened) (hnumbered : r.Numbered) (node : NodeId) :
    (r.openStream node).2.Opens (opened ++ [r.nextStream]) where
  nodup := by
    rw [List.nodup_append]
    refine ⟨h.nodup, List.nodup_singleton _, ?_⟩
    rintro stream hmem _ hnew rfl
    obtain rfl := List.mem_singleton.1 hnew
    obtain ⟨node', hget⟩ := (h.streams r.nextStream).1 hmem
    rw [hnumbered.free.1] at hget
    cases hget
  streams := by
    intro stream
    have hget := Table.get?_set r.streams r.nextStream stream ⟨node, false⟩
    show _ ↔ ∃ node', (r.streams.set r.nextStream ⟨node, false⟩).get? stream = _
    rw [List.mem_append, List.mem_singleton, h.streams, hget]
    by_cases hnew : stream = r.nextStream
    · rw [if_pos hnew]
      exact ⟨fun _ => ⟨node, rfl⟩, fun _ => Or.inr hnew⟩
    · rw [if_neg hnew]
      exact or_iff_left hnew
  counter := by
    show r.openStreams + 1 = _
    rw [h.counter, List.length_append, List.length_singleton, UInt64.ofNat_add]
    rfl

/-- A stream that is closed is open no longer, and the others stay as they are. -/
theorem closeStream (h : r.Opens opened) (stream : Nat) :
    (r.closeStream stream).Opens (opened.filter fun k => k ≠ stream) where
  nodup := h.nodup.filter _
  streams := by
    intro other
    have hget := get?_streams_closeStream r stream other
    rw [List.mem_filter, decide_eq_true_eq, h.streams]
    by_cases hother : other = stream
    · subst hother
      constructor
      · rintro ⟨-, hne⟩
        exact absurd rfl hne
      · rintro ⟨node, hopen⟩
        cases hget.2 _ hopen
    · rw [hget.1 hother]
      exact and_iff_left hother
  counter := by
    rcases closeStream_cases r stream with ⟨heq, hclosed⟩ | ⟨s, hs, hopen, heq⟩
    · -- a stream that is not open is not in the list either
      have hnot : ∀ k ∈ opened, k ≠ stream := by
        rintro k hmem rfl
        obtain ⟨node, hget⟩ := (h.streams k).1 hmem
        cases hclosed _ hget
      rw [heq, h.counter, List.filter_eq_self.2 (by simpa using hnot)]
    · have hmem : stream ∈ opened := (h.streams stream).2 ⟨s.node, by rw [hs, ← hopen]⟩
      rw [heq]
      show r.openStreams - 1 = _
      rw [h.counter, ← length_filter_ne h.nodup stream hmem, UInt64.ofNat_add]
      exact UInt64.add_sub_cancel _ _

theorem dropStream (h : r.Opens opened) (stream : Nat) :
    (r.dropStream stream).Opens (opened.filter fun k => k ≠ stream) where
  nodup := h.nodup.filter _
  streams := by
    intro other
    have herase := Table.get?_erase (r.closeStream stream).streams stream other
    show _ ↔ ∃ node, ((r.closeStream stream).streams.erase stream).get? other = _
    rw [(h.closeStream stream).streams, herase]
    by_cases hother : other = stream
    · subst hother
      rw [if_pos rfl]
      constructor
      · rintro ⟨node, hopen⟩
        cases (get?_streams_closeStream r other other).2 _ hopen
      · rintro ⟨node, hopen⟩
        cases hopen
    · rw [if_neg hother]
  counter := (h.closeStream stream).counter

/-- The number of open streams is reported, as long as the counter has room for it. -/
theorem nodeStreams_eq (h : r.Opens opened) (hroom : opened.length < UInt64.size) :
    r.stats.nodeStreams = opened.length := by
  rw [stats, h.counter, UInt64.toNat_ofNat_of_lt' hroom]

end Opens

end Relay

namespace ClockedRelay

/-! ## Runs -/

/-- An operation keeps the open streams those of the log. -/
theorem opens_step (s : ClockedRelay) (hnumbered : s.relay.Numbered) (opened : List Nat)
    (h : s.relay.Opens opened) (op : RelayOp) :
    (s.step op).2.relay.Opens (noteStream opened (op, (s.step op).1)) := by
  cases op with
  | openStream node => exact h.openStream hnumbered node
  | closeStream stream => exact h.closeStream stream
  | dropStream stream => exact h.dropStream stream
  | grant stream dbid capabilities =>
    simp only [step]
    split
    · next relay hgrant =>
      obtain ⟨grants, rfl⟩ := Relay.grant_eq_ok relay stream dbid capabilities hgrant
      exact ⟨h.nodup, h.streams, h.counter⟩
    · exact h
  | _ =>
    refine ⟨h.nodup, fun stream => ?_, ?_⟩
    · rw [(streams_step s _ (by simp) (by simp) (by simp) (by simp)).1]
      exact h.streams stream
    · rw [(streams_step s _ (by simp) (by simp) (by simp) (by simp)).2.2]
      exact h.counter

/-- A run keeps the open streams those of its log. -/
theorem opens_run (s : ClockedRelay) (hnumbered : s.relay.Numbered) (opened : List Nat)
    (h : s.relay.Opens opened) (ops : List RelayOp) :
    (s.run ops).relay.Opens ((s.log ops).foldl noteStream opened) := by
  induction ops generalizing s opened with
  | nil => exact h
  | cons op ops ih =>
    exact ih _ (s.numbered_step hnumbered op) _ (s.opens_step hnumbered opened h op)

/-! ## Streams that were closed -/

theorem nextStream_step (s : ClockedRelay) (op : RelayOp) :
    s.relay.nextStream ≤ (s.step op).2.relay.nextStream := by
  cases op with
  | openStream node => exact Nat.le_succ _
  | attach node => exact Nat.le_refl _
  | _ => exact Nat.le_of_eq (s.numbers_step _ (by simp) (by simp)).1.symm

theorem nextStream_run (s : ClockedRelay) (ops : List RelayOp) :
    s.relay.nextStream ≤ (s.run ops).relay.nextStream := by
  induction ops generalizing s with
  | nil => exact Nat.le_refl _
  | cons op ops ih => exact Nat.le_trans (s.nextStream_step op) (ih _)

/-- A stream that was opened in a run has a number that was given out. -/
theorem lt_nextStream (s : ClockedRelay) (ops : List RelayOp) (stream : Nat) (node : NodeId)
    (h : (RelayOp.openStream node, RelayAnswer.opened stream) ∈ s.log ops) :
    stream < (s.run ops).relay.nextStream := by
  induction ops generalizing s with
  | nil => cases h
  | cons op ops ih =>
    rcases List.mem_cons.1 h with heq | hmem
    · obtain ⟨rfl, hanswer⟩ := Prod.mk.inj heq
      obtain rfl : stream = s.relay.nextStream := RelayAnswer.opened.inj hanswer
      exact Nat.lt_of_lt_of_le (Nat.lt_succ_self _)
        (nextStream_run (s.step (.openStream node)).2 ops)
    · exact ih _ hmem

/-- A stream whose number was given out and that is not open does not open again. -/
theorem closed_run (s : ClockedRelay) (opened : List Nat) (stream : Nat)
    (hold : stream < s.relay.nextStream) (hclosed : stream ∉ opened) (ops : List RelayOp) :
    stream ∉ (s.log ops).foldl noteStream opened := by
  induction ops generalizing s opened with
  | nil => exact hclosed
  | cons op ops ih =>
    apply ih _ _ (Nat.lt_of_lt_of_le hold (s.nextStream_step op))
    unfold noteStream
    split
    · next node new heq =>
      obtain ⟨rfl, hanswer⟩ := Prod.mk.inj heq
      obtain rfl : s.relay.nextStream = new := RelayAnswer.opened.inj hanswer
      rw [List.mem_append, List.mem_singleton, not_or]
      exact ⟨hclosed, Nat.ne_of_lt hold⟩
    · exact fun hmem => hclosed (List.mem_filter.1 hmem).1
    · exact fun hmem => hclosed (List.mem_filter.1 hmem).1
    · exact hclosed

/-- Once a stream has been closed or let go, it is open no more. -/
theorem not_mem_openIn (s : ClockedRelay) (before after : List RelayOp) (op : RelayOp)
    (stream : Nat) (hop : op = .closeStream stream ∨ op = .dropStream stream) (node : NodeId)
    (hopened : (RelayOp.openStream node, RelayAnswer.opened stream) ∈ s.log before) :
    stream ∉ openIn (s.log (before ++ op :: after)) := by
  rw [openIn, log_append, List.foldl_append]
  have hold := lt_nextStream s before stream node hopened
  apply closed_run _ _ stream (Nat.lt_of_lt_of_le hold (nextStream_step _ op))
  rcases hop with rfl | rfl <;> simp [noteStream]

/-- A submission on a stream that is not open is refused, and changes nothing. -/
theorem submit_of_not_open (s : ClockedRelay) (opened : List Nat) (h : s.relay.Opens opened)
    (stream : Nat) (hclosed : stream ∉ opened) (dbid capabilities : UInt64) (raw : Bytes) :
    s.step (.submit stream dbid capabilities raw) = (.refused PendingTable.streamClosed, s) := by
  rw [h.streams] at hclosed
  have hsubmit : s.relay.submit s.now stream dbid capabilities raw =
      .error PendingTable.streamClosed := by
    unfold Relay.submit
    split
    · rfl
    · next e he =>
      rcases e with ⟨node, closed⟩
      cases closed with
      | true => rfl
      | false => exact absurd ⟨node, he⟩ hclosed
  simp only [step, hsubmit]

end ClockedRelay

end SigningGateway
