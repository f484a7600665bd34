import Mathlib.Data.List.Dedup
import Mathlib.Data.List.Sort
import SigningGateway.NodeId
import SigningGateway.Proofs.Json.RoundTrip
import SigningGateway.Proofs.Text.Hexadecimal

/-!
# Nodes and their texts

A node and its text in lower case stand for each other: a text of 64 digits names one node, whatever
the case of its digits, and nothing else names one.  The order of nodes is that of their texts, so
that it makes no difference whether nodes are sorted or their texts.

    parse s = .ok n ↔ s has digits only and n.toHex = s.toLower                  (parse_eq_ok_iff)
    a.before b ↔ a.toHex < b.toHex                                                    (before_iff)
    the texts of sortUnique ns are the sorted texts of ns                  (names_stand_for_nodes)
-/

namespace SigningGateway

namespace NodeId

open Hex (isHexDigit)

/-! ## Reading -/

theorem toHex_inj {a b : NodeId} (h : a.toHex = b.toHex) : a = b := by
  have hparse := parse_toHex a
  rw [h, parse_toHex] at hparse
  exact (Except.ok.inj hparse).symm

theorem parse_eq_ok_iff_decode (s : String) (n : NodeId) :
    parse s = .ok n ↔ Hex.decode s = .ok n.bytes := by
  rw [parse]
  cases hdecode : Hex.decode s with
  | error cause => simp
  | ok bytes =>
    simp only [ofBytes, Except.ok.injEq]
    split
    · next hlength =>
      rw [Except.ok.injEq]
      exact ⟨fun h => congrArg NodeId.bytes h, fun h => by cases n; cases h; rfl⟩
    · next hlength =>
      simp only [reduceCtorEq, false_iff]
      rintro rfl
      exact hlength n.length_bytes

/-- A text names a node if it has digits only and is, in lower case, the text of the node. -/
theorem parse_eq_ok_iff (s : String) (n : NodeId) :
    parse s = .ok n ↔ s.toList.all isHexDigit = true ∧ n.toHex = s.toLower := by
  rw [parse_eq_ok_iff_decode, Hex.decode_eq_ok_iff, toHex]

/-- A text names a node if it has 64 digits and nothing else. -/
theorem exists_parse_iff (s : String) :
    (∃ n, parse s = .ok n) ↔ s.length = 64 ∧ s.toList.all isHexDigit = true := by
  have hlength : ∀ bytes, Hex.decode s = .ok bytes → s.length = 2 * bytes.length := by
    intro bytes hdecode
    have hlower := ((Hex.decode_eq_ok_iff s bytes).1 hdecode).2
    rw [← Hex.length_encode bytes, hlower, Hex.toLower_eq, String.length_map]
  constructor
  · rintro ⟨n, hparse⟩
    have hsize := hlength n.bytes ((parse_eq_ok_iff_decode s n).1 hparse)
    rw [n.length_bytes] at hsize
    exact ⟨hsize, ((parse_eq_ok_iff s n).1 hparse).1⟩
  · rintro ⟨hsize, hdigits⟩
    obtain ⟨bytes, hdecode⟩ := (Hex.exists_decode_iff s).2 ⟨hdigits, by omega⟩
    have hbytes := hlength bytes hdecode
    exact ⟨⟨bytes, by omega⟩, (parse_eq_ok_iff_decode s _).2 hdecode⟩

/-! ## Order -/

theorem bytesBefore_iff (as bs : Bytes) : bytesBefore as bs = true ↔ as < bs := by
  fun_induction bytesBefore as bs with
  | case1 as => simp
  | case2 b bs => simp
  | case3 a as bs ih => simp [ih]
  | case4 a as b bs hne => simp [List.cons_lt_cons_iff, hne, UInt8.lt_iff_toNat_lt]

theorem before_iff (a b : NodeId) : a.before b = true ↔ a.toHex < b.toHex := by
  rw [before, bytesBefore_iff, toHex, toHex, Hex.encode_lt_iff]

/-- A node that is put into a sorted list takes its place in the order. -/
theorem pairwise_insertSorted (n : NodeId) (ns : List NodeId)
    (h : ns.Pairwise fun a b => a.toHex < b.toHex) :
    (insertSorted n ns).Pairwise fun a b => a.toHex < b.toHex := by
  induction ns with
  | nil => exact List.pairwise_singleton _ n
  | cons m rest ih =>
    have hrest := List.pairwise_cons.1 h
    unfold insertSorted
    split
    · exact h
    · next hne =>
      split
      · next hbefore =>
        have hlt := (before_iff n m).1 hbefore
        refine List.pairwise_cons.2 ⟨fun x hx => ?_, h⟩
        rcases List.mem_cons.1 hx with rfl | hx
        · exact hlt
        · exact hlt.trans (hrest.1 x hx)
      · next hafter =>
        have hlt : m.toHex < n.toHex := by
          rw [before_iff, not_lt] at hafter
          exact lt_of_le_of_ne hafter fun heq => hne (toHex_inj heq).symm
        refine List.pairwise_cons.2 ⟨fun x hx => ?_, ih hrest.2⟩
        rcases (mem_insertSorted n x rest).1 hx with rfl | hx
        · exact hlt
        · exact hrest.1 x hx

theorem pairwise_sortUnique (ns : List NodeId) :
    (sortUnique ns).Pairwise fun a b => a.toHex < b.toHex := by
  induction ns with
  | nil => exact List.Pairwise.nil
  | cons n rest ih => exact pairwise_insertSorted n _ ih

/-- The sorted texts of nodes are the texts of the sorted nodes. -/
theorem map_toHex_sortUnique (ns : List NodeId) :
    (sortUnique ns).map toHex = ((ns.map toHex).mergeSort).dedup := by
  have hsorted : ((ns.map toHex).mergeSort).dedup.Pairwise (· < ·) := by
    have hle := (List.pairwise_mergeSort' (· ≤ ·) (ns.map toHex)).sublist (List.dedup_sublist _)
    exact (hle.and (List.nodup_dedup _)).imp fun h => lt_of_le_of_ne h.1 h.2
  refine List.Pairwise.eq_of_mem_iff (List.pairwise_map.2 (pairwise_sortUnique ns)) hsorted ?_
  intro s
  simp only [List.mem_dedup, List.mem_mergeSort, List.mem_map, mem_sortUnique]

/-- Nodes are sorted by their own order. -/
theorem sortUnique_eq (ns : List NodeId) :
    sortUnique ns = (ns.mergeSort fun a b => !b.before a).dedup := by
  have hle : ∀ a b : NodeId, (!b.before a) = decide (a.toHex ≤ b.toHex) := fun a b => by
    rw [Bool.eq_iff_iff, Bool.not_eq_true', Bool.eq_false_iff, ne_eq, before_iff, not_lt,
      decide_eq_true_eq]
  have hsort : (ns.mergeSort fun a b => !b.before a).map toHex = (ns.map toHex).mergeSort :=
    List.map_mergeSort fun a _ b _ => hle a b
  apply List.map_injective_iff.2 fun a b => toHex_inj
  calc (sortUnique ns).map toHex
      = ((ns.map toHex).mergeSort).dedup := map_toHex_sortUnique ns
    _ = ((ns.mergeSort fun a b => !b.before a).map toHex).dedup := by rw [hsort]
    _ = (ns.mergeSort fun a b => !b.before a).dedup.map toHex :=
        List.dedup_map_of_injective (fun a b => toHex_inj) _

/-- Texts and nodes stand for each other.  A text names a node just if it has 64 hexadecimal digits
of either case and nothing else, and the node is then written as the text in lower case; every node
is read back from its text, and from the JSON of its text.  Nodes are ordered as their texts are, by
characters and by bytes, so that sorting nodes without repetition is sorting their texts. -/
theorem names_stand_for_nodes :
    (∀ s : String, (∃ n, parse s = .ok n) ↔ s.length = 64 ∧ s.toList.all isHexDigit = true) ∧
    (∀ (s : String) (n : NodeId),
      parse s = .ok n ↔ s.toList.all isHexDigit = true ∧ n.toHex = s.toLower) ∧
    (∀ n : NodeId, parse n.toHex = .ok n ∧
      Json.decodeText Json.Decode.nodeId (Json.text n.toHex).compact = .ok n) ∧
    (∀ a b : NodeId, (a.before b = true ↔ a.bytes < b.bytes) ∧
      (a.before b = true ↔ a.toHex < b.toHex) ∧
      (a.before b = true ↔ Bytes.ofText a.toHex < Bytes.ofText b.toHex)) ∧
    ∀ ns : List NodeId, sortUnique ns = (ns.mergeSort fun a b => !b.before a).dedup ∧
      (sortUnique ns).map toHex = ((ns.map toHex).mergeSort).dedup := by
  refine ⟨exists_parse_iff, parse_eq_ok_iff, fun n => ⟨parse_toHex n, ?_⟩, fun a b => ?_,
    fun ns => ⟨sortUnique_eq ns, map_toHex_sortUnique ns⟩⟩
  · rw [Json.decodeText_compact _ _ rfl, Json.Decode.nodeId_toHex]
  · have hbytes := bytesBefore_iff a.bytes b.bytes
    exact ⟨hbytes, before_iff a b, hbytes.trans (Hex.ofText_encode_lt_iff _ _).symm⟩

end NodeId

end SigningGateway
