import Mathlib.Data.List.Basic
import Mathlib.Data.String.Basic
import SigningGateway.Hex

/-!
# Hexadecimal texts

A text is read half a byte at a time, and its digits are ordered as their values are.  So a text is
hexadecimal if it has an even number of digits of either case and nothing else, the bytes that it
stands for are written as the same text in lower case, and byte strings are ordered as their texts.

    decode s = .ok bytes ↔ s has digits only and encode bytes = s.toLower         (decode_eq_ok_iff)
    encode as < encode bs ↔ as < bs                                                  (encode_lt_iff)
-/

namespace SigningGateway

namespace Hex

/-! ## Half bytes -/

/-- The half bytes of a byte string, the high one of each byte first. -/
def nibbles : Bytes → List (Fin 16)
  | [] => []
  | b :: rest =>
    ⟨b.toNat / 16, Nat.div_lt_of_lt_mul b.toNat_lt⟩ ::
      ⟨b.toNat % 16, Nat.mod_lt _ (by decide)⟩ :: nibbles rest

@[simp] theorem length_nibbles (bytes : Bytes) : (nibbles bytes).length = 2 * bytes.length := by
  induction bytes with
  | nil => rfl
  | cons b rest ih => simp [nibbles, ih]; omega

theorem digits_eq_map (bytes : Bytes) :
    digits bytes = (nibbles bytes).map fun n => digit n.val := by
  induction bytes with
  | nil => rfl
  | cons b rest ih => simp [digits, nibbles, ih]

/-- The half bytes of the byte that they make up. -/
theorem nibbles_cons_ofNat (high low : Fin 16) (rest : Bytes) :
    nibbles (UInt8.ofNat (16 * high + low) :: rest) = high :: low :: nibbles rest := by
  have hbyte : (UInt8.ofNat (16 * high.val + low.val)).toNat = 16 * high.val + low.val :=
    UInt8.toNat_ofNat_of_lt' (by simp only [UInt8.size]; omega)
  simp only [nibbles, hbyte, List.cons.injEq, Fin.ext_iff, and_true]
  omega

/-- Any even number of half bytes makes up bytes. -/
theorem exists_nibbles_eq : ∀ ns : List (Fin 16), ns.length % 2 = 0 → ∃ bytes, nibbles bytes = ns
  | [], _ => ⟨[], rfl⟩
  | [_], h => by cases h
  | high :: low :: ns, h => by
    obtain ⟨bytes, rfl⟩ := exists_nibbles_eq ns (by simp only [List.length_cons] at h; omega)
    exact ⟨_, nibbles_cons_ofNat high low bytes⟩

theorem nibbles_inj {as bs : Bytes} (h : nibbles as = nibbles bs) : as = bs := by
  have hdigits : encode as = encode bs := by rw [encode, encode, digits_eq_map, digits_eq_map, h]
  have hdecode := decode_encode as
  rw [hdigits, decode_encode] at hdecode
  exact (Except.ok.inj hdecode).symm

/-! ## Characters -/

/-- Half bytes have different digits. -/
theorem digit_eq_iff : ∀ m n : Fin 16, digit m = digit n ↔ m = n := by decide

theorem toNat_lt_of_isHexDigit (c : Char) (h : isHexDigit c = true) : c.toNat < 128 := by
  have hends : ('9'.toNat = 57 ∧ 'F'.toNat = 70) ∧ 'f'.toNat = 102 := ⟨⟨rfl, rfl⟩, rfl⟩
  simp only [isHexDigit, Char.isDigit, Bool.or_eq_true, Bool.and_eq_true, decide_eq_true_eq,
    Char.le_def, UInt32.le_iff_toNat_le] at h
  simp only [Char.toNat] at hends ⊢
  omega

/-- A digit takes one byte, whose value is that of the digit in lower case. -/
theorem value?_of_isHexDigit (c : Char) (h : isHexDigit c = true) :
    ∃ (b : UInt8) (n : Fin 16), String.utf8EncodeChar c = [b] ∧ value? b.toNat = some n.val ∧
      c.toLower = digit n := by
  have hall : ∀ k < 128, isHexDigit (Char.ofNat k) = true → ∃ n : Fin 16,
      String.utf8EncodeChar (Char.ofNat k) = [UInt8.ofNat k] ∧
        value? (UInt8.ofNat k).toNat = some n.val ∧ (Char.ofNat k).toLower = digit n := by
    decide +kernel
  obtain ⟨n, hn⟩ := hall c.toNat (toNat_lt_of_isHexDigit c h) (by rwa [Char.ofNat_toNat])
  rw [Char.ofNat_toNat] at hn
  exact ⟨_, n, hn⟩

/-- Every byte of a character outside ASCII lies above the digits, its last one as well. -/
theorem value?_of_large (c : Char) (h : 128 ≤ c.toNat) :
    ∃ b ∈ String.utf8EncodeChar c, value? b.toNat = none := by
  have hlarge : value? (UInt8.ofNat (c.toNat % 64 + 128)).toNat = none := by
    have hall : ∀ k < 64, value? (UInt8.ofNat (k + 128)).toNat = none := by decide +kernel
    exact hall _ (Nat.mod_lt _ (by decide))
  refine ⟨_, ?_, hlarge⟩
  unfold String.utf8EncodeChar
  simp only [Char.toNat] at h ⊢
  rw [if_neg (by omega)]
  split
  · simp
  · split <;> simp

/-- Of a character that is no digit some byte has no value. -/
theorem value?_of_not_isHexDigit (c : Char) (h : isHexDigit c = false) :
    ∃ b ∈ String.utf8EncodeChar c, value? b.toNat = none := by
  have hall : ∀ k < 128, isHexDigit (Char.ofNat k) = false →
      ∃ b ∈ String.utf8EncodeChar (Char.ofNat k), value? b.toNat = none := by
    decide +kernel
  by_cases hsmall : c.toNat < 128
  · have hc := hall c.toNat hsmall
    rw [Char.ofNat_toNat] at hc
    exact hc h
  · exact value?_of_large c (by omega)

/-- The values of the digits written by bytes. -/
def values (text : Bytes) : List (Option Nat) := text.map fun b => value? b.toNat

/-- The bytes of a text have the values of half bytes just if the text is, in lower case, that of
the digits of these. -/
theorem values_encode (cs : List Char) (ns : List (Fin 16)) :
    values (Utf8.encode cs) = ns.map (fun n => some n.val) ↔
      cs.all isHexDigit = true ∧ cs.map Char.toLower = ns.map fun n => digit n.val := by
  induction cs generalizing ns with
  | nil => cases ns <;> simp [values, Utf8.encode]
  | cons c cs ih =>
    simp only [values, Utf8.encode, List.flatMap_cons, List.map_append, List.map_cons, List.all_cons,
      Bool.and_eq_true] at ih ⊢
    cases hc : isHexDigit c with
    | true =>
      obtain ⟨b, m, hb, hvalue, hlower⟩ := value?_of_isHexDigit c hc
      rw [hb, List.map_singleton, List.singleton_append, hvalue, hlower]
      cases ns with
      | nil => simp
      | cons n ns => simp [ih, digit_eq_iff, Fin.val_inj, and_left_comm]
    | false =>
      obtain ⟨b, hb, hvalue⟩ := value?_of_not_isHexDigit c hc
      have hne : values (String.utf8EncodeChar c) ++ values (cs.flatMap String.utf8EncodeChar) ≠
          ns.map fun n => some n.val := by
        intro heq
        have hmem : none ∈ ns.map fun n => some n.val := by
          rw [← heq, List.mem_append]
          exact Or.inl (List.mem_map.2 ⟨b, hb, hvalue⟩)
        simp at hmem
      simpa [values] using hne

/-! ## Reading -/

theorem value?_lt (m n : Nat) (h : value? m = some n) : n < 16 := by
  simp only [value?] at h
  split at h
  · cases h; omega
  · split at h
    · cases h; omega
    · split at h
      · cases h; omega
      · cases h

/-- Texts are read half a byte at a time. -/
theorem decodePairs_eq_ok_iff (text : Bytes) (index : Nat) (bytes : Bytes)
    (h : text.length % 2 = 0) :
    decodePairs text index = .ok bytes ↔
      values text = (nibbles bytes).map fun n => some n.val := by
  fun_induction decodePairs text index generalizing bytes with
  | case1 high low rest index hhigh => cases bytes <;> simp [values, nibbles, hhigh]
  | case2 high low rest index n hlow hhigh => cases bytes <;> simp [values, nibbles, hlow]
  | case3 high low rest index m n hlow hhigh ih =>
    have hrest : rest.length % 2 = 0 := by simp only [List.length_cons] at h; omega
    have hm := value?_lt _ m hhigh
    have hn := value?_lt _ n hlow
    have hbyte : ∀ tail, nibbles (UInt8.ofNat (16 * m + n) :: tail) =
        ⟨m, hm⟩ :: ⟨n, hn⟩ :: nibbles tail := nibbles_cons_ofNat ⟨m, hm⟩ ⟨n, hn⟩
    have hvalues : values (high :: low :: rest) = some m :: some n :: values rest := by
      rw [values, List.map_cons, List.map_cons, hhigh, hlow, values]
    rw [hvalues]
    constructor
    · intro hok
      cases htail : decodePairs rest (index + 2) with
      | error cause => rw [htail] at hok; cases hok
      | ok tail =>
        rw [htail] at hok
        rw [← Except.ok.inj hok, hbyte, (ih tail hrest).1 htail]
        rfl
    · intro heq
      cases bytes with
      | nil => cases heq
      | cons b tail =>
        simp only [nibbles, List.map_cons, List.cons.injEq, Option.some.injEq] at heq
        have hb : UInt8.ofNat (16 * m + n) :: tail = b :: tail :=
          nibbles_inj (by rw [hbyte, nibbles]; simp only [heq.1, heq.2.1])
        rw [(ih tail hrest).2 heq.2.2, ← hb]
        rfl
  | case4 text index hshort =>
    have hnil : text = [] := by
      match text, h with
      | [], _ => rfl
      | high :: low :: rest, _ => exact absurd rfl (hshort high low rest)
    subst hnil
    cases bytes <;> simp [values, nibbles]

theorem decodeBytes_eq_ok_iff (text bytes : Bytes) :
    decodeBytes text = .ok bytes ↔
      values text = (nibbles bytes).map fun n => some n.val := by
  rw [decodeBytes]
  split
  · next heven => exact decodePairs_eq_ok_iff text 0 bytes heven
  · next hodd =>
    simp only [reduceCtorEq, false_iff]
    intro heq
    have hlength := congrArg List.length heq
    simp only [values, List.length_map, length_nibbles] at hlength
    omega

/-- A text goes into lower case letter by letter. -/
theorem toLower_eq (s : String) : s.toLower = s.map Char.toLower := rfl

/-- A text stands for bytes if it has digits only and is, in lower case, what is written of them. -/
theorem decode_eq_ok_iff (s : String) (bytes : Bytes) :
    decode s = .ok bytes ↔ s.toList.all isHexDigit = true ∧ encode bytes = s.toLower := by
  have htext : encode bytes = s.toLower ↔
      s.toList.map Char.toLower = (nibbles bytes).map fun n => digit n.val := by
    rw [← String.toList_inj, encode, String.toList_ofList, toLower_eq, String.toList_map,
      digits_eq_map, eq_comm]
  rw [decode, Bytes.ofText, decodeBytes_eq_ok_iff, values_encode, htext]

@[simp] theorem length_encode (bytes : Bytes) : (encode bytes).length = 2 * bytes.length := by
  rw [encode, String.length_ofList, length_digits]

/-- Digits of either case are in lower case those of half bytes. -/
theorem exists_map_digit_eq (cs : List Char) (h : cs.all isHexDigit = true) :
    ∃ ns : List (Fin 16), cs.map Char.toLower = ns.map fun n => digit n.val := by
  induction cs with
  | nil => exact ⟨[], rfl⟩
  | cons c cs ih =>
    rw [List.all_cons, Bool.and_eq_true] at h
    obtain ⟨-, n, -, -, hlower⟩ := value?_of_isHexDigit c h.1
    obtain ⟨ns, hns⟩ := ih h.2
    exact ⟨n :: ns, by rw [List.map_cons, List.map_cons, hlower, hns]⟩

/-- A text is hexadecimal if it has an even number of digits and nothing else. -/
theorem exists_decode_iff (s : String) :
    (∃ bytes, decode s = .ok bytes) ↔ s.toList.all isHexDigit = true ∧ s.length % 2 = 0 := by
  constructor
  · rintro ⟨bytes, hok⟩
    obtain ⟨hdigits, hlower⟩ := (decode_eq_ok_iff s bytes).1 hok
    have hlength := congrArg String.length hlower
    rw [length_encode, toLower_eq, String.length_map] at hlength
    exact ⟨hdigits, by omega⟩
  · rintro ⟨hdigits, heven⟩
    obtain ⟨ns, hns⟩ := exists_map_digit_eq s.toList hdigits
    have hlength : ns.length = s.length := by
      have hlength := congrArg List.length hns
      rw [List.length_map, List.length_map, String.length_toList] at hlength
      exact hlength.symm
    obtain ⟨bytes, rfl⟩ := exists_nibbles_eq ns (by omega)
    refine ⟨bytes, (decode_eq_ok_iff s bytes).2 ⟨hdigits, ?_⟩⟩
    rw [encode, digits_eq_map, ← hns, ← String.toList_map, String.ofList_toList, toLower_eq]

/-! ## Order -/

theorem nibbles_lt_iff (as bs : Bytes) : nibbles as < nibbles bs ↔ as < bs := by
  induction as generalizing bs with
  | nil => cases bs <;> simp [nibbles]
  | cons a as ih =>
    cases bs with
    | nil => simp [nibbles]
    | cons b bs =>
      have hlt : a < b ↔ a.toNat / 16 < b.toNat / 16 ∨
          a.toNat / 16 = b.toNat / 16 ∧ a.toNat % 16 < b.toNat % 16 := by
        rw [UInt8.lt_iff_toNat_lt]
        omega
      have heq : a = b ↔ a.toNat / 16 = b.toNat / 16 ∧ a.toNat % 16 = b.toNat % 16 := by
        rw [← UInt8.toNat_inj]
        omega
      simp only [nibbles, List.cons_lt_cons_iff, ih, Fin.lt_def, Fin.ext_iff, hlt, heq, and_or_left,
        or_assoc, and_assoc]

/-- Lists are in dictionary order just if their images are, under a map that keeps the order. -/
theorem map_lt_map_iff {α : Type} [LT α] (f : Fin 16 → α) (hlt : ∀ m n, f m < f n ↔ m < n)
    (hinj : ∀ m n, f m = f n ↔ m = n) (ms ns : List (Fin 16)) :
    ms.map f < ns.map f ↔ ms < ns := by
  induction ms generalizing ns with
  | nil => cases ns <;> simp
  | cons m ms ih =>
    cases ns with
    | nil => simp
    | cons n ns => simp only [List.map_cons, List.cons_lt_cons_iff, ih, hlt, hinj]

/-- Byte strings are ordered as their texts are. -/
theorem encode_lt_iff (as bs : Bytes) : encode as < encode bs ↔ as < bs := by
  have hlt : ∀ m n : Fin 16, digit m < digit n ↔ m < n := by decide
  rw [String.lt_iff_toList_lt, encode, encode, String.toList_ofList, String.toList_ofList,
    digits_eq_map, digits_eq_map, map_lt_map_iff _ hlt digit_eq_iff, nibbles_lt_iff]

/-- The bytes of the text of a byte string. -/
theorem ofText_encode (bytes : Bytes) :
    Bytes.ofText (encode bytes) = (nibbles bytes).map fun n => UInt8.ofNat (digit n.val).toNat := by
  rw [Bytes.ofText, encode, String.toList_ofList, digits_eq_map, Utf8.encode, List.flatMap_map]
  induction nibbles bytes with
  | nil => rfl
  | cons n ns ih =>
    rw [List.flatMap_cons, utf8EncodeChar_digit n n.isLt, ih, List.map_cons,
      List.singleton_append]

/-- Byte strings are ordered as the bytes of their texts are. -/
theorem ofText_encode_lt_iff (as bs : Bytes) :
    Bytes.ofText (encode as) < Bytes.ofText (encode bs) ↔ as < bs := by
  have hlt : ∀ m n : Fin 16,
      UInt8.ofNat (digit m).toNat < UInt8.ofNat (digit n).toNat ↔ m < n := by decide
  have hinj : ∀ m n : Fin 16,
      UInt8.ofNat (digit m).toNat = UInt8.ofNat (digit n).toNat ↔ m = n := by decide
  rw [ofText_encode, ofText_encode, map_lt_map_iff _ hlt hinj, nibbles_lt_iff]

end Hex

end SigningGateway
