import SigningGateway.Json.Reader
import SigningGateway.Json.Writer
import SigningGateway.Proofs.Text.Digits

/-!
# Written values are read back

A text *reads as* a value if a reader that starts at it, with enough fuel, returns the value and
stops behind the text, whatever follows.  The texts of the parts of a value read as these parts, so
the text of the whole does too, with any blanks between its tokens.

    isPlain v → Reads (writePretty level v) v                                (reads_writePretty)
    isPlain v → Reads (write v) v                                                  (reads_write)
    isPlain v → Document.ofChars (writePretty 0 v) = ⟨v, true⟩               (ofChars_writePretty)
    isPlain v → Document.ofChars (write v) = ⟨v, true⟩                             (ofChars_write)
-/

namespace SigningGateway

namespace Json

/-! ## Blanks -/

theorem skipBlanks_append (blanks cs : List Char) (h : ∀ c ∈ blanks, isBlank c = true) :
    skipBlanks (blanks ++ cs) = skipBlanks cs :=
  List.dropWhile_append_of_pos h

theorem skipBlanks_cons (c : Char) (cs : List Char) (h : isBlank c = false) :
    skipBlanks (c :: cs) = c :: cs := by
  simp [skipBlanks, h]

theorem readValue_blanks (fuel : Nat) (blanks cs : List Char) (h : ∀ c ∈ blanks, isBlank c = true) :
    readValue fuel (blanks ++ cs) = readValue fuel cs := by
  cases fuel with
  | zero => rw [readValue, readValue]
  | succ fuel => rw [readValue, readValue, skipBlanks_append blanks cs h]

theorem readMembers_blanks (fuel : Nat) (blanks cs : List Char)
    (h : ∀ c ∈ blanks, isBlank c = true) :
    readMembers fuel (blanks ++ cs) = readMembers fuel cs := by
  cases fuel with
  | zero => rw [readMembers, readMembers]
  | succ fuel => rw [readMembers, readMembers, skipBlanks_append blanks cs h]

/-! ## Literals -/

/-- The piece as which a written character is read. -/
def pieceOf (c : Char) : Piece :=
  if c.toNat < 0x20 ∧ c ∉ ['\x08', '\t', '\n', '\x0c', '\r'] then .unit c.toNat else .char c

theorem scanLiteral_escape (e c : Char) (rest : List Char) (hnamed : escape? e = some c) :
    scanLiteral ('\\' :: e :: rest) =
      (scanLiteral rest).map fun p => (.char c :: p.1, p.2) := by
  have hother : e ≠ 'u' := by
    rintro rfl
    cases hnamed
  rw [scanLiteral.eq_def]
  split
  · next heq => cases heq
  · next heq => cases heq
  · next heq => exact absurd (List.cons.inj (List.cons.inj heq).2).1 hother
  · next e' rest' _ heq =>
    obtain ⟨rfl, rfl⟩ := List.cons.inj (List.cons.inj heq).2
    rw [hnamed]
    cases scanLiteral rest <;> rfl
  · next hno heq =>
    obtain ⟨rfl, rfl⟩ := List.cons.inj heq
    exact (hno e rest rfl rfl).elim

theorem scanLiteral_unit (n : Nat) (rest : List Char) (h : n < 0x100) :
    scanLiteral ('\\' :: 'u' :: '0' :: '0' :: Hex.digit (n / 16) :: Hex.digit (n % 16) :: rest) =
      (scanLiteral rest).map fun p => (.unit n :: p.1, p.2) := by
  have hunit : unit? '0' '0' (Hex.digit (n / 16)) (Hex.digit (n % 16)) = some n := by
    have hzero : Hex.value? '0'.toNat = some 0 := rfl
    simp only [unit?, hzero, Hex.value?_digit _ (show n / 16 < 16 by omega),
      Hex.value?_digit _ (show n % 16 < 16 by omega), bind, Option.bind, pure]
    congr 1
    omega
  rw [scanLiteral, hunit]
  cases scanLiteral rest <;> rfl

theorem scanLiteral_plain (c : Char) (rest : List Char) (hquote : c ≠ '"') (hslash : c ≠ '\\')
    (h : ¬c.toNat < 0x20) :
    scanLiteral (c :: rest) = (scanLiteral rest).map fun p => (.char c :: p.1, p.2) := by
  rw [scanLiteral.eq_def]
  split
  · next heq => cases heq
  · next heq => exact absurd (List.cons.inj heq).1 hquote
  · next heq => exact absurd (List.cons.inj heq).1 hslash
  · next heq => exact absurd (List.cons.inj heq).1 hslash
  · next heq =>
    obtain ⟨rfl, rfl⟩ := List.cons.inj heq
    rw [if_neg (by simp [h, hslash])]
    cases scanLiteral rest <;> rfl

/-- A written character is read as one piece. -/
theorem scanLiteral_writeChar (c : Char) (rest : List Char) :
    scanLiteral (writeChar c ++ rest) =
      (scanLiteral rest).map fun p => (pieceOf c :: p.1, p.2) := by
  by_cases hnamed : c ∈ ['"', '\\', '\x08', '\t', '\n', '\x0c', '\r']
  · simp only [List.mem_cons, List.not_mem_nil, or_false] at hnamed
    rcases hnamed with rfl | rfl | rfl | rfl | rfl | rfl | rfl <;>
      exact scanLiteral_escape _ _ rest rfl
  · simp only [List.mem_cons, List.not_mem_nil, or_false, not_or] at hnamed
    obtain ⟨hquote, hslash, hb, ht, hn, hf, hr⟩ := hnamed
    rw [writeChar, if_neg hquote, if_neg hslash, if_neg hb, if_neg ht, if_neg hn, if_neg hf,
      if_neg hr]
    split
    · next hcontrol =>
      have hpiece : pieceOf c = .unit c.toNat := if_pos ⟨hcontrol, by simp [hb, ht, hn, hf, hr]⟩
      rw [hpiece]
      exact scanLiteral_unit c.toNat rest (by omega)
    · next hcontrol =>
      have hpiece : pieceOf c = .char c := if_neg fun h => hcontrol h.1
      rw [hpiece]
      exact scanLiteral_plain c rest hquote hslash hcontrol

theorem scanLiteral_flatMap (cs rest : List Char) :
    scanLiteral (cs.flatMap writeChar ++ '"' :: rest) = some (cs.map pieceOf, rest) := by
  induction cs with
  | nil => rw [List.flatMap_nil, List.nil_append, scanLiteral, List.map_nil]
  | cons c cs ih =>
    rw [List.flatMap_cons, List.append_assoc, scanLiteral_writeChar, ih]
    rfl

theorem pieceChars_unit (n : Nat) (pieces : List Piece) (h : n < 0x20) :
    pieceChars (.unit n :: pieces) = (pieceChars pieces).map (Char.ofNat n :: ·) := by
  have hhigh : isHighHalf n = false := by simp only [isHighHalf]; simp; omega
  have hlow : isLowHalf n = false := by simp only [isLowHalf]; simp; omega
  cases pieces with
  | nil => simp [pieceChars, hhigh, hlow]
  | cons piece pieces => cases piece <;> simp [pieceChars, hhigh, hlow]

theorem pieceChars_map (cs : List Char) : pieceChars (cs.map pieceOf) = some cs := by
  induction cs with
  | nil => rfl
  | cons c cs ih =>
    rw [List.map_cons, pieceOf]
    split
    · next h => rw [pieceChars_unit _ _ h.1, ih, Option.map_some, Char.ofNat_toNat]
    · rw [pieceChars, ih, Option.map_some]

/-- A literal is read to its closing quote, and tells its text. -/
theorem scanLiteral_writeString (s : String) (rest : List Char) :
    ∃ pieces, scanLiteral (s.toList.flatMap writeChar ++ '"' :: rest) = some (pieces, rest) ∧
      pieceText pieces = some s :=
  ⟨_, scanLiteral_flatMap _ _, by rw [pieceText, pieceChars_map]; simp⟩

/-! ## Values -/

/-- A text in front of which a value ends: blanks, a comma or a closing bracket, or nothing. -/
def EndsValue (cs : List Char) : Prop :=
  ∀ c ∈ cs.head?, isBlank c = true ∨ c = ',' ∨ c = ']' ∨ c = '}'

theorem endsValue_nil : EndsValue [] := by
  intro c hc
  cases hc

theorem endsValue_cons (c : Char) (cs : List Char)
    (h : isBlank c = true ∨ c = ',' ∨ c = ']' ∨ c = '}') : EndsValue (c :: cs) := by
  intro c' hc'
  obtain rfl := Option.some.inj hc'
  exact h

theorem endsValue_append (blanks cs : List Char) (hblanks : ∀ c ∈ blanks, isBlank c = true)
    (h : EndsValue cs) : EndsValue (blanks ++ cs) := by
  cases blanks with
  | nil => exact h
  | cons c blanks => exact endsValue_cons c _ (Or.inl (hblanks c List.mem_cons_self))

/-- What ends a value goes on with no number. -/
theorem EndsValue.ends_number {cs : List Char} (h : EndsValue cs) :
    ∀ c ∈ cs.head?, c.isDigit = false ∧ c ≠ '.' ∧ c ≠ 'e' ∧ c ≠ 'E' := by
  intro c hc
  have hcases := h c hc
  simp only [isBlank, Bool.or_eq_true, decide_eq_true_eq] at hcases
  rcases hcases with (((rfl | rfl) | rfl) | rfl) | rfl | rfl | rfl <;> decide

/-- The text reads as the value, whatever follows. -/
structure Reads (cs : List Char) (v : Json) : Prop where
  starts : ∃ c tail, cs = c :: tail ∧ isBlank c = false ∧ c ≠ ']'
  reads : ∀ fuel rest, EndsValue rest → 2 * cs.length ≤ fuel →
    readValue fuel (cs ++ rest) = (v, rest)

theorem readValue_scalar (fuel : Nat) (c : Char) (cs : List Char) (hblank : isBlank c = false)
    (h : c ≠ '"' ∧ c ≠ '[' ∧ c ≠ '\x7b') :
    readValue (fuel + 1) (c :: cs) = readScalar (c :: cs) := by
  rw [readValue, skipBlanks_cons c cs hblank]
  split
  · next heq => exact absurd (List.cons.inj heq).1 h.1
  · next heq => exact absurd (List.cons.inj heq).1 h.2.1
  · next heq => exact absurd (List.cons.inj heq).1 h.2.2
  · rfl

theorem reads_null : Reads ['n', 'u', 'l', 'l'] .null where
  starts := ⟨'n', _, rfl, rfl, by decide⟩
  reads := by
    intro fuel rest _ hfuel
    obtain ⟨fuel, rfl⟩ : ∃ k, fuel = k + 1 := ⟨fuel - 1, by simp at hfuel; omega⟩
    exact readValue_scalar fuel 'n' _ rfl (by decide)

theorem reads_bool (b : Bool) : Reads (write (.bool b)) (.bool b) := by
  cases b with
  | true =>
    refine ⟨⟨'t', _, rfl, rfl, by decide⟩, fun fuel rest _ hfuel => ?_⟩
    obtain ⟨fuel, rfl⟩ : ∃ k, fuel = k + 1 := ⟨fuel - 1, by simp [write] at hfuel; omega⟩
    exact readValue_scalar fuel 't' _ rfl (by decide)
  | false =>
    refine ⟨⟨'f', _, rfl, rfl, by decide⟩, fun fuel rest _ hfuel => ?_⟩
    obtain ⟨fuel, rfl⟩ : ∃ k, fuel = k + 1 := ⟨fuel - 1, by simp [write] at hfuel; omega⟩
    exact readValue_scalar fuel 'f' _ rfl (by decide)

theorem reads_string (s : String) : Reads (writeString s) (.string (some s)) := by
  refine ⟨⟨'"', _, rfl, rfl, by decide⟩, fun fuel rest _ hfuel => ?_⟩
  obtain ⟨fuel, rfl⟩ : ∃ k, fuel = k + 1 := ⟨fuel - 1, by simp [writeString] at hfuel; omega⟩
  obtain ⟨pieces, hscan, htext⟩ := scanLiteral_writeString s rest
  have hwhole : writeString s ++ rest = '"' :: (s.toList.flatMap writeChar ++ '"' :: rest) := by
    simp [writeString]
  rw [hwhole, readValue, skipBlanks_cons '"' _ rfl]
  simp only [hscan, htext]

/-! ## Numbers -/

theorem scanUnsigned_toDigits (n : Nat) (rest : List Char) (h : EndsValue rest) :
    scanUnsigned (Nat.toDigits 10 n ++ rest) = some (⟨n, 0, true⟩, rest) := by
  have hends := h.ends_number
  have hrest : NoDigit rest := fun c hc => (hends c hc).1
  have hleading : (Nat.toDigits 10 n).head? = some '0' → (Nat.toDigits 10 n).length = 1 := by
    intro hzero
    rw [eq_zero_of_leading_zero n hzero]
    rfl
  have hfraction : scanFraction rest = some (none, rest) := by
    unfold scanFraction
    split
    · exact absurd rfl (hends '.' rfl).2.1
    · rfl
  have hexponent : scanExponent rest = some (none, rest) := by
    cases rest with
    | nil => rfl
    | cons c rest =>
      have hc := hends c rfl
      simp [scanExponent, hc]
  simp only [scanUnsigned, takeWhile_digits _ _ (isDigit_toDigits n) hrest,
    dropWhile_digits _ _ (isDigit_toDigits n) hrest, hfraction, hexponent, bind, Option.bind, pure]
  rw [if_neg (by simpa using hleading)]
  rw [Option.getD_none, List.append_nil, Nat.ofDigitChars_ten_toDigits]
  rfl

theorem reads_number (n : Nat) : Reads (Nat.toDigits 10 n) (nat n) := by
  have hdigits := isDigit_toDigits n
  have hread := scanUnsigned_toDigits n
  cases hcs : Nat.toDigits 10 n with
  | nil => exact absurd hcs Nat.toDigits_ne_nil
  | cons c cs =>
    rw [hcs] at hdigits hread
    have hc := hdigits c List.mem_cons_self
    have hother : ∀ d, d.isDigit = false → c ≠ d := by
      rintro d hd rfl
      rw [hc] at hd
      cases hd
    have hblank : isBlank c = false := by
      simp [isBlank, hother ' ' rfl, hother '\n' rfl, hother '\t' rfl, hother '\r' rfl]
    refine ⟨⟨c, cs, rfl, hblank, hother ']' rfl⟩, fun fuel rest hrest hfuel => ?_⟩
    obtain ⟨fuel, rfl⟩ : ∃ k, fuel = k + 1 := ⟨fuel - 1, by simp at hfuel; omega⟩
    rw [List.cons_append, readValue_scalar fuel c _ hblank
      ⟨hother '"' rfl, hother '[' rfl, hother '\x7b' rfl⟩]
    have hnumber : scanNumber (c :: (cs ++ rest)) = some (⟨n, 0, true⟩, rest) := by
      rw [← hread rest hrest, List.cons_append, scanNumber]
      rintro tail heq
      exact hother '-' rfl (List.cons.inj heq).1
    simp [readScalar, dropWord, (hother 'n' rfl).symm, (hother 't' rfl).symm,
      (hother 'f' rfl).symm, hnumber, nat]

/-! ## Arrays -/

/-- The text reads as the items of an array, with blanks behind them. -/
structure ReadsItems (cs : List Char) (items : List Json) : Prop where
  starts : ∃ blanks c tail, cs = blanks ++ c :: tail ∧ (∀ b ∈ blanks, isBlank b = true) ∧
    isBlank c = false ∧ c ≠ ']'
  reads : ∀ fuel blanks rest, (∀ b ∈ blanks, isBlank b = true) → 2 * cs.length + 1 ≤ fuel →
    readItems fuel (cs ++ (blanks ++ ']' :: rest)) = (items, rest)

theorem readsItems_one (blanks cs : List Char) (v : Json) (hblanks : ∀ b ∈ blanks, isBlank b = true)
    (h : Reads cs v) : ReadsItems (blanks ++ cs) [v] := by
  constructor
  · obtain ⟨c, tail, rfl, hc⟩ := h.starts
    exact ⟨blanks, c, tail, rfl, hblanks, hc⟩
  · intro fuel behind rest hbehind hfuel
    rw [List.length_append] at hfuel
    obtain ⟨fuel, rfl⟩ : ∃ k, fuel = k + 1 := ⟨fuel - 1, by omega⟩
    have hread := h.reads fuel (behind ++ ']' :: rest)
      (endsValue_append behind _ hbehind (endsValue_cons ']' rest (by simp))) (by omega)
    rw [readItems, List.append_assoc, readValue_blanks fuel blanks _ hblanks, hread]
    simp only [skipBlanks_append behind _ hbehind, skipBlanks_cons ']' rest rfl]

theorem readsItems_cons (blanks cs more : List Char) (v : Json) (items : List Json)
    (hblanks : ∀ b ∈ blanks, isBlank b = true) (h : Reads cs v) (hmore : ReadsItems more items) :
    ReadsItems (blanks ++ cs ++ ',' :: more) (v :: items) := by
  constructor
  · obtain ⟨c, tail, rfl, hc⟩ := h.starts
    exact ⟨blanks, c, tail ++ ',' :: more, by simp, hblanks, hc⟩
  · intro fuel behind rest hbehind hfuel
    simp only [List.length_append, List.length_cons] at hfuel
    obtain ⟨fuel, rfl⟩ : ∃ k, fuel = k + 1 := ⟨fuel - 1, by omega⟩
    have hread := h.reads fuel (',' :: (more ++ (behind ++ ']' :: rest)))
      (endsValue_cons ',' _ (by simp)) (by omega)
    have hitems := hmore.reads fuel behind rest hbehind (by omega)
    simp only [List.append_assoc, List.cons_append]
    rw [readItems, readValue_blanks fuel blanks _ hblanks, hread]
    simp only [skipBlanks_cons ',' _ rfl, hitems]

theorem reads_array_nil : Reads ['[', ']'] (.array []) := by
  refine ⟨⟨'[', _, rfl, rfl, by decide⟩, fun fuel rest _ hfuel => ?_⟩
  obtain ⟨fuel, rfl⟩ : ∃ k, fuel = k + 1 := ⟨fuel - 1, by simp at hfuel; omega⟩
  rw [readValue]
  simp [skipBlanks, isBlank]

theorem reads_array (cs blanks : List Char) (items : List Json)
    (hblanks : ∀ b ∈ blanks, isBlank b = true) (h : ReadsItems cs items) :
    Reads ('[' :: cs ++ blanks ++ [']']) (.array items) := by
  refine ⟨⟨'[', _, rfl, rfl, by decide⟩, fun fuel rest _ hfuel => ?_⟩
  simp only [List.length_append, List.length_cons, List.length_nil] at hfuel
  obtain ⟨fuel, rfl⟩ : ∃ k, fuel = k + 1 := ⟨fuel - 1, by omega⟩
  have hitems := h.reads fuel blanks rest hblanks (by omega)
  obtain ⟨front, c, tail, rfl, hfront, hc, hopen⟩ := h.starts
  have hskip : skipBlanks (front ++ c :: tail ++ (blanks ++ ']' :: rest)) =
      c :: (tail ++ (blanks ++ ']' :: rest)) := by
    rw [List.append_assoc, skipBlanks_append front _ hfront, List.cons_append,
      skipBlanks_cons c _ hc]
  have hwhole : '[' :: (front ++ c :: tail) ++ blanks ++ [']'] ++ rest =
      '[' :: (front ++ c :: tail ++ (blanks ++ ']' :: rest)) := by
    simp
  rw [hwhole, readValue, skipBlanks_cons '[' _ rfl]
  simp only [hskip]
  split
  · next heq => exact absurd (List.cons.inj heq).1 hopen
  · rw [hitems]

/-! ## Objects -/

/-- The text reads as the members of an object, with blanks behind them. -/
structure ReadsMembers (cs : List Char) (members : List (Option String × Json)) : Prop where
  starts : ∃ blanks tail, cs = blanks ++ '"' :: tail ∧ ∀ b ∈ blanks, isBlank b = true
  reads : ∀ fuel blanks rest, (∀ b ∈ blanks, isBlank b = true) → 2 * cs.length + 1 ≤ fuel →
    readMembers fuel (cs ++ (blanks ++ '\x7d' :: rest)) = (members, rest)

theorem readsMembers_one (blanks gap cs : List Char) (key : String) (v : Json)
    (hblanks : ∀ b ∈ blanks, isBlank b = true) (hgap : ∀ b ∈ gap, isBlank b = true)
    (h : Reads cs v) :
    ReadsMembers (blanks ++ writeString key ++ ':' :: (gap ++ cs)) [(some key, v)] := by
  constructor
  · exact ⟨blanks, key.toList.flatMap writeChar ++ '"' :: ':' :: (gap ++ cs),
      by simp [writeString], hblanks⟩
  · intro fuel behind rest hbehind hfuel
    simp only [List.length_append, List.length_cons] at hfuel
    obtain ⟨fuel, rfl⟩ : ∃ k, fuel = k + 1 := ⟨fuel - 1, by omega⟩
    have hread := h.reads fuel (behind ++ '\x7d' :: rest)
      (endsValue_append behind _ hbehind (endsValue_cons '\x7d' rest (by simp))) (by omega)
    obtain ⟨pieces, hscan, htext⟩ := scanLiteral_writeString key
      (':' :: (gap ++ (cs ++ (behind ++ '\x7d' :: rest))))
    have hwhole : blanks ++ writeString key ++ ':' :: (gap ++ cs) ++ (behind ++ '\x7d' :: rest) =
        blanks ++ '"' :: (key.toList.flatMap writeChar ++
          '"' :: ':' :: (gap ++ (cs ++ (behind ++ '\x7d' :: rest)))) := by
      simp [writeString]
    rw [hwhole, readMembers_blanks _ blanks _ hblanks, readMembers, skipBlanks_cons '"' _ rfl]
    simp only [hscan, htext, skipBlanks_cons ':' _ rfl, readValue_blanks fuel gap _ hgap, hread,
      skipBlanks_append behind _ hbehind, skipBlanks_cons '\x7d' rest rfl]

theorem readsMembers_cons (blanks gap cs more : List Char) (key : String) (v : Json)
    (members : List (Option String × Json)) (hblanks : ∀ b ∈ blanks, isBlank b = true)
    (hgap : ∀ b ∈ gap, isBlank b = true) (h : Reads cs v) (hmore : ReadsMembers more members) :
    ReadsMembers (blanks ++ writeString key ++ ':' :: (gap ++ cs) ++ ',' :: more)
      ((some key, v) :: members) := by
  constructor
  · exact ⟨blanks, key.toList.flatMap writeChar ++ '"' :: ':' :: (gap ++ (cs ++ ',' :: more)),
      by simp [writeString], hblanks⟩
  · intro fuel behind rest hbehind hfuel
    simp only [List.length_append, List.length_cons] at hfuel
    obtain ⟨fuel, rfl⟩ : ∃ k, fuel = k + 1 := ⟨fuel - 1, by omega⟩
    have hread := h.reads fuel (',' :: (more ++ (behind ++ '\x7d' :: rest)))
      (endsValue_cons ',' _ (by simp)) (by omega)
    have hmembers := hmore.reads fuel behind rest hbehind (by omega)
    obtain ⟨pieces, hscan, htext⟩ := scanLiteral_writeString key
      (':' :: (gap ++ (cs ++ ',' :: (more ++ (behind ++ '\x7d' :: rest)))))
    have hwhole : blanks ++ writeString key ++ ':' :: (gap ++ cs) ++ ',' :: more ++
        (behind ++ '\x7d' :: rest) = blanks ++ '"' :: (key.toList.flatMap writeChar ++
          '"' :: ':' :: (gap ++ (cs ++ ',' :: (more ++ (behind ++ '\x7d' :: rest))))) := by
      simp [writeString]
    rw [hwhole, readMembers_blanks _ blanks _ hblanks, readMembers, skipBlanks_cons '"' _ rfl]
    simp only [hscan, htext, skipBlanks_cons ':' _ rfl, readValue_blanks fuel gap _ hgap, hread,
      skipBlanks_cons ',' _ rfl, hmembers]

theorem reads_object_nil : Reads ['\x7b', '\x7d'] (.object []) := by
  refine ⟨⟨'\x7b', _, rfl, rfl, by decide⟩, fun fuel rest _ hfuel => ?_⟩
  obtain ⟨fuel, rfl⟩ : ∃ k, fuel = k + 1 := ⟨fuel - 1, by simp at hfuel; omega⟩
  rw [readValue]
  simp [skipBlanks, isBlank]

theorem reads_object (cs blanks : List Char) (members : List (Option String × Json))
    (hblanks : ∀ b ∈ blanks, isBlank b = true) (h : ReadsMembers cs members) :
    Reads ('\x7b' :: cs ++ blanks ++ ['\x7d']) (.object members) := by
  refine ⟨⟨'\x7b', _, rfl, rfl, by decide⟩, fun fuel rest _ hfuel => ?_⟩
  simp only [List.length_append, List.length_cons, List.length_nil] at hfuel
  obtain ⟨fuel, rfl⟩ : ∃ k, fuel = k + 1 := ⟨fuel - 1, by omega⟩
  have hmembers := h.reads fuel blanks rest hblanks (by omega)
  obtain ⟨front, tail, rfl, hfront⟩ := h.starts
  have hskip : skipBlanks (front ++ '"' :: tail ++ (blanks ++ '\x7d' :: rest)) =
      '"' :: (tail ++ (blanks ++ '\x7d' :: rest)) := by
    rw [List.append_assoc, skipBlanks_append front _ hfront, List.cons_append,
      skipBlanks_cons '"' _ rfl]
  have hwhole : '\x7b' :: (front ++ '"' :: tail) ++ blanks ++ ['\x7d'] ++ rest =
      '\x7b' :: (front ++ '"' :: tail ++ (blanks ++ '\x7d' :: rest)) := by
    simp
  rw [hwhole, readValue, skipBlanks_cons '\x7b' _ rfl]
  simp only [hskip]
  split
  · next heq => exact absurd (List.cons.inj heq).1 (by decide)
  · rw [hmembers]

/-! ## Indented values -/

mutual

/-- Whether a value is written as it is: its strings are texts and its numbers are whole. -/
def isPlain : Json → Bool
  | .null | .bool _ => true
  | .number n => n.plain && n.exponent == 0
  | .string s => s.isSome
  | .array items => allPlain items
  | .object members => membersPlain members
  | .broken => false

def allPlain : List Json → Bool
  | [] => true
  | v :: rest => v.isPlain && allPlain rest

def membersPlain : List (Option String × Json) → Bool
  | [] => true
  | (key, v) :: rest => key.isSome && v.isPlain && membersPlain rest

end

theorem isBlank_space : ∀ b ∈ [' '], isBlank b = true := by
  intro b hb
  rw [List.mem_singleton.1 hb]
  rfl

theorem isBlank_newline (level : Nat) : ∀ b ∈ newline level, isBlank b = true := by
  intro b hb
  rcases List.mem_cons.1 hb with rfl | hb
  · rfl
  · rw [(List.mem_replicate.1 hb).2]
    rfl

mutual

/-- What is written indented reads as what was written. -/
theorem reads_writePretty (level : Nat) : ∀ v : Json, v.isPlain = true →
    Reads (writePretty level v) v
  | .null, _ => by rw [writePretty.eq_def]; exact reads_null
  | .bool b, _ => by rw [writePretty.eq_def]; exact reads_bool b
  | .number ⟨n, exponent, plain⟩, h => by
    simp only [isPlain, Bool.and_eq_true, beq_iff_eq] at h
    obtain ⟨rfl, rfl⟩ := h
    rw [writePretty.eq_def]
    exact reads_number n
  | .string none, h => by cases h
  | .string (some s), _ => by rw [writePretty.eq_def]; exact reads_string s
  | .array [], _ => by rw [writePretty.eq_def]; exact reads_array_nil
  | .array (v :: rest), h => by
    rw [isPlain] at h
    rw [writePretty.eq_def]
    exact reads_array _ _ _ (isBlank_newline level)
      (readsItems_writePretty (level + 1) (v :: rest) h (List.cons_ne_nil _ _))
  | .object [], _ => by rw [writePretty.eq_def]; exact reads_object_nil
  | .object (m :: rest), h => by
    rw [isPlain] at h
    rw [writePretty.eq_def]
    exact reads_object _ _ _ (isBlank_newline level)
      (readsMembers_writePretty (level + 1) (m :: rest) h (List.cons_ne_nil _ _))
  | .broken, h => by cases h

theorem readsItems_writePretty (level : Nat) : ∀ items : List Json, allPlain items = true →
    items ≠ [] → ReadsItems (writePrettyItems level items) items
  | [], _, hne => absurd rfl hne
  | [v], h, _ => by
    rw [allPlain, Bool.and_eq_true] at h
    rw [writePrettyItems]
    exact readsItems_one _ _ v (isBlank_newline level) (reads_writePretty level v h.1)
  | v :: w :: rest, h, _ => by
    rw [allPlain, Bool.and_eq_true] at h
    have hmore := readsItems_writePretty level (w :: rest) h.2 (List.cons_ne_nil _ _)
    rw [writePrettyItems]
    · exact readsItems_cons _ _ _ v _ (isBlank_newline level) (reads_writePretty level v h.1) hmore
    · exact List.cons_ne_nil _ _

theorem readsMembers_writePretty (level : Nat) :
    ∀ members : List (Option String × Json), membersPlain members = true → members ≠ [] →
      ReadsMembers (writePrettyMembers level members) members
  | [], _, hne => absurd rfl hne
  | (none, v) :: _, h, _ => by simp [membersPlain] at h
  | [(some key, v)], h, _ => by
    rw [membersPlain, Bool.and_eq_true, Bool.and_eq_true] at h
    rw [writePrettyMembers]
    exact readsMembers_one _ [' '] _ key v (isBlank_newline level) isBlank_space
      (reads_writePretty level v h.1.2)
  | (some key, v) :: w :: rest, h, _ => by
    rw [membersPlain, Bool.and_eq_true, Bool.and_eq_true] at h
    have hmore := readsMembers_writePretty level (w :: rest) h.2 (List.cons_ne_nil _ _)
    rw [writePrettyMembers]
    · exact readsMembers_cons _ [' '] _ _ key v _ (isBlank_newline level) isBlank_space
        (reads_writePretty level v h.1.2) hmore
    · exact List.cons_ne_nil _ _

end

/-! ## Compact values -/

mutual

/-- What is written without blanks reads as what was written. -/
theorem reads_write : ∀ v : Json, v.isPlain = true → Reads (write v) v
  | .null, _ => reads_null
  | .bool b, _ => reads_bool b
  | .number ⟨n, exponent, plain⟩, h => by
    simp only [isPlain, Bool.and_eq_true, beq_iff_eq] at h
    obtain ⟨rfl, rfl⟩ := h
    rw [write]
    exact reads_number n
  | .string none, h => by cases h
  | .string (some s), _ => by rw [write]; exact reads_string s
  | .array [], _ => reads_array_nil
  | .array (v :: rest), h => by
    rw [isPlain] at h
    have hitems := readsItems_write (v :: rest) h (List.cons_ne_nil _ _)
    rw [write, ← List.append_nil (writeItems (v :: rest)), ← List.cons_append]
    exact reads_array _ [] _ (by simp) hitems
  | .object [], _ => reads_object_nil
  | .object (m :: rest), h => by
    rw [isPlain] at h
    have hmembers := readsMembers_write (m :: rest) h (List.cons_ne_nil _ _)
    rw [write, ← List.append_nil (writeMembers (m :: rest)), ← List.cons_append]
    exact reads_object _ [] _ (by simp) hmembers
  | .broken, h => by cases h

theorem readsItems_write : ∀ items : List Json, allPlain items = true → items ≠ [] →
    ReadsItems (writeItems items) items
  | [], _, hne => absurd rfl hne
  | [v], h, _ => by
    rw [allPlain, Bool.and_eq_true] at h
    rw [writeItems]
    exact readsItems_one [] _ v (by simp) (reads_write v h.1)
  | v :: w :: rest, h, _ => by
    rw [allPlain, Bool.and_eq_true] at h
    have hmore := readsItems_write (w :: rest) h.2 (List.cons_ne_nil _ _)
    rw [writeItems]
    · exact readsItems_cons [] _ _ v _ (by simp) (reads_write v h.1) hmore
    · exact List.cons_ne_nil _ _

theorem readsMembers_write : ∀ members : List (Option String × Json),
    membersPlain members = true → members ≠ [] → ReadsMembers (writeMembers members) members
  | [], _, hne => absurd rfl hne
  | (none, v) :: _, h, _ => by simp [membersPlain] at h
  | [(some key, v)], h, _ => by
    rw [membersPlain, Bool.and_eq_true, Bool.and_eq_true] at h
    rw [writeMembers]
    exact readsMembers_one [] [] _ key v (by simp) (by simp) (reads_write v h.1.2)
  | (some key, v) :: w :: rest, h, _ => by
    rw [membersPlain, Bool.and_eq_true, Bool.and_eq_true] at h
    have hmore := readsMembers_write (w :: rest) h.2 (List.cons_ne_nil _ _)
    rw [writeMembers]
    · exact readsMembers_cons [] [] _ _ key v _ (by simp) (by simp) (reads_write v h.1.2) hmore
    · exact List.cons_ne_nil _ _

end

/-! ## Whole texts -/

theorem ofChars_of_reads {cs : List Char} {v : Json} (h : Reads cs v) :
    Document.ofChars cs = ⟨v, true⟩ := by
  have hread := h.reads (2 * cs.length + 2) [] endsValue_nil (by omega)
  rw [List.append_nil] at hread
  simp only [Document.ofChars, read, hread]
  rfl

/-- A text written indented holds what was written, and nothing else. -/
theorem ofChars_writePretty (v : Json) (h : v.isPlain = true) :
    Document.ofChars (writePretty 0 v) = ⟨v, true⟩ :=
  ofChars_of_reads (reads_writePretty 0 v h)

/-- A text written without blanks holds what was written, and nothing else. -/
theorem ofChars_write (v : Json) (h : v.isPlain = true) :
    Document.ofChars (write v) = ⟨v, true⟩ :=
  ofChars_of_reads (reads_write v h)

end Json

end SigningGateway
