import SigningGateway.Time.Moment

/-!
# Decimal digits

A number written in decimal digits is read back, up to the first character that is no digit.

    Nat.ofDigitChars 10 (padded width n) 0 = n                              (ofDigitChars_padded)
    scanDigits width (padded width n ++ rest) = some (n, rest)              (scanDigits_padded)
-/

namespace SigningGateway

/-! ## Digits in front of a text -/

/-- A text that does not go on with a digit. -/
def NoDigit (cs : List Char) : Prop := ∀ c ∈ cs.head?, c.isDigit = false

theorem noDigit_nil : NoDigit [] := by
  intro c hc
  cases hc

theorem noDigit_cons (c : Char) (cs : List Char) (h : c.isDigit = false) : NoDigit (c :: cs) := by
  intro c' hc'
  obtain rfl := Option.some.inj hc'
  exact h

theorem takeWhile_digits (digits rest : List Char) (hdigits : ∀ c ∈ digits, c.isDigit = true)
    (hrest : NoDigit rest) : (digits ++ rest).takeWhile Char.isDigit = digits := by
  rw [List.takeWhile_append_of_pos hdigits]
  cases rest with
  | nil => simp
  | cons c rest => simp [hrest c rfl]

theorem dropWhile_digits (digits rest : List Char) (hdigits : ∀ c ∈ digits, c.isDigit = true)
    (hrest : NoDigit rest) : (digits ++ rest).dropWhile Char.isDigit = rest := by
  rw [List.dropWhile_append_of_pos hdigits]
  cases rest with
  | nil => rfl
  | cons c rest => simp [hrest c rfl]

theorem isDigit_toDigits (n : Nat) : ∀ c ∈ Nat.toDigits 10 n, c.isDigit = true :=
  fun _ hc => Nat.isDigit_of_mem_toDigits (by decide) (by decide) hc

/-- Only zero is written with a leading zero. -/
theorem eq_zero_of_leading_zero (n : Nat) (h : (Nat.toDigits 10 n).head? = some '0') : n = 0 := by
  induction n using Nat.strongRecOn with
  | ind n ih =>
    rw [Nat.toDigits_eq_if (by decide)] at h
    split at h
    · next hsmall =>
      have hchar : ∀ n, n < 10 → n.digitChar = '0' → n = 0 := by decide
      exact hchar n hsmall (Option.some.inj h)
    · next hlarge =>
      rw [List.head?_append, Option.or_of_isSome] at h
      · have hfront := ih (n / 10) (by omega) h
        omega
      · simp [List.isSome_head?]

/-! ## Digits with leading zeros -/

namespace Moment

theorem isDigit_padded (width n : Nat) : ∀ c ∈ padded width n, c.isDigit = true := by
  intro c hc
  rcases List.mem_append.1 hc with hzero | hdigit
  · rw [(List.mem_replicate.1 hzero).2]
    rfl
  · exact isDigit_toDigits n c hdigit

theorem padded_ne_nil (width n : Nat) : padded width n ≠ [] := by
  simp [padded]

theorem length_padded (width n : Nat) (hwidth : 0 < width) (h : n < Nat.pow 10 width) :
    (padded width n).length = width := by
  have hlength := (Nat.length_toDigits_le_iff (by decide) hwidth).2 h
  simp only [padded, List.length_append, List.length_replicate]
  omega

@[simp] theorem ofDigitChars_padded (width n : Nat) :
    Nat.ofDigitChars 10 (padded width n) 0 = n := by
  rw [padded, Nat.ofDigitChars_append, Nat.ofDigitChars_replicate_zero, Nat.mul_zero,
    Nat.ofDigitChars_ten_toDigits]

/-- Digits of a known number are read to the last one. -/
theorem scanDigits_padded (width n : Nat) (rest : List Char) (hwidth : 0 < width)
    (h : n < Nat.pow 10 width) : scanDigits width (padded width n ++ rest) = some (n, rest) := by
  have hlength := length_padded width n hwidth h
  have hdigits : ((padded width n ++ rest).take width).takeWhile Char.isDigit = padded width n := by
    rw [List.take_left' hlength]
    have hall := takeWhile_digits (padded width n) [] (isDigit_padded width n) noDigit_nil
    rwa [List.append_nil] at hall
  simp only [scanDigits, hdigits, padded_ne_nil, if_false, ofDigitChars_padded,
    List.drop_left]

/-- Digits of any number are read up to the first character that is no digit. -/
theorem scanDigits_all (width n : Nat) (rest : List Char) (hrest : NoDigit rest) :
    scanDigits (padded width n ++ rest).length (padded width n ++ rest) = some (n, rest) := by
  simp only [scanDigits, List.take_length,
    takeWhile_digits (padded width n) rest (isDigit_padded width n) hrest, padded_ne_nil, if_false,
    ofDigitChars_padded, List.drop_left]

end Moment

end SigningGateway
