import SigningGateway.Proofs.Text.Digits
import SigningGateway.Text.Integer

/-!
# Integers that are written down

The digits of a number are read as that number while it stays within the bound: what is read so far
never exceeds what is read in the end.  So an integer of 64 bits is read back from its text, the
smallest one and the largest one too.

    parseInt64 (toString n) = .ok n                                        (parseInt64_toString)
-/

namespace SigningGateway

namespace Text

/-! ## Digits -/

theorem le_ofDigitChars (digits : List Char) (n : Nat) : n ≤ Nat.ofDigitChars 10 digits n := by
  induction digits generalizing n with
  | nil => exact Nat.le_refl n
  | cons c digits ih =>
    have hnext := ih (10 * n + (c.toNat - 48))
    rw [Nat.ofDigitChars_cons]
    exact Nat.le_trans (by omega) hnext

theorem parseDigits_of_le (bound : Nat) (overflow : IntegerError) (digits : List Char) (n : Nat)
    (hdigits : ∀ c ∈ digits, c.isDigit = true) (hbound : Nat.ofDigitChars 10 digits n ≤ bound) :
    parseDigits bound overflow digits n = .ok (Nat.ofDigitChars 10 digits n) := by
  induction digits generalizing n with
  | nil => rfl
  | cons c digits ih =>
    rw [Nat.ofDigitChars_cons] at hbound ⊢
    have hnext : 10 * n + (c.toNat - 48) ≤ bound := Nat.le_trans (le_ofDigitChars digits _) hbound
    rw [parseDigits, if_pos (hdigits c List.mem_cons_self), if_pos hnext]
    exact ih _ (fun d hd => hdigits d (List.mem_cons_of_mem _ hd)) hbound

/-- The digits of a number within the bound. -/
theorem parseDigits_toDigits (bound : Nat) (overflow : IntegerError) (n : Nat) (h : n ≤ bound) :
    parseDigits bound overflow (Nat.toDigits 10 n) 0 = .ok n := by
  rw [parseDigits_of_le _ _ _ _ (isDigit_toDigits n)] <;> rw [Nat.ofDigitChars_ten_toDigits]
  exact h

/-- Digits start with no sign. -/
theorem parseInt64_toDigits (n : Nat) (h : n ≤ largest) :
    parseInt64 (Nat.toDigits 10 n) = .ok (Int64.ofInt n) := by
  have hparse := parseDigits_toDigits largest .tooLarge n h
  have hdigits := isDigit_toDigits n
  cases hcs : Nat.toDigits 10 n with
  | nil => exact absurd hcs Nat.toDigits_ne_nil
  | cons c cs =>
    rw [hcs] at hparse hdigits
    have hc : c.isDigit = true := hdigits c List.mem_cons_self
    have hminus : c ≠ '-' := by rintro rfl; cases hc
    have hplus : c ≠ '+' := by rintro rfl; cases hc
    rw [parseInt64]
    · rw [hparse]
      rfl
    · simp
    · simp [hminus]
    · simp [hplus]

/-! ## Integers -/

/-- The text of an integer: its digits, behind a sign if it lies below zero. -/
theorem toList_toString (i : Int) :
    (toString i).toList =
      if i < 0 then '-' :: Nat.toDigits 10 i.natAbs else Nat.toDigits 10 i.natAbs := by
  cases i with
  | ofNat n => simp [toString, Int.repr]
  | negSucc n => simp [toString, Int.repr]

theorem parseInt64_toString (n : Int64) : parseInt64 (toString n.toInt).toList = .ok n := by
  have hlow := n.le_toInt
  have hhigh := n.toInt_lt
  rw [toList_toString]
  split
  · next hneg =>
    have hparse := parseDigits_toDigits (largest + 1) .tooSmall n.toInt.natAbs
      (by simp only [largest, UInt64.size]; omega)
    have hback : -(n.toInt.natAbs : Int) = n.toInt := by omega
    have hread : parseInt64 ('-' :: Nat.toDigits 10 n.toInt.natAbs) =
        .ok (Int64.ofInt (-(n.toInt.natAbs : Int))) := by
      rw [parseInt64, if_neg Nat.toDigits_ne_nil, hparse]
      rfl
    rw [hread, hback, Int64.ofInt_toInt]
  · next hpos =>
    have hback : (n.toInt.natAbs : Int) = n.toInt := by omega
    rw [parseInt64_toDigits _ (by simp only [largest, UInt64.size]; omega), hback, Int64.ofInt_toInt]

/-- Both ends of the range. -/
example : parseInt64 "-9223372036854775808".toList = .ok Int64.minValue ∧
    parseInt64 "9223372036854775808".toList = .error .tooLarge :=
  ⟨rfl, rfl⟩

end Text

end SigningGateway
