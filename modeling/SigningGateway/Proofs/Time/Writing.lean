import SigningGateway.Proofs.Text.Digits
import SigningGateway.Proofs.Time.Dates

/-!
# Moments that are written down

A moment in the years that have dates is read back from its written form, and only such moments are
read at all.

    m.IsDated → parse? m.format = some m                                        (parse?_format)
    parse? text = some m → m.IsDated                                           (isDated_parse?)
-/

namespace SigningGateway

namespace Moment

/-- A moment that has a written form: it lies in the years that have dates, and its nanoseconds go
beyond a second at most in the last second of a minute. -/
structure IsDated (m : Moment) : Prop where
  first : firstSecond ≤ m.seconds
  last : m.seconds < endSecond
  nanos : m.nanos < 1000000000 ∨ m.nanos < 2000000000 ∧ m.seconds % 60 = 59

/-! ## Reading what was written -/

theorem trimStart_cons (c : Char) (cs : List Char) (h : Text.isBlank c = false) :
    Text.trimStart (c :: cs) = c :: cs := by
  simp [Text.trimStart, h]

theorem isBlank_of_isDigit (c : Char) (h : c.isDigit = true) : Text.isBlank c = false := by
  simp only [Char.isDigit, Bool.and_eq_true, decide_eq_true_eq, ge_iff_le,
    UInt32.le_iff_toNat_le] at h
  have hrange : 48 ≤ c.toNat ∧ c.toNat ≤ 57 := h
  simp only [Text.isBlank, Bool.or_eq_false_iff, Bool.and_eq_false_iff, decide_eq_false_iff_not,
    beq_eq_false_iff_ne]
  omega

theorem trimStart_padded (width n : Nat) (rest : List Char) :
    Text.trimStart (padded width n ++ rest) = padded width n ++ rest := by
  cases hdigits : padded width n with
  | nil => exact absurd hdigits (padded_ne_nil width n)
  | cons c cs =>
    have hc := isDigit_padded width n c (by rw [hdigits]; exact List.mem_cons_self)
    exact trimStart_cons c _ (isBlank_of_isDigit c hc)

theorem scanTwo_padded (n : Nat) (rest : List Char) (h : n < 100) :
    scanTwo (padded 2 n ++ rest) = some (n, rest) := by
  rw [scanTwo, trimStart_padded]
  exact scanDigits_padded 2 n rest (by decide) h

theorem skipMark_cons (mark : Char) (rest : List Char) (h : Text.isBlank mark = false) :
    skipMark mark (mark :: rest) = some rest := by
  rw [skipMark, trimStart_cons mark rest h]
  exact if_pos rfl

theorem scanYear_formatYear (year : Int) (rest : List Char) (hrest : NoDigit rest) :
    scanYear (formatYear year ++ rest) = some (year, rest) := by
  unfold formatYear
  split
  · next hshort =>
    have hwidth : year.toNat < 10000 := by omega
    have hread := scanDigits_padded 4 year.toNat rest (by decide) hwidth
    cases hdigits : padded 4 year.toNat with
    | nil => exact absurd hdigits (padded_ne_nil 4 _)
    | cons c cs =>
      have hc := isDigit_padded 4 year.toNat c (by rw [hdigits]; exact List.mem_cons_self)
      rw [hdigits] at hread
      rw [scanYear, List.cons_append, trimStart_cons c _ (isBlank_of_isDigit c hc)]
      split
      · next heq =>
        rw [(List.cons.inj heq).1] at hc
        cases hc
      · next heq =>
        rw [(List.cons.inj heq).1] at hc
        cases hc
      · rw [← List.cons_append, hread]
        simp only [Option.map_some, Int.toNat_of_nonneg hshort.1]
  · next hlong =>
    have hread := scanDigits_all 4 year.natAbs rest hrest
    split
    · rw [List.cons_append, scanYear, trimStart_cons '-' _ (by decide)]
      simp only [hread, Option.map_some]
      congr 2
      omega
    · rw [List.cons_append, scanYear, trimStart_cons '+' _ (by decide)]
      simp only [hread, Option.map_some]
      congr 2
      omega

theorem scanDate_format (days : Int) (rest : List Char)
    (h : -yearLimit ≤ (Date.ofDays days).year ∧ (Date.ofDays days).year < yearLimit) :
    scanDate (formatYear (Date.ofDays days).year ++ '-' :: (padded 2 (Date.ofDays days).month ++
      '-' :: (padded 2 (Date.ofDays days).day ++ rest))) = some (days, rest) := by
  have hvalid := Date.isValid_ofDays days
  have hdays := Date.toDays_ofDays days
  generalize Date.ofDays days = date at *
  have hbounds : date.month < 100 ∧ date.day < 100 := by
    have hlength := Date.daysInMonth_le date.year date.month
    simp only [Date.isValid, Bool.and_eq_true, decide_eq_true_eq] at hvalid
    omega
  simp only [scanDate, bind, Option.bind,
    scanYear_formatYear date.year _ (noDigit_cons '-' _ (by decide)),
    skipMark_cons '-' _ (by decide), scanTwo_padded _ _ hbounds.1, scanTwo_padded _ _ hbounds.2]
  simp [hvalid, h, hdays]

/-- The fraction of a second is read back, in however many digits it is written. -/
theorem scanFraction_formatFraction (nanos : Nat) (rest : List Char) (h : nanos < 1000000000)
    (hrest : NoDigit rest) (hpoint : rest.head? ≠ some '.') :
    scanFraction (formatFraction nanos ++ rest) = some (nanos, rest) := by
  have hread : ∀ width n, 0 < width → width ≤ 9 → n < Nat.pow 10 width →
      scanFraction ('.' :: padded width n ++ rest) =
        some (n * Nat.pow 10 (9 - width), rest) := by
    intro width n hpos hwidth hn
    have hlength := length_padded width n hpos hn
    simp only [scanFraction, List.cons_append,
      takeWhile_digits _ _ (isDigit_padded width n) hrest,
      dropWhile_digits _ _ (isDigit_padded width n) hrest, padded_ne_nil, if_false,
      List.take_of_length_le (hlength.symm ▸ hwidth), ofDigitChars_padded, hlength]
  unfold formatFraction
  split
  · next hzero =>
    subst hzero
    cases rest with
    | nil => rfl
    | cons c rest =>
      rw [List.nil_append, scanFraction]
      rintro tail heq
      exact hpoint (congrArg List.head? heq)
  · split
    · next hmillis =>
      have hwidth : nanos / 1000000 < 1000 := by omega
      rw [hread 3 _ (by decide) (by decide) hwidth]
      simp only [Option.some.injEq, Prod.mk.injEq, and_true]
      show nanos / 1000000 * 1000000 = nanos
      omega
    · split
      · next hmicros =>
        have hwidth : nanos / 1000 < 1000000 := by omega
        rw [hread 6 _ (by decide) (by decide) hwidth]
        simp only [Option.some.injEq, Prod.mk.injEq, and_true]
        show nanos / 1000 * 1000 = nanos
        omega
      · rw [hread 9 _ (by decide) (by decide) h]
        simp only [Option.some.injEq, Prod.mk.injEq, and_true]
        show nanos * 1 = nanos
        omega

/-- The time of a day is read back; the second 60 stands for the nanoseconds beyond a second. -/
theorem scanTime_format (second nanos : Nat) (rest : List Char) (hsecond : second < 86400)
    (hnanos : nanos < 1000000000 ∨ nanos < 2000000000 ∧ second % 60 = 59) (hrest : NoDigit rest)
    (hpoint : rest.head? ≠ some '.') :
    scanTime (padded 2 (second / 3600) ++ ':' :: (padded 2 (second / 60 % 60) ++
      ':' :: (padded 2 (second % 60 + nanos / 1000000000) ++
        (formatFraction (nanos % 1000000000) ++ rest)))) = some ((second, nanos), rest) := by
  simp only [scanTime, bind, Option.bind, skipMark_cons ':' _ (by decide),
    scanTwo_padded (second / 3600) _ (by omega), scanTwo_padded (second / 60 % 60) _ (by omega),
    scanTwo_padded (second % 60 + nanos / 1000000000) _ (by omega),
    scanFraction_formatFraction (nanos % 1000000000) rest (by omega) hrest hpoint]
  rw [if_pos (by simp only [Bool.and_eq_true, decide_eq_true_eq]; omega)]
  split
  · simp only [Option.some.injEq, Prod.mk.injEq, and_true]
    omega
  · simp only [Option.some.injEq, Prod.mk.injEq, and_true]
    omega

/-- A moment that has a written form is read back from it. -/
theorem parse?_format (m : Moment) (h : m.IsDated) : parse? m.format = some m := by
  have hyear := Date.year_ofDays (m.seconds / 86400) (by
    obtain ⟨hfirst, hlast, -⟩ := h
    simp only [firstSecond, endSecond] at hfirst hlast
    omega)
  obtain ⟨second, hsecond⟩ : ∃ second : Nat, m.seconds % 86400 = second :=
    ⟨_, (Int.toNat_of_nonneg (by omega)).symm⟩
  have hnanos := h.nanos
  have htime := scanTime_format second m.nanos ['Z'] (by omega) (by omega)
    (noDigit_cons 'Z' _ (by decide)) (by decide)
  have hdate := fun rest => scanDate_format (m.seconds / 86400) rest hyear
  simp only [parse?, format, String.toList_ofList, parseChars?, formatChars, hsecond,
    Int.toNat_natCast, List.append_assoc, List.cons_append, bind, Option.bind]
  rw [hdate]
  have hoffset : scanOffset (Text.trimStart ['Z']) = some (0, []) := rfl
  have hseconds : m.seconds / 86400 * 86400 + second - 0 = m.seconds := by omega
  have hend : Text.trimStart [] = [] := rfl
  simp [htime, hoffset, hseconds, h.first, h.last, hend]

/-! ## What can be read -/

theorem ofDigitChars_lt (digits : List Char) (h : ∀ c ∈ digits, c.isDigit = true) :
    Nat.ofDigitChars 10 digits 0 < Nat.pow 10 digits.length := by
  have hdigit : ∀ c : Char, c.isDigit = true → c.toNat - 48 ≤ 9 := by
    intro c hc
    simp only [Char.isDigit, Bool.and_eq_true, decide_eq_true_eq, ge_iff_le,
      UInt32.le_iff_toNat_le] at hc
    have hrange : 48 ≤ c.toNat ∧ c.toNat ≤ 57 := hc
    omega
  have hfold : ∀ (digits : List Char) (acc bound : Nat), (∀ c ∈ digits, c.isDigit = true) →
      acc < bound → Nat.ofDigitChars 10 digits acc < bound * Nat.pow 10 digits.length := by
    intro digits
    induction digits with
    | nil => intro acc bound _ hacc; simpa using hacc
    | cons c digits ih =>
      intro acc bound hall hacc
      have hc := hdigit c (hall c List.mem_cons_self)
      have hpow : Nat.pow 10 (digits.length + 1) = 10 * Nat.pow 10 digits.length :=
        Nat.mul_comm _ _
      have hzero : '0'.toNat = 48 := rfl
      rw [Nat.ofDigitChars_cons, List.length_cons, hpow, ← Nat.mul_assoc]
      exact ih _ _ (fun d hd => hall d (List.mem_cons_of_mem _ hd)) (by omega)
  have hlt := hfold digits 0 1 h (by decide)
  rwa [Nat.one_mul] at hlt

theorem scanFraction_lt (cs rest : List Char) (nanos : Nat)
    (h : scanFraction cs = some (nanos, rest)) : nanos < 1000000000 := by
  unfold scanFraction at h
  split at h
  · next digits =>
    dsimp only at h
    split at h
    · cases h
    · obtain ⟨rfl, -⟩ := Prod.mk.inj (Option.some.inj h)
      generalize hkept : (digits.takeWhile Char.isDigit).take 9 = kept
      have hlength : kept.length ≤ 9 := by rw [← hkept]; exact List.length_take_le _ _
      have hlt := ofDigitChars_lt kept (by
        intro c hc
        rw [← hkept] at hc
        exact List.all_eq_true.1 List.all_takeWhile c (List.mem_of_mem_take hc))
      calc Nat.ofDigitChars 10 kept 0 * Nat.pow 10 (9 - kept.length)
          < Nat.pow 10 kept.length * Nat.pow 10 (9 - kept.length) :=
            Nat.mul_lt_mul_of_pos_right hlt (Nat.pow_pos (by decide))
        _ = Nat.pow 10 9 := by
          rw [Nat.pow_eq, Nat.pow_eq, ← Nat.pow_add, Nat.add_sub_cancel' hlength, Nat.pow_eq]
  · obtain ⟨rfl, -⟩ := Prod.mk.inj (Option.some.inj h)
    decide

/-- The nanoseconds go beyond a second in a second 60 only. -/
theorem scanTime_nanos (cs rest : List Char) (second nanos : Nat)
    (h : scanTime cs = some ((second, nanos), rest)) :
    nanos < 1000000000 ∨ nanos < 2000000000 ∧ second % 60 = 59 := by
  simp only [scanTime, bind, Option.bind_eq_some_iff] at h
  obtain ⟨⟨hour, _⟩, -, _, -, ⟨minute, _⟩, -, _, -, ⟨seconds, _⟩, -, ⟨fraction, _⟩, hfraction,
    h⟩ := h
  have hlt := scanFraction_lt _ _ _ hfraction
  split at h
  · split at h
    · simp only [Option.some.injEq, Prod.mk.injEq] at h
      omega
    · simp only [Option.some.injEq, Prod.mk.injEq] at h
      omega
  · cases h

/-- Offsets are whole minutes. -/
theorem scanOffset_minutes (cs rest : List Char) (offset : Int)
    (h : scanOffset cs = some (offset, rest)) : offset % 60 = 0 := by
  have hminutes : ∀ (cs rest : List Char) (offset : Int),
      scanHoursMinutes cs = some (offset, rest) → offset % 60 = 0 := by
    intro cs rest offset h
    simp only [scanHoursMinutes, bind, Option.bind_eq_some_iff] at h
    obtain ⟨⟨hours, _⟩, -, ⟨minutes, _⟩, -, h⟩ := h
    split at h
    · obtain ⟨rfl, -⟩ := Prod.mk.inj (Option.some.inj h)
      omega
    · cases h
  unfold scanOffset at h
  split at h
  · obtain ⟨rfl, -⟩ := Prod.mk.inj (Option.some.inj h)
    rfl
  · split at h
    · cases h
    · split at h
      · obtain ⟨rfl, -⟩ := Prod.mk.inj (Option.some.inj h)
        rfl
      · split at h
        · exact hminutes _ _ _ h
        · split at h
          · obtain ⟨⟨n, _⟩, hn, heq⟩ := Option.map_eq_some_iff.1 h
            obtain ⟨rfl, -⟩ := Prod.mk.inj heq
            have := hminutes _ _ _ hn
            omega
          · cases h

/-- Only moments that have a written form are read. -/
theorem isDated_parse? (text : String) (m : Moment) (h : parse? text = some m) : m.IsDated := by
  simp only [parse?, parseChars?, bind, Option.bind_eq_some_iff] at h
  obtain ⟨⟨days, rest⟩, -, h⟩ := h
  split at h
  · cases h
  · split at h
    · simp only [Option.bind_eq_some_iff] at h
      obtain ⟨⟨⟨second, nanos⟩, _⟩, htime, ⟨offset, _⟩, hoffset, h⟩ := h
      have hnanos := scanTime_nanos _ _ _ _ htime
      have hminutes := scanOffset_minutes _ _ _ hoffset
      split at h
      · next hbounds =>
        obtain rfl := Option.some.inj h
        simp only [Bool.and_eq_true, decide_eq_true_eq] at hbounds
        exact ⟨hbounds.1.2, hbounds.2, by dsimp only; omega⟩
      · cases h
    · cases h

end Moment

end SigningGateway
