import SigningGateway.Time.Moment

/-!
# Days and dates

Counting the days from March of a year that 400 divides, a day lies in some century of its era, in
some four years of the century, in some year of these and on some day of the year.  These parts show
that a date and its number of days tell each other.

    toDays (ofDays days) = days                                                  (toDays_ofDays)
    isValid (ofDays days) = true                                                (isValid_ofDays)
-/

namespace SigningGateway

namespace Date

/-! ## The parts of an era -/

/-- A day of an era: the century, the four years, the year in them, and the day in the year. -/
structure Parts where
  century : Int
  four : Int
  year : Int
  day : Int

namespace Parts

def yearOfEra (p : Parts) : Int := 100 * p.century + 4 * p.four + p.year

def dayOfEra (p : Parts) : Int := 36524 * p.century + 1461 * p.four + 365 * p.year + p.day

/-- Only the last of four years has a day 365, and the last year of a century only if the century is
the last one. -/
structure InEra (p : Parts) : Prop where
  century : 0 ≤ p.century ∧ p.century ≤ 3
  four : 0 ≤ p.four ∧ p.four ≤ 24
  year : 0 ≤ p.year ∧ p.year ≤ 3
  day : 0 ≤ p.day ∧ p.day ≤ 365
  leap : p.day = 365 → p.year = 3 ∧ (p.four = 24 → p.century = 3)

end Parts

theorem exists_parts (day : Int) (h : 0 ≤ day ∧ day < 146097) :
    ∃ p : Parts, p.InEra ∧ p.dayOfEra = day := by
  -- the last century and the last of four years are a day longer
  obtain ⟨c, rest, hc, hrest, hday, hlast⟩ : ∃ c rest : Int, (0 ≤ c ∧ c ≤ 3) ∧
      (0 ≤ rest ∧ rest ≤ 36524) ∧ 36524 * c + rest = day ∧ (rest = 36524 → c = 3) := by
    by_cases hlast : day = 146096
    · exact ⟨3, 36524, by omega, by omega, by omega, fun _ => rfl⟩
    · exact ⟨day / 36524, day % 36524, by omega, by omega, by omega, by omega⟩
  obtain ⟨u, d, hu, hd, hrest', hleap⟩ : ∃ u d : Int, (0 ≤ u ∧ u ≤ 3) ∧ (0 ≤ d ∧ d ≤ 365) ∧
      365 * u + d = rest % 1461 ∧ (d = 365 → u = 3) := by
    by_cases hleap : rest % 1461 = 1460
    · exact ⟨3, 365, by omega, by omega, by omega, fun _ => rfl⟩
    · exact ⟨rest % 1461 / 365, rest % 1461 % 365, by omega, by omega, by omega, by omega⟩
  refine ⟨⟨c, rest / 1461, u, d⟩, ⟨hc, by dsimp only; omega, hu, hd, ?_⟩, ?_⟩
  · intro hlong
    refine ⟨hleap hlong, fun hfour => hlast ?_⟩
    dsimp only at hfour hlong
    omega
  · simp only [Parts.dayOfEra]
    omega

/-- The year in the era, counted from its day. -/
theorem Parts.yearOfEra_eq (p : Parts) (h : p.InEra) :
    (p.dayOfEra - p.dayOfEra / 1460 + p.dayOfEra / 36524 - p.dayOfEra / 146096) / 365 =
      p.yearOfEra := by
  rcases p with ⟨c, q, u, d⟩
  obtain ⟨hc, hq, hu, hd, hleap⟩ := h
  simp only [Parts.dayOfEra, Parts.yearOfEra] at *
  generalize hday : 36524 * c + 1461 * q + 365 * u + d = day
  -- the days that the leap days before this day make up
  generalize hextra : (24 * c + q + 365 * u + d) / 1460 = extra
  have hfours : day / 1460 = 25 * c + q + extra := by omega
  have hcenturies : day / 36524 - day / 146096 = c := by
    by_cases hlast : 1461 * q + 365 * u + d = 36524
    · have : c = 3 := (hleap (by omega)).2 (by omega)
      omega
    · have : day / 36524 = c := by omega
      omega
  have hextra' : 0 ≤ d - extra ∧ d - extra < 365 := by omega
  omega

/-- The days before a year of an era. -/
theorem Parts.daysBefore (p : Parts) (h : p.InEra) :
    p.yearOfEra * 365 + p.yearOfEra / 4 - p.yearOfEra / 100 + p.day = p.dayOfEra := by
  obtain ⟨hc, hq, hu, -, -⟩ := h
  simp only [Parts.dayOfEra, Parts.yearOfEra]
  omega

/-! ## Months -/

/-- The month of a day of a year that begins in March. -/
def monthOfDay (d : Int) : Int :=
  if (5 * d + 2) / 153 < 10 then (5 * d + 2) / 153 + 3 else (5 * d + 2) / 153 - 9

/-- The day of its month of a day of a year that begins in March. -/
def dayOfMonth (d : Int) : Int := d - (153 * ((5 * d + 2) / 153) + 2) / 5 + 1

/-- The months and days of a year are those of the calendar, and tell the day of the year. -/
theorem month_of_day (d : Int) (h : 0 ≤ d ∧ d ≤ 365) :
    ∃ month day : Nat, monthOfDay d = month ∧ dayOfMonth d = day ∧ (1 ≤ month ∧ month ≤ 12) ∧
      (1 ≤ day ∧ day ≤ 31) ∧
      (153 * ((if month ≤ 2 then month + 9 else month - 3 : Nat) : Int) + 2) / 5 + day - 1 = d ∧
      (month = 4 ∨ month = 6 ∨ month = 9 ∨ month = 11 → day ≤ 30) ∧
      (month = 2 → day ≤ 28 ∨ day = 29 ∧ d = 365) := by
  obtain ⟨m, hm⟩ : ∃ m : Nat, (5 * d + 2) / 153 = m :=
    ⟨_, (Int.toNat_of_nonneg (by omega)).symm⟩
  obtain ⟨day, hday⟩ : ∃ day : Nat, d - (153 * (m : Int) + 2) / 5 + 1 = day :=
    ⟨_, (Int.toNat_of_nonneg (by omega)).symm⟩
  simp only [monthOfDay, dayOfMonth, hm, hday]
  by_cases hspring : m < 10
  · refine ⟨m + 3, day, ?_⟩
    rw [if_pos (by omega), if_neg (by omega)]
    omega
  · refine ⟨m - 9, day, ?_⟩
    rw [if_neg (by omega), if_pos (by omega)]
    omega

theorem daysInMonth_le (year : Int) (month : Nat) : daysInMonth year month ≤ 31 := by
  unfold daysInMonth
  split
  · split <;> omega
  · split <;> omega

/-! ## Days and dates -/

/-- The date of a day of an era. -/
theorem ofDays_parts (era : Int) (p : Parts) (h : p.InEra) :
    ofDays (era * 146097 + p.dayOfEra - 719468) =
      ⟨if monthOfDay p.day ≤ 2 then p.yearOfEra + era * 400 + 1 else p.yearOfEra + era * 400,
        (monthOfDay p.day).toNat, (dayOfMonth p.day).toNat⟩ := by
  have hbounds : 0 ≤ p.dayOfEra ∧ p.dayOfEra < 146097 := by
    obtain ⟨hc, hq, hu, hd, hleap⟩ := h
    simp only [Parts.dayOfEra]
    omega
  have hera : (era * 146097 + p.dayOfEra - 719468 + 719468) / 146097 = era := by omega
  have hday : (era * 146097 + p.dayOfEra - 719468 + 719468) % 146097 = p.dayOfEra := by omega
  have hyear : p.dayOfEra - (365 * p.yearOfEra + p.yearOfEra / 4 - p.yearOfEra / 100) = p.day := by
    have := p.daysBefore h
    omega
  simp only [ofDays, hera, hday, p.yearOfEra_eq h, hyear, monthOfDay, dayOfMonth]
  rfl

theorem exists_era (days : Int) :
    ∃ (era : Int) (p : Parts), p.InEra ∧ era * 146097 + p.dayOfEra - 719468 = days := by
  obtain ⟨p, hp, hday⟩ := exists_parts ((days + 719468) % 146097) (by omega)
  exact ⟨(days + 719468) / 146097, p, hp, by omega⟩

/-- A date tells its number of days. -/
theorem toDays_ofDays (days : Int) : (ofDays days).toDays = days := by
  obtain ⟨era, p, hp, rfl⟩ := exists_era days
  have hbefore := p.daysBefore hp
  have hyear : 0 ≤ p.yearOfEra ∧ p.yearOfEra < 400 := by
    obtain ⟨hc, hq, hu, -, -⟩ := hp
    simp only [Parts.yearOfEra]
    omega
  obtain ⟨month, day, hmonth, hday, -, -, hback, -, -⟩ := month_of_day p.day hp.day
  rw [ofDays_parts era p hp, hmonth, hday]
  simp only [toDays, Int.toNat_natCast, hback]
  by_cases hspring : month ≤ 2
  · have hspring' : (month : Int) ≤ 2 := by omega
    simp only [hspring, hspring', if_true]
    omega
  · have hspring' : ¬(month : Int) ≤ 2 := by omega
    simp only [hspring, hspring', if_false]
    omega

/-- The last February of four years has 29 days. -/
theorem isLeapYear_parts (era : Int) (p : Parts) (h : p.InEra) (hday : p.day = 365) :
    isLeapYear (p.yearOfEra + era * 400 + 1) = true := by
  obtain ⟨hyear, hcentury⟩ := h.leap hday
  obtain ⟨hc, hq, -, -, -⟩ := h
  simp only [isLeapYear, Parts.yearOfEra, hyear, Bool.and_eq_true, Bool.or_eq_true,
    decide_eq_true_eq]
  omega

/-- The date of a number of days exists. -/
theorem isValid_ofDays (days : Int) : (ofDays days).isValid = true := by
  obtain ⟨era, p, hp, rfl⟩ := exists_era days
  obtain ⟨month, day, hmonth, hday, hmonths, hdays, -, hshort, hfebruary⟩ :=
    month_of_day p.day hp.day
  rw [ofDays_parts era p hp, hmonth, hday]
  have hlength : day ≤ daysInMonth
      (if (month : Int) ≤ 2 then p.yearOfEra + era * 400 + 1 else p.yearOfEra + era * 400)
      month := by
    by_cases htwo : month = 2
    · subst htwo
      rw [if_pos (by omega), daysInMonth, if_pos rfl]
      rcases hfebruary rfl with hday | ⟨rfl, hlast⟩
      · split <;> omega
      · exact Nat.le_of_eq (if_pos (isLeapYear_parts era p hp hlast)).symm
    · rw [daysInMonth, if_neg htwo]
      split
      · next hshorter =>
        simp only [Bool.or_eq_true, decide_eq_true_eq] at hshorter
        omega
      · exact hdays.2
  simp only [isValid, Int.toNat_natCast, Bool.and_eq_true, decide_eq_true_eq]
  exact ⟨⟨⟨hmonths.1, hmonths.2⟩, hdays.1⟩, hlength⟩

/-- The days between the first days of two years have dates in these years. -/
theorem year_ofDays (days : Int)
    (h : (⟨-Moment.yearLimit, 1, 1⟩ : Date).toDays ≤ days ∧
      days < (⟨Moment.yearLimit, 1, 1⟩ : Date).toDays) :
    -Moment.yearLimit ≤ (ofDays days).year ∧ (ofDays days).year < Moment.yearLimit := by
  have hfirst : (⟨-Moment.yearLimit, 1, 1⟩ : Date).toDays = -96465292 := by decide
  have hend : (⟨Moment.yearLimit, 1, 1⟩ : Date).toDays = 95026237 := by decide
  rw [hfirst, hend] at h
  obtain ⟨era, p, hp, rfl⟩ := exists_era days
  obtain ⟨hc, hq, hu, hd, -⟩ := id hp
  have hjanuary : monthOfDay p.day ≤ 2 ↔ 306 ≤ p.day := by
    rw [monthOfDay]
    split <;> omega
  simp only [ofDays_parts era p hp, hjanuary]
  simp only [Parts.dayOfEra, Parts.yearOfEra, Moment.yearLimit] at h ⊢
  have hcentury : p.century = 0 ∨ p.century = 1 ∨ p.century = 2 ∨ p.century = 3 := by omega
  have hyear : p.year = 0 ∨ p.year = 1 ∨ p.year = 2 ∨ p.year = 3 := by omega
  rcases hcentury with hc' | hc' | hc' | hc' <;> rcases hyear with hu' | hu' | hu' | hu' <;>
    rw [hc', hu'] at h ⊢ <;> split <;> omega

end Date

end SigningGateway
