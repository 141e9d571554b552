import PlaybookRuns.Time.Date

/-!
# Days and dates

Every day has a date, and the date leads back to the day. Main statements: the date of a day exists
in the calendar, and its day is the one it was made from.
-/

namespace PlaybookRuns.Time

private theorem isLeapYear_iff {year : Int} :
    isLeapYear year = true ↔ year % 4 = 0 ∧ (year % 100 ≠ 0 ∨ year % 400 = 0) := by
  simp [isLeapYear]

namespace Date

-- A day of a cycle of 400 years lies in a century of it, there in four years, and there in a year.
-- The last day of four years is a leap day, but not the last one of the first three centuries.
private theorem exists_split {d : Int} (hd : 0 ≤ d) (hcycle : d < 146097) :
    ∃ century fours year day : Int, d = 36524 * century + 1461 * fours + 365 * year + day ∧
      (0 ≤ century ∧ century ≤ 3) ∧ (0 ≤ fours ∧ fours ≤ 24) ∧ (0 ≤ year ∧ year ≤ 3) ∧
      (0 ≤ day ∧ day ≤ 365) ∧ (day = 365 → year = 3 ∧ (fours ≠ 24 ∨ century = 3)) := by
  have hcentury : ∃ century r : Int, d = 36524 * century + r ∧ (0 ≤ century ∧ century ≤ 3) ∧
      (0 ≤ r ∧ r ≤ 36524) ∧ (r = 36524 → century = 3) := by
    by_cases hlast : d = 146096
    · exact ⟨3, 36524, by omega⟩
    · exact ⟨d / 36524, d % 36524, by omega⟩
  obtain ⟨century, r, hr, hbounds, hrest⟩ := hcentury
  have hyear : ∃ year day : Int, r % 1461 = 365 * year + day ∧ (0 ≤ year ∧ year ≤ 3) ∧
      (0 ≤ day ∧ day ≤ 365) ∧ (day = 365 → year = 3) := by
    by_cases hlast : r % 1461 = 1460
    · exact ⟨3, 365, by omega⟩
    · exact ⟨r % 1461 / 365, r % 1461 % 365, by omega⟩
  obtain ⟨year, day, hday, hyear⟩ := hyear
  exact ⟨century, r / 1461, year, day, by omega⟩

section Split

variable {century fours year day : Int} (hcentury : 0 ≤ century ∧ century ≤ 3)
  (hfours : 0 ≤ fours ∧ fours ≤ 24) (hyear : 0 ≤ year ∧ year ≤ 3)

include hcentury hfours hyear in
private theorem year_eq {d : Int} (hd : d = 36524 * century + 1461 * fours + 365 * year + day)
    (hday : 0 ≤ day ∧ day ≤ 365) (hlast : day = 365 → year = 3 ∧ (fours ≠ 24 ∨ century = 3)) :
    (d - d / 1460 + d / 36524 - d / 146096) / 365 = 100 * century + 4 * fours + year := by
  -- on the last day of a cycle both divisions count one more
  have hcenturies : d / 36524 - d / 146096 = century := by
    obtain hr | ⟨hr, rfl⟩ : 1461 * fours + 365 * year + day < 36524 ∨
        1461 * fours + 365 * year + day = 36524 ∧ century = 3 := by omega
    · have hcycles : d / 146096 = 0 := by omega
      have hcentury' : d / 36524 = century := by omega
      omega
    · obtain rfl : d = 146096 := by omega
      rfl
  -- late in a span of four years the leap day at its end is counted as one before
  have hleaps : d / 1460 = 25 * century + fours +
      if 24 * century + fours + 365 * year + day < 1460 then 0 else 1 := by
    split <;> omega
  rw [show d - d / 1460 + d / 36524 - d / 146096 = d - d / 1460 + century by omega, hleaps]
  split <;> omega

include hfours hyear in
private theorem start_eq :
    365 * (100 * century + 4 * fours + year) + (100 * century + 4 * fours + year) / 4 -
        (100 * century + 4 * fours + year) / 100 =
      36524 * century + 1461 * fours + 365 * year := by
  have hquarters : (100 * century + 4 * fours + year) / 4 = 25 * century + fours := by omega
  have hhundreds : (100 * century + 4 * fours + year) / 100 = century := by omega
  omega

end Split

-- The year of a cycle in which a day lies, and its day in that year, which is the 366th only where
-- the year ends with a leap day.
private theorem year_of_day {d y : Int} (hd : 0 ≤ d) (hcycle : d < 146097)
    (hy : y = (d - d / 1460 + d / 36524 - d / 146096) / 365) :
    (0 ≤ y ∧ y < 400) ∧ ∃ dayOfYear, d = 365 * y + y / 4 - y / 100 + dayOfYear ∧
      0 ≤ dayOfYear ∧ dayOfYear ≤ 365 ∧ (dayOfYear = 365 → isLeapYear (y + 1)) := by
  obtain ⟨century, fours, year, day, hsplit, hcentury, hfours, hyear, hday, hlast⟩ :=
    exists_split hd hcycle
  obtain rfl := hy.trans (year_eq hcentury hfours hyear hsplit hday hlast)
  clear hy
  refine ⟨by omega, day, ?_, hday.1, hday.2, fun hleap ↦ ?_⟩
  · rw [start_eq hfours hyear, hsplit]
  · obtain ⟨rfl, hcommon⟩ := hlast hleap
    rw [isLeapYear_iff]
    refine ⟨by omega, ?_⟩
    rcases hcommon with hother | rfl
    · left
      omega
    · omega

-- The days of a month, counted from March, of a year that ends with February.
private def monthLength (leap : Bool) (month : Nat) : Nat :=
  if month = 11 then if leap then 29 else 28
  else if month = 1 ∨ month = 3 ∨ month = 6 ∨ month = 8 then 30 else 31

-- The month, counted from March, and the day of it to which a day of a year comes.
private theorem month_of_day {dayOfYear : Int} {leap : Bool} (h : 0 ≤ dayOfYear)
    (hyear : dayOfYear ≤ 365) (hleap : dayOfYear = 365 → leap) :
    ∃ month day : Nat, (5 * dayOfYear + 2) / 153 = month ∧ month ≤ 11 ∧
      dayOfYear - (153 * month + 2) / 5 + 1 = day ∧ 1 ≤ day ∧ day ≤ monthLength leap month := by
  refine ⟨((5 * dayOfYear + 2) / 153).toNat,
    (dayOfYear - (153 * ((5 * dayOfYear + 2) / 153) + 2) / 5 + 1).toNat, ?_⟩
  generalize hm : (5 * dayOfYear + 2) / 153 = m
  obtain rfl | rfl | rfl | rfl | rfl | rfl | rfl | rfl | rfl | rfl | rfl | rfl : m = 0 ∨ m = 1 ∨
      m = 2 ∨ m = 3 ∨ m = 4 ∨ m = 5 ∨ m = 6 ∨ m = 7 ∨ m = 8 ∨ m = 9 ∨ m = 10 ∨ m = 11 := by omega
  all_goals
    cases leap <;> simp [monthLength] at hleap ⊢ <;> omega

private theorem isLeapYear_add_cycles (year cycle : Int) :
    isLeapYear (year + cycle * 400) = isLeapYear year := by
  rw [Bool.eq_iff_iff, isLeapYear_iff, isLeapYear_iff]
  omega

-- The date of a day: the cycle in which it lies, the year there and the month, both counted from
-- March, and the day of the month.
private theorem exists_ofDays_eq (days : Int) :
    ∃ (cycle y : Int) (month day : Nat),
      days + 719468 =
        cycle * 146097 + (365 * y + y / 4 - y / 100 + ((153 * month + 2) / 5 + day - 1)) ∧
      (0 ≤ y ∧ y < 400) ∧ month ≤ 11 ∧ 1 ≤ day ∧ day ≤ monthLength (isLeapYear (y + 1)) month ∧
      ofDays days =
        if month < 10 then ⟨y + cycle * 400, month + 3, day⟩
        else ⟨y + 1 + cycle * 400, month - 9, day⟩ := by
  obtain ⟨hy, dayOfYear, hd, h0, hlast, hleap⟩ := year_of_day
    (Int.emod_nonneg (days + 719468) (b := 146097) (by decide))
    (Int.emod_lt_of_pos _ (by decide)) rfl
  obtain ⟨month, day, hmonth, hle, hday, hpos, hlength⟩ := month_of_day h0 hlast hleap
  refine ⟨(days + 719468) / 146097, _, month, day, ?_, hy, hle, hpos, hlength, ?_⟩
  · omega
  · unfold ofDays
    extract_lets shifted dayOfCycle yearOfCycle dayOfYear' month' day' year
    have hdayOfYear : dayOfYear' = dayOfYear := Int.sub_eq_iff_eq_add'.2 hd
    have hmonth' : month' = month := by rw [← hmonth, ← hdayOfYear]
    have hday' : day' = day := by rw [← hday, ← hmonth', ← hdayOfYear]
    rw [hmonth', hday']
    by_cases h : month < 10
    · rw [if_pos h, if_pos (by omega)]
      rfl
    · rw [if_neg h, if_neg (by omega), Date.mk.injEq]
      refine ⟨by omega, by omega, rfl⟩

private theorem daysInMonth_of_lt {month : Nat} (h : month < 10) (year : Int) (leap : Bool) :
    daysInMonth year (month + 3) = monthLength leap month := by
  have hshort : month + 3 = 4 ∨ month + 3 = 6 ∨ month + 3 = 9 ∨ month + 3 = 11 ↔
      month = 1 ∨ month = 3 ∨ month = 6 ∨ month = 8 := by omega
  rw [daysInMonth, monthLength, if_neg (show month + 3 ≠ 2 by omega),
    if_neg (show month ≠ 11 by omega)]
  simp only [hshort]

private theorem daysInMonth_of_le {month : Nat} (h : 10 ≤ month) (hle : month ≤ 11) (year : Int) :
    daysInMonth year (month - 9) = monthLength (isLeapYear year) month := by
  obtain rfl | rfl : month = 10 ∨ month = 11 := by omega
  · rfl
  · rfl

/-- The month and the day to which a number of days comes exist. -/
theorem isValid_ofDays (days : Int) : (ofDays days).IsValid := by
  obtain ⟨cycle, y, month, day, -, hy, hle, hpos, hlength, heq⟩ := exists_ofDays_eq days
  rw [heq]
  by_cases h : month < 10
  · rw [← daysInMonth_of_lt h (y + cycle * 400)] at hlength
    rw [if_pos h]
    exact ⟨show 1 ≤ month + 3 by omega, show month + 3 ≤ 12 by omega, hpos, hlength⟩
  · rw [← isLeapYear_add_cycles (y + 1) cycle, ← daysInMonth_of_le (by omega) hle] at hlength
    rw [if_neg h]
    exact ⟨show 1 ≤ month - 9 by omega, show month - 9 ≤ 12 by omega, hpos, hlength⟩

/-- The date of a day is the date of that day. -/
theorem toDays_ofDays (days : Int) : (ofDays days).toDays = days := by
  obtain ⟨cycle, y, month, day, hdays, hy, hle, -, -, heq⟩ := exists_ofDays_eq days
  rw [heq]
  by_cases h : month < 10
  · rw [if_pos h, toDays]
    have hmonth : (month + 3 + 9) % 12 = month := by omega
    have hyear : (y + cycle * 400) % 400 = y := by omega
    have hcycle : (y + cycle * 400) / 400 = cycle := by omega
    simp only [if_neg (show ¬month + 3 ≤ 2 by omega), hmonth, hyear, hcycle]
    omega
  · rw [if_neg h, toDays]
    have hmonth : (month - 9 + 9) % 12 = month := by omega
    have hyear : (y + 1 + cycle * 400 - 1) % 400 = y := by omega
    have hcycle : (y + 1 + cycle * 400 - 1) / 400 = cycle := by omega
    simp only [if_pos (show month - 9 ≤ 2 by omega), hmonth, hyear, hcycle]
    omega

end Date

end PlaybookRuns.Time
