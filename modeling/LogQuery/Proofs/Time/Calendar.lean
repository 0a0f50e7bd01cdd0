import LogQuery.Time.Calendar
import Mathlib.Algebra.Ring.Nat
import Mathlib.Order.Monotone.Basic
import Mathlib.Tactic.SplitIfs

/-! Days and dates. The numbering of days passes from a year to the next by the length of the year, and
within it from month to month. So each number below the count is that of one valid date, and each valid
date has such a number. -/

namespace LogQuery.Time.Date

theorem sum_monthLengths (year : Nat) :
    (monthLengths year).sum = if isLeap year then 366 else 365 := by
  unfold monthLengths
  cases isLeap year <;> rfl

theorem isLeap_iff (year : Nat) :
    isLeap year = true ↔ year % 4 = 0 ∧ (year % 100 ≠ 0 ∨ year % 400 = 0) := by
  simp [isLeap]

theorem daysBeforeYear_eq (past : Nat) :
    daysBeforeYear (past + 1) = past * 365 + past / 4 - past / 100 + past / 400 :=
  rfl

/-- The next year begins when this one is over. -/
theorem daysBeforeYear_succ (past : Nat) :
    daysBeforeYear (past + 1 + 1) =
      daysBeforeYear (past + 1) + (monthLengths (past + 1)).sum := by
  have hFour : (past + 1) / 4 = past / 4 + if (past + 1) % 4 = 0 then 1 else 0 := by
    split <;> omega
  have hCentury : (past + 1) / 100 = past / 100 + if (past + 1) % 100 = 0 then 1 else 0 := by
    split <;> omega
  have hEra : (past + 1) / 400 = past / 400 + if (past + 1) % 400 = 0 then 1 else 0 := by
    split <;> omega
  have hFew : past / 100 ≤ past / 4 := Nat.div_le_div_left (by decide) (by decide)
  have hEraCentury : (past + 1) % 400 = 0 → (past + 1) % 100 = 0 := by omega
  have hCenturyFour : (past + 1) % 100 = 0 → (past + 1) % 4 = 0 := by omega
  rw [sum_monthLengths, daysBeforeYear_eq, daysBeforeYear_eq, hFour, hCentury, hEra]
  simp only [isLeap_iff]
  split_ifs <;> omega

theorem daysBeforeYear_mono : Monotone fun past => daysBeforeYear (past + 1) := by
  apply monotone_nat_of_le_succ
  intro past
  rw [daysBeforeYear_succ]
  exact Nat.le_add_right _ _

/-- A day within a year is a day of some month. -/
theorem exists_inYear (month : Nat) {n : Nat} {lengths : List Nat} (h : n < lengths.sum) :
    ∃ i length day, lengths[i]? = some length ∧ inYear month n lengths = (month + i, day + 1) ∧
      day < length ∧ (lengths.take i).sum + day = n := by
  induction lengths generalizing month n with
  | nil => cases h
  | cons length lengths ih =>
      unfold inYear
      by_cases hFirst : n < length
      · exact ⟨0, length, n, rfl, by rw [if_pos hFirst]; rfl, hFirst, by simp⟩
      · rw [List.sum_cons] at h
        obtain ⟨i, found, day, hFound, hRest, hDay, hSum⟩ := ih (month + 1) (n := n - length) (by omega)
        refine ⟨i + 1, found, day, hFound, ?_, hDay, ?_⟩
        · rw [if_neg hFirst, hRest]
          congr 1
          omega
        · rw [List.take_succ_cons, List.sum_cons]
          omega

/-- The days before a year that is given by its era of four centuries, its century, its cycle of four
years and its place in it. -/
theorem daysBeforeYear_of_parts (era : Nat) {century cycle place : Nat} (hCentury : century ≤ 3)
    (hCycle : cycle ≤ 24) (hPlace : place ≤ 3) :
    daysBeforeYear (era * 400 + century * 100 + cycle * 4 + place + 1) =
      era * 146097 + century * 36524 + cycle * 1461 + place * 365 := by
  have hFour : (era * 400 + century * 100 + cycle * 4 + place) / 4 =
      era * 100 + century * 25 + cycle := by omega
  have hHundred : (era * 400 + century * 100 + cycle * 4 + place) / 100 = era * 4 + century := by
    omega
  have hEra : (era * 400 + century * 100 + cycle * 4 + place) / 400 = era := by omega
  rw [daysBeforeYear_eq, hFour, hHundred, hEra]
  omega

/-- The last year of a cycle is longer, but for the last cycle of a century that is not the last. -/
theorem lt_sum_monthLengths (era : Nat) {century cycle place day : Nat} (hCentury : century ≤ 3)
    (hCycle : cycle ≤ 24) (hPlace : place ≤ 3) (hDay : day ≤ 365) (hShort : place < 3 → day < 365)
    (hCommon : century < 3 → cycle = 24 → place = 3 → day < 365) :
    day < (monthLengths (era * 400 + century * 100 + cycle * 4 + place + 1)).sum := by
  rw [sum_monthLengths]
  simp only [isLeap_iff]
  split
  · omega
  · rename_i hLeap
    by_cases hLast : place = 3
    · omega
    · omega

/-- A day of the calendar is a day of some year. -/
theorem exists_ofDays (n : Nat) : ∃ past day, n = daysBeforeYear (past + 1) + day ∧
    day < (monthLengths (past + 1)).sum ∧
    ofDays n = ⟨past + 1, (inYear 1 day (monthLengths (past + 1))).1,
      (inYear 1 day (monthLengths (past + 1))).2⟩ := by
  have hParts : ∃ inEra century inCentury inCycle place : Nat,
      inEra = n % 146097 ∧ century = min (inEra / 36524) 3 ∧
      inCentury = inEra - century * 36524 ∧ inCycle = inCentury % 1461 ∧
      place = min (inCycle / 365) 3 ∧
      ofDays n =
        let past := n / 146097 * 400 + century * 100 + inCentury / 1461 * 4 + place
        let day := inCycle - place * 365
        ⟨past + 1, (inYear 1 day (monthLengths (past + 1))).1,
          (inYear 1 day (monthLengths (past + 1))).2⟩ :=
    ⟨_, _, _, _, _, rfl, rfl, rfl, rfl, rfl, rfl⟩
  obtain ⟨inEra, century, inCentury, inCycle, place, hEra, hCentury, hIn, hCycle, hPlace, hDate⟩ :=
    hParts
  have hEraLt : inEra < 146097 := by omega
  have hCenturyLe : century ≤ 3 := by omega
  have hInLe : inCentury ≤ 36524 := by omega
  have hInLt : century < 3 → inCentury < 36524 := by omega
  have hCycleLe : inCentury / 1461 ≤ 24 := by omega
  have hPlaceLe : place ≤ 3 := by omega
  refine ⟨_, _, ?_, ?_, hDate⟩
  · rw [daysBeforeYear_of_parts _ hCenturyLe hCycleLe hPlaceLe]
    omega
  · apply lt_sum_monthLengths _ hCenturyLe hCycleLe hPlaceLe
    · omega
    · omega
    · omega

theorem toDays_eq (d : Date) :
    d.toDays = daysBeforeYear d.year + ((monthLengths d.year).take (d.month - 1)).sum +
      (d.day - 1) := by
  rw [toDays, List.sum_eq_foldl]

theorem isValid_iff (d : Date) :
    d.isValid = true ↔ (1 ≤ d.year ∧ d.year ≤ lastYear ∧ 1 ≤ d.month ∧ 1 ≤ d.day) ∧
      ∃ length, (monthLengths d.year)[d.month - 1]? = some length ∧ d.day ≤ length := by
  unfold isValid
  cases (monthLengths d.year)[d.month - 1]? with
  | none => simp
  | some length => simp [and_assoc]

/-- The numbers of a valid date have four digits and two. -/
theorem lt_of_isValid {d : Date} (h : d.isValid = true) :
    d.year < 10 ^ 4 ∧ d.month < 10 ^ 2 ∧ d.day < 10 ^ 2 := by
  obtain ⟨⟨-, hYear, -, -⟩, length, hLength, hDay⟩ := (isValid_iff d).mp h
  obtain ⟨hMonth, rfl⟩ := List.getElem?_eq_some_iff.mp hLength
  have hMonths : d.month - 1 < 12 := hMonth
  have hLongest : ∀ length ∈ monthLengths d.year, length ≤ 31 := by
    unfold monthLengths
    cases isLeap d.year <;> decide
  have hLe := hLongest _ (List.getElem_mem hMonth)
  have hLast : lastYear = 9999 := rfl
  omega

/-- The date of a day is that of the day. -/
theorem toDays_ofDays (n : Nat) : (ofDays n).toDays = n := by
  obtain ⟨past, inYear', rfl, hDay, hDate⟩ := exists_ofDays n
  obtain ⟨i, length, day, -, hMonth, -, hSum⟩ := exists_inYear 1 hDay
  rw [hDate, toDays_eq, hMonth]
  simp only [Nat.add_sub_cancel_left, Nat.add_sub_cancel]
  omega

/-- A day below the count has a valid date. -/
theorem isValid_ofDays {n : Nat} (h : n < dayCount) : (ofDays n).isValid = true := by
  obtain ⟨past, inYear', rfl, hDay, hDate⟩ := exists_ofDays n
  obtain ⟨i, length, day, hLength, hMonth, hDayLt, -⟩ := exists_inYear 1 hDay
  have hYear : past < lastYear := by
    by_contra hLater
    have hMono : dayCount ≤ daysBeforeYear (past + 1) := daysBeforeYear_mono (not_lt.mp hLater)
    omega
  rw [isValid_iff, hDate, hMonth]
  refine ⟨⟨Nat.le_add_left 1 past, hYear, Nat.le_add_right 1 i, Nat.le_add_left 1 day⟩, length, ?_, ?_⟩
  · rw [Nat.add_sub_cancel_left, hLength]
  · exact hDayLt

theorem sum_take_add_le {lengths : List Nat} {i length : Nat} (h : lengths[i]? = some length) :
    (lengths.take i).sum + length ≤ lengths.sum := by
  obtain ⟨hLt, rfl⟩ := List.getElem?_eq_some_iff.mp h
  have hSplit : lengths.take i ++ lengths[i] :: lengths.drop (i + 1) = lengths := by
    rw [← List.drop_eq_getElem_cons hLt, List.take_append_drop]
  calc (lengths.take i).sum + lengths[i]
      ≤ (lengths.take i ++ lengths[i] :: lengths.drop (i + 1)).sum := by
        rw [List.sum_append, List.sum_cons]
        omega
    _ = lengths.sum := by rw [hSplit]

/-- The number of a valid date is below the count. -/
theorem toDays_lt {d : Date} (h : d.isValid = true) : d.toDays < dayCount := by
  obtain ⟨⟨hFirst, hLast, -, hDay⟩, length, hLength, hLe⟩ := (isValid_iff d).mp h
  have hSum := sum_take_add_le hLength
  obtain ⟨past, hPast⟩ := Nat.exists_eq_add_of_le' hFirst
  have hNext := daysBeforeYear_succ past
  rw [← hPast] at hNext
  have hMono : daysBeforeYear (d.year + 1) ≤ dayCount := daysBeforeYear_mono hLast
  rw [toDays_eq]
  omega

end LogQuery.Time.Date
