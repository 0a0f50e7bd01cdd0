/-!
The proleptic Gregorian calendar for the years 1 to 9999. Days are counted from the first of
January of year 1, which is day zero and a Monday.
-/

namespace LogQuery.Time

structure Date where
  year : Nat
  month : Nat
  day : Nat
deriving DecidableEq, Repr

namespace Date

def lastYear : Nat := 9999

/-- Every fourth year, but of the full centuries only every fourth one. -/
def isLeap (year : Nat) : Bool :=
  year % 4 == 0 && (year % 100 != 0 || year % 400 == 0)

/-- The lengths of the months of a year. -/
def monthLengths (year : Nat) : List Nat :=
  [31, if isLeap year then 29 else 28, 31, 30, 31, 30, 31, 31, 30, 31, 30, 31]

def isValid (d : Date) : Bool :=
  decide (1 ≤ d.year) && decide (d.year ≤ lastYear) && decide (1 ≤ d.month) && decide (1 ≤ d.day) &&
    match (monthLengths d.year)[d.month - 1]? with
    | some length => decide (d.day ≤ length)
    | none => false

/-- The number of days before a year. -/
def daysBeforeYear (year : Nat) : Nat :=
  let past := year - 1
  past * 365 + past / 4 - past / 100 + past / 400

def toDays (d : Date) : Nat :=
  daysBeforeYear d.year + ((monthLengths d.year).take (d.month - 1)).foldl (· + ·) 0 + (d.day - 1)

/-- The month and day of the day `n` of a year, counted from zero, given the lengths of the months
from `month` on. -/
def inYear (month n : Nat) : List Nat → Nat × Nat
  | [] => (month, n + 1)
  | length :: rest => if n < length then (month, n + 1) else inYear (month + 1) (n - length) rest

/-- The day with a number. -/
def ofDays (n : Nat) : Date :=
  let inEra := n % 146097
  let century := min (inEra / 36524) 3
  let inCentury := inEra - century * 36524
  let inCycle := inCentury % 1461
  let cycleYear := min (inCycle / 365) 3
  let year := n / 146097 * 400 + century * 100 + inCentury / 1461 * 4 + cycleYear + 1
  let (month, day) := inYear 1 (inCycle - cycleYear * 365) (monthLengths year)
  ⟨year, month, day⟩

def dayCount : Nat :=
  daysBeforeYear (lastYear + 1)

/-- The day of the week, Monday being zero. -/
def weekday (n : Nat) : Nat :=
  n % 7

/-- The number of the Monday of the first week of a year: the week that holds its first Thursday.
It may lie before day zero by less than a week, hence the shift by seven. -/
def firstMonday (year : Nat) : Nat :=
  let first := daysBeforeYear year
  let day := weekday first
  if 3 < day then first + 14 - day else first + 7 - day

/-- The year has a week 53: it starts on a Thursday, or on a Wednesday and is a leap year. -/
def hasLongYear (year : Nat) : Bool :=
  let day := weekday (daysBeforeYear year)
  day == 3 || (day == 2 && isLeap year)

/-- The day of a week date, `day` counting from one on Monday. -/
def ofWeek? (year week day : Nat) : Option Date :=
  if year < 1 ∨ lastYear < year ∨ week < 1 ∨ 53 < week ∨ day < 1 ∨ 7 < day then none
  else if week = 53 ∧ hasLongYear year = false then none
  else some (ofDays (firstMonday year + (week - 1) * 7 + (day - 1) - 7))

end Date

end LogQuery.Time
