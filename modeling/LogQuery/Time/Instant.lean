import LogQuery.Failure
import LogQuery.Time.Calendar

/-!
Instants to the microsecond, with or without an offset from universal time, and their ISO form.
-/

namespace LogQuery.Time

/-- A date and a time of day on the clock of some offset. -/
structure Instant where
  /-- Microseconds on that clock since the start of the calendar. -/
  micros : Int
  /-- Microseconds by which that clock is ahead of universal time, if known. -/
  offset : Option Int
deriving DecidableEq, Repr

def microsPerSecond : Nat := 1000000

def microsPerMinute : Nat := 60 * microsPerSecond

def microsPerDay : Nat := 24 * 60 * microsPerMinute

namespace Instant

/-- The instant lies within the calendar. -/
def inRange (t : Instant) : Bool :=
  decide (0 ≤ t.micros) && decide (t.micros < Date.dayCount * microsPerDay)

/-- The instant some microseconds later, if the calendar has it. -/
def shift (t : Instant) (micros : Int) : Except Failure Instant :=
  let moved : Instant := { t with micros := t.micros + micros }
  if moved.inRange then .ok moved else .error .overflow

/-- The last `width` decimal digits of `n`. -/
def padded (width n : Nat) : Text :=
  let ds := Integer.digits n
  Integer.zeros (width - ds.length) ++ ds

/-- Hours, minutes and seconds of a number of seconds. -/
def clock (seconds : Nat) : Text :=
  padded 2 (seconds / 3600) ++ ":" ++ padded 2 (seconds / 60 % 60) ++ ":" ++ padded 2 (seconds % 60)

/-- Microseconds as a fraction of a second; nothing if there are none. -/
def fraction (micros : Nat) : Text :=
  if micros = 0 then [] else '.' :: padded 6 micros

/-- An offset: hours and minutes, and what lies below them only if it is not zero. -/
def offsetText (offset : Int) : Text :=
  let sign : Text := if offset < 0 then "-" else "+"
  let micros := offset.natAbs % microsPerSecond
  let seconds := offset.natAbs / microsPerSecond
  let whole := clock seconds
  sign ++ (if micros = 0 ∧ seconds % 60 = 0 then whole.take 5 else whole ++ fraction micros)

def text (t : Instant) : Text :=
  let micros := t.micros.toNat
  let d := Date.ofDays (micros / microsPerDay)
  let inDay := micros % microsPerDay
  padded 4 d.year ++ "-" ++ padded 2 d.month ++ "-" ++ padded 2 d.day ++ "T" ++
    clock (inDay / microsPerSecond) ++ fraction (inDay % microsPerSecond) ++
    match t.offset with
    | some offset => offsetText offset
    | none => []

end Instant

end LogQuery.Time
