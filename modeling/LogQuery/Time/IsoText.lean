import LogQuery.Text.Utf8
import LogQuery.Time.Instant

/-!
Reading of ISO dates and times. A date is given by month and day or by week and weekday, each in the
basic or the extended form; any one character separates it from the time; a time may lack its
seconds or minutes, has a fraction after a point or a comma of which six digits count, and may end
in an offset.
-/

namespace LogQuery.Time.IsoText

/-- The character that stands for the end of a text. -/
def ending : CodePoint := '\x00'

/-- The first character, or the ending. -/
def peek (cs : Text) : CodePoint :=
  cs.headD ending

/-- Read exactly `count` decimal digits of ASCII. -/
def number? (count : Nat) (cs : Text) : Option (Nat × Text) :=
  let ds := cs.take count
  if ds.length = count && ds.all CodePoint.isDigit then some (Integer.ofDigits ds, cs.drop count)
  else none

/-- Read a sign that must be there if `required`. -/
def dash? (required : Bool) (cs : Text) : Option Text :=
  if required then
    match cs with
    | .char '-' :: rest => some rest
    | _ => none
  else some cs

/-- How many characters the date takes, by the form that its first characters show. In the basic
week form the digits before the time come in pairs, which tells a weekday from an hour. -/
def dateLength (cs : Text) : Nat :=
  let at' (i : Nat) : CodePoint := (cs.drop i).headD ending
  let length := cs.length
  if length = 7 then 7
  else if at' 4 == '-' then
    if at' 5 == 'W' then
      if decide (8 < length) && at' 8 == '-' then
        if decide (10 < length) && (at' 10).isDigit then 8 else 10
      else 8
    else 10
  else if at' 4 == 'W' then
    let stop := 7 + ((cs.drop 7).takeWhile CodePoint.isDigit).length
    if stop < 9 then stop else if stop % 2 = 0 then 7 else 8
  else 8

/-- Read the date, which takes `length` characters. -/
def date? (length : Nat) (cs : Text) : Option Date := do
  let (year, rest) ← number? 4 cs
  let dashed := peek rest == '-'
  let rest := if dashed then rest.drop 1 else rest
  if peek rest == 'W' then
    let (week, _) ← number? 2 (rest.drop 1)
    let taken := if dashed then 8 else 7
    if taken < length then
      let rest ← dash? dashed (rest.drop 3)
      let (day, _) ← number? 1 rest
      Date.ofWeek? year week day
    else
      Date.ofWeek? year week 1
  else
    let (month, rest) ← number? 2 rest
    let rest ← dash? dashed rest
    let (day, _) ← number? 2 rest
    return ⟨year, month, day⟩

structure Clock where
  parts : List Nat
  micros : Nat

def Clock.seconds (c : Clock) : Nat :=
  c.parts.getD 0 0 * 3600 + c.parts.getD 1 0 * 60 + c.parts.getD 2 0

def Clock.isValid (c : Clock) : Bool :=
  decide (c.parts.getD 0 0 < 24) && decide (c.parts.getD 1 0 < 60) && decide (c.parts.getD 2 0 < 60)

/-- Read the fraction of a second, of which six digits count. The second result tells whether
something is left over. -/
def fraction? (next : CodePoint) (cs : Text) : Option (Nat × Bool) := do
  let count := min cs.length 6
  let (n, rest) ← number? count cs
  return (n * Nat.pow 10 (6 - count), peek (rest.dropWhile CodePoint.isDigit ++ [next]) != ending)

/-- Read the two-digit parts of a time from the part after those in `done`, and then the fraction.
The text ends before the character `next`; the second result tells whether something is left over,
which includes that character. -/
def clockFrom? (next : CodePoint) (done : List Nat) (colons : Bool) :
    Nat → Text → Option (Clock × Bool)
  | 0, cs => do
    let (micros, left) ← fraction? next cs
    return (⟨done, micros⟩, left)
  | more + 1, cs => do
    let (n, rest) ← number? 2 cs
    let parts := done ++ [n]
    match rest with
    | [] => return (⟨parts, 0⟩, next != ending)
    | [c] => return (⟨parts, 0⟩, c != ending)
    | c :: rest =>
      let colons := if done.isEmpty then c == ':' else colons
      if colons && c == ':' then clockFrom? next parts colons more rest
      else if c == '.' || c == ',' then
        let (micros, left) ← fraction? next rest
        return (⟨parts, micros⟩, left)
      else if colons then none
      else clockFrom? next parts colons more (c :: rest)

/-- Read a time of day or an offset. -/
def clock? (next : CodePoint) (cs : Text) : Option (Clock × Bool) :=
  clockFrom? next [] true 3 cs

def startsOffset (c : CodePoint) : Bool :=
  c == '+' || c == '-' || c == 'Z'

/-- Read an offset, in microseconds; one of less than a second counts as none at all. -/
def offset? (cs : Text) : Option Int :=
  match cs with
  | .char 'Z' :: rest => if peek rest == ending then some 0 else none
  | sign :: rest =>
    match clock? ending rest with
    | some (c, false) =>
      let micros : Int := if c.seconds = 0 then 0 else c.seconds * microsPerSecond + c.micros
      some (if sign == '-' then -micros else micros)
    | _ => none
  | [] => none

/-- Read the time after the date: the clock and the offset, if there is one. What is left over
between them is passed over. -/
def time? (cs : Text) : Option (Clock × Option Int) := do
  let body := cs.takeWhile (!startsOffset ·)
  let rest := cs.dropWhile (!startsOffset ·)
  let (c, left) ← clock? (peek rest) body
  match rest with
  | [] => if left then none else return (c, none)
  | _ => return (c, some (← offset? rest))

/-- What follows the date and one separator, if anything follows the date. The time is read byte by
byte, so each character stands there as often as it has bytes. -/
def timePart (cs : Text) : Option Text :=
  match cs with
  | [] => none
  | _ :: rest => some (rest.flatMap fun c => List.replicate (Text.Utf8.encodeOne c.toNat).length c)

/-- The places where a separator can stand. -/
def separatorPlaces : List Nat := [7, 8, 10]

/-- The text with a proper separator: in the first place that holds half of a surrogate pair a `T` is
read instead. There must be no other half. -/
def withSeparator? (cs : Text) : Option Text :=
  let cs :=
    match separatorPlaces.find? fun i => (cs[i]?).any (·.isHalf) with
    | some i => cs.set i 'T'
    | none => cs
  if cs.any (·.isHalf) then none else some cs

/-- An offset is less than a day in either direction. -/
def validOffset (offset : Option Int) : Bool :=
  match offset with
  | some n => decide (n.natAbs < microsPerDay)
  | none => true

end IsoText

def Instant.read? (s : Text) : Option Instant := do
  if s.length < 7 then none
  let cs ← IsoText.withSeparator? s
  let length := IsoText.dateLength cs
  let date ← IsoText.date? length cs
  let (clock, offset) ←
    match IsoText.timePart (cs.drop length) with
    | some rest => IsoText.time? rest
    | none => some (⟨[], 0⟩, none)
  if date.isValid && clock.isValid && IsoText.validOffset offset then
    return ⟨date.toDays * microsPerDay + clock.seconds * microsPerSecond + clock.micros, offset⟩
  else none

end LogQuery.Time
