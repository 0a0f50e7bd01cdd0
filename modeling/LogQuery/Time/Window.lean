import LogQuery.Json.Order
import LogQuery.Time.IsoText

/-!
Windows of time. A window of some minutes starts at a given time, or ends now. Its length is kept
between a minute and a week.
-/

namespace LogQuery.Time

structure Window where
  start : Instant
  stop : Option Instant
deriving DecidableEq, Repr

namespace Window

/-- The most minutes of a window. -/
def maxMinutes : Int := 10080

/-- The microseconds of the part of a floating-point number of minutes behind the point, rounded
first to a floating-point number and then to the nearest integer, a tie going to the even one. -/
def fractionMicros (p : Binary64.Parts) : Int :=
  let (n, d) := p.ratio
  let product := Binary64.ofRatio (decide (n < 0)) (n.natAbs % d * microsPerMinute) d
  match Binary64.view product with
  | .finite q =>
    let (m, e) := q.ratio
    let rounded : Nat := Binary64.roundDiv m.natAbs e
    if m < 0 then -rounded else rounded
  | _ => 0

def micros (minutes : Json) : Except Failure Int := do
  match ← minutes.asNumeral with
  | .int n => return n * microsPerMinute
  | .float x =>
    match Binary64.view x with
    | .finite p => return p.truncate * microsPerMinute + fractionMicros p
    | .infinite _ => .error .overflow
    | .nan => .error .noNumber

/-- The start that a caller gives, if it is an ISO time; a final `Z` stands for universal time. -/
def givenStart? (start : Json) : Except Failure (Option Instant) :=
  if start.truthy then do
    let text := Text.replace 'Z' "+00:00" (← start.asText)
    return Instant.read? text
  else .ok none

/-- The window of some minutes from a given start on, or up to now. -/
def resolve (now : Instant) (minutes start : Json) : Except Failure Window := do
  let minutes ← minutes.clamp (.int 1) (.int maxMinutes)
  match ← givenStart? start with
  | some start => return ⟨start, some (← start.shift (← micros minutes))⟩
  | none => return ⟨← now.shift (-(← micros minutes)), some now⟩

def bounds (w : Window) : Members :=
  ("gte", .str w.start.text) ::
    match w.stop with
    | some stop => [("lte", .str stop.text)]
    | none => []

/-- The condition that a field lies in the window. -/
def condition (w : Window) (field : Text) : Json :=
  .obj [("range", .obj [(field, .obj w.bounds)])]

end Window

end LogQuery.Time
