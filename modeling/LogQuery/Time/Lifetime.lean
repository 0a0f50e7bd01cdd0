import LogQuery.Text.Split

/-!
Lifetimes of scroll contexts, written as a number and a unit of time.
-/

namespace LogQuery.Time

def lifetimeUnits : List Text :=
  ["nanos", "micros", "ms", "s", "m", "h", "d"]

/-- The text is a lifetime: digits and a unit, perhaps before a line feed. -/
def isLifetime (cs : Text) : Bool :=
  let body := Text.dropFinalNewline cs
  !(body.takeWhile Text.isDecimal).isEmpty &&
    lifetimeUnits.any fun u => u == body.dropWhile Text.isDecimal

/-- The lifetime if none is given. -/
def defaultLifetime : Text := "1m"

end LogQuery.Time
