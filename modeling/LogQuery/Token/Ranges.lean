import LogQuery.Token.Field

/-!
Tokens that bound a field. The value of a token has parts with commas between them; a part that
starts with a comparison bounds the field on one side, and no side may be bounded twice.
-/

namespace LogQuery.Token.Ranges

inductive Comparison where
  | lt
  | lte
  | gt
  | gte
deriving DecidableEq, Repr

namespace Comparison

def name : Comparison → Text
  | lt => "lt"
  | lte => "lte"
  | gt => "gt"
  | gte => "gte"

/-- How a part starts. -/
def sign : Comparison → Text
  | lt => ['<']
  | lte => ['<', '=']
  | gt => ['>']
  | gte => ['>', '=']

def side : Comparison → Side
  | lt | lte => .upper
  | gt | gte => .lower

/-- All comparisons, the longer signs first. -/
def all : List Comparison :=
  [lte, gte, lt, gt]

end Comparison

/-- A bound: a comparison and a value. -/
structure Bound where
  comparison : Comparison
  value : Text
deriving DecidableEq, Repr

/-- The value after a sign: one line that is not empty, perhaps before a line feed. -/
def value? (cs : Text) : Option Text :=
  let body := Text.dropFinalNewline cs
  if body.isEmpty || body.contains '\n' then none else some body

/-- The bound of a part, if the comparison's sign and a value make it up. -/
def boundBy? (part : Text) (c : Comparison) : Option Bound :=
  if c.sign.isPrefixOf part then (value? (part.drop c.sign.length)).map (⟨c, ·⟩) else none

/-- The bound of a part: the longest sign that leaves a value. -/
def bound? (part : Text) : Option Bound :=
  Comparison.all.findSome? (boundBy? part)

def addBounds (token : Text) (done : List Bound) : List Bound → Except Failure (List Bound)
  | [] => .ok done
  | b :: bs =>
    if done.any (·.comparison.side == b.comparison.side) then
      .error (.rangeConflict b.comparison.side token)
    else addBounds token (done ++ [b]) bs

/-- The condition that a token stands for. -/
def condition? (token : Text) : Except Failure (Option Json) :=
  match fieldAndValue? token with
  | none => .ok none
  | some (field, value) => do
    match ← addBounds token [] ((Text.splitOn ',' value).filterMap bound?) with
    | [] => return none
    | bounds =>
      return some (Clause.range field (bounds.map fun b => (b.comparison.name, .str b.value)))

end LogQuery.Token.Ranges
