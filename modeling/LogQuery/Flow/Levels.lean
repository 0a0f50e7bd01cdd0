import LogQuery.Aggregation.Tree

/-!
Levels of a grouping given as objects: under `agg` the text of the level, and under `by` one or
several definitions to order it by.
-/

namespace LogQuery.Flow

/-- A text in a list of its own; anything else stays. -/
def inList : Json → Json
  | .str s => .arr [.str s]
  | value => value

/-- A level as a text, or as a pair of the text and the definitions. -/
def levelOf (given : Json) : Except Failure Json := do
  let text ← given.memberOr "agg" .null
  if text.truthy then
    let definitions := inList ((← given.memberOr "by" .null).orElse (.arr []))
    if definitions.truthy then return .arr [text, .arr (← definitions.parts)]
    else return text
  else .error (.levelWithoutAggregation given)

/-- All levels. -/
def levelsOf (given : Json) : Except Failure Json := do
  return .arr (← (← given.parts).mapM levelOf)

def direction (ascending : Json) : Json :=
  .str (if ascending.truthy then "asc" else "desc")

/-- The tree of some levels. -/
def expandLevels (given ascending : Json) : Except Failure Json := do
  Aggregation.groupBy (← levelsOf given) (direction ascending)

end LogQuery.Flow
