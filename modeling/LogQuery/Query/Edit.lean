import LogQuery.Query.Basic
import LogQuery.Text.Case
import LogQuery.Text.Order
import LogQuery.Time.Lifetime

/-!
Changes of a search request. A change that fails may have been made in part; what it reached is kept
beside the failure.
-/

namespace LogQuery.Query

/-- Conditions as a list: one that is no list stands for itself. -/
def asConditions : Json → List Json
  | .arr conditions => conditions
  | condition => [condition]

/-- Add conditions at the end of a section. -/
def append (q : Query) (s : Section) (conditions : Json) : Except Failure Query :=
  match q.conditions s with
  | .arr held => .ok (q.setConditions s (.arr (held ++ asConditions conditions)))
  | _ => .error .noMember

/-- Add conditions to section after section up to the first failure; an unknown section is passed
over. -/
def appendAll (q : Query) : List (Text × Json) → Change Query
  | [] => ⟨q, none⟩
  | (name, conditions) :: rest =>
    match Section.named? name with
    | none => appendAll q rest
    | some s =>
      match q.append s conditions with
      | .ok q => appendAll q rest
      | .error failure => ⟨q, some failure⟩

/-- A name that no member of a request may be given under. -/
def reservedName : Text := "self"

/-- Add conditions to sections, in the order of the sections' names. -/
def addConditions (q : Query) (sections : Members) : Change Query :=
  if sections.has reservedName then ⟨q, some .wrongType⟩
  else q.appendAll (Text.sortBy (fun a b => Text.before a.1 b.1) sections)

/-- Replace the replaceable condition of a section, which closes the scroll. No section and no
condition change nothing. -/
def stash (q : Query) (name : Text) (condition : Json) : Except Failure Query :=
  if (Section.named? name).isSome && !condition.isNull then
    match q.stashed with
    | .obj held =>
      .ok { q with stashed := .obj (Members.set held name condition), scrollId := .null }
    | _ => .error .wrongType
  else .ok q

/-- Put a nested query in the place of the bool query. -/
def setNested (q : Query) (path query : Json) : Query :=
  { q with nestedPath := path, nested := query }

/-- Sort as the documents come and keep a scroll open, for a minute unless a lifetime is given. -/
def setScanScroll (q : Query) (lifetime : Json) : Query :=
  let lifetime :=
    match lifetime with
    | .str s => if Time.isLifetime s then s else Time.defaultLifetime
    | _ => Time.defaultLifetime
  { q with sort := Json.texts ["_doc"], scroll := .str lifetime }

/-- Match every document instead of the conditions. -/
def setMatchAll (q : Query) : Query :=
  { q with
    mustNot := .arr []
    filter := .arr []
    should := .arr []
    must := .arr [Clause.single "match_all" (.obj [])] }

/-- Request aggregations, and neither documents nor a scroll. -/
def withAggregations (q : Query) (aggregations : Json) : Query :=
  { q with aggregations, size := .int 0, scroll := .null }

/-- Add named aggregations, each in place of one with its name. -/
def addAggregations (q : Query) (more : Members) : Except Failure Query :=
  if more.has reservedName then .error .wrongType
  else
    match q.aggregations.orElse (.obj []) with
    | .obj held => .ok (q.withAggregations (.obj (Members.update held more)))
    | other => if more.isEmpty then .ok (q.withAggregations other) else .error .wrongType

def addAggregationText (q : Query) (text : Json) : Except Failure Query := do
  q.addAggregations (← Aggregation.expand (← text.asText))

/-- Put the aggregations under an outer one. -/
def wrapAggregations (q : Query) (outer : Json) : Except Failure Query := do
  return { q with aggregations := ← Aggregation.wrap outer q.aggregations }

/-- The direction of an order, in lower case. -/
def direction (given : Json) : Except Failure Text := do
  let lowered := Text.lower (← given.asText)
  if lowered == "asc" || lowered == "desc" then return lowered
  else .error (.unknownDirection lowered)

/-- Order the aggregations at the top by single values. -/
def orderAggregations (q : Query) (given definitions : Json) : Change Query :=
  match direction given with
  | .error failure => ⟨q, some failure⟩
  | .ok direction =>
    if q.aggregations.truthy then
      let change := Aggregation.orderBy q.aggregations (.str direction) definitions
      ⟨{ q with aggregations := change.reached }, change.failure⟩
    else ⟨q, none⟩

end LogQuery.Query
