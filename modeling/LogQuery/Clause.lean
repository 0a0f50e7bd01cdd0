import LogQuery.Json.Order

/-!
Clauses of the query language. A clause is an object with one member, whose key is the kind of the
clause.
-/

namespace LogQuery.Clause

def single (key : Text) (value : Json) : Json :=
  .obj [(key, value)]

/-- The matchers that take one field and one value. -/
def fieldMatchers : List Text :=
  ["term", "match", "match_phrase", "wildcard", "regexp", "fuzzy", "prefix"]

def onField (matcher field : Text) (value : Json) : Json :=
  single matcher (single field value)

/-- Any of some values in a field. -/
def terms (field : Text) (values : List Json) : Json :=
  onField "terms" field (.arr values)

def range (field : Text) (bounds : Members) : Json :=
  onField "range" field (.obj bounds)

def queryString (text : Json) : Json :=
  single "query_string" (single "query" text)

/-- A query on the documents nested under a path. -/
def nested (path query : Json) : Json :=
  single "nested" (.obj [("path", path), ("query", query)])

/-- The members of a bool clause; a section left out is `null`. -/
structure Sections where
  must : Json := .null
  mustNot : Json := .null
  should : Json := .null
  filter : Json := .null
  minimumShouldMatch : Json := .null

/-- A member with a value that counts as given. -/
def ifGiven (key : Text) (value : Json) : Members :=
  if value.truthy then [(key, value)] else []

/-- The bool clause: empty sections are left out, and a minimum only if it is `null`. -/
def Sections.clause (s : Sections) : Json :=
  single "bool" <| .obj <|
    ifGiven "must" s.must ++ ifGiven "must_not" s.mustNot ++ ifGiven "should" s.should ++
      ifGiven "filter" s.filter ++ Members.present [("minimum_should_match", s.minimumShouldMatch)]

/-- At least one of some patterns in a field. -/
def anyOf (matcher field : Text) (patterns : List Json) : Json :=
  Sections.clause
    { should := .arr (patterns.map fun pattern => onField matcher field (single "value" pattern))
      minimumShouldMatch := .int 1 }

/-! ## Clauses from values that may be of any kind -/

/-- A matcher on one field, if it is one of those that take one. -/
def buildField (matcher field value : Json) : Except Failure Json :=
  match fieldMatchers.find? matcher.isText with
  | some name => return onField name (← field.asKey) value
  | none => .error (.unsupportedMatcher matcher)

/-- Any of the parts of a value. -/
def buildTerms (field values : Json) : Except Failure Json := do
  let items ← values.parts
  return terms (← field.asKey) items

/-- Bounds from an object or a list of pairs. -/
def buildRange (field bounds : Json) : Except Failure Json := do
  let entries := Json.distinctEntries (← bounds.entries)
  let members ← entries.mapM fun (key, value) => return (← key.asKey, value)
  return range (← field.asKey) (Members.update [] members)

/-- At least one of the parts of a value. -/
def buildAnyOf (matcher field patterns : Json) : Except Failure Json := do
  match ← patterns.parts with
  | [] => return anyOf "" "" []
  | items => return anyOf (← matcher.asKey) (← field.asKey) items

end LogQuery.Clause
