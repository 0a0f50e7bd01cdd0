import LogQuery.Aggregation.Tree
import LogQuery.Clause

/-!
Search requests that are built up step by step. A request holds the conditions of a bool query in
four sections, or a nested query that takes their place; a replaceable condition beside each
section; the members of the request body; and the state of a scroll.
-/

namespace LogQuery

/-- The sections of a bool query. -/
inductive Section where
  | must
  | mustNot
  | should
  | filter
deriving DecidableEq, Repr

namespace Section

def name : Section → Text
  | must => "must"
  | mustNot => "must_not"
  | should => "should"
  | filter => "filter"

/-- All sections in the order in which they are written. -/
def all : List Section :=
  [must, mustNot, should, filter]

def named? (name : Text) : Option Section :=
  all.find? fun s => s.name == name

theorem named?_name (s : Section) : named? s.name = some s := by
  cases s <;> decide

end Section

/-- A search request. A member that is not set is `null`. -/
structure Query where
  must : Json := .arr []
  mustNot : Json := .arr []
  should : Json := .arr []
  filter : Json := .arr []
  minimumShouldMatch : Json := .null
  /-- A query on nested documents, which replaces the bool query if it counts as given. -/
  nested : Json := .null
  nestedPath : Json := .null
  /-- The number of hits to pass over. -/
  start : Json := .null
  size : Json := .int 50
  /-- The fields of a document to return. -/
  fields : Json := .null
  sort : Json := .null
  aggregations : Json := .null
  timeout : Json := .null
  terminateAfter : Json := .null
  trackTotalHits : Json := .bool true
  trackScores : Json := .null
  /-- How long to keep a scroll open. -/
  scroll : Json := .null
  searchType : Json := .null
  totalHitsAsInt : Json := .bool true
  /-- What is known of the fields of the documents. -/
  fieldsMeta : Json := .obj []
  /-- The replaceable condition of each section that has one, by the section's name. -/
  stashed : Json := .obj []
  /-- The open scroll, if there is one. -/
  scrollId : Json := .null

namespace Query

def conditions (q : Query) : Section → Json
  | .must => q.must
  | .mustNot => q.mustNot
  | .should => q.should
  | .filter => q.filter

def setConditions (q : Query) (s : Section) (conditions : Json) : Query :=
  match s with
  | .must => { q with must := conditions }
  | .mustNot => { q with mustNot := conditions }
  | .should => { q with should := conditions }
  | .filter => { q with filter := conditions }

@[simp]
theorem conditions_setConditions_self (q : Query) (s : Section) (conditions : Json) :
    (q.setConditions s conditions).conditions s = conditions := by
  cases s <;> rfl

theorem conditions_setConditions_of_ne {q : Query} {s t : Section} {conditions : Json}
    (h : t ≠ s) : (q.setConditions s conditions).conditions t = q.conditions t := by
  cases s <;> cases t <;> simp_all [setConditions, Query.conditions]

/-- The replaceable condition under a name, `null` if there is none. -/
def stashedAt (q : Query) (name : Text) : Except Failure Json :=
  match q.stashed with
  | .obj held => .ok (Members.getD held name)
  | held => .error (.noOperation held "get")

/-- The conditions of a section with the replaceable one, which comes last. -/
def fullConditions (q : Query) (s : Section) : Except Failure Json := do
  match ← q.stashedAt s.name with
  | .null => return q.conditions s
  | condition =>
    match q.conditions s with
    | .arr conditions => return .arr (conditions ++ [condition])
    | held => .error (.noOperation held "append")

def render (q : Query) : Except Failure Json := do
  if q.nested.truthy then return Clause.nested q.nestedPath q.nested
  let must ← q.fullConditions .must
  let mustNot ← q.fullConditions .mustNot
  let should ← q.fullConditions .should
  let filter ← q.fullConditions .filter
  return Clause.Sections.clause ⟨must, mustNot, should, filter, q.minimumShouldMatch⟩

/-- The request body around a rendered query. -/
def bodyAround (q : Query) (query : Json) : Members :=
  ("query", query) :: Members.present
    [("from", q.start), ("size", q.size), ("_source", q.fields), ("sort", q.sort),
      (Aggregation.treeKey, q.aggregations), ("timeout", q.timeout),
      ("terminate_after", q.terminateAfter), ("track_total_hits", q.trackTotalHits),
      ("track_scores", q.trackScores)]

def body (q : Query) : Except Failure Members :=
  q.bodyAround <$> q.render

/-- The parameters beside the body. -/
def parameters (q : Query) : Members :=
  Members.present
    [("scroll", q.scroll), ("search_type", q.searchType),
      ("rest_total_hits_as_int", q.totalHitsAsInt)]

/-- The arguments of a search in an index. -/
def searchArguments (q : Query) (index : Json) : Except Failure Members := do
  return ("body", .obj (← q.body)) :: (q.parameters ++ Clause.ifGiven "index" index)

def display (q : Query) : Except Failure Json := do
  return .obj [("uri_params", .obj q.parameters), ("body", .obj (← q.body))]

end Query

end LogQuery
