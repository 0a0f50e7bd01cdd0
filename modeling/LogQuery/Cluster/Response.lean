import LogQuery.Aggregation.Rows

/-!
What answers to searches hold: hits and their number, aggregations with the rows that they make, and
the id of a scroll.
-/

namespace LogQuery.Cluster

def hits (answer : Json) : Except Failure Json := do
  (← answer.memberOr "hits" (.obj [])).memberOr "hits" (.arr [])

/-- The number of hits of an answer, which may stand in an object of its own. -/
def total (answer : Json) : Except Failure Json := do
  let total ← (← answer.memberOr "hits" (.obj [])).memberOr "total" (.int 0)
  match total with
  | .obj members => return ((Members.get? members "value").getD (.int 0)).orElse (.int 0)
  | _ => return total.orElse (.int 0)

def aggregations (answer : Json) : Except Failure Json := do
  return (← answer.memberOr "aggregations" .null).orElse (.obj [])

/-- The id of the scroll that an answer belongs to, if there is one. -/
def scrollId (answer : Json) : Except Failure Json :=
  if answer.truthy then answer.memberOr "_scroll_id" .null else .ok .null

structure Page where
  took : Json
  timedOut : Json
  total : Json
  hits : Json
  aggregations : Json
  scrollId : Json

def Page.read (answer : Json) : Except Failure Page := do
  return {
    took := ← answer.memberOr "took" (.int 0)
    timedOut := ← answer.memberOr "timed_out" (.bool false)
    total := ← Cluster.total answer
    hits := ← Cluster.hits answer
    aggregations := (← Cluster.aggregations answer).orElse .null
    scrollId := ← Cluster.scrollId answer }

structure Summary where
  took : Json
  timedOut : Json
  aggregations : Json
  rows : List Aggregation.Row

def Summary.read (answer : Json) : Except Failure Summary := do
  let aggregations ← Cluster.aggregations answer
  let took ← answer.memberOr "took" (.int 0)
  let timedOut ← answer.memberOr "timed_out" (.bool false)
  return ⟨took, timedOut, aggregations, ← Aggregation.rows aggregations []⟩

end LogQuery.Cluster
