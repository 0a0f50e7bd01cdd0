import LogQuery.Session.Basic

/-!
Running aggregations, and grouping by levels.
-/

namespace LogQuery.Session

/-- Run the aggregations of the request in an index. -/
def aggregate (config : Config) (index : Json) : Action Cluster.Summary := do
  Step.of (Index.checkPattern index)
  if (← current).aggregations.truthy then
    edit fun q => { q with size := .int 0, scroll := .null }
    Step.of (Cluster.checkConnection config)
    match (← current).searchArguments index with
    | .error failure => Step.fail (.aggregationFailed failure.message)
    | .ok arguments =>
      let answer ← send .search arguments .aggregationFailed
      Step.of (Cluster.Summary.read answer)
  else Step.fail .noAggregations

/-- Group the documents of the request by levels, the outermost first. -/
def groupBy (config : Config) (index levels direction : Json) : Action Cluster.Summary := do
  let direction := Text.lower (← Step.of direction.asText)
  let tree ← Step.of (Aggregation.groupBy levels (.str direction))
  match tree with
  | .obj nodes =>
    let q ← current
    let changed ← Step.of (q.addAggregations nodes)
    edit fun _ => changed
    aggregate config index
  | _ => Step.fail .wrongType

end LogQuery.Session
