import LogQuery.Json.Order
import LogQuery.Session.Basic

/-!
Searching and scrolling. A search notes the scroll that its answer opens, scrolling goes on with the
scroll noted last, and clearing lets go of it.
-/

namespace LogQuery.Session

/-- The most hits that one answer may hold. -/
def maxSize : Int := 10000

/-- A number of hits within the bounds. -/
def boundSize (size : Json) : Except Failure Json :=
  size.clamp (.int 0) (.int maxSize)

def execute (config : Config) (index : Json) : Action Cluster.Page := do
  Step.of (Index.checkPattern index)
  let size ← Step.of (boundSize (← current).size)
  edit fun q => { q with size }
  Step.of (Cluster.checkConnection config)
  let arguments ← Step.of ((← current).searchArguments index)
  let answer ← send .search arguments .searchFailed
  noteScroll (← Step.of (Cluster.scrollId answer))
  Step.of (Cluster.Page.read answer)

/-- The arguments of a call for the next page of a request. -/
def scrollArguments (q : Query) : Members :=
  [("scroll_id", q.scrollId), ("scroll", q.scroll.orElse (.str Time.defaultLifetime)),
    ("rest_total_hits_as_int", q.totalHitsAsInt)]

/-- The next page of the open scroll. -/
def scroll (config : Config) : Action Cluster.Page := do
  let q ← current
  if q.scrollId.truthy then
    Step.of (Cluster.checkConnection config)
    let answer ← send .scroll (scrollArguments q) .scrollFailed
    let id ← Step.of (Cluster.scrollId answer)
    noteScroll (id.orElse q.scrollId)
    Step.of (Cluster.Page.read answer)
  else Step.fail .noScroll

/-- Let go of the open scroll, if there is one. A refusal does not matter. -/
def clear (config : Config) : Action Unit := do
  let q ← current
  if q.scrollId.truthy then
    Step.of (Cluster.checkConnection config)
    Step.change fun s =>
      { query := { s.query with scrollId := .null }
        cluster := (Cluster.send .clearScroll [("scroll_id", q.scrollId)] s.cluster).2 }

end Session

end LogQuery
