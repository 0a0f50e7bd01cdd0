import LogQuery.Flow.Build
import LogQuery.Session.Aggregate
import LogQuery.Session.Search

/-!
Searching and grouping of logs: a request is built from tokens, restricted to a window of time, and
run in the index of its type.
-/

namespace LogQuery.Flow

/-- What a search or a grouping is about. -/
structure Selection where
  tokens : Json
  type : Json := .str Index.logstash.name
  pattern : Json := .null
  minutes : Json := .int 60
  start : Json := .null
  live : Json := .bool false

/-- A request that is ready to be run, where, and for which time. -/
structure Prepared where
  index : Index.Entry
  window : Time.Window
  query : Query

/-- Build the request of a selection and restrict it to its window of time. -/
def prepare (around : Surroundings) (selection : Selection) : Action Prepared := do
  let index ← Step.of (Index.find around.environment selection.type selection.pattern)
  let query ← build around
    { tokens := selection.tokens
      type := selection.type
      pattern := index.pattern
      live := selection.live }
  let window ← Step.of (Time.Window.resolve around.now selection.minutes selection.start)
  let query ← Step.of (query.stash Section.filter.name (window.condition index.timestamp))
  return ⟨index, window, query⟩

/-- Run a session of a request, with what the request has become. -/
def inSession {α : Type} (q : Query) (x : Session.Action α) : Action (α × Query) := fun s =>
  match x.run ⟨q, s.cluster⟩ with
  | (.ok a, t) => (.ok (a, t.query), { s with cluster := t.cluster })
  | (.error failure, t) => (.error failure, { s with cluster := t.cluster })

/-- A report: where, for which time and what was asked for, and the members that were found. -/
def report (prepared : Prepared) (request : Json) (found : Members) : Json :=
  .obj <| ("index_pattern", prepared.index.pattern) ::
    ("search_period", .obj
      [("start", .str prepared.window.start.text),
        ("end", (prepared.window.stop.map fun t => Json.str t.text).getD .null)]) ::
    ("request", request) :: found

structure SearchReport where
  prepared : Prepared
  request : Json
  page : Cluster.Page

def SearchReport.toJson (r : SearchReport) : Json :=
  report r.prepared r.request
    [("took", r.page.took), ("timed_out", r.page.timedOut), ("total", r.page.total),
      ("hits", r.page.hits)]

/-- The request of a search: the newest documents come first. -/
def searchQuery (prepared : Prepared) (size fields : Json) : Query :=
  { prepared.query with
    size := if size.isNull then .int prepared.index.defaultSize else size
    sort := .arr [Clause.single prepared.index.timestamp (Clause.single "order" (.str "desc"))]
    fields }

def searchLogs (around : Surroundings) (selection : Selection) (size fields : Json) :
    Action SearchReport := do
  let prepared ← prepare around selection
  let (page, query) ← inSession (searchQuery prepared size fields)
    (Session.execute around.config prepared.index.pattern)
  return ⟨prepared, ← Step.of query.display, page⟩

structure GroupReport where
  prepared : Prepared
  request : Json
  summary : Cluster.Summary

/-- As a document. Each row is a list of its columns, each once. -/
def GroupReport.toJson (r : GroupReport) : Json :=
  report r.prepared r.request
    [("took", r.summary.took), ("timed_out", r.summary.timedOut),
      ("aggregations", r.summary.aggregations),
      ("rows", .arr (r.summary.rows.map fun row =>
        .arr (row.toMembers.map fun column => .arr [.str column.1, column.2])))]

/-- Group logs by levels, the outermost first. -/
def groupLogs (around : Surroundings) (selection : Selection) (levels direction : Json) :
    Action GroupReport := do
  let prepared ← prepare around selection
  let (summary, query) ← inSession prepared.query
    (Session.groupBy around.config prepared.index.pattern levels direction)
  return ⟨prepared, ← Step.of query.display, summary⟩

end LogQuery.Flow
