import LogQuery.Cluster.Connection
import LogQuery.Cluster.Response
import LogQuery.Index.Pattern
import LogQuery.Query.Edit

/-!
Sessions of one search request with the cluster.
-/

namespace LogQuery

/-- A request and the cluster. -/
structure Session where
  query : Query
  cluster : Cluster.State

namespace Session

abbrev Action (α : Type) : Type := Step Session α

def edit (f : Query → Query) : Action Unit :=
  Step.change fun s => { s with query := f s.query }

def current : Action Query := do
  return (← Step.state).query

def send (method : Cluster.Method) (arguments : Members) (refused : Text → Failure) :
    Action Json :=
  Step.onPart Session.cluster (fun s cluster => { s with cluster }) <|
    Cluster.request method arguments refused

def noteScroll (id : Json) : Action Unit :=
  edit fun q => { q with scrollId := id }

end Session

end LogQuery
