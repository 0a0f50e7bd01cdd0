import LogQuery.Cluster.Connection
import LogQuery.Index.Mapping
import LogQuery.Index.Pattern
import LogQuery.Query.Compile
import LogQuery.Time.Window

/-!
Building of requests from tokens for the type of an index. The fields of the type, and those of the
cluster's own mapping if asked for, tell how tokens are read. Value files are read only if the
configuration says so.
-/

namespace LogQuery.Flow

/-- What a flow runs in. -/
structure Surroundings where
  config : Config
  environment : Environment
  folder : Folder
  now : Time.Instant

/-- The cluster and the warnings given so far. -/
structure State where
  cluster : Cluster.State
  warnings : List Warning

abbrev Action (α : Type) : Type := Step State α

def withCluster {α : Type} (x : Step Cluster.State α) : Action α :=
  Step.onPart State.cluster (fun s cluster => { s with cluster }) x

/-- A result or a failure, with its warnings. -/
def ofOutcome {α : Type} (x : Outcome α) : Action α := fun s =>
  (x.result, { s with warnings := s.warnings ++ x.warnings })

/-- The answer of the cluster to a request for the mapping of an index. -/
def indexMapping (config : Config) (index : Json) : Step Cluster.State Json := do
  Step.of (Index.checkPattern index)
  Step.of (Cluster.checkConnection config)
  Cluster.request .getMapping [("index", index)] .mappingFailed

/-- What the mapping of an index tells of its fields. -/
def liveFieldsMeta (config : Config) (index : Json) : Step Cluster.State Members := do
  Step.of (Index.Mapping.fieldsMeta (← indexMapping config index))

/-- The settings of a compilation that the configuration and the caller give. -/
def settings (config : Config) (context join fieldsMeta options : Json)
    (extras : List Token.Extra) (depth maxDepth : Json) :
    Except Failure Token.Settings := do
  let context ← Context.read (context.orElse (config.query.getD "context"))
  let join ← Join.read (join.orElse (config.query.getD "default_join"))
  return {
    context
    join
    fieldsMeta := fieldsMeta.orElse (.obj [])
    options := options.orElse (.obj [])
    extras
    depth
    maxDepth := if maxDepth.isNull then config.query.getD "max_nesting" else maxDepth }

/-- What a request is built from. -/
structure Source where
  tokens : Json
  type : Json := .null
  pattern : Json := .null
  /-- Ask the cluster for the mapping. -/
  live : Json := .bool false
  context : Json := .null
  join : Json := .null

def fieldsMeta (around : Surroundings) (source : Source) : Action Members := do
  let known ← Step.of (Index.fieldsMeta source.type)
  if source.live.truthy && source.pattern.truthy then
    return known.update (← withCluster (liveFieldsMeta around.config source.pattern))
  else return known

/-- The options that keep the recognizer of value files from reading any, or let it. -/
def fileOptions (config : Config) : Json :=
  .obj [(Token.Stock.fileExpansion.optionKey,
    .obj [("enabled", config.query.getD "file_expansion")])]

/-- Build a request; without tokens it matches every document. -/
def build (around : Surroundings) (source : Source) : Action Query := do
  let known ← fieldsMeta around source
  if source.tokens.truthy then
    let s ← Step.of (settings around.config source.context source.join (.obj known)
      (fileOptions around.config) [] (.int 0) .null)
    let tokens ← Step.of source.tokens.parts
    ofOutcome (Query.compileValues around.folder s tokens)
  else
    let fresh : Query := { fieldsMeta := .obj known }
    return fresh.setMatchAll

/-- The query of a request, and the request for display. -/
def preview (q : Query) : Except Failure Json := do
  return .obj [("query", ← q.render), ("uri_params", .obj q.parameters),
    ("body", .obj (← q.body))]

/-- Build a request without running it. The pattern of a type is only looked up for its mapping. -/
def expandQuery (around : Surroundings) (source : Source) : Action Json := do
  let pattern ←
    if source.type.truthy then
      Step.of ((Index.find around.environment source.type .null).map (·.pattern))
    else pure .null
  let q ← build around { source with pattern }
  Step.of (preview q)

end LogQuery.Flow
