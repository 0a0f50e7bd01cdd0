import LogQuery.Index.Registry

/-!
Configuration of the connection to the cluster and of the compilation of queries, read from the
environment.
-/

namespace LogQuery

structure Config where
  cluster : Members
  /-- What holds for queries that say nothing else. -/
  query : Members
  logLevel : Text

namespace Config

/-- The name of the only environment there is. -/
def environmentName : Text := "default"

/-- The value of the first variable that is set. -/
def firstSet? (environment : Environment) (names : List Text) : Option Text :=
  names.findSome? environment.get?

/-- The value of the first variable that is set, or `null`. -/
def optional (environment : Environment) (names : List Text) : Json :=
  match firstSet? environment names with
  | some value => .str value
  | none => .null

/-- The integer in the first variable that is set, or else in a default. -/
def integer (environment : Environment) (names : List Text) (default : Text) :
    Except Failure Json :=
  (Json.readInteger ((firstSet? environment names).getD default)).map .int

/-- What turns a feature on. -/
def isYes (value : Text) : Bool :=
  let value := Text.lower value
  value == "1" || value == "true" || value == "yes"

/-- The configuration that an environment gives. -/
def ofEnvironment (environment : Environment) : Except Failure Config := do
  let text (name default : Text) : Text := (environment.get? name).getD default
  let timeout ← integer environment ["ELASTIC_TIMEOUT", "ELASTICSEARCH_TIMEOUT"] "30000"
  let size ← integer environment ["ES_QUERY_SIZE"] "50"
  let maxNesting ← integer environment ["ES_QUERY_MAX_NESTING"] "4"
  let url := (firstSet? environment ["ELASTIC_URL", "ELASTICSEARCH_URL"]).getD
    "http://localhost:9200"
  return {
    cluster :=
      [("url", .str url),
        ("username", optional environment ["ELASTIC_USERNAME", "ELASTICSEARCH_USERNAME"]),
        ("password", optional environment ["ELASTIC_PASSWORD", "ELASTICSEARCH_PASSWORD"]),
        ("api_key", optional environment ["ELASTIC_API_KEY", "ELASTICSEARCH_API_KEY"]),
        ("timeout_ms", timeout),
        ("verify_certs", .bool true),
        ("ca_certs", optional environment ["ELASTIC_CA_CERTS"])]
    query :=
      [("default_join", .str (Text.upper (text "ES_QUERY_DEFAULT_JOIN" "AND"))),
        ("context", .str (text "ES_QUERY_CONTEXT" "query")),
        ("size", size),
        ("scroll", .str (text "ES_QUERY_SCROLL" "1m")),
        ("max_nesting", maxNesting),
        ("file_expansion", .bool (isYes (text "ES_QUERY_FILE_EXPANSION" "false")))]
    logLevel := Text.upper (text "LOG_LEVEL" "INFO") }

/-- Put members in the place of those with their names. -/
def merge (c : Config) (cluster query : Members) : Config :=
  { c with
    cluster := c.cluster.update cluster
    query := c.query.update query }

def toJson (c : Config) : Json :=
  .obj [("name", .str environmentName), ("elasticsearch", .obj c.cluster),
    ("query", .obj c.query), ("log_level", .str c.logLevel)]

end Config

end LogQuery
