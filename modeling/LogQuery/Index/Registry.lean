import LogQuery.Json.Access
import LogQuery.Text.Case

/-!
The registered types of indices. Each has a pattern, which the caller or the environment may replace,
the field that holds the time of a document, and what is known of its fields.
-/

namespace LogQuery

/-- Variables of the environment with their values. -/
abbrev Environment := List (Text × Text)

/-- The value of a variable, if it is set. -/
def Environment.get? (environment : Environment) (name : Text) : Option Text :=
  environment.lookup name

namespace Index

/-- What is registered of a type of indices. -/
structure Entry where
  name : Text
  pattern : Json
  timestamp : Text
  fields : List (Text × Text)
  defaultSize : Int

/-- The entry of the logs of network and system programs. -/
def logstash : Entry where
  name := "logstash"
  pattern := .str "logstash-*"
  timestamp := "@timestamp"
  fields :=
    [("message", "text"), ("host", "keyword"), ("program", "keyword"), ("src_ip", "ip"),
      ("dst_ip", "ip"), ("src_port", "integer"), ("dst_port", "integer"), ("user_agent", "keyword")]
  defaultSize := 50

/-- The entry of the logs of applications. -/
def appLogs : Entry where
  name := "app_logs"
  pattern := .str "app-logs-*"
  timestamp := "@timestamp"
  fields :=
    [("json.message", "text"), ("json.levelname", "keyword"), ("json.hostname", "keyword"),
      ("json.service_name", "keyword"), ("json.user_id", "keyword"),
      ("json.extra.request_time", "float")]
  defaultSize := 100

/-- The entry of the logs of web servers. -/
def accessLogs : Entry where
  name := "access_logs"
  pattern := .str "access-*"
  timestamp := "@timestamp"
  fields :=
    [("request", "text"), ("referrer", "text"), ("clientip", "ip"), ("verb", "keyword"),
      ("response", "integer"), ("bytes", "long"), ("agent", "keyword")]
  defaultSize := 50

def registry : List Entry :=
  [logstash, appLogs, accessLogs]

namespace Entry

def fieldsMeta (e : Entry) : Members :=
  e.fields.map fun f => (f.1, .obj [("type", .str f.2)])

/-- The variable that replaces the pattern of a type. -/
def patternVariable (name : Text) : Text :=
  "ELASTIC_" ++ Text.upper name ++ "_PATTERN"

/-- The entry with the pattern that the environment has, or else with the one given. -/
def override (e : Entry) (environment : Environment) (given : Json) : Entry :=
  match environment.get? (patternVariable e.name) with
  | some value =>
    if value == "" then { e with pattern := given.orElse e.pattern }
    else { e with pattern := .str value }
  | none => { e with pattern := given.orElse e.pattern }

def toJson (e : Entry) : Json :=
  .obj [("pattern", e.pattern), ("timestamp", .str e.timestamp), ("fields", .obj e.fieldsMeta),
    ("default_size", .int e.defaultSize)]

end Entry

/-- The entry of a type, with its pattern replaced as the caller and the environment have it. -/
def find (environment : Environment) (type pattern : Json) : Except Failure Entry := do
  let _ ← type.asKey
  match registry.find? fun e => type.isText e.name with
  | some e => return e.override environment pattern
  | none => .error (.unknownIndexType type)

/-- What is known of the fields of a type; nothing for an unknown one. -/
def fieldsMeta (type : Json) : Except Failure Members :=
  if type.truthy then do
    let _ ← type.asKey
    match registry.find? fun e => type.isText e.name with
    | some e => return e.fieldsMeta
    | none => return []
  else .ok []

end Index

end LogQuery
