import LogQuery.Cluster.Basic
import LogQuery.Clause

/-!
Connecting to the cluster, and telling whether it can be reached. A search for nothing needs no more
than the right to read; where it fails, counting is tried.
-/

namespace LogQuery.Cluster

/-- The number of seconds that milliseconds are, as a quotient of floating-point numbers. -/
def seconds (millis : Json) : Except Failure Float := do
  match ← millis.asNumeral with
  | .int n =>
    let x := Binary64.ofInt n
    match Binary64.view x with
    | .finite _ => return x / 1000.0
    | _ => .error .overflow
  | .float x => return x / 1000.0

/-- Who connects: by a key, or else by a name and a password. -/
def credentials (c : Members) : Members :=
  if (c.getD "api_key").truthy then [("api_key", c.getD "api_key")]
  else if (c.getD "username").truthy && (c.getD "password").truthy then
    [("basic_auth", .arr [c.getD "username", c.getD "password"])]
  else []

def connection (config : Config) : Except Failure Members := do
  let c := config.cluster
  let timeout ← seconds (c.getD "timeout_ms")
  let head : Members :=
    [("hosts", .arr [c.getD "url"]), ("request_timeout", .float timeout),
      ("verify_certs", (c.get? "verify_certs").getD (.bool true))]
  return head ++ Clause.ifGiven "ca_certs" (c.getD "ca_certs") ++ credentials c

def checkConnection (config : Config) : Except Failure Unit := do
  let _ ← connection config
  return ()

/-- Connect, make a call, and tell whether its answer has a member. -/
def probe (config : Config) (method : Method) (arguments : Members) (member : Text) :
    Step State Bool := do
  Step.of (checkConnection config)
  let answer ← request method arguments .searchFailed
  Step.of (answer.holds member)

/-- The arguments of a search for nothing. -/
def emptySearch : Members :=
  [("index", .str "*"), ("size", .int 0), ("query", Clause.single "match_all" (.obj [])),
    ("timeout", .str "5s")]

def isReachable (config : Config) (s : State) : Bool × State :=
  match (probe config .search emptySearch "hits").run s with
  | (.ok found, s) => (found, s)
  | (.error _, s) =>
    match (probe config .count [("index", .str "*")] "count").run s with
    | (.ok found, s) => (found, s)
    | (.error _, s) => (false, s)

end LogQuery.Cluster
