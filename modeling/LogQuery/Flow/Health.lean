import LogQuery.Flow.Build

/-!
The state of the service: whether the cluster can be reached, and what holds for queries that say
nothing else.
-/

namespace LogQuery.Flow

/-- The report on the service, given whether the cluster can be reached. -/
def healthReport (config : Config) (reachable : Bool) : Json :=
  let name := Json.str Config.environmentName
  .obj [("overall_status", .str (if reachable then "healthy" else "degraded")),
    ("environment", name),
    ("services", .obj [("elasticsearch", .obj
      [("service", .str "elasticsearch"), ("connected", .bool reachable),
        ("environment", name)])]),
    ("query_defaults", .obj config.query)]

def health (config : Config) : Action Json :=
  withCluster fun s =>
    let (reachable, s) := Cluster.isReachable config s
    (.ok (healthReport config reachable), s)

end LogQuery.Flow
