import LogQuery.Proofs.Json.Members
import LogQuery.Proofs.Session.Exchanges

/-! Running aggregations and grouping, one equation for each way that it goes. An aggregation is
refused before it has changed the request. A grouping changes the request first, by adding the tree
of its levels, and is then run as an aggregation. -/

namespace LogQuery

open Cluster

namespace Query

/-- The request, which asks for no hits and for no scroll. -/
def withoutHits (q : Query) : Query :=
  { q with size := .int 0, scroll := .null }

/-- The request with the tree of some levels added to its aggregations. -/
def grouped (q : Query) (levels direction : Json) : Except Failure Query := do
  match ← Aggregation.groupBy levels direction with
  | .obj nodes => q.addAggregations nodes
  | _ => .error .wrongType

variable {q changed : Query} {nodes : Members}

theorem addAggregations_of_has (h : nodes.has reservedName = true) :
    q.addAggregations nodes = .error .wrongType := by
  rw [addAggregations, if_pos h]

/-- What is added to no aggregations is all that there is. -/
theorem addAggregations_of_none (hNone : q.aggregations = .null)
    (hNames : nodes.has reservedName = false) (hKeys : (nodes.map (·.1)).Nodup) :
    q.addAggregations nodes = .ok (q.withAggregations (.obj nodes)) := by
  have hNew : Members.update [] nodes = nodes := Members.update_of_nodup hKeys
  have hReserved : ¬nodes.has reservedName = true := by simp [hNames]
  have hHeld : q.aggregations.orElse (.obj []) = .obj [] := by rw [hNone]; rfl
  rw [addAggregations, if_neg hReserved, hHeld]
  simp only [hNew]

/-- The members of a body beside its query, whether they are set or not. -/
def bodyMembers (q : Query) : Members :=
  [("from", q.start), ("size", q.size), ("_source", q.fields), ("sort", q.sort),
    (Aggregation.treeKey, q.aggregations), ("timeout", q.timeout),
    ("terminate_after", q.terminateAfter), ("track_total_hits", q.trackTotalHits),
    ("track_scores", q.trackScores)]

theorem nodup_bodyMembers (q : Query) : (q.bodyMembers.map (·.1)).Nodup := by
  show (["from", "size", "_source", "sort", Aggregation.treeKey, "timeout", "terminate_after",
    "track_total_hits", "track_scores"] : List Text).Nodup
  decide

/-- A body has a member if the request sets it. -/
theorem get?_bodyAround {key : Text} {value : Json} (hKey : key ≠ "query")
    (hMember : q.bodyMembers.get? key = some value) (hSet : value.isNull = false) (x : Json) :
    (q.bodyAround x).get? key = some value := by
  show Members.get? (("query", x) :: q.bodyMembers.present) key = some value
  rw [Members.get?_cons, if_neg hKey, Members.get?_present q.nodup_bodyMembers, hMember]
  simp [hSet]

end Query

namespace Session

variable {config : Config} {index : Json} {s : Session}

theorem run_aggregate_of_pattern {failure : Failure}
    (hPattern : Index.checkPattern index = .error failure) :
    (aggregate config index).run s = (.error failure, s) := by
  rw [aggregate, run_of_bind, hPattern]

theorem run_aggregate_of_none (hPattern : Index.checkPattern index = .ok ())
    (hNone : s.query.aggregations.truthy = false) :
    (aggregate config index).run s = (.error .noAggregations, s) := by
  rw [aggregate, run_of_bind, hPattern]
  simp only [run_current_bind, hNone]
  rfl

theorem run_aggregate_of_connection {failure : Failure}
    (hPattern : Index.checkPattern index = .ok ()) (hSome : s.query.aggregations.truthy = true)
    (hConnection : checkConnection config = .error failure) :
    (aggregate config index).run s = (.error failure, { s with query := s.query.withoutHits }) := by
  simp only [aggregate, run_of_bind, run_current_bind, run_edit_bind, hPattern, hSome, hConnection,
    ↓reduceIte]
  rfl

theorem run_aggregate_of_arguments {failure : Failure}
    (hPattern : Index.checkPattern index = .ok ()) (hSome : s.query.aggregations.truthy = true)
    (hConnection : checkConnection config = .ok ())
    (hArguments : s.query.withoutHits.searchArguments index = .error failure) :
    (aggregate config index).run s =
      (.error (.aggregationFailed failure.message), { s with query := s.query.withoutHits }) := by
  simp only [Query.withoutHits] at hArguments ⊢
  simp only [aggregate, run_of_bind, run_current_bind, run_edit_bind, hPattern, hSome, hConnection,
    hArguments, ↓reduceIte]
  rfl

/-- An aggregation that nothing stands against makes one call, whatever becomes of the answer. -/
theorem run_aggregate {arguments : Members} (hPattern : Index.checkPattern index = .ok ())
    (hSome : s.query.aggregations.truthy = true)
    (hConnection : checkConnection config = .ok ())
    (hArguments : s.query.withoutHits.searchArguments index = .ok arguments) :
    ((aggregate config index).run s).2 =
      ⟨s.query.withoutHits, (Cluster.send .search arguments s.cluster).2⟩ := by
  simp only [Query.withoutHits] at hArguments ⊢
  simp only [aggregate, run_of_bind, run_current_bind, run_edit_bind, hPattern, hSome, hConnection,
    hArguments, ↓reduceIte]
  rw [Step.run_bind, run_send]
  cases (Cluster.send .search arguments s.cluster).1 <;> rfl

/-- Grouping fails where the tree of the levels cannot be added, and aggregates where it can. -/
theorem run_groupBy (levels : Json) (direction : Text) :
    (groupBy config index levels (.str direction)).run s =
      match s.query.grouped levels (.str (Text.lower direction)) with
      | .ok changed => (aggregate config index).run { s with query := changed }
      | .error failure => (.error failure, s) := by
  simp only [groupBy, Json.asText, run_of_bind]
  cases hTree : Aggregation.groupBy levels (.str (Text.lower direction)) with
  | error failure =>
      rw [Query.grouped, hTree]
      rfl
  | ok tree =>
      cases tree with
      | obj nodes =>
          have hAdd : s.query.grouped levels (.str (Text.lower direction)) =
              s.query.addAggregations nodes := by
            rw [Query.grouped, hTree]
            rfl
          rw [hAdd]
          simp only [run_current_bind, run_of_bind]
          cases s.query.addAggregations nodes <;> rfl
      | _ =>
          rw [Query.grouped, hTree]
          rfl

end Session

end LogQuery
