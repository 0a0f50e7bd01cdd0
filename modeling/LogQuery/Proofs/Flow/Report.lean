import LogQuery.Proofs.Flow.Window
import LogQuery.Proofs.Session.Grouping

/-! What a report says was asked for. The request is shown after it was run, and what it became on
the way is what was sent: the size that was filled in, the aggregations, and neither hits nor a
scroll for a grouping. The scroll that is noted after the answer is no part of what is shown. -/

namespace LogQuery

open Cluster

namespace Members

theorem erase_of_notMem {members : Members} {key : Text} (h : key ∉ members.map (·.1)) :
    members.erase key = members := by
  apply List.filter_eq_self.mpr
  intro m hm
  have hKey : m.1 ≠ key := fun hSame => h (List.mem_map.mpr ⟨m, hm, hSame⟩)
  simpa using hKey

theorem erase_append (members more : Members) (key : Text) :
    erase (members ++ more) key = members.erase key ++ more.erase key :=
  List.filter_append members more

end Members

namespace Query

variable {q : Query} {x index shown : Json}

theorem display_eq_ok_iff :
    q.display = .ok shown ↔ ∃ x, q.render = .ok x ∧
      .obj [("uri_params", .obj q.parameters), ("body", .obj (q.bodyAround x))] = shown := by
  simp only [display, body, bind_eq_ok_iff, map_eq_ok_iff, pure_eq_ok_iff]
  constructor
  · rintro ⟨_, ⟨x, hRender, rfl⟩, rfl⟩
    exact ⟨x, hRender, rfl⟩
  · rintro ⟨x, hRender, rfl⟩
    exact ⟨_, ⟨x, hRender, rfl⟩, rfl⟩

/-! ## The arguments of a search -/

theorem notMem_parameters (q : Query) (key : Text)
    (h : key ∉ (["scroll", "search_type", "rest_total_hits_as_int"] : List Text)) :
    key ∉ q.parameters.map (·.1) := by
  intro hMem
  obtain ⟨m, hm, rfl⟩ := List.mem_map.mp hMem
  exact h (List.mem_map_of_mem (List.mem_of_mem_filter hm))

end Query

namespace Cluster

/-- The arguments of a call beside its body and the index. -/
def Call.keywords (call : Call) : Members :=
  (call.arguments.erase "body").erase "index"

variable {q : Query} {index : Json}

theorem keywords_argumentsAround (x : Json) (hIndex : index.truthy = true) :
    (⟨.search, q.argumentsAround x index⟩ : Call).keywords = q.parameters := by
  have hBody := Members.erase_of_notMem (q.notMem_parameters "body" (by decide))
  have hPattern := Members.erase_of_notMem (q.notMem_parameters "index" (by decide))
  rw [Call.keywords, Query.argumentsAround, Clause.ifGiven, if_pos hIndex]
  show Members.erase (Members.erase (q.parameters ++ _) "body") "index" = q.parameters
  rw [Members.erase_append, hBody, Members.erase_append, hPattern]
  exact List.append_nil q.parameters

theorem get?_index_argumentsAround (x : Json) (hIndex : index.truthy = true) :
    (q.argumentsAround x index).get? "index" = some index := by
  have hBody : ("index" : Text) ≠ "body" := by decide
  have hNew := Members.get?_eq_none (q.notMem_parameters "index" (by decide))
  rw [Query.argumentsAround, Members.get?_cons, if_neg hBody, Members.get?_append, hNew,
    Clause.ifGiven, if_pos hIndex]
  rfl

theorem get?_scroll_argumentsAround (x : Json) (hScroll : q.scroll = .null) :
    (q.argumentsAround x index).get? "scroll" = none := by
  have hBody : ("scroll" : Text) ≠ "body" := by decide
  have hIndex : ("scroll" : Text) ≠ "index" := by decide
  have hKeys : (([("scroll", q.scroll), ("search_type", q.searchType),
      ("rest_total_hits_as_int", q.totalHitsAsInt)] : Members).map (·.1)).Nodup := by
    show (["scroll", "search_type", "rest_total_hits_as_int"] : List Text).Nodup
    decide
  have hUnset : q.parameters.get? "scroll" = none := by
    rw [Query.parameters, Members.get?_present hKeys, hScroll]
    rfl
  have hGiven : (Clause.ifGiven "index" index).get? "scroll" = none := by
    rw [Flow.get?_ifGiven, if_neg fun h => hIndex h.1]
  rw [Query.argumentsAround, Members.get?_cons, if_neg hBody, Members.get?_append, hUnset, hGiven]
  rfl

end Cluster

namespace Flow

variable {around : Surroundings} {selection : Selection} {s t : State}

/-! ## The report of a flow -/

/-- The report says what a call asked for: where, the body, and all its other arguments. -/
structure Tells (report : Json) (call : Call) : Prop where
  index : ∃ index, report.member? "index_pattern" = .ok (some index) ∧
    call.arguments.get? "index" = some index
  request : ∃ body, call.arguments.get? "body" = some body ∧
    report.member? "request" =
      .ok (some (.obj [("uri_params", .obj call.keywords), ("body", body)]))

/-- The call asks for neither hits nor a scroll. -/
def AsksForNoHits (call : Call) : Prop :=
  call.inBody? "size" = some (.int 0) ∧ call.arguments.get? "scroll" = none

/-- The flow groups what it finds. -/
def Request.Groups : Request → Prop
  | .search _ _ => False
  | .group _ _ => True

theorem tells_report {prepared : Prepared} {q : Query} {shown x : Json} (found : Members)
    (hShown : q.display = .ok shown) (hRender : q.render = .ok x)
    (hIndex : prepared.index.pattern.truthy = true) :
    Tells (report prepared shown found)
      ⟨.search, q.argumentsAround x prepared.index.pattern⟩ := by
  obtain ⟨y, hSame, rfl⟩ := Query.display_eq_ok_iff.mp hShown
  cases hRender.symm.trans hSame
  refine ⟨⟨prepared.index.pattern, rfl, get?_index_argumentsAround x hIndex⟩,
    .obj (q.bodyAround x), rfl, ?_⟩
  rw [keywords_argumentsAround x hIndex]
  rfl

/-- What is reported is what was run. A flow that reports made one search, the report tells what it
asked for, and a grouping asked for no hits and for no scroll. -/
theorem report_tells {request : Request} {report : Json}
    (h : (request.report around selection).run s = (.ok report, t)) :
    ∃ call, EndsInSearch s.cluster t.cluster call ∧ Tells report call ∧
      (request.Groups → AsksForNoHits call) := by
  cases request with
  | search size fields =>
      simp only [Request.report, Step.run_map_eq_ok_iff, searchLogs, Step.run_bind_eq_ok_iff,
        Prod.exists, run_inSession_eq_ok_iff, Step.run_of_eq_ok_iff,
        Step.run_pure_eq_ok_iff] at h
      obtain ⟨_, ⟨prepared, u, hPrepare, page, q, _, ⟨v, hRun, rfl, rfl⟩, shown, _, ⟨hShown, rfl⟩,
        rfl, rfl⟩, rfl⟩ := h
      obtain ⟨-, hMappings, -⟩ := prepare_restricts hPrepare
      obtain ⟨hIndex, x, -, hRender, hCall⟩ := Session.searchesOnce_of_execute hRun
      refine ⟨_, hCall.after_mappings hMappings, tells_report _ hShown hRender hIndex, ?_⟩
      exact False.elim
  | group levels direction =>
      simp only [Request.report, Step.run_map_eq_ok_iff, groupLogs, Step.run_bind_eq_ok_iff,
        Prod.exists, run_inSession_eq_ok_iff, Step.run_of_eq_ok_iff,
        Step.run_pure_eq_ok_iff] at h
      obtain ⟨_, ⟨prepared, u, hPrepare, summary, q, _, ⟨v, hRun, rfl, rfl⟩, shown, _,
        ⟨hShown, rfl⟩, rfl, rfl⟩, rfl⟩ := h
      obtain ⟨-, hMappings, -⟩ := prepare_restricts hPrepare
      obtain ⟨⟨hIndex, x, -, hRender, hCall⟩, hSize, hScroll⟩ :=
        Session.searchesOnce_of_groupBy hRun
      refine ⟨_, hCall.after_mappings hMappings, tells_report _ hShown hRender hIndex, ?_⟩
      intro _
      refine ⟨?_, get?_scroll_argumentsAround x hScroll⟩
      have hMember : v.query.bodyMembers.get? "size" = some (.int 0) := by
        rw [← hSize]
        rfl
      exact Query.get?_bodyAround (by decide) hMember rfl x

/-- The programs on the hosts with the most documents. -/
def hostPrograms : Request :=
  .group (.arr [.str "host:10", .str "program"]) (.str "desc")

theorem report_tells_programs :
    ∃ report t, (hostPrograms.report .plain (logsOf ["src_port:>=1024"])).run .fresh =
        (.ok report, t) ∧
      ∃ call, EndsInSearch State.fresh.cluster t.cluster call ∧ Tells report call ∧
        AsksForNoHits call := by
  obtain ⟨report, t, hRun⟩ := Step.exists_run_eq_ok (show
    ((hostPrograms.report .plain (logsOf ["src_port:>=1024"])).run .fresh).1.toBool = true by
      decide +kernel)
  obtain ⟨call, hSearch, hTells, hHits⟩ := report_tells hRun
  exact ⟨report, t, hRun, call, hSearch, hTells, hHits trivial⟩

end Flow

end LogQuery
