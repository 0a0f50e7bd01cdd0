import LogQuery.Proofs.Result
import LogQuery.Session.Aggregate
import LogQuery.Session.Search

/-! The calls of a session. A search, an aggregation and a grouping each make one call, which asks
for what the request of the session renders to. -/

namespace LogQuery

namespace Cluster

/-- Between two states nothing was asked for but mappings. -/
def OnlyMappings (before after : State) : Prop :=
  ∃ calls, after.calls = before.calls ++ calls ∧ ∀ call ∈ calls, call.method = .getMapping

theorem OnlyMappings.refl (s : State) : OnlyMappings s s :=
  ⟨[], by simp, by simp⟩

theorem calls_of_request {method : Method} {arguments : Members} {refused : Text → Failure}
    {s t : State} {answer : Json}
    (h : (request method arguments refused).run s = (.ok answer, t)) :
    t.calls = s.calls ++ [⟨method, arguments⟩] := by
  have hCalls := calls_send method arguments s
  simp only [Step.run, request] at h
  rcases hSend : send method arguments s with ⟨reply, u⟩
  rw [hSend] at h hCalls
  cases reply with
  | refusal reason => cases h
  | answer document =>
      cases h
      exact hCalls

/-- Between two states there was a search, and nothing before it but requests for mappings. -/
def EndsInSearch (before after : State) (call : Call) : Prop :=
  call.method = .search ∧ ∃ calls, after.calls = before.calls ++ calls ++ [call] ∧
    ∀ earlier ∈ calls, earlier.method = .getMapping

theorem EndsInSearch.after_mappings {before middle after : State} {call : Call}
    (hMappings : OnlyMappings before middle) (h : EndsInSearch middle after call) :
    EndsInSearch before after call := by
  obtain ⟨first, hFirst, hFirstMethod⟩ := hMappings
  obtain ⟨hSearch, calls, hCalls, hMethod⟩ := h
  refine ⟨hSearch, first ++ calls, ?_, ?_⟩
  · rw [hCalls, hFirst, List.append_assoc before.calls]
  · intro earlier hEarlier
    exact (List.mem_append.mp hEarlier).elim (hFirstMethod earlier) (hMethod earlier)

theorem endsInSearch_send (arguments : Members) (s : State) :
    EndsInSearch s (send .search arguments s).2 ⟨.search, arguments⟩ :=
  ⟨rfl, [], by rw [calls_send, List.append_nil], by simp⟩

/-- A search is no request for a mapping. -/
theorem OnlyMappings.not_endsInSearch {before after : State} (h : OnlyMappings before after)
    (call : Call) : ¬EndsInSearch before after call := by
  rintro ⟨hSearch, searched, hSearched, -⟩
  obtain ⟨calls, hCalls, hMappings⟩ := h
  rw [hCalls, List.append_assoc] at hSearched
  have hMem : call ∈ calls := by
    rw [List.append_cancel_left hSearched]
    exact List.mem_append_right _ (List.mem_singleton_self call)
  rw [hMappings call hMem] at hSearch
  cases hSearch

/-- What a call has under a key of its body. -/
def Call.inBody? (call : Call) (key : Text) : Option Json :=
  match call.arguments.get? "body" with
  | some (.obj body) => Members.get? body key
  | _ => none

/-- The query that a call asks for. -/
def Call.query? (call : Call) : Option Json :=
  match call.arguments.get? "body" with
  | some (.obj body) => Members.get? body "query"
  | _ => none

/-- Between two states there was one search, and nothing before it but requests for mappings. -/
def SearchesFor (before after : State) (query : Json) : Prop :=
  ∃ calls call, after.calls = before.calls ++ calls ++ [call] ∧
    (∀ earlier ∈ calls, earlier.method = .getMapping) ∧
      call.method = .search ∧ call.query? = some query

theorem SearchesFor.after_mappings {before middle after : State} {query : Json}
    (hMappings : OnlyMappings before middle) (h : SearchesFor middle after query) :
    SearchesFor before after query := by
  obtain ⟨first, hFirst, hFirstMethod⟩ := hMappings
  obtain ⟨calls, call, hCalls, hMethod, hSearch⟩ := h
  refine ⟨first ++ calls, call, ?_, ?_, hSearch⟩
  · rw [hCalls, hFirst, List.append_assoc before.calls]
  · intro earlier hEarlier
    exact (List.mem_append.mp hEarlier).elim (hFirstMethod earlier) (hMethod earlier)

end Cluster

open Cluster

theorem Index.truthy_of_checkPattern {value : Json} (h : checkPattern value = .ok ()) :
    value.truthy = true := by
  unfold checkPattern at h
  split at h
  · assumption
  · cases h

namespace Query

/-- The arguments of a search around a rendered query. -/
def argumentsAround (q : Query) (x index : Json) : Members :=
  ("body", .obj (q.bodyAround x)) :: (q.parameters ++ Clause.ifGiven "index" index)

theorem searchArguments_eq_ok_iff {q : Query} {index : Json} {arguments : Members} :
    q.searchArguments index = .ok arguments ↔
      ∃ x, q.render = .ok x ∧ q.argumentsAround x index = arguments := by
  simp only [searchArguments, body, bind_eq_ok_iff, map_eq_ok_iff, pure_eq_ok_iff]
  constructor
  · rintro ⟨_, ⟨x, hRender, rfl⟩, rfl⟩
    exact ⟨x, hRender, rfl⟩
  · rintro ⟨x, hRender, rfl⟩
    exact ⟨_, ⟨x, hRender, rfl⟩, rfl⟩

theorem render_addAggregations {q changed : Query} {nodes : Members}
    (h : q.addAggregations nodes = .ok changed) : changed.render = q.render := by
  unfold addAggregations at h
  split at h
  · cases h
  · split at h
    · cases h
      rfl
    · split at h
      · cases h
        rfl
      · cases h

end Query

namespace Session

variable {config : Config} {index : Json} {s t : Session}

theorem run_current_eq_ok_iff {q : Query} :
    current.run s = (.ok q, t) ↔ s.query = q ∧ s = t := by
  show ((.ok s.query, s) : Except Failure Query × Session) = (.ok q, t) ↔ _
  simp

theorem run_edit_eq_ok_iff {f : Query → Query} {u : Unit} :
    (edit f).run s = (.ok u, t) ↔ { s with query := f s.query } = t := by
  show ((.ok (), { s with query := f s.query }) : Except Failure Unit × Session) = (.ok u, t) ↔ _
  simp

/-- One call was made, a search for what the request rendered to. Its other arguments are those of
the request that was reached, and that one still renders to the same. -/
structure SearchesOnce (index : Json) (s t : Session) : Prop where
  given : index.truthy = true
  call : ∃ x, s.query.render = .ok x ∧ t.query.render = .ok x ∧
    EndsInSearch s.cluster t.cluster ⟨.search, t.query.argumentsAround x index⟩

theorem SearchesOnce.searchesFor (h : SearchesOnce index s t) :
    ∃ x, s.query.render = .ok x ∧ SearchesFor s.cluster t.cluster x := by
  obtain ⟨x, hBefore, -, hSearch, calls, hCalls, hMappings⟩ := h.call
  refine ⟨x, hBefore, calls, _, hCalls, hMappings, hSearch, ?_⟩
  simp [Call.query?, Query.argumentsAround, Members.get?_cons, Query.bodyAround]

theorem searchesOnce_of_send {arguments : Members} {refused : Text → Failure} {answer : Json}
    (hPattern : Index.checkPattern index = .ok ())
    (hArguments : s.query.searchArguments index = .ok arguments)
    (h : (send .search arguments refused).run s = (.ok answer, t)) :
    t.query = s.query ∧ SearchesOnce index s t := by
  obtain ⟨x, hRender, rfl⟩ := Query.searchArguments_eq_ok_iff.mp hArguments
  obtain ⟨u, hRequest, rfl⟩ := Step.run_onPart_eq_ok_iff.mp h
  refine ⟨rfl, Index.truthy_of_checkPattern hPattern, x, hRender, hRender, rfl, [], ?_, by simp⟩
  rw [List.append_nil]
  exact calls_of_request hRequest

/-- The size that a search fills in is not rendered, and no more is the scroll that it notes. -/
theorem searchesOnce_of_execute {page : Page}
    (h : (execute config index).run s = (.ok page, t)) : SearchesOnce index s t := by
  simp only [execute, noteScroll, Step.run_bind_eq_ok_iff, Step.run_of_eq_ok_iff,
    run_current_eq_ok_iff, run_edit_eq_ok_iff] at h
  obtain ⟨_, _, ⟨hPattern, rfl⟩, _, _, ⟨rfl, rfl⟩, size, _, ⟨_, rfl⟩, _, _, rfl, _, _, ⟨_, rfl⟩, _,
    _, ⟨rfl, rfl⟩, arguments, _, ⟨hArguments, rfl⟩, answer, u, hSend, id, _, ⟨_, rfl⟩, _, _, rfl,
    _, rfl⟩ := h
  obtain ⟨-, hGiven, x, hBefore, hAfter, hCall⟩ := searchesOnce_of_send hPattern hArguments hSend
  exact ⟨hGiven, x, hBefore, hAfter, hCall⟩

/-- Aggregating asks for no hits and for no scroll, and neither is rendered. -/
theorem searchesOnce_of_aggregate {summary : Summary}
    (h : (aggregate config index).run s = (.ok summary, t)) :
    SearchesOnce index s t ∧ t.query.size = .int 0 ∧ t.query.scroll = .null := by
  simp only [aggregate, Step.run_bind_eq_ok_iff, Step.run_of_eq_ok_iff, run_current_eq_ok_iff] at h
  obtain ⟨_, _, ⟨hPattern, rfl⟩, _, _, ⟨rfl, rfl⟩, h⟩ := h
  split at h
  · simp only [Step.run_bind_eq_ok_iff, Step.run_of_eq_ok_iff, run_current_eq_ok_iff,
      run_edit_eq_ok_iff] at h
    obtain ⟨_, _, rfl, _, _, ⟨_, rfl⟩, _, _, ⟨rfl, rfl⟩, h⟩ := h
    split at h
    · cases h
    · rename_i arguments hArguments
      simp only [Step.run_bind_eq_ok_iff, Step.run_of_eq_ok_iff] at h
      obtain ⟨answer, u, hSend, _, rfl⟩ := h
      obtain ⟨hSame, hGiven, x, hBefore, hAfter, hCall⟩ :=
        searchesOnce_of_send hPattern hArguments hSend
      refine ⟨⟨hGiven, x, hBefore, hAfter, hCall⟩, ?_, ?_⟩
      · rw [hSame]
      · rw [hSame]
  · cases h

/-- Grouping asks for what the request rendered to before the groups were added. -/
theorem searchesOnce_of_groupBy {levels direction : Json} {summary : Summary}
    (h : (groupBy config index levels direction).run s = (.ok summary, t)) :
    SearchesOnce index s t ∧ t.query.size = .int 0 ∧ t.query.scroll = .null := by
  simp only [groupBy, Step.run_bind_eq_ok_iff, Step.run_of_eq_ok_iff] at h
  obtain ⟨_, _, ⟨_, rfl⟩, tree, _, ⟨_, rfl⟩, h⟩ := h
  split at h
  · rename_i nodes
    simp only [Step.run_bind_eq_ok_iff, Step.run_of_eq_ok_iff, run_current_eq_ok_iff,
      run_edit_eq_ok_iff] at h
    obtain ⟨_, _, ⟨rfl, rfl⟩, changed, _, ⟨hChanged, rfl⟩, _, _, rfl, hRun⟩ := h
    obtain ⟨⟨hGiven, x, hBefore, hAfter, hCall⟩, hHits⟩ := searchesOnce_of_aggregate hRun
    rw [Query.render_addAggregations hChanged] at hBefore
    exact ⟨⟨hGiven, x, hBefore, hAfter, hCall⟩, hHits⟩
  · cases h

end Session

end LogQuery
