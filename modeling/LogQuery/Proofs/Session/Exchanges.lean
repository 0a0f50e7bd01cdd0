import LogQuery.Proofs.Session.Calls

/-! What a session and the cluster say to each other: the calls with their answers, and the scroll
that the session holds after them. -/

namespace LogQuery

/-- The value, if it counts as given. -/
def Json.given? (value : Json) : Option Json :=
  if value.truthy then some value else none

theorem Json.given?_orElse (value other : Json) :
    (value.orElse other).given? = value.given?.or other.given? := by
  unfold orElse given?
  cases h : value.truthy <;> simp [h]

theorem Json.given?_eq_some_iff {value given : Json} :
    value.given? = some given ↔ value.truthy = true ∧ value = given := by
  unfold given?
  cases value.truthy <;> simp

namespace Cluster

/-! ## Exchanges -/

/-- A call and the answer to it. -/
structure Exchange where
  call : Call
  reply : Reply

/-- The calls from one state to another with their answers, in order. -/
inductive Exchanges (start : State) : State → List Exchange → Prop
  | nil : Exchanges start start []
  | snoc {s : State} {es : List Exchange} (prior : Exchanges start s es) (method : Method)
      (arguments : Members) :
      Exchanges start (send method arguments s).2
        (es ++ [⟨⟨method, arguments⟩, (send method arguments s).1⟩])

/-- What is read as the id of a scroll, if the answer can be read. -/
def Reply.noted? : Reply → Option Json
  | .answer document => (scrollId document).toOption
  | .refusal _ => none

/-- The id of the scroll that an answer belongs to. -/
def Reply.scrollId? (reply : Reply) : Option Json :=
  reply.noted?.bind Json.given?

/-- The id of the latest answer that has one. -/
def latestId? (es : List Exchange) : Option Json :=
  (es.filterMap (·.reply.scrollId?)).getLast?

/-- Every call for a next page carries the id of the latest answer before it that has one. -/
def CarriesLatest (es : List Exchange) : Prop :=
  ∀ before e rest, es = before ++ e :: rest → e.call.method = .scroll →
    ∃ id, latestId? before = some id ∧ e.call.arguments.get? "scroll_id" = some id

theorem CarriesLatest.snoc {es : List Exchange} {e : Exchange} (h : CarriesLatest es)
    (hLast : e.call.method = .scroll →
      ∃ id, latestId? es = some id ∧ e.call.arguments.get? "scroll_id" = some id) :
    CarriesLatest (es ++ [e]) := by
  intro before d rest hSplit hMethod
  rcases List.eq_nil_or_concat rest with rfl | ⟨rest, last, rfl⟩
  · obtain ⟨rfl, hSame⟩ := List.append_inj' hSplit rfl
    cases hSame
    exact hLast hMethod
  · rw [List.concat_eq_append, ← List.cons_append, ← List.append_assoc] at hSplit
    obtain ⟨rfl, -⟩ := List.append_inj' hSplit rfl
    exact h before d rest rfl hMethod

/-- A search was answered, and the answer can be read. -/
def IsAnswered (es : List Exchange) : Prop :=
  ∃ e ∈ es, e.call.method = .search ∧ e.reply.noted?.isSome = true

instance (es : List Exchange) : Decidable (IsAnswered es) :=
  inferInstanceAs (Decidable (∃ e ∈ es, _))

/-- The id held after calls: that of the latest answer that has one, or the one held before if no
search was answered. -/
def heldAfter (before : Option Json) (es : List Exchange) : Option Json :=
  if IsAnswered es then latestId? es else before

/-- The page that an answer is. -/
def Reply.page (refused : Text → Failure) : Reply → Except Failure Page
  | .answer document => do
    let _ ← scrollId document
    Page.read document
  | .refusal reason => .error (refused reason)

theorem Reply.noted_of_page {reply : Reply} {refused : Text → Failure} {page : Page}
    (h : reply.page refused = .ok page) : reply.noted?.isSome = true := by
  cases reply with
  | refusal reason => cases h
  | answer document =>
      obtain ⟨id, hId, -⟩ := bind_eq_ok_iff.mp h
      simp [noted?, hId, Except.toOption]

end Cluster

open Cluster

namespace Query

/-- The scroll that is held. -/
def openScroll? (q : Query) : Option Json :=
  q.scrollId.given?

theorem openScroll?_of_truthy {q : Query} (h : q.scrollId.truthy = true) :
    q.openScroll? = some q.scrollId :=
  if_pos h

theorem isSome_openScroll? (q : Query) : q.openScroll?.isSome = q.scrollId.truthy := by
  unfold openScroll? Json.given?
  cases q.scrollId.truthy <;> rfl

/-- The request with its number of hits filled in. -/
def sized (q : Query) (size : Json) : Query :=
  { q with size }

end Query

namespace Session

variable {config : Config} {index : Json}

/-- The session after a call, whose answer may change the scroll that is held. -/
def after (s : Session) (method : Method) (arguments : Members) (note : Json → Json) : Session :=
  { query :=
      match (Cluster.send method arguments s.cluster).1.noted? with
      | some id => { s.query with scrollId := note id }
      | none => s.query
    cluster := (Cluster.send method arguments s.cluster).2 }

theorem run_of_bind {α β : Type} (x : Except Failure α) (f : α → Action β) (s : Session) :
    (Step.of x >>= f).run s =
      match x with
      | .ok a => (f a).run s
      | .error failure => (.error failure, s) := by
  cases x <;> rfl

theorem run_current_bind {β : Type} (f : Query → Action β) (s : Session) :
    (current >>= f).run s = (f s.query).run s := rfl

theorem run_edit_bind {β : Type} (g : Query → Query) (f : Unit → Action β) (s : Session) :
    (edit g >>= f).run s = (f ()).run { s with query := g s.query } := rfl

theorem run_send (method : Method) (arguments : Members) (refused : Text → Failure) (s : Session) :
    (Session.send method arguments refused).run s =
      (match (Cluster.send method arguments s.cluster).1 with
        | .answer document => .ok document
        | .refusal reason => .error (refused reason),
        { s with cluster := (Cluster.send method arguments s.cluster).2 }) := by
  rcases hSend : Cluster.send method arguments s.cluster with ⟨reply, u⟩
  cases reply <;> simp [Session.send, Step.onPart, Step.run, request, hSend]

/-- Making a call, noting the scroll of its answer and reading the page. -/
theorem run_page (method : Method) (arguments : Members) (refused : Text → Failure)
    (note : Json → Json) (s : Session) :
    (do
      let answer ← Session.send method arguments refused
      let id ← Step.of (Cluster.scrollId answer)
      noteScroll (note id)
      Step.of (Page.read answer) : Action Page).run s =
      ((Cluster.send method arguments s.cluster).1.page refused,
        s.after method arguments note) := by
  rw [Step.run_bind, run_send]
  rcases hSend : Cluster.send method arguments s.cluster with ⟨reply, u⟩
  cases reply with
  | refusal reason =>
      rw [after, hSend]
      rfl
  | answer document =>
      simp only [after, hSend, run_of_bind, Reply.page, Reply.noted?]
      cases Cluster.scrollId document <;> rfl

theorem openScroll?_after_search (s : Session) (arguments : Members) :
    (s.after .search arguments id).query.openScroll? =
      if (Cluster.send .search arguments s.cluster).1.noted?.isSome then
        (Cluster.send .search arguments s.cluster).1.scrollId?
      else s.query.openScroll? := by
  rw [after, Reply.scrollId?]
  cases (Cluster.send .search arguments s.cluster).1.noted? <;> rfl

theorem openScroll?_after_scroll (s : Session) (arguments : Members) :
    (s.after .scroll arguments (·.orElse s.query.scrollId)).query.openScroll? =
      (Cluster.send .scroll arguments s.cluster).1.scrollId?.or s.query.openScroll? := by
  rw [after, Reply.scrollId?]
  cases (Cluster.send .scroll arguments s.cluster).1.noted? with
  | none => rfl
  | some id => exact Json.given?_orElse id s.query.scrollId

/-! ## Searching, scrolling and letting go -/

/-- Nothing stands against a search in an index, and these are its arguments. -/
structure CanSearch (config : Config) (index : Json) (q : Query) (arguments : Members) : Prop where
  pattern : Index.checkPattern index = .ok ()
  connection : checkConnection config = .ok ()
  arguments : ∃ size, boundSize q.size = .ok size ∧ (q.sized size).searchArguments index = .ok arguments

/-- A search that nothing stands against. -/
theorem run_execute {arguments : Members} {s : Session}
    (h : CanSearch config index s.query arguments) :
    ∃ size, (execute config index).run s =
      ((Cluster.send .search arguments s.cluster).1.page .searchFailed,
        ({ s with query := s.query.sized size } : Session).after .search arguments id) := by
  obtain ⟨size, hSize, hArguments⟩ := h.arguments
  refine ⟨size, ?_⟩
  simp only [execute, run_of_bind, run_current_bind, run_edit_bind, h.pattern, hSize, h.connection]
  simp only [Query.sized] at hArguments
  simp only [hArguments]
  exact run_page .search arguments .searchFailed id { s with query := s.query.sized size }

/-- A search either fails before its call, with no more done than its size filled in, or nothing stands
against it. -/
theorem run_execute_cases (config : Config) (index : Json) (s : Session) :
    (∃ failure size,
      (execute config index).run s = (.error failure, { s with query := s.query.sized size })) ∨
    ∃ arguments, CanSearch config index s.query arguments := by
  simp only [execute, run_of_bind, run_current_bind, run_edit_bind]
  cases hPattern : Index.checkPattern index with
  | error failure => exact .inl ⟨failure, s.query.size, rfl⟩
  | ok _ =>
      cases hSize : boundSize s.query.size with
      | error failure => exact .inl ⟨failure, s.query.size, rfl⟩
      | ok size =>
          cases hConnection : checkConnection config with
          | error failure => exact .inl ⟨failure, size, rfl⟩
          | ok _ =>
              cases hArguments : (s.query.sized size).searchArguments index with
              | error failure =>
                  refine .inl ⟨failure, size, ?_⟩
                  simp only [Query.sized] at hArguments
                  simp only [hArguments, Query.sized]
              | ok arguments => exact .inr ⟨arguments, hPattern, hConnection, size, hSize, hArguments⟩

theorem run_scroll_of_none {s : Session} (h : s.query.scrollId.truthy = false) :
    (scroll config).run s = (.error .noScroll, s) := by
  rw [scroll, run_current_bind, h]
  rfl

theorem run_scroll_of_connection {s : Session} {failure : Failure}
    (hConnection : checkConnection config = .error failure)
    (hOpen : s.query.scrollId.truthy = true) : (scroll config).run s = (.error failure, s) := by
  rw [scroll, run_current_bind, if_pos hOpen, run_of_bind, hConnection]

/-- Scrolling goes on with the scroll that is held. -/
theorem run_scroll {s : Session} (hConnection : checkConnection config = .ok ())
    (hOpen : s.query.scrollId.truthy = true) :
    (scroll config).run s =
      ((Cluster.send .scroll (scrollArguments s.query) s.cluster).1.page .scrollFailed,
        s.after .scroll (scrollArguments s.query) (·.orElse s.query.scrollId)) := by
  rw [scroll, run_current_bind, if_pos hOpen, run_of_bind, hConnection]
  exact run_page .scroll (scrollArguments s.query) .scrollFailed (·.orElse s.query.scrollId) s

theorem run_clear_of_none {s : Session} (h : s.query.openScroll? = none) :
    (clear config).run s = (.ok (), s) := by
  have hClosed : s.query.scrollId.truthy = false := by
    simpa [Query.openScroll?, Json.given?] using h
  rw [clear, run_current_bind, hClosed]
  rfl

theorem run_clear_of_connection {s : Session} {failure : Failure}
    (hConnection : checkConnection config = .error failure)
    (hOpen : s.query.scrollId.truthy = true) : (clear config).run s = (.error failure, s) := by
  rw [clear, run_current_bind, if_pos hOpen, run_of_bind, hConnection]

/-- Letting go of the scroll that is held makes one call, and the answer to it does not matter. -/
theorem run_clear_of_some {s : Session} {id : Json} (h : s.query.openScroll? = some id)
    (hConnection : checkConnection config = .ok ()) :
    (clear config).run s = (.ok (),
      { query := { s.query with scrollId := .null }
        cluster := (Cluster.send .clearScroll [("scroll_id", id)] s.cluster).2 }) := by
  obtain ⟨hOpen, rfl⟩ := Json.given?_eq_some_iff.mp h
  rw [clear, run_current_bind, if_pos hOpen, run_of_bind, hConnection]
  rfl

end Session

end LogQuery
