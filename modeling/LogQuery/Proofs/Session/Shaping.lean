import LogQuery.Proofs.Aggregation.Orders
import LogQuery.Proofs.Session.Moves

/-! Requests whose aggregations are put together step by step. Whatever texts are added, wrapped
around, ordered by and grouped by, and whichever of the steps fail, the orders of the aggregations
resolve. -/

namespace LogQuery

open Aggregation

namespace Query

/-- There are no aggregations, or a tree of them whose orders resolve. -/
def OrdersResolve (q : Query) : Prop :=
  q.aggregations = .null ∨
    ∃ tree, q.aggregations = .obj tree ∧ Aggregation.OrdersResolve tree

variable {q changed : Query}

theorem OrdersResolve.orElse (h : q.OrdersResolve) :
    ∃ tree, q.aggregations.orElse (.obj []) = .obj tree ∧ Aggregation.OrdersResolve tree := by
  rcases h with hNone | ⟨tree, hTree, hResolve⟩
  · exact ⟨[], by rw [hNone]; rfl, .nil⟩
  · refine ⟨tree, ?_, hResolve⟩
    rw [hTree]
    cases tree <;> rfl

theorem OrdersResolve.of_aggregations (h : q.OrdersResolve)
    (hSame : changed.aggregations = q.aggregations) : changed.OrdersResolve := by
  rwa [OrdersResolve, hSame]

theorem OrdersResolve.addAggregations {more : Members} (h : q.OrdersResolve)
    (hMore : Aggregation.OrdersResolve more) (hAdd : q.addAggregations more = .ok changed) :
    changed.OrdersResolve := by
  obtain ⟨tree, hTree, hResolve⟩ := h.orElse
  unfold Query.addAggregations at hAdd
  split at hAdd
  · cases hAdd
  · rw [hTree] at hAdd
    cases hAdd
    exact .inr ⟨_, rfl, hResolve.update hMore⟩

theorem OrdersResolve.addAggregationText {text : Text} (h : q.OrdersResolve)
    (hText : GivesNoOrder text) (hAdd : q.addAggregationText (.str text) = .ok changed) :
    changed.OrdersResolve := by
  obtain ⟨_, hSame, hAdd⟩ := bind_eq_ok_iff.mp hAdd
  cases hSame
  obtain ⟨more, hExpand, hAdd⟩ := bind_eq_ok_iff.mp hAdd
  exact h.addAggregations (ordersResolve_expand hText hExpand) hAdd

theorem OrdersResolve.wrapAggregations {text : Text} (h : q.OrdersResolve)
    (hText : GivesNoOrder text) (hWrap : q.wrapAggregations (.str text) = .ok changed) :
    changed.OrdersResolve := by
  obtain ⟨tree, hTree, hResolve⟩ := h.orElse
  obtain ⟨wrapped, hWrapped, hChanged⟩ := bind_eq_ok_iff.mp hWrap
  cases hChanged
  rw [← wrap_orElse, hTree] at hWrapped
  exact .inr (ordersResolve_wrap hText hResolve hWrapped)

theorem OrdersResolve.orderAggregations {texts : List Text} (h : q.OrdersResolve)
    (hTexts : ∀ text ∈ texts, GivesNoOrder text) (given : Json) :
    (q.orderAggregations given (Json.texts texts)).reached.OrdersResolve := by
  unfold Query.orderAggregations
  split
  · exact h
  · split
    · rename_i direction _ hSome
      rcases h with hNone | ⟨tree, hTree, hResolve⟩
      · rw [hNone] at hSome
        cases hSome
      · simp only [hTree]
        exact .inr (ordersResolve_orderBy hTexts hResolve (.str direction))
    · exact h

end Query

namespace Session

/-! ## Steps -/

/-- A step that puts aggregations together. -/
inductive Shaping where
  | add (text : Text)
  | wrap (text : Text)
  | order (direction : Text) (definitions : List Text)
  | groupBy (index : Json) (levels : List Level) (direction : Text)

/-- What a step does to the session. A step that fails keeps what it reached. -/
def Shaping.action (config : Config) : Shaping → Action Unit
  | .add text => do
    let changed ← Step.of ((← current).addAggregationText (.str text))
    edit fun _ => changed
  | .wrap text => do
    let changed ← Step.of ((← current).wrapAggregations (.str text))
    edit fun _ => changed
  | .order direction definitions => do
    let change := (← current).orderAggregations (.str direction) (Json.texts definitions)
    edit fun _ => change.reached
    Step.of (change.result.map fun _ => ())
  | .groupBy index levels direction =>
    discard (Session.groupBy config index (.arr (levels.map Level.toJson)) (.str direction))

/-- The texts of a step. -/
def Shaping.texts : Shaping → List Text
  | .add text | .wrap text => [text]
  | .order _ definitions => definitions
  | .groupBy _ levels _ => levels.flatMap Level.texts

/-- The session after some steps, whether they fail or not. -/
def shape (config : Config) (steps : List Shaping) (s : Session) : Session :=
  steps.foldl (fun s step => ((step.action config).run s).2) s

variable {config : Config} {s : Session}

/-- Grouping leaves the aggregations as they are, or adds the tree of the levels to them. -/
theorem aggregations_groupBy_cases (config : Config) (index : Json) (levels : List Level)
    (direction : Text) (s : Session) :
    ∃ after, ((Shaping.groupBy index levels direction).action config).run s = after ∧
      (after.2.query.aggregations = s.query.aggregations ∨
        ∃ nodes changed,
          Aggregation.groupBy (.arr (levels.map Level.toJson)) (.str (Text.lower direction)) =
            .ok (.obj nodes) ∧
          s.query.addAggregations nodes = .ok changed ∧
          after.2.query.aggregations = changed.aggregations) := by
  refine ⟨_, rfl, ?_⟩
  simp only [Shaping.action, Step.run_discard, Session.groupBy, Json.asText, run_of_bind]
  cases hTree : Aggregation.groupBy (.arr (levels.map Level.toJson))
      (.str (Text.lower direction)) with
  | error failure => exact .inl rfl
  | ok tree =>
      obtain ⟨tiers, -, rfl⟩ := groupBy_eq_ok_iff.mp hTree
      simp only [run_current_bind, run_of_bind]
      cases hAdd : s.query.addAggregations (treeOf (.str (Text.lower direction)) tiers) with
      | error failure => exact .inl rfl
      | ok changed =>
          obtain ⟨-, hKept, -⟩ := run_aggregate_cases config index { s with query := changed }
          exact .inr ⟨_, changed, rfl, hAdd, hKept⟩

/-- Every step keeps the orders resolved. -/
theorem Shaping.ordersResolve {step : Shaping} (hTexts : ∀ text ∈ step.texts, GivesNoOrder text)
    (h : s.query.OrdersResolve) : ((step.action config).run s).2.query.OrdersResolve := by
  cases step with
  | add text =>
      have hText := hTexts text (List.mem_singleton_self text)
      simp only [Shaping.action, run_current_bind, run_of_bind]
      cases hAdd : s.query.addAggregationText (.str text) with
      | error failure => exact h
      | ok changed => exact h.addAggregationText hText hAdd
  | wrap text =>
      have hText := hTexts text (List.mem_singleton_self text)
      simp only [Shaping.action, run_current_bind, run_of_bind]
      cases hWrap : s.query.wrapAggregations (.str text) with
      | error failure => exact h
      | ok changed => exact h.wrapAggregations hText hWrap
  | order direction definitions => exact h.orderAggregations hTexts (.str direction)
  | groupBy index levels direction =>
      obtain ⟨_, rfl, hSame | ⟨nodes, changed, hTree, hAdd, hKept⟩⟩ :=
        aggregations_groupBy_cases config index levels direction s
      · exact h.of_aggregations hSame
      · have hLevels : ∀ level ∈ levels, ∀ text ∈ level.texts, GivesNoOrder text :=
          fun level hLevel text hText => hTexts text (List.mem_flatMap.mpr ⟨level, hLevel, hText⟩)
        obtain ⟨tree, hNodes, hResolve⟩ := ordersResolve_groupBy hLevels hTree
        cases hNodes
        exact (h.addAggregations hResolve hAdd).of_aggregations hKept

/-- Whatever steps are taken from a request without aggregations, its orders resolve afterwards. -/
theorem shape_ordersResolve (config : Config) {steps : List Shaping} {s : Session}
    (hFresh : s.query.aggregations = .null)
    (hTexts : ∀ step ∈ steps, ∀ text ∈ step.texts, GivesNoOrder text) :
    (shape config steps s).query.OrdersResolve := by
  have hRun : ∀ s : Session, s.query.OrdersResolve →
      (shape config steps s).query.OrdersResolve := by
    clear hFresh
    induction steps with
    | nil => exact fun _ h => h
    | cons step steps ih =>
        obtain ⟨hStep, hRest⟩ := List.forall_mem_cons.mp hTexts
        exact fun s h => ih hRest _ (step.ordersResolve hStep h)
  exact hRun s (.inl hFresh)

/-- A request without aggregations, whose cluster has no answers. -/
def emptySession : Session :=
  ⟨{}, fun _ => [], []⟩

/-- The ports of the sources with the most traffic, beside the hosts with the least. -/
def trafficSteps : List Shaping :=
  [.add "dst_port", .wrap "src_ip:10", .order "DESC" ["max:bytes"],
    .groupBy (.str "logs-*") [{ text := "host", orderedBy? := some ["sum:bytes"] }] "asc"]

/-- The sources and the hosts, each with the order and the value that it names. -/
def trafficTree : Members :=
  [("src_ip", .obj (node .terms
      [("field", .str "src_ip"), ("size", .int 10),
        ("order", .arr [.obj [("max_bytes", .str "desc")], countEntry])]
      [("dst_port", .obj (node .terms [("field", .str "dst_port"), ("size", .int 20)] [])),
        ("max_bytes", .obj (node .max [("field", .str "bytes")] []))])),
    ("host", .obj (node .terms
      [("field", .str "host"), ("size", .int 20),
        ("order", .arr [.obj [("sum_bytes", .str "asc")], countEntry])]
      [("sum_bytes", .obj (node .sum [("field", .str "bytes")] []))]))]

theorem shape_ordersResolve_traffic :
    emptySession.query.aggregations = .null ∧
      (∀ step ∈ trafficSteps, ∀ text ∈ step.texts, GivesNoOrder text) ∧
      (shape ⟨[], [], []⟩ trafficSteps emptySession).query.aggregations = .obj trafficTree ∧
      (shape ⟨[], [], []⟩ trafficSteps emptySession).query.OrdersResolve := by
  have hTexts : ∀ step ∈ trafficSteps, ∀ text ∈ step.texts, GivesNoOrder text := by decide
  exact ⟨rfl, hTexts, rfl, shape_ordersResolve ⟨[], [], []⟩ rfl hTexts⟩

end Session

end LogQuery
