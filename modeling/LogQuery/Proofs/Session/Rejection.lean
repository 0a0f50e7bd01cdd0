import LogQuery.Proofs.Session.Grouping
import LogQuery.Proofs.Session.Shaping

/-! Attempts that are rejected: an index pattern or a direction is not valid, there are no
aggregations, or a text cannot be read. Then the cluster is not called. The request stays as it was,
unless the attempt is a grouping: the tree of its levels is added before the pattern is looked at,
and stays in the request. -/

namespace LogQuery

open Aggregation

/-! ## Texts that can be read -/

namespace Aggregation

/-- The text can be read as definitions. -/
def IsReadable (text : Text) : Prop :=
  ∃ ds, Definition.readAll text = .ok ds

theorem isReadable_of_expand {text : Text} {tree : Members} (h : expand text = .ok tree) :
    IsReadable text := by
  obtain ⟨ds, hRead, -⟩ := expand_eq_ok_iff.mp h
  exact ⟨ds, hRead⟩

theorem isReadable_of_wrap {text : Text} {inner wrapped : Json}
    (h : wrap (.str text) inner = .ok wrapped) : IsReadable text := by
  simp only [wrap] at h
  obtain ⟨wrapper, hWrapper, -⟩ := bind_eq_ok_iff.mp h
  obtain ⟨tree, hExpand, -⟩ := map_eq_ok_iff.mp hWrapper
  exact isReadable_of_expand hExpand

theorem isReadable_of_readDefinitions {texts : List Text} {text : Text} {ds : List Definition}
    (h : readDefinitions (Json.texts texts) = .ok ds) (hMem : text ∈ texts) : IsReadable text := by
  rw [readDefinitions_texts] at h
  obtain ⟨read, hRead, -⟩ := map_eq_ok_iff.mp h
  exact exists_of_mapM hRead hMem

theorem Level.Says.isReadable {level : Level} {tier : Tier} (h : level.Says tier) {text : Text}
    (hMem : text ∈ level.texts) : IsReadable text := by
  rcases List.mem_cons.mp hMem with rfl | hMem
  · exact ⟨tier.definitions, h.text⟩
  · obtain ⟨read, hRead, -⟩ := map_eq_ok_iff.mp h.ordering
    exact exists_of_mapM hRead hMem

theorem isReadable_of_groupBy {levels : List Level} {direction tree : Json} {text : Text}
    (h : groupBy (.arr (levels.map Level.toJson)) direction = .ok tree)
    (hMem : text ∈ levels.flatMap Level.texts) : IsReadable text := by
  obtain ⟨tiers, hSays, -⟩ := groupBy_eq_ok_iff.mp h
  clear h
  induction hSays with
  | nil => cases hMem
  | cons hLevel _ ih =>
      rw [List.flatMap_cons, List.mem_append] at hMem
      rcases hMem with hFirst | hRest
      · exact hLevel.isReadable hFirst
      · exact ih hRest

end Aggregation

namespace Session

/-! ## Attempts and why they are rejected -/

/-- What is done to a request, or with it. -/
inductive Attempt where
  | shape (step : Shaping)
  | execute (index : Json)
  | aggregate (index : Json)

def Attempt.action (config : Config) : Attempt → Action Unit
  | .shape step => step.action config
  | .execute index => discard (Session.execute config index)
  | .aggregate index => discard (Session.aggregate config index)

/-- The request with the tree of the levels, if the attempt is a grouping and the tree can be added.
-/
def Attempt.added? (q : Query) : Attempt → Option Query
  | .shape (.groupBy _ levels direction) =>
    (q.grouped (.arr (levels.map Level.toJson)) (.str (Text.lower direction))).toOption
  | _ => none

/-- Why an attempt is rejected: a text cannot be read, a direction or an index pattern is not valid,
or there are no aggregations. -/
inductive IsRejected (q : Query) : Attempt → Prop
  | add (text : Text) (hText : ¬IsReadable text) : IsRejected q (.shape (.add text))
  | wrap (text : Text) (hText : ¬IsReadable text) : IsRejected q (.shape (.wrap text))
  | orderDirection (direction : Text) (definitions : List Text)
      (hDirection : ∀ read, Query.direction (.str direction) ≠ .ok read) :
      IsRejected q (.shape (.order direction definitions))
  | order (direction : Text) {definitions : List Text} {text : Text}
      (hSome : q.aggregations.truthy = true) (hMem : text ∈ definitions)
      (hText : ¬IsReadable text) : IsRejected q (.shape (.order direction definitions))
  | execute (index : Json) (hPattern : Index.checkPattern index ≠ .ok ()) :
      IsRejected q (.execute index)
  | aggregate (index : Json) (hPattern : Index.checkPattern index ≠ .ok ()) :
      IsRejected q (.aggregate index)
  | aggregateNone (index : Json) (hNone : q.aggregations.truthy = false) :
      IsRejected q (.aggregate index)
  | group (index : Json) {levels : List Level} (direction : Text) {text : Text}
      (hMem : text ∈ levels.flatMap Level.texts) (hText : ¬IsReadable text) :
      IsRejected q (.shape (.groupBy index levels direction))
  | groupPattern {index : Json} (levels : List Level) (direction : Text)
      (hPattern : Index.checkPattern index ≠ .ok ()) :
      IsRejected q (.shape (.groupBy index levels direction))
  | groupNone {index : Json} {levels : List Level} {direction : Text} {changed : Query}
      (hAdded : Attempt.added? q (.shape (.groupBy index levels direction)) = some changed)
      (hNone : changed.aggregations.truthy = false) :
      IsRejected q (.shape (.groupBy index levels direction))

variable {index : Json} {levels : List Level} {direction text : Text} {s : Session}

theorem exists_error_of_ne_ok {α : Type} {x : Except Failure α} (h : ∀ a, x ≠ .ok a) :
    ∃ failure, x = .error failure := by
  cases x with
  | error failure => exact ⟨failure, rfl⟩
  | ok a => exact absurd rfl (h a)

/-! ## What is left of a request -/

section Runs

variable (config : Config)

theorem run_add_of_not_isReadable (h : ¬IsReadable text) :
    ∃ failure, ((Shaping.add text).action config).run s = (.error failure, s) := by
  simp only [Shaping.action, run_current_bind, run_of_bind]
  cases hAdd : s.query.addAggregationText (.str text) with
  | error failure => exact ⟨failure, rfl⟩
  | ok changed =>
      obtain ⟨_, hSame, hAdd⟩ := bind_eq_ok_iff.mp hAdd
      cases hSame
      obtain ⟨tree, hExpand, -⟩ := bind_eq_ok_iff.mp hAdd
      exact absurd (isReadable_of_expand hExpand) h

theorem run_wrap_of_not_isReadable (h : ¬IsReadable text) :
    ∃ failure, ((Shaping.wrap text).action config).run s = (.error failure, s) := by
  simp only [Shaping.action, run_current_bind, run_of_bind]
  cases hWrap : s.query.wrapAggregations (.str text) with
  | error failure => exact ⟨failure, rfl⟩
  | ok changed =>
      obtain ⟨wrapped, hWrapped, -⟩ := bind_eq_ok_iff.mp hWrap
      exact absurd (isReadable_of_wrap hWrapped) h

theorem run_order_of_direction {definitions : List Text}
    (h : ∀ read, Query.direction (.str direction) ≠ .ok read) :
    ∃ failure, ((Shaping.order direction definitions).action config).run s = (.error failure, s) := by
  obtain ⟨failure, hDirection⟩ := exists_error_of_ne_ok h
  refine ⟨failure, ?_⟩
  simp only [Shaping.action, run_current_bind, run_edit_bind, Query.orderAggregations, hDirection]
  rfl

/-- All definitions are read before the first node is ordered. -/
theorem run_order_of_not_isReadable {definitions : List Text}
    (hSome : s.query.aggregations.truthy = true) (hMem : text ∈ definitions)
    (hText : ¬IsReadable text) :
    ∃ failure, ((Shaping.order direction definitions).action config).run s = (.error failure, s) := by
  cases hDirection : Query.direction (.str direction) with
  | error failure =>
      apply run_order_of_direction config
      rw [hDirection]
      intro read hRead
      cases hRead
  | ok read =>
      cases hRead : readDefinitions (Json.texts definitions) with
      | error failure =>
          refine ⟨failure, ?_⟩
          simp only [Shaping.action, run_current_bind, run_edit_bind, Query.orderAggregations,
            hDirection, hSome, orderBy, hRead, ↓reduceIte]
          rfl
      | ok ds => exact absurd (isReadable_of_readDefinitions hRead hMem) hText

theorem exists_run_discard {α : Type} {x : Action α} {t : Session}
    (h : ∃ failure, x.run s = (.error failure, t)) :
    ∃ failure, (discard x : Action Unit).run s = (.error failure, t) := by
  obtain ⟨failure, hRun⟩ := h
  refine ⟨failure, ?_⟩
  rw [Step.run_discard, hRun]
  rfl

theorem run_execute_of_pattern (h : Index.checkPattern index ≠ .ok ()) :
    ∃ failure, (execute config index).run s = (.error failure, s) := by
  obtain ⟨failure, hPattern⟩ := exists_error_of_ne_ok fun _ hOk => h hOk
  refine ⟨failure, ?_⟩
  rw [execute, run_of_bind, hPattern]

/-- An aggregation looks at the pattern and at the aggregations before it changes the request. -/
theorem run_aggregate_of_rejected
    (h : Index.checkPattern index ≠ .ok () ∨ s.query.aggregations.truthy = false) :
    ∃ failure, (aggregate config index).run s = (.error failure, s) := by
  cases hPattern : Index.checkPattern index with
  | error failure => exact ⟨failure, run_aggregate_of_pattern hPattern⟩
  | ok _ =>
      have hNone := h.resolve_left fun hNot => hNot hPattern
      exact ⟨.noAggregations, run_aggregate_of_none hPattern hNone⟩

/-- A grouping whose aggregation is rejected has added the tree of its levels. -/
theorem run_groupBy_of_rejected
    (h : ∀ changed, Attempt.added? s.query (.shape (.groupBy index levels direction)) =
      some changed →
        Index.checkPattern index ≠ .ok () ∨ changed.aggregations.truthy = false) :
    ∃ failure, ((Attempt.shape (.groupBy index levels direction)).action config).run s =
      (.error failure, { s with query :=
        (Attempt.added? s.query (.shape (.groupBy index levels direction))).getD s.query }) := by
  simp only [Attempt.action, Shaping.action, Step.run_discard, run_groupBy]
  simp only [Attempt.added?] at h ⊢
  cases hGrouped : s.query.grouped (.arr (levels.map Level.toJson))
      (.str (Text.lower direction)) with
  | error failure => exact ⟨failure, rfl⟩
  | ok changed =>
      rw [hGrouped] at h
      obtain ⟨failure, hRun⟩ := run_aggregate_of_rejected config
        (s := { s with query := changed }) (h changed rfl)
      refine ⟨failure, ?_⟩
      simp only [hRun]
      rfl

/-- No tree can be added where a text of the levels cannot be read. -/
theorem added?_of_not_isReadable (hMem : text ∈ levels.flatMap Level.texts)
    (hText : ¬IsReadable text) (q : Query) :
    Attempt.added? q (.shape (.groupBy index levels direction)) = none := by
  cases hGrouped : q.grouped (.arr (levels.map Level.toJson)) (.str (Text.lower direction)) with
  | error failure => rw [Attempt.added?, hGrouped]; rfl
  | ok changed =>
      obtain ⟨tree, hTree, -⟩ := bind_eq_ok_iff.mp hGrouped
      exact absurd (isReadable_of_groupBy hTree hMem) hText

/-- A rejected attempt fails without a call, and at most adds the tree of its levels. -/
theorem run_of_isRejected {a : Attempt} (h : IsRejected s.query a) :
    ∃ failure, (a.action config).run s =
      (.error failure, { s with query := (a.added? s.query).getD s.query }) := by
  cases h with
  | add text hText => exact run_add_of_not_isReadable config hText
  | wrap text hText => exact run_wrap_of_not_isReadable config hText
  | orderDirection direction definitions hDirection => exact run_order_of_direction config hDirection
  | order direction hSome hMem hText => exact run_order_of_not_isReadable config hSome hMem hText
  | execute index hPattern => exact exists_run_discard (run_execute_of_pattern config hPattern)
  | aggregate index hPattern =>
      exact exists_run_discard (run_aggregate_of_rejected config (.inl hPattern))
  | aggregateNone index hNone =>
      exact exists_run_discard (run_aggregate_of_rejected config (.inr hNone))
  | group index direction hMem hText =>
      apply run_groupBy_of_rejected config
      intro changed hAdded
      rw [added?_of_not_isReadable hMem hText] at hAdded
      cases hAdded
  | groupPattern levels direction hPattern =>
      exact run_groupBy_of_rejected config fun _ _ => .inl hPattern
  | groupNone hAdded hNone =>
      apply run_groupBy_of_rejected config
      intro changed hSame
      cases hAdded.symm.trans hSame
      exact .inr hNone

/-- A rejected attempt makes no call, and it leaves the request as it was exactly if it has not added
a tree of levels that changes it. -/
theorem rejected_keeps_iff {a : Attempt} (h : IsRejected s.query a) :
    ∃ failure t, (a.action config).run s = (.error failure, t) ∧ t.cluster = s.cluster ∧
      (t.query = s.query ↔ ∀ changed, a.added? s.query = some changed → changed = s.query) := by
  obtain ⟨failure, hRun⟩ := run_of_isRejected config h
  refine ⟨failure, _, hRun, rfl, ?_⟩
  cases a.added? s.query with
  | none => exact iff_of_true rfl fun _ h => nomatch h
  | some changed =>
      constructor
      · rintro hSame _ ⟨⟩
        exact hSame
      · intro hKept
        exact hKept changed rfl

end Runs

/-- Ordering in a direction that there is not. -/
def orderSideways : Attempt :=
  .shape (.order "sideways" ["max:bytes"])

theorem rejected_keeps_iff_sideways :
    IsRejected emptySession.query orderSideways ∧
      ∃ failure t, (orderSideways.action ⟨[], [], []⟩).run emptySession = (.error failure, t) ∧
        t.cluster = emptySession.cluster ∧ t.query = emptySession.query := by
  have hDirection : ∀ read, Query.direction (.str "sideways") ≠ .ok read := by
    intro read hRead
    cases hRead
  have hRejected : IsRejected emptySession.query orderSideways :=
    .orderDirection "sideways" ["max:bytes"] hDirection
  obtain ⟨failure, t, hRun, hCluster, hKept⟩ := rejected_keeps_iff ⟨[], [], []⟩ hRejected
  refine ⟨hRejected, failure, t, hRun, hCluster, hKept.mpr ?_⟩
  intro changed hAdded
  cases hAdded

/-- Grouping in an index that is hidden. -/
def groupHidden : Attempt :=
  .shape (.groupBy (.str "_all") [{ text := "src_ip" }] "desc")

/-- After a grouping that is rejected for its index the request asks for the aggregations, and for no
hits. -/
theorem rejected_adds_hidden :
    IsRejected emptySession.query groupHidden ∧
      ∃ t, (groupHidden.action ⟨[], [], []⟩).run emptySession = (.error .hiddenPattern, t) ∧
        t.query.aggregations.truthy = true ∧ t.query.size = .int 0 ∧
          t.query ≠ emptySession.query := by
  have hPattern : Index.checkPattern (.str "_all") ≠ .ok () := by
    intro hOk
    cases hOk
  refine ⟨.groupPattern _ _ hPattern, _, rfl, rfl, rfl, ?_⟩
  intro hSame
  have hAggregations := congrArg Query.aggregations hSame
  cases hAggregations

end Session

end LogQuery
