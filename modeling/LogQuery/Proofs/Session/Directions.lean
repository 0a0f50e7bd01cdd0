import LogQuery.Proofs.Aggregation.Clauses
import LogQuery.Proofs.Aggregation.Failures
import LogQuery.Proofs.Session.Rejection

/-! Directions of orders, and who looks at them. Ordering takes the two that there are, in any case,
and fails for every other one before it has changed the request. Grouping takes them all: where a
level orders, the direction gets into the request and to the cluster as it is. -/

namespace LogQuery

/-- One of the two directions, in any case. -/
def IsDirection (direction : Text) : Prop :=
  Text.lower direction = "asc" ∨ Text.lower direction = "desc"

theorem isDirection_iff {direction : Text} :
    IsDirection direction ↔ Json.str (Text.lower direction) = .str "asc" ∨
      Json.str (Text.lower direction) = .str "desc" := by
  rw [IsDirection, Json.str.injEq, Json.str.injEq]

/-- The failure says that a value, though of a suitable kind, is not valid. -/
def Failure.isInvalidValue : Failure → Bool
  | .wrongType | .noMember | .noOperation .. | .notImplemented | .overflow | .tooNested
  | .fieldTooLong | .unknownIndexType _ | .searchFailed _ | .scrollFailed _ | .aggregationFailed _
  | .mappingFailed _ => false
  | _ => true

/-- A failure of that kind. -/
abbrev InvalidValue : Type :=
  { failure : Failure // failure.isInvalidValue = true }

/-! ## The tree of a request -/

open Aggregation

/-- The members of an object; anything else has none. -/
def Json.heldMembers : Json → Members
  | .obj members => members
  | _ => []

theorem Json.heldMembers_orElse (value : Json) :
    (value.orElse (.obj [])).heldMembers = value.heldMembers := by
  unfold Json.orElse
  split
  · rfl
  · rename_i hNone
    cases value with
    | obj members =>
        cases members with
        | nil => rfl
        | cons n members => exact absurd rfl hNone
    | _ => rfl

theorem Json.eq_obj_of_heldMembers {value : Json} (h : value.heldMembers ≠ []) :
    value = .obj value.heldMembers := by
  cases value with
  | obj members => rfl
  | _ => exact absurd rfl h

namespace Query

/-- The tree of aggregations that the request holds, empty if there is none. -/
def tree (q : Query) : Members :=
  q.aggregations.heldMembers

variable {q changed : Query} {more : Members} {direction : Text} {definitions : List Text}

theorem tree_addAggregations (h : q.addAggregations more = .ok changed) :
    changed.tree = q.tree.update more := by
  rw [tree, tree, ← q.aggregations.heldMembers_orElse]
  unfold addAggregations at h
  split at h
  · cases h
  · split at h
    · rename_i held hHeld
      cases h
      rw [hHeld]
      rfl
    · split at h
      · rename_i hNone
        cases h
        rw [List.isEmpty_iff.mp hNone]
        rfl
      · cases h

theorem direction_of_isDirection (h : IsDirection direction) :
    Query.direction (.str direction) = .ok (Text.lower direction) := by
  have hLowered : (Text.lower direction == "asc" || Text.lower direction == "desc") = true := by
    simpa [IsDirection] using h
  simp only [Query.direction, Json.asText, bind, Except.bind, hLowered, if_true]
  rfl

theorem direction_of_not_isDirection (h : ¬IsDirection direction) :
    Query.direction (.str direction) = .error (.unknownDirection (Text.lower direction)) := by
  have hLowered : ¬(Text.lower direction == "asc" || Text.lower direction == "desc") = true := by
    simpa [IsDirection] using h
  simp only [Query.direction, Json.asText, bind, Except.bind, if_neg hLowered]

theorem heldMembers_orderBy_of_nil {held : Json} (hNone : held.heldMembers = []) (given : Json) :
    (orderBy held given (Json.texts definitions)).reached.heldMembers = [] := by
  unfold orderBy
  split
  · exact hNone
  · split
    · exact hNone
    · split
      · obtain rfl : _ = [] := hNone
        rfl
      · exact hNone

/-- Every clause that ordering puts into the tree of a request is directed. -/
theorem isDirected_of_orderAggregations {path : List Text} {key : Text} {order : Json}
    (h : HasClause (q.orderAggregations (.str direction) (Json.texts definitions)).reached.tree path
      key order)
    (hNew : ¬HasClause q.tree path key order) : IsDirected order := by
  unfold orderAggregations at h
  by_cases hDirection : IsDirection direction
  · rw [direction_of_isDirection hDirection] at h
    dsimp only at h
    split at h
    · by_cases hNone : q.tree = []
      · exact absurd (heldMembers_orderBy_of_nil hNone _) h.ne_nil
      · have hBefore : q.aggregations = .obj q.tree := Json.eq_obj_of_heldMembers hNone
        have hClause : HasClause (orderBy q.aggregations (.str (Text.lower direction))
            (Json.texts definitions)).reached.heldMembers path key order := h
        rw [hBefore] at hClause
        have hAfter := Json.eq_obj_of_heldMembers hClause.ne_nil
        exact isDirected_of_orderBy (isDirection_iff.mp hDirection) hAfter hClause hNew
    · exact absurd h hNew
  · rw [direction_of_not_isDirection hDirection] at h
    exact absurd h hNew

end Query

namespace Session

/-! ## Steps -/

variable {config : Config} {s : Session} {index : Json} {levels : List Level} {direction : Text}
  {definitions : List Text} {order : Json}

/-- An order that a step puts into a request: that of a clause that did not stand in its tree
before, or of one in the tree of levels that was added to it. -/
inductive Puts (config : Config) (s : Session) : Shaping → Json → Prop
  | stands {step : Shaping} {path : List Text} {key : Text} {order : Json}
      (hAfter : HasClause ((step.action config).run s).2.query.tree path key order)
      (hNew : ¬HasClause s.query.tree path key order) : Puts config s step order
  | grouped {index : Json} {levels : List Level} {direction : Text} {tree : Members}
      {changed : Query} {path : List Text} {key : Text} {order : Json}
      (hTree : Aggregation.groupBy (.arr (levels.map Level.toJson)) (.str (Text.lower direction)) =
        .ok (.obj tree))
      (hAdded : s.query.addAggregations tree = .ok changed)
      (hClause : HasClause tree path key order) :
      Puts config s (.groupBy index levels direction) order

/-- The step fails for an invalid value, without a call. -/
def IsRefused (config : Config) (s : Session) (step : Shaping) : Prop :=
  ∃ failure t, (step.action config).run s = (.error failure, t) ∧ failure.isInvalidValue = true ∧
    t.cluster = s.cluster

/-- The step is refused, or every order that it puts into the request is directed. -/
def ValidatesDirection (config : Config) (s : Session) (step : Shaping) : Prop :=
  IsRefused config s step ∨ ∀ order, Puts config s step order → IsDirected order

/-- Grouping adds a tree in which some level orders. -/
def AddsOrder (q : Query) (levels : List Level) (direction : Text) : Prop :=
  ∃ tiers changed, List.Forall₂ Level.Says levels tiers ∧ Orders tiers ∧
    q.addAggregations (treeOf (.str (Text.lower direction)) tiers) = .ok changed

/-- The index pattern is not valid. -/
def IsInvalidPattern (index : Json) : Prop :=
  ∃ failure, Index.checkPattern index = .error failure ∧ failure.isInvalidValue = true

/-! ## Ordering -/

theorem run_order_eq (config : Config) (direction : Text) (definitions : List Text) (s : Session) :
    ((Shaping.order direction definitions).action config).run s =
      ((s.query.orderAggregations (.str direction) (Json.texts definitions)).result.map fun _ => (),
        { s with query :=
          (s.query.orderAggregations (.str direction) (Json.texts definitions)).reached }) := by
  simp only [Shaping.action, run_current_bind, run_edit_bind]
  cases (s.query.orderAggregations (.str direction) (Json.texts definitions)).result <;> rfl

theorem validatesDirection_order (config : Config) (s : Session) (direction : Text)
    (definitions : List Text) : ValidatesDirection config s (.order direction definitions) := by
  right
  intro order hPuts
  cases hPuts with
  | stands hAfter hNew =>
      rw [run_order_eq] at hAfter
      exact Query.isDirected_of_orderAggregations hAfter hNew

theorem failure_orderAggregations_ne (h : IsDirection direction) (q : Query)
    (definitions : List Text) (given : Text) :
    (q.orderAggregations (.str direction) (Json.texts definitions)).failure ≠
      some (.unknownDirection given) := by
  unfold Query.orderAggregations
  rw [Query.direction_of_isDirection h]
  dsimp only
  split
  · exact failure_orderBy_ne given _ _ definitions
  · intro h
    cases h

/-- Ordering fails for its direction, and before it has changed the request, exactly if that is none
of the two. -/
theorem run_order_eq_error_iff :
    ((Shaping.order direction definitions).action config).run s =
        (.error (.unknownDirection (Text.lower direction)), s) ↔ ¬IsDirection direction := by
  rw [run_order_eq]
  constructor
  · intro h hDirection
    have hFailure := failure_orderAggregations_ne hDirection s.query definitions
      (Text.lower direction)
    have hResult := congrArg Prod.fst h
    dsimp only [Change.result] at hResult
    split at hResult
    · rename_i failure hSome
      cases hResult
      exact hFailure hSome
    · cases hResult
  · intro h
    simp only [Query.orderAggregations, Query.direction_of_not_isDirection h]
    rfl

/-! ## Grouping -/

theorem spares_asNumeral (value : Json) :
    Spares (Subtype.val : InvalidValue → Failure) value.asNumeral := by
  unfold Json.asNumeral
  rintro ⟨failure, hInvalid⟩ h
  split at h
  · cases h
  · cases h
    cases hInvalid

/-- Connecting fails for a timeout of an unsuitable kind, or one that is out of range. -/
theorem spares_checkConnection (config : Config) :
    Spares (Subtype.val : InvalidValue → Failure) (Cluster.checkConnection config) := by
  have hSeconds : Spares (Subtype.val : InvalidValue → Failure)
      (Cluster.seconds (config.cluster.getD "timeout_ms")) := by
    apply (spares_asNumeral _).bind
    intro n _
    split
    · dsimp only
      split
      · exact .ok _
      · rintro ⟨failure, hInvalid⟩ h
        cases h
        cases hInvalid
    · exact .ok _
  apply Spares.bind _ fun _ _ => .ok ()
  exact hSeconds.bind fun _ _ => .ok _

/-- An aggregation that has what it needs fails for an invalid value only if that is its pattern, or
after a call. -/
theorem isInvalidPattern_of_run_aggregate {failure : Failure} {t : Session}
    (hSome : s.query.aggregations.truthy = true)
    (hRun : (aggregate config index).run s = (.error failure, t))
    (hInvalid : failure.isInvalidValue = true) (hSilent : t.cluster = s.cluster) :
    IsInvalidPattern index := by
  cases hPattern : Index.checkPattern index with
  | error reason =>
      rw [run_aggregate_of_pattern hPattern] at hRun
      cases hRun
      exact ⟨failure, hPattern, hInvalid⟩
  | ok _ =>
      exfalso
      cases hConnection : Cluster.checkConnection config with
      | error reason =>
          rw [run_aggregate_of_connection hPattern hSome hConnection] at hRun
          cases hRun
          exact spares_checkConnection config ⟨failure, hInvalid⟩ hConnection
      | ok _ =>
          cases hArguments : s.query.withoutHits.searchArguments index with
          | error reason =>
              rw [run_aggregate_of_arguments hPattern hSome hConnection hArguments] at hRun
              cases hRun
              cases hInvalid
          | ok arguments =>
              have hAfter := run_aggregate hPattern hSome hConnection hArguments
              rw [hRun] at hAfter
              have hCalls := congrArg Cluster.State.calls
                ((congrArg Session.cluster hAfter).symm.trans hSilent)
              rw [Cluster.calls_send] at hCalls
              simp at hCalls

/-- Grouping puts into a request what the tree of its levels has. -/
theorem exists_of_puts_groupBy (h : Puts config s (.groupBy index levels direction) order) :
    ∃ tiers changed path key, List.Forall₂ Level.Says levels tiers ∧
      s.query.addAggregations (treeOf (.str (Text.lower direction)) tiers) = .ok changed ∧
        HasClause (treeOf (.str (Text.lower direction)) tiers) path key order := by
  cases h with
  | grouped hTree hAdded hClause =>
      obtain ⟨tiers, hSays, hSame⟩ := groupBy_eq_ok_iff.mp hTree
      cases hSame
      exact ⟨tiers, _, _, _, hSays, hAdded, hClause⟩
  | stands hAfter hNew =>
      obtain ⟨_, rfl, hSame | ⟨nodes, changed, hTree, hAdded, hKept⟩⟩ :=
        aggregations_groupBy_cases config index levels direction s
      · rw [Query.tree, hSame] at hAfter
        exact absurd hAfter hNew
      · obtain ⟨tiers, hSays, hNodes⟩ := groupBy_eq_ok_iff.mp hTree
        cases hNodes
        rw [Query.tree, hKept] at hAfter
        have hUpdated := Query.tree_addAggregations hAdded
        rw [Query.tree] at hUpdated
        rw [hUpdated] at hAfter
        rcases hasClause_update (nodup_treeOf _ tiers) hAfter with hClause | hBefore
        · exact ⟨tiers, changed, _, _, hSays, hAdded, hClause⟩
        · exact absurd hBefore hNew

section Grouping

variable {tiers : List Tier} {changed : Query}

theorem run_groupBy_of_added (config : Config) (index : Json)
    (hSays : List.Forall₂ Level.Says levels tiers)
    (hAdded : s.query.addAggregations (treeOf (.str (Text.lower direction)) tiers) = .ok changed) :
    ((Shaping.groupBy index levels direction).action config).run s =
      (((aggregate config index).run { s with query := changed }).1.map fun _ => (),
        ((aggregate config index).run { s with query := changed }).2) := by
  have hGrouped : s.query.grouped (.arr (levels.map Level.toJson)) (.str (Text.lower direction)) =
      .ok changed := by
    rw [Query.grouped, groupBy_eq_ok_iff.mpr ⟨tiers, hSays, rfl⟩]
    exact hAdded
  rw [Shaping.action, Step.run_discard, run_groupBy, hGrouped]

/-- Whatever a step puts into a request stands there afterwards. -/
theorem Puts.exists_hasClause {step : Shaping} (h : Puts config s step order) :
    ∃ path key, HasClause ((step.action config).run s).2.query.tree path key order := by
  cases h with
  | stands hAfter _ => exact ⟨_, _, hAfter⟩
  | @grouped index levels direction _ changed path key _ hTree hAdded hClause =>
      obtain ⟨tiers, hSays, hSame⟩ := groupBy_eq_ok_iff.mp hTree
      cases hSame
      obtain ⟨-, hKept, -⟩ := run_aggregate_cases config index { s with query := changed }
      refine ⟨path, key, ?_⟩
      rw [run_groupBy_of_added config index hSays hAdded, Query.tree, hKept]
      show HasClause changed.tree path key order
      rw [Query.tree_addAggregations hAdded]
      exact hClause.of_update (nodup_treeOf _ tiers) s.query.tree

/-- Once the tree of its levels is added, a grouping is refused if its pattern is not valid. -/
theorem isRefused_groupBy_iff (hSays : List.Forall₂ Level.Says levels tiers)
    (hSome : treeOf (.str (Text.lower direction)) tiers ≠ [])
    (hAdded : s.query.addAggregations (treeOf (.str (Text.lower direction)) tiers) = .ok changed) :
    IsRefused config s (.groupBy index levels direction) ↔ IsInvalidPattern index := by
  unfold IsRefused
  rw [run_groupBy_of_added config index hSays hAdded]
  constructor
  · rintro ⟨failure, t, hRun, hInvalid, hSilent⟩
    obtain ⟨hResult, hAfter⟩ := Prod.mk.inj hRun
    have hTree : changed.tree ≠ [] := by
      rw [Query.tree_addAggregations hAdded]
      exact Members.update_ne_nil_of_right hSome
    have hTruthy : changed.aggregations.truthy = true := by
      rw [Json.eq_obj_of_heldMembers hTree]
      simpa [Json.truthy, Query.tree] using hTree
    cases hAggregate : ((aggregate config index).run { s with query := changed }).1 with
    | ok summary =>
        rw [hAggregate] at hResult
        cases hResult
    | error reason =>
        rw [hAggregate] at hResult
        cases hResult
        have hFailed : (aggregate config index).run { s with query := changed } =
            (.error failure, t) := Prod.ext hAggregate hAfter
        exact isInvalidPattern_of_run_aggregate hTruthy hFailed hInvalid hSilent
  · rintro ⟨failure, hPattern, hInvalid⟩
    rw [run_aggregate_of_pattern hPattern]
    exact ⟨failure, _, rfl, hInvalid, rfl⟩

/-- Grouping does not look at the direction: what it puts into a request is directed if that is one
of the two. -/
theorem validatesDirection_groupBy_iff :
    ValidatesDirection config s (.groupBy index levels direction) ↔
      IsDirection direction ∨ IsInvalidPattern index ∨ ¬AddsOrder s.query levels direction := by
  constructor
  · intro h
    by_contra hNot
    obtain ⟨hDirection, hRest⟩ := not_or.mp hNot
    obtain ⟨hPattern, hAdds⟩ := not_or.mp hRest
    obtain ⟨tiers, changed, hSays, hOrders, hAdded⟩ := not_not.mp hAdds
    obtain ⟨path, key, tier, -, hTier, hClause⟩ :=
      exists_hasClause_treeOf (.str (Text.lower direction)) hOrders
    rcases h with hRefused | hAll
    · exact hPattern ((isRefused_groupBy_iff hSays hClause.ne_nil hAdded).mp hRefused)
    · have hDirected :=
        hAll _ (.grouped (groupBy_eq_ok_iff.mpr ⟨tiers, hSays, rfl⟩) hAdded hClause)
      exact hDirection (isDirection_iff.mpr ((isDirected_orderEntries_iff hTier.2).mp hDirected))
  · rintro (hDirection | hPattern | hNone)
    · right
      intro order hPuts
      obtain ⟨tiers, changed, path, key, hSays, -, hClause⟩ := exists_of_puts_groupBy hPuts
      apply (isDirected_treeOf_iff hSays).mpr _ path key order hClause
      exact .inl (isDirection_iff.mp hDirection)
    · by_cases hSome : ∃ order, Puts config s (.groupBy index levels direction) order
      · obtain ⟨order, hPuts⟩ := hSome
        obtain ⟨tiers, changed, path, key, hSays, hAdded, hClause⟩ := exists_of_puts_groupBy hPuts
        exact .inl ((isRefused_groupBy_iff hSays hClause.ne_nil hAdded).mpr hPattern)
      · exact .inr fun order hPuts => absurd ⟨order, hPuts⟩ hSome
    · right
      intro order hPuts
      obtain ⟨tiers, changed, path, key, hSays, hAdded, hClause⟩ := exists_of_puts_groupBy hPuts
      apply (isDirected_treeOf_iff hSays).mpr _ path key order hClause
      exact .inr fun hOrders => hNone ⟨tiers, changed, hSays, hOrders, hAdded⟩

/-- Whether levels can be grouped by is a matter of their texts. -/
theorem exists_groupBy_iff {direction : Json} :
    (∃ tree, Aggregation.groupBy (.arr (levels.map Level.toJson)) direction = .ok tree) ↔
      ∃ tiers, List.Forall₂ Level.Says levels tiers := by
  simp only [groupBy_eq_ok_iff]
  constructor
  · rintro ⟨_, tiers, hSays, -⟩
    exact ⟨tiers, hSays⟩
  · rintro ⟨tiers, hSays⟩
    exact ⟨_, tiers, hSays, rfl⟩

end Grouping

/-- Ordering looks at its direction: it fails for each one but the two, before it has changed the
request, and every order that it puts there is directed. Grouping takes each direction as it takes
any other one, so what it puts there is directed exactly if the direction is one of the two, unless
the pattern is not valid or no level orders. -/
theorem ordering_validates_iff (config : Config) (s : Session) (direction : Text)
    (definitions : List Text) (index : Json) (levels : List Level) :
    ValidatesDirection config s (.order direction definitions) ∧
      (((Shaping.order direction definitions).action config).run s =
        (.error (.unknownDirection (Text.lower direction)), s) ↔ ¬IsDirection direction) ∧
      (ValidatesDirection config s (.groupBy index levels direction) ↔
        IsDirection direction ∨ IsInvalidPattern index ∨ ¬AddsOrder s.query levels direction) ∧
      ∀ other : Text,
        (∃ tree, Aggregation.groupBy (.arr (levels.map Level.toJson))
          (.str (Text.lower direction)) = .ok tree) ↔
            ∃ tree, Aggregation.groupBy (.arr (levels.map Level.toJson))
              (.str (Text.lower other)) = .ok tree := by
  refine ⟨validatesDirection_order config s direction definitions, run_order_eq_error_iff,
    validatesDirection_groupBy_iff, ?_⟩
  intro other
  rw [exists_groupBy_iff, exists_groupBy_iff]

/-- Sources by the average of their traffic. -/
def byAverage : Level :=
  { text := "src_ip", orderedBy? := some ["avg:bytes"] }

/-- Grouping in a direction that there is not. -/
def groupSideways : Shaping :=
  .groupBy (.str "logs") [byAverage] "sideways"

/-- What its level says. -/
def sourcesByAverage : Tier :=
  ⟨[⟨"src_ip", .terms, "src_ip", [("size", .int 20)]⟩], [⟨"avg.bytes", .avg, "bytes", []⟩]⟩

/-- The grouping is neither refused nor changed: its direction gets to the cluster. -/
theorem groupBy_sends_sideways :
    ¬IsDirection "sideways" ∧ ¬ValidatesDirection pagedConfig emptySession groupSideways ∧
      ∃ call tree, ((groupSideways.action pagedConfig).run emptySession).2.cluster.calls = [call] ∧
        call.inBody? treeKey = some (.obj tree) ∧
          HasClause tree ["src_ip"] "terms" (sourcesByAverage.writtenOrder (.str "sideways")) := by
  have hDirection : ¬IsDirection "sideways" := by
    unfold IsDirection
    decide
  refine ⟨hDirection, ?_, ?_⟩
  · intro h
    rcases validatesDirection_groupBy_iff.mp h with hSides | ⟨failure, hPattern, -⟩ | hNone
    · exact hDirection hSides
    · cases hPattern
    · have hOrders : sourcesByAverage.Orders :=
        ⟨⟨"src_ip", .terms, _, rfl, rfl⟩, List.cons_ne_nil _ _⟩
      have hSays : List.Forall₂ Level.Says [byAverage] [sourcesByAverage] := .cons ⟨rfl, rfl⟩ .nil
      exact hNone ⟨_, _, hSays, ⟨List.cons_ne_nil _ _, .inl hOrders⟩, rfl⟩
  · have hKey : ("terms" : Text) ≠ treeKey := by decide
    exact ⟨_, _, rfl, rfl, .top rfl hKey rfl rfl⟩

end Session

end LogQuery
