import LogQuery.Flow.Levels
import LogQuery.Proofs.Aggregation.TreeKeys
import LogQuery.Proofs.Flow.Window
import LogQuery.Proofs.Session.Grouping

/-! Levels can be expanded without grouping by them. The tree that is shown then is the one that the
cluster is asked for, unless it cannot be added to a request: it is no object, or it has a node under
the name that is reserved. -/

namespace LogQuery

open Aggregation Cluster

/-! ## Levels as documents -/

namespace Flow

variable {given level levels : Json}

theorem inList_hasDistinctKeys (h : given.HasDistinctKeys) : (inList given).HasDistinctKeys := by
  unfold inList
  split
  · exact .arr fun item hItem => List.mem_singleton.mp hItem ▸ h
  · exact h

theorem hasDistinctKeys_of_levelOf (h : given.HasDistinctKeys) (hLevel : levelOf given = .ok level) :
    level.HasDistinctKeys := by
  have hNull : Json.null.HasDistinctKeys := .scalar rfl
  have hEmpty : (Json.arr []).HasDistinctKeys := .arr fun _ hMem => nomatch hMem
  obtain ⟨text, hText, hLevel⟩ := bind_eq_ok_iff.mp hLevel
  have hTextKeys := h.of_memberOr hNull hText
  split at hLevel
  · obtain ⟨definitions, hBy, hLevel⟩ := bind_eq_ok_iff.mp hLevel
    have hList := inList_hasDistinctKeys ((h.of_memberOr hNull hBy).orElse hEmpty)
    dsimp only at hLevel
    split at hLevel
    · obtain ⟨parts, hParts, hLevel⟩ := bind_eq_ok_iff.mp hLevel
      cases hLevel
      have hDefinitions : (Json.arr parts).HasDistinctKeys :=
        .arr fun _ hMem => hList.of_parts hParts _ hMem
      exact .arr (List.forall_mem_cons.mpr ⟨hTextKeys, by simpa using hDefinitions⟩)
    · cases hLevel
      exact hTextKeys
  · cases hLevel

theorem hasDistinctKeys_of_levelsOf (h : given.HasDistinctKeys)
    (hLevels : levelsOf given = .ok levels) : levels.HasDistinctKeys := by
  simp only [levelsOf, bind_eq_ok_iff, pure_eq_ok_iff] at hLevels
  obtain ⟨parts, hParts, read, hRead, rfl⟩ := hLevels
  apply Json.HasDistinctKeys.arr
  intro level hLevel
  obtain ⟨part, hPart, hOf⟩ := exists_of_mem_mapM hRead hLevel
  exact hasDistinctKeys_of_levelOf (h.of_parts hParts part hPart) hOf

end Flow

namespace Query

/-- The tree can be added to a request: no node in it has the name that is reserved. -/
def IsAddable (tree : Json) : Prop :=
  ∃ nodes : Members, tree = .obj nodes ∧ nodes.has reservedName = false

section Grouped

variable {q : Query} {levels direction tree : Json}

theorem grouped_of_error {failure : Failure}
    (h : groupBy levels direction = .error failure) :
    q.grouped levels direction = .error failure := by
  rw [grouped, h]
  rfl

theorem grouped_of_not_isAddable (h : groupBy levels direction = .ok tree)
    (hTree : ¬IsAddable tree) : q.grouped levels direction = .error .wrongType := by
  rw [grouped, h]
  cases tree with
  | obj nodes =>
      apply addAggregations_of_has
      by_contra hNames
      exact hTree ⟨nodes, rfl, by simpa using hNames⟩
  | _ => rfl

theorem grouped_of_isAddable {nodes : Members} (hNone : q.aggregations = .null)
    (hLevels : levels.HasDistinctKeys) (h : groupBy levels direction = .ok (.obj nodes))
    (hTree : IsAddable (.obj nodes)) :
    q.grouped levels direction = .ok (q.withAggregations (.obj nodes)) := by
  obtain ⟨_, hSame, hNames⟩ := hTree
  cases hSame
  rw [grouped, h]
  exact addAggregations_of_none hNone hNames (nodup_of_groupBy hLevels h)

end Grouped

theorem aggregations_of_compileValues {folder : Folder} {settings : Token.Settings}
    {tokens : List Json} {q : Query} (h : (compileValues folder settings tokens).result = .ok q) :
    q.aggregations = .null := by
  simp only [compileValues, Outcome.result_bind_eq_ok_iff, Outcome.result_of, ofPieces,
    Assembly.finish, bind_eq_ok_iff, pure_eq_ok_iff] at h
  obtain ⟨_, _, _, _, rfl⟩ := h
  unfold Assembly.inContext
  cases settings.context <;> rfl

end Query

namespace Flow

variable {around : Surroundings} {source : Source} {selection : Selection} {s t : State}

/-! ## Grouping what is ready -/

theorem aggregations_of_build {q : Query} (h : (build around source).run s = (.ok q, t)) :
    q.aggregations = .null := by
  simp only [build, Step.run_bind_eq_ok_iff] at h
  obtain ⟨known, u, -, h⟩ := h
  split at h
  · simp only [Step.run_bind_eq_ok_iff, run_ofOutcome_eq_ok_iff] at h
    obtain ⟨_, _, _, _, _, _, hCompiled, -⟩ := h
    exact Query.aggregations_of_compileValues hCompiled
  · obtain ⟨rfl, -⟩ := Step.run_pure_eq_ok_iff.mp h
    rfl

/-- Nothing stands in the way of a selection that ends now: its type is known, the pattern can be
searched, the tokens can be compiled, and there is a connection to the cluster. -/
structure IsReady (around : Surroundings) (selection : Selection) (s : State) : Prop where
  source : ∃ index q t,
    Index.find around.environment selection.type selection.pattern = .ok index ∧
      Index.checkPattern index.pattern = .ok () ∧
        (build around (selection.sourceIn index)).run s = (.ok q, t)
  start : selection.start = .null
  minutes : ∃ n, selection.minutes = .int n
  now : around.now.inRange = true
  week : Time.Window.maxMinutes * Time.microsPerMinute ≤ around.now.micros
  connection : checkConnection around.config = .ok ()

/-- A request that is ready to be grouped has no aggregations yet, and can be rendered. -/
structure IsGroupable (prepared : Prepared) : Prop where
  pattern : Index.checkPattern prepared.index.pattern = .ok ()
  none : prepared.query.aggregations = .null
  render : ∃ x, prepared.query.render = .ok x

theorem IsReady.exists_prepare (h : IsReady around selection s) :
    ∃ prepared t, (prepare around selection).run s = (.ok prepared, t) ∧ IsGroupable prepared := by
  obtain ⟨index, q, t, hIndex, hPattern, hBuild⟩ := h.source
  obtain ⟨n, hMinutes⟩ := h.minutes
  obtain ⟨window, hWindow⟩ := Time.Window.exists_resolve n h.now h.week
  rw [← hMinutes, ← h.start] at hWindow
  obtain ⟨⟨hStashed, ⟨conditions, hFilter⟩, -⟩, -⟩ := build_nested hBuild
  have hKnown : ((Section.named? Section.filter.name).isSome &&
      !(window.condition index.timestamp).isNull) = true := rfl
  let restricted : Query :=
    { q with
      stashed := .obj [(Section.filter.name, window.condition index.timestamp)]
      scrollId := .null }
  have hStash : q.stash Section.filter.name (window.condition index.timestamp) =
      .ok restricted := by
    rw [Query.stash, if_pos hKnown, hStashed]
    rfl
  have hRender := Query.render_of_stashed_filter (q := restricted) rfl hFilter
  have hBuilt := aggregations_of_build hBuild
  have hNone : restricted.aggregations = .null := hBuilt
  refine ⟨⟨index, window, restricted⟩, t, ?_, hPattern, hNone, _, hRender⟩
  simp only [prepare, Step.run_bind_eq_ok_iff, Step.run_of_eq_ok_iff, Step.run_pure_eq_ok_iff]
  exact ⟨index, s, ⟨hIndex, rfl⟩, q, t, hBuild, window, t, ⟨hWindow, rfl⟩, _, t, ⟨hStash, rfl⟩,
    rfl, rfl⟩

theorem run_inSession {α : Type} (q : Query) (x : Session.Action α) {v : Session}
    {result : Except Failure α} (h : x.run ⟨q, s.cluster⟩ = (result, v)) :
    (inSession q x).run s = (result.map (·, v.query), { s with cluster := v.cluster }) := by
  rw [Step.run, inSession, h]
  cases result <;> rfl

/-- What a grouping of a prepared request does to the cluster, and how it fails, is what running its
session does. -/
theorem exists_run_groupLogs {prepared : Prepared} {u : State} (levels direction : Json)
    (h : (prepare around selection).run s = (.ok prepared, u)) :
    ∃ result v, (Session.groupBy around.config prepared.index.pattern levels direction).run
        ⟨prepared.query, u.cluster⟩ = (result, v) ∧
      ((groupLogs around selection levels direction).run s).2.cluster = v.cluster ∧
        ∀ failure, result = .error failure →
          ((groupLogs around selection levels direction).run s).1 = .error failure := by
  rcases hRun : (Session.groupBy around.config prepared.index.pattern levels direction).run
    ⟨prepared.query, u.cluster⟩ with ⟨result, v⟩
  refine ⟨result, v, rfl, ?_⟩
  rw [groupLogs, Step.run_bind_of_ok h, Step.run_bind, run_inSession _ _ hRun]
  cases result with
  | error failure =>
      constructor
      · rfl
      · intro other hSame
        cases hSame
        rfl
  | ok summary =>
      constructor
      · dsimp only [Except.map]
        rw [Step.run_bind]
        cases v.query.display <;> rfl
      · intro failure hSame
        cases hSame

/-- After a run there was one search, which asks for a tree. -/
def SendsTree (before : State) (run : Except Failure GroupReport × State) (tree : Json) : Prop :=
  ∃ call, EndsInSearch before.cluster run.2.cluster call ∧ call.inBody? treeKey = some tree

/-- A run failed and did not search. -/
def FailsUnsent (before : State) (run : Except Failure GroupReport × State)
    (failure : Failure) : Prop :=
  run.1 = .error failure ∧ OnlyMappings before.cluster run.2.cluster

section Prepared

variable {prepared : Prepared} {u : State} {levels : Json} {direction : Text}

theorem failsUnsent_of_grouped {failure : Failure}
    (hPrepare : (prepare around selection).run s = (.ok prepared, u))
    (hGrouped : prepared.query.grouped levels (.str (Text.lower direction)) = .error failure) :
    FailsUnsent s ((groupLogs around selection levels (.str direction)).run s) failure := by
  obtain ⟨-, hMappings, -⟩ := prepare_restricts hPrepare
  obtain ⟨result, v, hRun, hCluster, hFails⟩ :=
    exists_run_groupLogs levels (.str direction) hPrepare
  rw [Session.run_groupBy, hGrouped] at hRun
  cases hRun
  refine ⟨hFails failure rfl, ?_⟩
  rw [hCluster]
  exact hMappings

/-- A tree that can be added to the request is the tree that the cluster is asked for. -/
theorem sendsTree_of_grouped {nodes : Members} (hGroupable : IsGroupable prepared)
    (hConnection : checkConnection around.config = .ok ())
    (hPrepare : (prepare around selection).run s = (.ok prepared, u))
    (hGrouped : prepared.query.grouped levels (.str (Text.lower direction)) =
      .ok (prepared.query.withAggregations (.obj nodes))) (hSome : nodes ≠ []) :
    SendsTree s ((groupLogs around selection levels (.str direction)).run s) (.obj nodes) := by
  obtain ⟨-, hMappings, -⟩ := prepare_restricts hPrepare
  obtain ⟨result, v, hRun, hCluster, -⟩ := exists_run_groupLogs levels (.str direction) hPrepare
  obtain ⟨x, hRender⟩ := hGroupable.render
  let q := prepared.query.withAggregations (.obj nodes)
  have hTruthy : q.aggregations.truthy = true := by
    show (!nodes.isEmpty) = true
    simpa using hSome
  have hArguments : q.withoutHits.searchArguments prepared.index.pattern =
      .ok (q.withoutHits.argumentsAround x prepared.index.pattern) :=
    Query.searchArguments_eq_ok_iff.mpr ⟨x, hRender, rfl⟩
  have hSent := Session.run_aggregate (s := ⟨q, u.cluster⟩) hGroupable.pattern hTruthy hConnection
    hArguments
  rw [Session.run_groupBy, hGrouped] at hRun
  rw [show (Session.aggregate around.config prepared.index.pattern).run ⟨q, u.cluster⟩ =
    (result, v) from hRun] at hSent
  refine ⟨⟨.search, q.withoutHits.argumentsAround x prepared.index.pattern⟩, ?_, ?_⟩
  · rw [hCluster, show v = _ from hSent]
    exact (endsInSearch_send _ u.cluster).after_mappings hMappings
  · exact Query.get?_bodyAround (by decide) rfl rfl x

end Prepared

/-! ## Grouping by what was shown -/

/-- Group logs by levels that are given as objects. -/
def groupLogsBy (around : Surroundings) (selection : Selection) (given ascending : Json) :
    Action GroupReport := do
  let levels ← Step.of (levelsOf given)
  groupLogs around selection levels (direction ascending)

/-- What is shown of some levels is what grouping by them asks the cluster for, or both fail alike.
-/
def IsPreviewed (around : Surroundings) (selection : Selection) (given ascending : Json)
    (s : State) : Prop :=
  match expandLevels given ascending with
  | .ok tree => SendsTree s ((groupLogsBy around selection given ascending).run s) tree
  | .error failure => FailsUnsent s ((groupLogsBy around selection given ascending).run s) failure

theorem exists_direction (ascending : Json) :
    ∃ text : Text, direction ascending = .str text ∧ Text.lower text = text := by
  unfold direction
  cases ascending.truthy with
  | true => exact ⟨"asc", rfl, by decide⟩
  | false => exact ⟨"desc", rfl, by decide⟩

/-- How grouping goes for each way that expanding goes. -/
theorem run_groupLogsBy_cases {given : Json} (ascending : Json)
    (hReady : IsReady around selection s) (hGiven : given.HasDistinctKeys) :
    (∃ failure, expandLevels given ascending = .error failure ∧
      FailsUnsent s ((groupLogsBy around selection given ascending).run s) failure) ∨
    (∃ tree, expandLevels given ascending = .ok tree ∧ ¬Query.IsAddable tree ∧
      FailsUnsent s ((groupLogsBy around selection given ascending).run s) .wrongType) ∨
    ∃ nodes, expandLevels given ascending = .ok (.obj nodes) ∧ Query.IsAddable (.obj nodes) ∧
      (nodes ≠ [] →
        SendsTree s ((groupLogsBy around selection given ascending).run s) (.obj nodes)) := by
  obtain ⟨text, hDirection, hLower⟩ := exists_direction ascending
  obtain ⟨prepared, u, hPrepare, hGroupable⟩ := hReady.exists_prepare
  cases hLevels : levelsOf given with
  | error failure =>
      have hExpand : expandLevels given ascending = .error failure := by
        rw [expandLevels, hLevels]
        rfl
      have hRun : (groupLogsBy around selection given ascending).run s = (.error failure, s) := by
        rw [groupLogsBy, hLevels]
        rfl
      rw [hExpand, hRun]
      exact .inl ⟨failure, rfl, rfl, .refl s.cluster⟩
  | ok levels =>
      have hExpand : expandLevels given ascending = groupBy levels (.str text) := by
        rw [expandLevels, hLevels, hDirection]
        rfl
      have hRun : (groupLogsBy around selection given ascending).run s =
          (groupLogs around selection levels (.str text)).run s := by
        rw [groupLogsBy, hLevels, hDirection]
        rfl
      rw [hExpand, hRun]
      cases hTree : groupBy levels (.str text) with
      | error failure =>
          have hGrouped := Query.grouped_of_error (q := prepared.query) hTree
          rw [← hLower] at hGrouped
          exact .inl ⟨failure, rfl, failsUnsent_of_grouped hPrepare hGrouped⟩
      | ok tree =>
          by_cases hAddable : Query.IsAddable tree
          · obtain ⟨nodes, rfl, -⟩ := id hAddable
            have hGrouped := Query.grouped_of_isAddable hGroupable.none
              (hasDistinctKeys_of_levelsOf hGiven hLevels) hTree hAddable
            rw [← hLower] at hGrouped
            refine .inr (.inr ⟨nodes, rfl, hAddable, fun hSome => ?_⟩)
            exact sendsTree_of_grouped hGroupable hReady.connection hPrepare hGrouped hSome
          · have hGrouped := Query.grouped_of_not_isAddable (q := prepared.query) hTree hAddable
            rw [← hLower] at hGrouped
            exact .inr (.inl ⟨tree, rfl, hAddable, failsUnsent_of_grouped hPrepare hGrouped⟩)

/-- A tree of levels that is not empty is what the cluster is asked for exactly if it can be added
to a request. If it cannot, grouping fails where expanding does not, and nothing is searched. -/
theorem isPreviewed_iff {given ascending : Json} (hReady : IsReady around selection s)
    (hGiven : given.HasDistinctKeys) (hSome : expandLevels given ascending ≠ .ok (.obj [])) :
    (IsPreviewed around selection given ascending s ↔
      ∀ tree, expandLevels given ascending = .ok tree → Query.IsAddable tree) ∧
    ∀ tree, expandLevels given ascending = .ok tree → ¬Query.IsAddable tree →
      FailsUnsent s ((groupLogsBy around selection given ascending).run s) .wrongType := by
  unfold IsPreviewed
  obtain ⟨failure, hExpand, hFails⟩ | ⟨tree, hExpand, hTree, hFails⟩ |
    ⟨nodes, hExpand, hTree, hSends⟩ := run_groupLogsBy_cases ascending hReady hGiven
  · rw [hExpand]
    constructor
    · refine iff_of_true hFails fun tree hTree => ?_
      cases hTree
    · intro tree hTree
      cases hTree
  · rw [hExpand]
    constructor
    · refine iff_of_false ?_ fun h => hTree (h tree rfl)
      rintro ⟨call, hSearch, -⟩
      exact hFails.2.not_endsInSearch call hSearch
    · intro _ _ _
      exact hFails
  · rw [hExpand] at hSome ⊢
    have hNodes : nodes ≠ [] := by
      rintro rfl
      exact hSome rfl
    constructor
    · refine iff_of_true (hSends hNodes) fun other hOther => ?_
      cases hOther
      exact hTree
    · intro other hOther hNot
      cases hOther
      exact absurd hTree hNot

/-- All logs of the last hour. -/
def allLogs : Selection where
  tokens := .arr []

theorem isReady_allLogs (s : State) : IsReady .plain allLogs s where
  source := ⟨Index.logstash, _, s, rfl, rfl, rfl⟩
  start := rfl
  minutes := ⟨60, rfl⟩
  now := by decide
  week := by decide
  connection := rfl

/-- One level, given as an object. -/
def levelOn (text : Text) : Json :=
  .arr [.obj [("agg", .str text)]]

theorem hasDistinctKeys_levelOn (text : Text) : (levelOn text).HasDistinctKeys := by
  have hKeys : (([("agg", .str text)] : Members).map (·.1)).Nodup := List.nodup_singleton _
  have hLevel : (Json.obj [("agg", .str text)]).HasDistinctKeys := by
    refine .obj hKeys fun m hm => ?_
    obtain rfl := List.mem_singleton.mp hm
    exact .scalar rfl
  exact .arr fun level hMem => List.mem_singleton.mp hMem ▸ hLevel

/-- The tree of the ten sources with the most documents. -/
def tenSources : Members :=
  [("src_ip", .obj [("terms", .obj [("field", .str "src_ip"), ("size", .int 10)])])]

theorem isPreviewed_sources :
    IsReady .plain allLogs .fresh ∧ (levelOn "src_ip:10").HasDistinctKeys ∧
      expandLevels (levelOn "src_ip:10") (.bool false) = .ok (.obj tenSources) ∧
      IsPreviewed .plain allLogs (levelOn "src_ip:10") (.bool false) .fresh := by
  have hReady := isReady_allLogs .fresh
  have hKeys := hasDistinctKeys_levelOn "src_ip:10"
  have hExpand : expandLevels (levelOn "src_ip:10") (.bool false) = .ok (.obj tenSources) := rfl
  have hSome : expandLevels (levelOn "src_ip:10") (.bool false) ≠ .ok (.obj []) := by
    rw [hExpand]
    intro hSame
    cases hSame
  refine ⟨hReady, hKeys, hExpand, (isPreviewed_iff hReady hKeys hSome).1.mpr ?_⟩
  intro tree hTree
  cases hExpand.symm.trans hTree
  exact ⟨tenSources, rfl, by decide⟩

/-- A level on a field of the reserved name can be expanded, and grouping by it fails. -/
theorem not_isPreviewed_self :
    ¬IsPreviewed .plain allLogs (levelOn "self") (.bool false) .fresh := by
  rintro ⟨call, ⟨-, calls, hCalls, -⟩, -⟩
  have hNone : ((groupLogsBy .plain allLogs (levelOn "self") (.bool false)).run
      .fresh).2.cluster.calls = [] := rfl
  rw [hNone] at hCalls
  exact List.append_ne_nil_of_right_ne_nil _ (List.cons_ne_nil call []) hCalls.symm

end Flow

end LogQuery
