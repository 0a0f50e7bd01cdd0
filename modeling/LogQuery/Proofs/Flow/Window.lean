import LogQuery.Flow.Logs
import LogQuery.Proofs.Json.Members
import LogQuery.Proofs.Query.Nested
import LogQuery.Proofs.Session.Calls
import LogQuery.Proofs.Time.Window

/-! The window of time of a search or a grouping. It is put beside the filter of the request before
the request is run, and it reaches the cluster exactly if no token compiles to a query on nested
documents: such a query takes the place of the filter too. -/

namespace LogQuery

open Cluster

/-! ## Preparing a request -/

namespace Flow

variable {around : Surroundings} {source : Source} {selection : Selection} {s t : State}

/-- What the tokens of a source are compiled with. -/
def settingsOf (around : Surroundings) (source : Source) : Action Token.Settings := do
  let known ← fieldsMeta around source
  Step.of (settings around.config source.context source.join (.obj known)
    (fileOptions around.config) [] (.int 0) .null)

/-- Some token of a source compiles to a query on nested documents. -/
def HasNestedToken (around : Surroundings) (source : Source) (s : State) : Prop :=
  ∃ settings t tokens token, (settingsOf around source).run s = (.ok settings, t) ∧
    source.tokens.parts = .ok tokens ∧ .str token ∈ tokens ∧
      Query.IsNestedToken around.folder settings token

theorem run_ofOutcome_eq_ok_iff {α : Type} {x : Outcome α} {a : α} :
    (ofOutcome x).run s = (.ok a, t) ↔
      x.result = .ok a ∧ { s with warnings := s.warnings ++ x.warnings } = t := by
  simp [ofOutcome, Step.run]

theorem parts_of_not_truthy {value : Json} {parts : List Json} (hFalsy : ¬value.truthy = true)
    (h : value.parts = .ok parts) : parts = [] := by
  cases value with
  | arr items =>
      cases h
      simpa [Json.truthy] using hFalsy
  | str text =>
      cases h
      simpa [Json.truthy, Text.ofString] using hFalsy
  | obj members =>
      cases h
      simpa [Json.truthy] using hFalsy
  | _ => cases h

theorem onlyMappings_of_fieldsMeta {known : Members}
    (h : (fieldsMeta around source).run s = (.ok known, t)) :
    OnlyMappings s.cluster t.cluster := by
  simp only [fieldsMeta, Step.run_bind_eq_ok_iff, Step.run_of_eq_ok_iff] at h
  obtain ⟨_, _, ⟨_, rfl⟩, h⟩ := h
  split at h
  · simp only [Step.run_bind_eq_ok_iff, withCluster, Step.run_onPart_eq_ok_iff, liveFieldsMeta,
      indexMapping, Step.run_of_eq_ok_iff, Step.run_pure_eq_ok_iff] at h
    obtain ⟨_, _, ⟨_, ⟨_, _, ⟨_, _, ⟨_, rfl⟩, _, _, ⟨_, rfl⟩, hRequest⟩, _, rfl⟩, rfl⟩, _, rfl⟩ := h
    refine ⟨[_], calls_of_request hRequest, ?_⟩
    simp
  · obtain ⟨_, rfl⟩ := Step.run_pure_eq_ok_iff.mp h
    exact .refl _

/-- A built request has no condition beside its sections, and it holds a nested query exactly if a
token compiles to one. -/
theorem build_nested {q : Query} (h : (build around source).run s = (.ok q, t)) :
    (q.stashed = .obj [] ∧ (∃ conditions, q.filter = .arr conditions) ∧
      (q.nested.truthy = true ↔ HasNestedToken around source s)) ∧
      OnlyMappings s.cluster t.cluster := by
  simp only [build, Step.run_bind_eq_ok_iff] at h
  obtain ⟨known, u, hKnown, h⟩ := h
  have hMappings := onlyMappings_of_fieldsMeta hKnown
  split at h
  · simp only [Step.run_bind_eq_ok_iff, Step.run_of_eq_ok_iff, run_ofOutcome_eq_ok_iff] at h
    obtain ⟨used, _, ⟨hUsed, rfl⟩, tokens, _, ⟨hTokens, rfl⟩, hCompiled, rfl⟩ := h
    have hExtras : used.extras = [] := by
      simp only [settings, bind_eq_ok_iff, pure_eq_ok_iff] at hUsed
      obtain ⟨_, _, _, _, rfl⟩ := hUsed
      rfl
    obtain ⟨hStashed, hFilter, hNested⟩ := Query.compileValues_nested hExtras hCompiled
    have hSettings : (settingsOf around source).run s = (.ok used, u) := by
      rw [settingsOf, Step.run_bind_of_ok hKnown, hUsed]
      rfl
    refine ⟨⟨hStashed, hFilter, hNested.trans ⟨?_, ?_⟩⟩, hMappings⟩
    · rintro ⟨token, hMem, hToken⟩
      exact ⟨used, u, tokens, token, hSettings, hTokens, hMem, hToken⟩
    · rintro ⟨other, _, parts, token, hOther, hParts, hMem, hToken⟩
      cases hSettings.symm.trans hOther
      cases hTokens.symm.trans hParts
      exact ⟨token, hMem, hToken⟩
  · rename_i hFalsy
    obtain ⟨rfl, rfl⟩ := Step.run_pure_eq_ok_iff.mp h
    refine ⟨⟨rfl, ⟨[], rfl⟩, ?_⟩, hMappings⟩
    constructor
    · intro hTruthy
      cases hTruthy
    · rintro ⟨_, _, tokens, token, _, hParts, hMem, _⟩
      rw [parts_of_not_truthy hFalsy hParts] at hMem
      cases hMem

/-- The source of what a selection selects. -/
def Selection.sourceIn (selection : Selection) (index : Index.Entry) : Source where
  tokens := selection.tokens
  type := selection.type
  pattern := index.pattern
  live := selection.live

/-- The query lies in a window of time: it is a bool query whose filter holds that a field lies
between two times. -/
def IsWindowed (query : Json) (field start stop : Text) : Prop :=
  ∃ clauses conditions, query = Clause.single "bool" (.obj clauses) ∧
    Members.get? clauses "filter" = some (.arr conditions) ∧
    Clause.range field [("gte", .str start), ("lte", .str stop)] ∈ conditions

theorem get?_ifGiven {key other : Text} {value : Json} :
    Members.get? (Clause.ifGiven key value) other =
      if other = key ∧ value.truthy = true then some value else none := by
  unfold Clause.ifGiven
  by_cases hValue : value.truthy = true
  · simp [hValue, Members.get?_cons, Members.get?_nil]
  · simp [hValue, Members.get?_nil]

theorem isWindowed_clause (sections : Clause.Sections) {conditions : List Json}
    {field start stop : Text}
    (hFilter : sections.filter =
      .arr (conditions ++ [Clause.range field [("gte", .str start), ("lte", .str stop)]])) :
    IsWindowed sections.clause field start stop := by
  refine ⟨_, conditions ++ [_], rfl, ?_, List.mem_append_right _ List.mem_cons_self⟩
  have hMust : ("filter" : Text) ≠ "must" := by decide
  have hMustNot : ("filter" : Text) ≠ "must_not" := by decide
  have hShould : ("filter" : Text) ≠ "should" := by decide
  simp [Members.get?_append, get?_ifGiven, hMust, hMustNot, hShould, hFilter, Json.truthy]

theorem not_isWindowed_nested (path query : Json) (field start stop : Text) :
    ¬IsWindowed (Clause.nested path query) field start stop := by
  rintro ⟨clauses, conditions, hQuery, _⟩
  simp only [Clause.nested, Clause.single, Json.obj.injEq, List.cons.injEq, Prod.mk.injEq] at hQuery
  exact absurd hQuery.1.1 (by decide)

/-- The request holds the window beside its filter, and a nested query exactly if a token compiles
to one. -/
structure Restricts (prepared : Prepared) (hasNested : Prop) (start stop : Text) : Prop where
  stashed : prepared.query.stashed = .obj [(Section.filter.name,
    Clause.range prepared.index.timestamp [("gte", .str start), ("lte", .str stop)])]
  filter : ∃ conditions, prepared.query.filter = .arr conditions
  nested : prepared.query.nested.truthy = true ↔ hasNested

theorem prepare_restricts {prepared : Prepared}
    (h : (prepare around selection).run s = (.ok prepared, t)) :
    Index.find around.environment selection.type selection.pattern = .ok prepared.index ∧
      OnlyMappings s.cluster t.cluster ∧
      ∃ stop, prepared.window.stop = some stop ∧
        Restricts prepared (HasNestedToken around (selection.sourceIn prepared.index) s)
          prepared.window.start.text stop.text := by
  simp only [prepare, Step.run_bind_eq_ok_iff, Step.run_of_eq_ok_iff, Step.run_pure_eq_ok_iff] at h
  obtain ⟨index, _, ⟨hIndex, rfl⟩, q, u, hBuild, window, _, ⟨hWindow, rfl⟩, restricted, _,
    ⟨hStash, rfl⟩, rfl, rfl⟩ := h
  obtain ⟨⟨hStashed, hFilter, hNested⟩, hMappings⟩ := build_nested hBuild
  obtain ⟨stop, hStop⟩ := Time.Window.exists_stop_of_resolve hWindow
  have hKnown : (Section.named? Section.filter.name).isSome = true := by decide
  have hGiven : (window.condition index.timestamp).isNull = false := rfl
  simp only [Query.stash, hKnown, hGiven, Bool.not_false, Bool.and_self, ↓reduceIte,
    hStashed] at hStash
  cases hStash
  refine ⟨hIndex, hMappings, stop, hStop, ?_, hFilter, hNested⟩
  simp [Members.set, Time.Window.condition, Time.Window.bounds, hStop, Clause.range,
    Clause.onField, Clause.single]

/-! ## The query that reaches the cluster -/

/-- What is rendered of a restricted request lies in the window exactly if no token compiles to a
nested query. -/
theorem Restricts.isWindowed_iff {prepared : Prepared} {hasNested : Prop} {start stop : Text}
    {x : Json} (h : Restricts prepared hasNested start stop)
    (hRender : prepared.query.render = .ok x) :
    IsWindowed x prepared.index.timestamp start stop ↔ ¬hasNested := by
  obtain ⟨conditions, hFilter⟩ := h.filter
  have hRendered := Query.render_of_stashed_filter h.stashed hFilter
  rw [hRender] at hRendered
  cases hRendered
  rw [← h.nested]
  by_cases hTruthy : prepared.query.nested.truthy = true
  · rw [if_pos hTruthy]
    simpa [hTruthy] using not_isWindowed_nested _ _ _ _ _
  · rw [if_neg hTruthy]
    simpa [hTruthy] using isWindowed_clause _ rfl

/-- The two flows that are run in a window of time. -/
inductive Request where
  | search (size fields : Json)
  | group (levels direction : Json)

/-- The report of a flow. -/
def Request.report (around : Surroundings) (selection : Selection) : Request → Action Json
  | .search size fields => SearchReport.toJson <$> searchLogs around selection size fields
  | .group levels direction => GroupReport.toJson <$> groupLogs around selection levels direction

/-- The times between which a report says that it looked. -/
def IsPeriod (report : Json) (start stop : Text) : Prop :=
  report.member? "search_period" =
    .ok (some (.obj [("start", .str start), ("end", .str stop)]))

theorem isPeriod_report {prepared : Prepared} {stop : Time.Instant} (request : Json)
    (found : Members) (hStop : prepared.window.stop = some stop) :
    IsPeriod (report prepared request found) prepared.window.start.text stop.text := by
  have hKey : ("search_period" : Text) ≠ "index_pattern" := by decide
  simp [IsPeriod, report, Json.member?, Members.get?_cons, hKey, hStop]

theorem run_inSession_eq_ok_iff {α : Type} {q r : Query} {x : Session.Action α} {a : α} :
    (inSession q x).run s = (.ok (a, r), t) ↔
      ∃ u : Session, x.run ⟨q, s.cluster⟩ = (.ok a, u) ∧ u.query = r ∧
        { s with cluster := u.cluster } = t := by
  rcases hx : x.run ⟨q, s.cluster⟩ with ⟨result, u⟩
  simp only [Step.run] at hx
  cases result <;> simp [inSession, Step.run, hx, and_assoc]

/-- A report of a prepared request, and the one search behind it. -/
structure Reports (around : Surroundings) (selection : Selection) (s t : State) (report : Json)
    (prepared : Prepared) (stop : Text) (query : Json) : Prop where
  index : Index.find around.environment selection.type selection.pattern = .ok prepared.index
  period : IsPeriod report prepared.window.start.text stop
  restricts : Restricts prepared (HasNestedToken around (selection.sourceIn prepared.index) s)
    prepared.window.start.text stop
  render : prepared.query.render = .ok query
  searches : SearchesFor s.cluster t.cluster query

theorem reports_of_prepare {prepared : Prepared} {u : State} {query : Json}
    (h : (prepare around selection).run s = (.ok prepared, u))
    (hRender : prepared.query.render = .ok query)
    (hSearches : SearchesFor u.cluster t.cluster query) :
    ∃ stop, ∀ (request : Json) (found : Members),
      Reports around selection s t (report prepared request found) prepared stop query := by
  obtain ⟨hIndex, hMappings, stop, hStop, hRestricts⟩ := prepare_restricts h
  refine ⟨stop.text, fun request found => ?_⟩
  exact ⟨hIndex, isPeriod_report request found hStop, hRestricts, hRender,
    hSearches.after_mappings hMappings⟩

/-- Neither flow changes what is rendered of the request it prepared before it reaches the
cluster. -/
theorem exists_reports {request : Request} {report : Json}
    (h : (request.report around selection).run s = (.ok report, t)) :
    ∃ prepared stop query, Reports around selection s t report prepared stop query := by
  cases request with
  | search size fields =>
      simp only [Request.report, Step.run_map_eq_ok_iff, searchLogs, Step.run_bind_eq_ok_iff,
        Prod.exists, run_inSession_eq_ok_iff, Step.run_of_eq_ok_iff,
        Step.run_pure_eq_ok_iff] at h
      obtain ⟨_, ⟨prepared, u, hPrepare, page, q, _, ⟨v, hRun, _, rfl⟩, shown, _, ⟨_, rfl⟩, rfl,
        rfl⟩, rfl⟩ := h
      obtain ⟨query, hRender, hSearches⟩ := (Session.searchesOnce_of_execute hRun).searchesFor
      obtain ⟨stop, hReports⟩ :=
        reports_of_prepare (t := { u with cluster := v.cluster }) hPrepare hRender hSearches
      exact ⟨prepared, stop, query, hReports _ _⟩
  | group levels direction =>
      simp only [Request.report, Step.run_map_eq_ok_iff, groupLogs, Step.run_bind_eq_ok_iff,
        Prod.exists, run_inSession_eq_ok_iff, Step.run_of_eq_ok_iff,
        Step.run_pure_eq_ok_iff] at h
      obtain ⟨_, ⟨prepared, u, hPrepare, summary, q, _, ⟨v, hRun, _, rfl⟩, shown, _, ⟨_, rfl⟩, rfl,
        rfl⟩, rfl⟩ := h
      obtain ⟨query, hRender, hSearches⟩ := (Session.searchesOnce_of_groupBy hRun).1.searchesFor
      obtain ⟨stop, hReports⟩ :=
        reports_of_prepare (t := { u with cluster := v.cluster }) hPrepare hRender hSearches
      exact ⟨prepared, stop, query, hReports _ _⟩

/-- A flow that reports a period makes one search, whose query lies in that period exactly if no
token compiles to a query on nested documents. -/
theorem report_isWindowed_iff {request : Request} {report : Json}
    (h : (request.report around selection).run s = (.ok report, t)) :
    ∃ index start stop query,
      Index.find around.environment selection.type selection.pattern = .ok index ∧
        IsPeriod report start stop ∧ SearchesFor s.cluster t.cluster query ∧
          (IsWindowed query index.timestamp start stop ↔
            ¬HasNestedToken around (selection.sourceIn index) s) := by
  obtain ⟨prepared, stop, query, hReports⟩ := exists_reports h
  exact ⟨prepared.index, _, stop, query, hReports.index, hReports.period, hReports.searches,
    hReports.restricts.isWindowed_iff hReports.render⟩

/-! ## Searching the logs -/

/-- A cluster on this machine, and nothing else configured. -/
def Surroundings.plain : Surroundings where
  config :=
    { cluster := [("url", .str "http://localhost:9200"), ("timeout_ms", .float 30000)]
      query :=
        [("default_join", .str "AND"), ("context", .str "query"), ("size", .int 50),
          ("max_nesting", .int 4), ("file_expansion", .bool false)]
      logLevel := "INFO" }
  environment := []
  folder := .empty
  now := ⟨63840960000000000, some 0⟩

/-- Nothing was called, and every answer will be empty. -/
def State.fresh : State :=
  ⟨⟨fun _ => [], []⟩, []⟩

/-- What tokens are compiled with for the logs. -/
def logSettings : Token.Settings :=
  { Token.Settings.plain with
    fieldsMeta := .obj Index.logstash.fieldsMeta
    options := fileOptions Surroundings.plain.config }

/-- Some tokens, for an hour of a given day. -/
def logsOf (tokens : List Text) : Selection where
  tokens := Json.texts tokens
  start := .str "2024-01-15T00:00:00Z"

theorem settingsOf_logs (tokens : List Text) (s : State) :
    (settingsOf .plain ((logsOf tokens).sourceIn Index.logstash)).run s =
      (.ok logSettings, s) := by
  cbv

theorem hasNestedToken_logs (token : Text) (s : State) :
    HasNestedToken .plain ((logsOf [token]).sourceIn Index.logstash) s ↔
      Query.IsNestedToken .empty logSettings token := by
  constructor
  · rintro ⟨settings, t, tokens, other, hSettings, hTokens, hMem, hNested⟩
    cases (settingsOf_logs _ _).symm.trans hSettings
    cases hTokens
    obtain rfl : other = token := by simpa using hMem
    exact hNested
  · intro hNested
    exact ⟨logSettings, s, [.str token], token, settingsOf_logs _ _, rfl,
      List.mem_singleton_self _, hNested⟩

theorem find_logs (tokens : List Text) :
    Index.find Surroundings.plain.environment (logsOf tokens).type (logsOf tokens).pattern =
      .ok Index.logstash := rfl

theorem report_isWindowed_term :
    ∃ report t start stop query,
      ((Request.search .null .null).report .plain (logsOf ["=program:sshd"])).run .fresh =
        (.ok report, t) ∧
      IsPeriod report start stop ∧ SearchesFor State.fresh.cluster t.cluster query ∧
      IsWindowed query "@timestamp" start stop := by
  obtain ⟨report, t, hRun⟩ := Step.exists_run_eq_ok (show
    (((Request.search .null .null).report .plain (logsOf ["=program:sshd"])).run .fresh).1.toBool =
      true by decide +kernel)
  obtain ⟨index, start, stop, query, hIndex, hPeriod, hSearches, hIff⟩ :=
    report_isWindowed_iff hRun
  cases (find_logs _).symm.trans hIndex
  have hNested : ¬Query.IsNestedToken .empty logSettings "=program:sshd" := by
    rw [Query.isNestedToken_iff_of_any rfl (show _ = some false by decide +kernel)]
    exact Bool.false_ne_true
  rw [hasNestedToken_logs] at hIff
  exact ⟨report, t, start, stop, query, hRun, hPeriod, hSearches, hIff.mpr hNested⟩

/-- With a token for nested documents the search reports a period that it does not look at. -/
theorem report_not_isWindowed_comments :
    ∃ report t start stop query,
      ((Request.search .null .null).report .plain (logsOf ["comments:author:bob"])).run .fresh =
        (.ok report, t) ∧
      IsPeriod report start stop ∧ SearchesFor State.fresh.cluster t.cluster query ∧
      ¬IsWindowed query "@timestamp" start stop := by
  obtain ⟨report, t, hRun⟩ := Step.exists_run_eq_ok (show
    (((Request.search .null .null).report .plain (logsOf ["comments:author:bob"])).run
      .fresh).1.toBool = true by decide +kernel)
  obtain ⟨prepared, stop, query, hReports⟩ := exists_reports hRun
  have hIndex := hReports.index
  have hIff := hReports.restricts.isWindowed_iff hReports.render
  generalize prepared.index = index at hIndex hIff
  cases (find_logs _).symm.trans hIndex
  have hNested : Query.IsNestedToken .empty logSettings "comments:author:bob" := by
    rw [Query.isNestedToken_iff_of_any rfl (show _ = some true by decide +kernel)]
  rw [hasNestedToken_logs] at hIff
  exact ⟨report, t, _, stop, query, hRun, hReports.period, hReports.searches,
    fun h => hIff.mp h hNested⟩

end Flow

end LogQuery
