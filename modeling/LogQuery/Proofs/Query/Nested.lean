import LogQuery.Proofs.Query.Table

/-! Queries on nested documents. With stock recognizers alone, the request of some tokens holds such
a query exactly if one of the tokens compiles to one, and what it renders to then is that query and
nothing else. A condition held beside the filter is rendered otherwise. -/

namespace LogQuery.Query

open Token

variable {folder : Folder} {s : Settings} {token : Text}

/-! ## Rendering -/

theorem render_of_not_stashed {q : Query} (h : q.stashed = .obj []) :
    q.render = .ok (if q.nested.truthy then Clause.nested q.nestedPath q.nested
      else Clause.Sections.clause
        ⟨q.must, q.mustNot, q.should, q.filter, q.minimumShouldMatch⟩) := by
  have hFull : ∀ sec, q.fullConditions sec = .ok (q.conditions sec) := by
    intro sec
    simp [fullConditions, stashedAt, h, Members.getD, Members.get?_nil, bind, Except.bind, pure,
      Except.pure]
  by_cases hn : q.nested.truthy <;>
    simp [render, hn, hFull, conditions, bind, Except.bind, pure, Except.pure]

theorem render_of_stashed_filter {q : Query} {conditions : List Json} {condition : Members}
    (hStashed : q.stashed = .obj [(Section.filter.name, .obj condition)])
    (hFilter : q.filter = .arr conditions) :
    q.render = .ok (if q.nested.truthy then Clause.nested q.nestedPath q.nested
      else Clause.Sections.clause
        ⟨q.must, q.mustNot, q.should, .arr (conditions ++ [.obj condition]),
          q.minimumShouldMatch⟩) := by
  have hHeld : q.fullConditions .filter = .ok (.arr (conditions ++ [.obj condition])) := by
    simp [fullConditions, stashedAt, hStashed, Members.getD, Members.get?_cons, bind, Except.bind,
      Query.conditions, hFilter, pure, Except.pure]
  have hOthers : ∀ sec, sec ≠ .filter → q.fullConditions sec = .ok (q.conditions sec) := by
    intro sec hSec
    have hName : sec.name ≠ Section.filter.name := by cases sec <;> first | decide | contradiction
    simp [fullConditions, stashedAt, hStashed, Members.getD, Members.get?_cons, Members.get?_nil,
      hName, bind, Except.bind, pure, Except.pure]
  rw [render, hHeld, hOthers .must (by decide), hOthers .mustNot (by decide),
    hOthers .should (by decide)]
  by_cases hn : q.nested.truthy <;>
    simp [hn, Query.conditions, bind, Except.bind, pure, Except.pure]

/-- Whatever is rendered counts as given. -/
theorem truthy_of_render {q : Query} {x : Json} (h : q.render = .ok x) : x.truthy = true := by
  unfold render at h
  split at h
  · cases pure_eq_ok_iff.mp h
    rfl
  · simp only [bind_eq_ok_iff, pure_eq_ok_iff] at h
    obtain ⟨_, _, _, _, _, _, _, _, _, _, rfl⟩ := h
    rfl

theorem truthy_of_compileWithin {levels : Nat} {depth x : Json} {inner : List Text}
    (h : (compileWithin folder levels s depth inner).result = .ok x) : x.truthy = true := by
  cases levels with
  | zero =>
      simp only [compileWithin, Outcome.result_bind_eq_ok_iff] at h
      obtain ⟨_, _, hFail⟩ := h
      cases hFail
  | succ levels =>
      simp only [compileWithin, Outcome.result_bind_eq_ok_iff, Outcome.result_of] at h
      obtain ⟨_, _, _, _, hRender⟩ := h
      exact truthy_of_render hRender

/-! ## Tokens that compile to them -/

theorem exists_stockPiece (hExtras : s.extras = []) {ps : List Piece}
    (h : (pieces folder s token).result = .ok ps) :
    ∃ p, ps = [p] ∧ StockPiece (within folder s) token p := by
  simp only [pieces, piecesWith, Outcome.result_bind_eq_ok_iff, Outcome.result_of] at h
  obtain ⟨rs, hChain, h⟩ := h
  exact claimFirst_stock rfl (fun r hr => Settings.stock_of_mem_chain hExtras hChain hr) h

/-- The token compiles to a query on nested documents. -/
def IsNestedToken (folder : Folder) (s : Settings) (token : Text) : Prop :=
  ∃ p nested, (pieces folder s token).result = .ok [p] ∧ p.IsNested nested

theorem isNestedToken_iff {p : Piece} (h : (pieces folder s token).result = .ok [p]) :
    IsNestedToken folder s token ↔ ∃ nested, p.IsNested nested := by
  constructor
  · rintro ⟨q, nested, hq, hNested⟩
    cases h.symm.trans hq
    exact ⟨nested, hNested⟩
  · rintro ⟨nested, hNested⟩
    exact ⟨p, nested, h, hNested⟩

/-- A nested query of a piece counts as given, and the piece does not dangle. -/
def HoldsNested (p : Piece) : Prop :=
  ∀ nested, p.nested? = some nested → nested.query.truthy = true ∧ p.dangles = false

theorem holdsNested_of_stockPiece {p : Piece} (h : StockPiece (within folder s) token p) :
    HoldsNested p := by
  intro n hn
  cases h with
  | condition members h => rw [h.nested?] at hn; cases hn
  | nested nested h hNegates depth inner hQuery =>
      cases Option.some.inj (h.nested?.symm.trans hn)
      exact ⟨truthy_of_compileWithin hQuery, h.dangles⟩
  | word w h name hp =>
      obtain ⟨t, ht⟩ := Word.isText_of_piece? h
      subst hp
      rw [ht.nested?] at hn
      cases hn
  | text t h => rw [h.nested?] at hn; cases hn

theorem isNested_of_stockPiece {p : Piece} (h : StockPiece (within folder s) token p) :
    (∃ nested, p.IsNested nested) ↔ p.nested?.isSome = true := by
  constructor
  · rintro ⟨nested, h⟩
    rw [h.nested?]
    rfl
  · intro hSome
    rcases h.setsOne with ⟨t, h⟩ | ⟨members, h⟩ | ⟨nested, h⟩
    · simp [h.nested?] at hSome
    · simp [h.nested?] at hSome
    · exact ⟨nested, h⟩

theorem isNestedToken_iff_of_any (hExtras : s.extras = []) {b : Bool}
    (h : ((pieces folder s token).result.map fun ps =>
      ps.any (·.nested?.isSome)).toOption = some b) :
    IsNestedToken folder s token ↔ b = true := by
  obtain ⟨ps, hPieces, rfl⟩ := map_eq_ok_iff.mp (eq_ok_of_toOption h)
  obtain ⟨p, rfl, hStock⟩ := exists_stockPiece hExtras hPieces
  rw [isNestedToken_iff hPieces, isNested_of_stockPiece hStock]
  simp

/-- Of a token that may be no text, the pieces hold a nested query exactly if it is a text that
compiles to one. -/
theorem piecesOfValue_nested (hExtras : s.extras = []) {token : Json} {ps : List Piece}
    (h : (piecesOfValue folder s token).result = .ok ps) :
    (∀ p ∈ ps, HoldsNested p) ∧
      ((∃ p ∈ ps, p.nested?.isSome = true) ↔
        ∃ t, token = .str t ∧ IsNestedToken folder s t) := by
  unfold piecesOfValue at h
  split at h
  · rename_i t
    obtain ⟨p, rfl, hStock⟩ := exists_stockPiece hExtras h
    simp only [List.mem_singleton, forall_eq, exists_eq_left]
    refine ⟨holdsNested_of_stockPiece hStock, ?_⟩
    rw [← isNested_of_stockPiece hStock, ← isNestedToken_iff h]
    simp
  · rename_i token hText
    simp only [Outcome.result_bind_eq_ok_iff, Outcome.result_of, passThrough] at h
    obtain ⟨rs, _, h⟩ := h
    split at h
    · cases h
    · cases Except.ok.inj h
      simp only [List.mem_singleton, forall_eq, exists_eq_left]
      refine ⟨fun n hn => (by cases hn), ?_⟩
      constructor
      · intro hSome
        cases hSome
      · rintro ⟨t, rfl, _⟩
        exact absurd rfl (hText t)

/-! ## Requests that hold them -/

theorem Assembly.nested_add_of_none (a : Assembly) {p : Piece} (h : p.nested? = none) :
    (a.add p).nested = a.nested := by
  unfold add place
  rw [h]
  cases p.dangles with
  | true => rfl
  | false =>
      cases p.condition? with
      | some condition => cases a.negates <;> rfl
      | none => cases p.text <;> rfl

theorem Assembly.truthy_nested_foldl (a : Assembly) (ps : List Piece)
    (h : ∀ p ∈ ps, HoldsNested p) :
    ((ps.foldl add a).nested.map Scoped.query |>.getD Json.null).truthy =
      ((a.nested.map Scoped.query |>.getD Json.null).truthy || ps.any (·.nested?.isSome)) := by
  induction ps generalizing a with
  | nil => simp
  | cons p ps ih =>
      have hAdd : ((a.add p).nested.map Scoped.query |>.getD Json.null).truthy =
          ((a.nested.map Scoped.query |>.getD Json.null).truthy || p.nested?.isSome) := by
        cases hp : p.nested? with
        | none =>
            rw [a.nested_add_of_none hp]
            simp
        | some n =>
            obtain ⟨hQuery, hDangles⟩ := h p List.mem_cons_self n hp
            simp [add, place, hp, hDangles, hQuery]
      rw [List.foldl_cons, ih (a.add p) fun q hq => h q (List.mem_cons_of_mem p hq), hAdd,
        List.any_cons, Bool.or_assoc]

/-- A compiled request has no condition beside its sections, and it holds a nested query exactly if
one of its tokens compiles to one. -/
theorem compileValues_nested (hExtras : s.extras = []) {tokens : List Json} {q : Query}
    (h : (compileValues folder s tokens).result = .ok q) :
    q.stashed = .obj [] ∧ (∃ conditions, q.filter = .arr conditions) ∧
      (q.nested.truthy = true ↔ ∃ t, .str t ∈ tokens ∧ IsNestedToken folder s t) := by
  simp only [compileValues, Outcome.result_bind_eq_ok_iff, Outcome.result_collect_eq_ok_iff,
    Outcome.result_of, ofPieces, Assembly.finish, bind_eq_ok_iff, pure_eq_ok_iff] at h
  obtain ⟨results, hResults, texts, hTexts, rfl⟩ := h
  have hNested : (∀ p ∈ results.flatten, HoldsNested p) ∧
      ((∃ p ∈ results.flatten, p.nested?.isSome = true) ↔
        ∃ t, .str t ∈ tokens ∧ IsNestedToken folder s t) := by
    clear hTexts
    induction hResults with
    | nil => simp
    | @cons token ps tokens results hToken _ ih =>
        obtain ⟨hHolds, hIff⟩ := piecesOfValue_nested hExtras hToken
        constructor
        · intro p hp
          rw [List.flatten_cons, List.mem_append] at hp
          exact hp.elim (hHolds p) (ih.1 p)
        · simp only [List.flatten_cons, List.mem_append, or_and_right, exists_or, hIff, ih.2,
            List.mem_cons, eq_comm (a := token)]
  have hTruthy := Assembly.truthy_nested_foldl {} results.flatten hNested.1
  refine ⟨Assembly.stashed_inContext, ?_, ?_⟩
  · show ∃ conditions, Query.conditions _ .filter = .arr conditions
    rw [Assembly.conditions_inContext]
    split
    · exact ⟨_, rfl⟩
    · exact ⟨[], rfl⟩
  · rw [Assembly.nested_inContext, hTruthy, ← hNested.2, ← List.any_eq_true]
    rfl

end LogQuery.Query
