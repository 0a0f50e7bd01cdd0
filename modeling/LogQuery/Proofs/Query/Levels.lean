import LogQuery.Proofs.Query.Nested

/-! How many nested queries lie in one another in a rendered query. A condition of a token holds
none, and a nested query takes the place of all conditions, so that a request has no level, or one
more than the nested query of a token. -/

namespace LogQuery

namespace Clause

mutual

/-- How many nested queries lie in one another in a query. -/
def levels : Json → Nat
  | .obj members => levelsOfClauses members
  | _ => 0

def levelsOfClauses : List (Text × Json) → Nat
  | [] => 0
  | clause :: clauses => max (levelsOfClause clause) (levelsOfClauses clauses)

/-- A clause by its kind. Only nested clauses and bool clauses hold queries. -/
def levelsOfClause : Text × Json → Nat
  | (kind, .obj held) =>
    if kind = "nested" then levelsOfQuery held + 1
    else if kind = "bool" then levelsOfSections held
    else 0
  | _ => 0

/-- The query of a nested clause. -/
def levelsOfQuery : List (Text × Json) → Nat
  | [] => 0
  | (key, query) :: others => if key = "query" then levels query else levelsOfQuery others

/-- The sections of a bool clause. -/
def levelsOfSections : List (Text × Json) → Nat
  | [] => 0
  | (_, .arr conditions) :: others => max (levelsOfAll conditions) (levelsOfSections others)
  | (_, condition) :: others => max (levels condition) (levelsOfSections others)

def levelsOfAll : List Json → Nat
  | [] => 0
  | condition :: conditions => max (levels condition) (levelsOfAll conditions)

end

theorem levels_nested (path query : Json) : levels (nested path query) = levels query + 1 := by
  have hPath : ("path" : Text) ≠ "query" := by decide
  simp [nested, single, levels, levelsOfClauses, levelsOfClause, levelsOfQuery, hPath]

theorem levels_single {kind : Text} (h : IsMatcher kind) (value : Json) :
    levels (single kind value) = 0 := by
  cases value <;> simp [single, levels, levelsOfClauses, levelsOfClause, h.1, h.2]

theorem levelsOfAll_eq_zero {conditions : List Json} (h : ∀ x ∈ conditions, levels x = 0) :
    levelsOfAll conditions = 0 := by
  induction conditions with
  | nil => rfl
  | cons x conditions ih =>
      rw [levelsOfAll, h x List.mem_cons_self, ih fun y hy => h y (List.mem_cons_of_mem x hy)]
      rfl

theorem levelsOfSections_append (members others : Members) :
    levelsOfSections (members ++ others) =
      max (levelsOfSections members) (levelsOfSections others) := by
  induction members with
  | nil => simp [levelsOfSections]
  | cons m members ih =>
      obtain ⟨key, value⟩ := m
      cases value <;> simp [levelsOfSections, ih, max_assoc]

/-- No nested query lies in any of some conditions. -/
def IsFlat (conditions : Json) : Prop :=
  ∀ x ∈ Query.asConditions conditions, levels x = 0

theorem isFlat_arr {conditions : List Json} (h : ∀ x ∈ conditions, levels x = 0) :
    IsFlat (.arr conditions) := h

theorem isFlat_null : IsFlat .null := by
  simp [IsFlat, Query.asConditions, levels]

theorem levelsOfSections_of_isFlat {conditions : Json} (h : IsFlat conditions) (key : Text) :
    levelsOfSections [(key, conditions)] = 0 := by
  cases conditions with
  | arr conditions =>
      have hAll : levelsOfAll conditions = 0 := levelsOfAll_eq_zero h
      simp [levelsOfSections, hAll]
  | _ => simp [levelsOfSections, h _ (List.mem_singleton_self _)]

theorem levelsOfSections_ifGiven {conditions : Json} (h : IsFlat conditions) (key : Text) :
    levelsOfSections (ifGiven key conditions) = 0 := by
  unfold ifGiven
  split
  · exact levelsOfSections_of_isFlat h key
  · rfl

/-- A bool clause has no levels if none of its sections holds a nested query. -/
theorem levels_clause {s : Sections} (hMust : IsFlat s.must) (hNot : IsFlat s.mustNot)
    (hShould : IsFlat s.should) (hFilter : IsFlat s.filter) (hLeast : IsFlat s.minimumShouldMatch) :
    levels s.clause = 0 := by
  have hKind : ("bool" : Text) ≠ "nested" := by decide
  have hPresent : levelsOfSections
      (Members.present [("minimum_should_match", s.minimumShouldMatch)]) = 0 := by
    cases hValue : s.minimumShouldMatch with
    | null => rfl
    | _ => exact levelsOfSections_of_isFlat (hValue ▸ hLeast) _
  simp [Sections.clause, single, levels, levelsOfClauses, levelsOfClause, hKind,
    levelsOfSections_append, levelsOfSections_ifGiven, hMust, hNot, hShould, hFilter, hPresent]

theorem IsLeaf.isFlat {c : Json} (h : IsLeaf c) : IsFlat c := by
  intro x hx
  cases h with
  | single hMatcher value =>
      cases List.mem_singleton.mp hx
      exact levels_single hMatcher value
  | anyOf hMatcher field patterns =>
      cases List.mem_singleton.mp hx
      refine levels_clause isFlat_null isFlat_null (isFlat_arr ?_) isFlat_null ?_
      · intro pattern hPattern
        obtain ⟨_, -, rfl⟩ := List.mem_map.mp hPattern
        exact levels_single hMatcher _
      · simp [IsFlat, Query.asConditions, levels]

end Clause

/-! ## Requests -/

/-- No nested query lies in the condition of a piece. -/
def Piece.IsFlat (p : Piece) : Prop :=
  ∀ c, p.condition? = some c → Clause.IsFlat c

theorem Piece.IsFlat.of_none {p : Piece} (h : p.condition? = none) : p.IsFlat := by
  intro c hc
  cases h.symm.trans hc

namespace Query

namespace Assembly

/-- What was taken in of some pieces: conditions in which no nested query lies, and a nested query
that is one of theirs. -/
structure Holds (a : Assembly) (pieces : List Piece) : Prop where
  conditions : ∀ x ∈ a.conditions, Clause.levels x = 0
  negated : ∀ x ∈ a.negated, Clause.levels x = 0
  nested : ∀ n, a.nested = some n → ∃ p ∈ pieces, p.nested? = some n

variable {a : Assembly} {pieces : List Piece}

theorem Holds.place (h : a.Holds pieces) {p : Piece} (hMem : p ∈ pieces) (hFlat : p.IsFlat) :
    (a.place p).Holds pieces := by
  unfold Assembly.place
  split
  · exact ⟨h.conditions, h.negated, h.nested⟩
  · split
    · rename_i hNested
      refine ⟨h.conditions, h.negated, fun n hn => ?_⟩
      cases hn
      exact ⟨p, hMem, hNested⟩
    · rename_i hCondition
      have hNone := hFlat _ hCondition
      split
      · refine ⟨h.conditions, fun x hx => ?_, h.nested⟩
        exact (List.mem_append.mp hx).elim (h.negated x) (hNone x)
      · refine ⟨fun x hx => ?_, h.negated, h.nested⟩
        exact (List.mem_append.mp hx).elim (h.conditions x) (hNone x)
    · exact h
    · exact ⟨h.conditions, h.negated, h.nested⟩

theorem Holds.foldl (h : a.Holds pieces) {taken : List Piece} (hTaken : ∀ p ∈ taken, p ∈ pieces)
    (hFlat : ∀ p ∈ taken, p.IsFlat) : (taken.foldl add a).Holds pieces := by
  induction taken generalizing a with
  | nil => exact h
  | cons p taken ih =>
      have hPlace := h.place (hTaken p List.mem_cons_self) (hFlat p List.mem_cons_self)
      have hAdd : (a.add p).Holds pieces := ⟨hPlace.conditions, hPlace.negated, hPlace.nested⟩
      exact ih hAdd (fun q hq => hTaken q (List.mem_cons_of_mem p hq))
        fun q hq => hFlat q (List.mem_cons_of_mem p hq)

theorem levels_of_textConditions {join : Join} {conditions : List Json}
    (h : a.textConditions join = .ok conditions) : ∀ x ∈ conditions, Clause.levels x = 0 := by
  obtain ⟨texts, -, h⟩ := bind_eq_ok_iff.mp h
  split at h
  · cases pure_eq_ok_iff.mp h
    nofun
  · obtain ⟨written, -, h⟩ := bind_eq_ok_iff.mp h
    cases pure_eq_ok_iff.mp h
    intro x hx
    cases List.mem_singleton.mp hx
    exact Clause.levels_single (by decide) _

theorem levels_clause_inContext {s : Token.Settings} {conditions : List Json}
    (hConditions : ∀ x ∈ conditions, Clause.levels x = 0)
    (hNegated : ∀ x ∈ a.negated, Clause.levels x = 0) {q : Query}
    (hq : a.inContext s conditions = q) :
    Clause.levels (Clause.Sections.clause
      ⟨q.must, q.mustNot, q.should, q.filter, q.minimumShouldMatch⟩) = 0 := by
  have hSections : ∀ sec, Clause.IsFlat (q.conditions sec) := by
    intro sec
    rw [← hq, conditions_inContext]
    split
    · exact Clause.isFlat_arr hConditions
    · split
      · exact Clause.isFlat_arr hNegated
      · exact Clause.isFlat_arr nofun
  have hLeast : Clause.IsFlat q.minimumShouldMatch := by
    rw [← hq, minimumShouldMatch_inContext]
    exact Clause.isFlat_null
  exact Clause.levels_clause (hSections .must) (hSections .mustNot) (hSections .should)
    (hSections .filter) hLeast

end Assembly

theorem stashed_of_ofPieces {s : Token.Settings} {pieces : List Piece} {q : Query}
    (h : ofPieces s pieces = .ok q) : q.stashed = .obj [] := by
  obtain ⟨texts, -, h⟩ := bind_eq_ok_iff.mp h
  rw [← pure_eq_ok_iff.mp h]
  exact Assembly.stashed_inContext

/-- A request has one level more than a nested query of its pieces, or none. -/
theorem levels_of_ofPieces {s : Token.Settings} {pieces : List Piece} {q : Query} {x : Json}
    (hFlat : ∀ p ∈ pieces, p.IsFlat) (h : ofPieces s pieces = .ok q) (hRender : q.render = .ok x) :
    Clause.levels x = 0 ∨
      ∃ p ∈ pieces, ∃ n, p.nested? = some n ∧ Clause.levels x = Clause.levels n.query + 1 := by
  have hStart : Assembly.Holds {} pieces := ⟨nofun, nofun, nofun⟩
  have hHolds := hStart.foldl (fun _ => id) hFlat
  rw [render_of_not_stashed (stashed_of_ofPieces h)] at hRender
  obtain ⟨texts, hTexts, h⟩ := bind_eq_ok_iff.mp h
  generalize pieces.foldl Assembly.add {} = a at hHolds hTexts h
  have hq := pure_eq_ok_iff.mp h
  cases hRender
  split
  · rename_i hNested
    right
    rw [← hq, Assembly.nested_inContext] at hNested ⊢
    cases hHeld : a.nested with
    | none => simp [hHeld, Json.truthy] at hNested
    | some n =>
        obtain ⟨p, hMem, hn⟩ := hHolds.nested n hHeld
        exact ⟨p, hMem, n, hn, Clause.levels_nested _ _⟩
  · left
    refine Assembly.levels_clause_inContext (fun x hx => ?_) hHolds.negated hq
    exact (List.mem_append.mp hx).elim (hHolds.conditions x)
      (Assembly.levels_of_textConditions hTexts x)

end Query

end LogQuery
