import LogQuery.Proofs.Json.Members
import LogQuery.Proofs.Result
import LogQuery.Proofs.Text.Sorted
import LogQuery.Query.Edit
import Mathlib.Data.List.DropRight

/-! Requests that are put together edit by edit. What a request renders to can be told from the
edits alone: from the last nested query, from the conditions given since every document was last
matched, and from the last replaceable condition of each section. -/

namespace LogQuery

theorem Section.named?_eq_some_iff {name : Text} {s : Section} :
    Section.named? name = some s ↔ name = s.name := by
  constructor
  · intro h
    have hName := List.find?_some h
    exact (beq_iff_eq.mp hName).symm
  · rintro rfl
    exact Section.named?_name s

theorem Section.name_injective : Function.Injective Section.name := by
  intro s t h
  cases s <;> cases t <;> first | rfl | exact absurd h (by decide)

namespace Query

/-! ## Edits -/

/-- A step by which a request is put together. -/
inductive Edit where
  | addConditions (sections : Members)
  | stash (name : Text) (condition : Json)
  | setMatchAll
  | setNested (path query : Json)
  | addAggregations (more : Members)
  | addAggregationText (text : Json)
  | wrapAggregations (outer : Json)
  | setScanScroll (lifetime : Json)
  | setScrollId (id : Json)
  | clearScrollId

/-- The request after an edit. An edit that fails changes nothing but what it reached. -/
def apply (q : Query) : Edit → Query
  | .addConditions sections => (q.addConditions sections).reached
  | .stash name condition => (q.stash name condition).toOption.getD q
  | .setMatchAll => q.setMatchAll
  | .setNested path query => q.setNested path query
  | .addAggregations more => (q.addAggregations more).toOption.getD q
  | .addAggregationText text => (q.addAggregationText text).toOption.getD q
  | .wrapAggregations outer => (q.wrapAggregations outer).toOption.getD q
  | .setScanScroll lifetime => q.setScanScroll lifetime
  | .setScrollId id => { q with scrollId := id }
  | .clearScrollId => { q with scrollId := .null }

/-- Nothing was asked for yet. -/
structure IsFresh (q : Query) : Prop where
  conditions : ∀ s, q.conditions s = .arr []
  nested : q.nested = .null
  stashed : q.stashed = .obj []

/-! ## The history of edits -/

/-- The conditions that stand under the name of a section. -/
def givenBy (s : Section) (sections : Members) : List Json :=
  (sections.filter fun m => m.1 == s.name).flatMap fun m => asConditions m.2

namespace Edit

def isMatchAll : Edit → Bool
  | .setMatchAll => true
  | _ => false

/-- The conditions that the edit gives a section. -/
def conditionsFor (s : Section) : Edit → List Json
  | .addConditions sections =>
    if sections.has reservedName then [] else givenBy s sections
  | _ => []

/-- The replaceable condition that the edit gives a section. -/
def stashes? (s : Section) : Edit → Option Json
  | .stash name condition =>
      if name = s.name ∧ condition.isNull = false then some condition else none
  | _ => none

/-- The nested query that the edit sets, with its path. -/
def nests? : Edit → Option (Json × Json)
  | .setNested path query => some (path, query)
  | _ => none

end Edit

/-- What was given to a section since every document was last matched. -/
def given (s : Section) (edits : List Edit) : List Json :=
  (if s = .must ∧ edits.any Edit.isMatchAll then [Clause.single "match_all" (.obj [])] else []) ++
    (edits.rtakeWhile fun e => !e.isMatchAll).flatMap (Edit.conditionsFor s)

def lastStashed? (s : Section) (edits : List Edit) : Option Json :=
  (edits.filterMap (Edit.stashes? s)).getLast?

def lastNesting? (edits : List Edit) : Option (Json × Json) :=
  (edits.filterMap Edit.nests?).getLast?

/-- The conditions of a section: those given to it, and then the last replaceable one. -/
def listed (s : Section) (edits : List Edit) : List Json :=
  given s edits ++ (lastStashed? s edits).toList

/-- The bool query of the sections that have conditions. -/
def boolOf (minimum : Json) (edits : List Edit) : Json :=
  let sections : Members := Section.all.flatMap fun s =>
    if (listed s edits).isEmpty then [] else [(s.name, .arr (listed s edits))]
  let minimum : Members := if minimum.isNull then [] else [("minimum_should_match", minimum)]
  Clause.single "bool" (.obj (sections ++ minimum))

/-- What is rendered after the edits: the last nested query if it is not empty, or else the bool
query. -/
def clauseOf (minimum : Json) (edits : List Edit) : Json :=
  match lastNesting? edits with
  | none => boolOf minimum edits
  | some (path, query) => if query.truthy then Clause.nested path query else boolOf minimum edits

theorem given_snoc (s : Section) (edits : List Edit) (e : Edit) :
    given s (edits ++ [e]) =
      if e.isMatchAll then if s = .must then [Clause.single "match_all" (.obj [])] else []
      else given s edits ++ e.conditionsFor s := by
  cases hAll : e.isMatchAll with
  | true => simp [given, hAll]
  | false => simp [given, hAll]

theorem given_snoc_of_nil {s : Section} {e : Edit} (edits : List Edit)
    (hAll : e.isMatchAll = false) (hNone : e.conditionsFor s = []) :
    given s (edits ++ [e]) = given s edits := by
  rw [given_snoc, hAll, hNone, List.append_nil]
  rfl

theorem lastStashed?_snoc (s : Section) (edits : List Edit) (e : Edit) :
    lastStashed? s (edits ++ [e]) = (e.stashes? s).or (lastStashed? s edits) := by
  cases h : e.stashes? s <;> simp [lastStashed?, h]

theorem lastNesting?_snoc (edits : List Edit) (e : Edit) :
    lastNesting? (edits ++ [e]) = e.nests?.or (lastNesting? edits) := by
  cases h : e.nests? <;> simp [lastNesting?, h]

/-! ## What one edit does -/

variable {q r : Query} {edits : List Edit} {minimum : Json}

/-- The requests have all in common that a rendering is made of but for their conditions. -/
structure SameRest (q r : Query) : Prop where
  minimum : r.minimumShouldMatch = q.minimumShouldMatch
  nested : r.nested = q.nested
  nestedPath : r.nestedPath = q.nestedPath
  stashed : r.stashed = q.stashed

/-- The requests have all in common that a rendering is made of. -/
structure SameClause (q r : Query) : Prop extends SameRest q r where
  conditions : ∀ s, r.conditions s = q.conditions s

theorem SameRest.trans {t : Query} (h : SameRest q r) (h' : SameRest r t) : SameRest q t :=
  ⟨h'.minimum.trans h.minimum, h'.nested.trans h.nested, h'.nestedPath.trans h.nestedPath,
    h'.stashed.trans h.stashed⟩

theorem SameClause.refl (q : Query) : SameClause q q :=
  ⟨⟨rfl, rfl, rfl, rfl⟩, fun _ => rfl⟩

theorem SameClause.of_toOption {x : Except Failure Query} (h : ∀ r, x = .ok r → SameClause q r) :
    SameClause q (x.toOption.getD q) := by
  cases x with
  | error failure => exact .refl q
  | ok r => exact h r rfl

theorem sameClause_withAggregations (aggregations : Json) :
    SameClause q (q.withAggregations aggregations) :=
  ⟨⟨rfl, rfl, rfl, rfl⟩, fun s => by cases s <;> rfl⟩

theorem sameClause_addAggregations {more : Members} (h : q.addAggregations more = .ok r) :
    SameClause q r := by
  unfold addAggregations at h
  split at h
  · cases h
  · split at h
    · rw [← Except.ok.inj h]
      exact sameClause_withAggregations _
    · split at h
      · rw [← Except.ok.inj h]
        exact sameClause_withAggregations _
      · cases h

/-- The edit is not about clauses. -/
def Edit.IsSilent : Edit → Prop
  | .addAggregations _ | .addAggregationText _ | .wrapAggregations _ | .setScanScroll _
  | .setScrollId _ | .clearScrollId => True
  | _ => False

theorem sameClause_apply {e : Edit} (h : e.IsSilent) : SameClause q (q.apply e) := by
  cases e with
  | addConditions | stash | setMatchAll | setNested => cases h
  | addAggregations more => exact .of_toOption fun r hAdd => sameClause_addAggregations hAdd
  | addAggregationText text =>
      refine .of_toOption fun r hAdd => ?_
      obtain ⟨_, -, hAdd⟩ := bind_eq_ok_iff.mp hAdd
      obtain ⟨_, -, hAdd⟩ := bind_eq_ok_iff.mp hAdd
      exact sameClause_addAggregations hAdd
  | wrapAggregations outer =>
      refine .of_toOption fun r hWrap => ?_
      obtain ⟨_, -, hWrap⟩ := bind_eq_ok_iff.mp hWrap
      rw [← pure_eq_ok_iff.mp hWrap]
      exact ⟨⟨rfl, rfl, rfl, rfl⟩, fun s => by cases s <;> rfl⟩
  | setScanScroll lifetime => exact ⟨⟨rfl, rfl, rfl, rfl⟩, fun s => by cases s <;> rfl⟩
  | setScrollId id => exact ⟨⟨rfl, rfl, rfl, rfl⟩, fun s => by cases s <;> rfl⟩
  | clearScrollId => exact ⟨⟨rfl, rfl, rfl, rfl⟩, fun s => by cases s <;> rfl⟩

/-- Conditions go to the end of the section they are named for. -/
theorem exists_appendAll {held : Section → List Json} (sections : Members)
    (h : ∀ s, q.conditions s = .arr (held s)) :
    ∃ r, q.appendAll sections = ⟨r, none⟩ ∧ SameRest q r ∧
      ∀ s, r.conditions s = .arr (held s ++ givenBy s sections) := by
  induction sections generalizing q held with
  | nil => exact ⟨q, rfl, ⟨rfl, rfl, rfl, rfl⟩, by simpa [givenBy] using h⟩
  | cons m sections ih =>
      obtain ⟨name, conditions⟩ := m
      rw [appendAll]
      cases hNamed : Section.named? name with
      | none =>
          obtain ⟨r, hAll, hRest, hConditions⟩ := ih h
          refine ⟨r, hAll, hRest, fun s => ?_⟩
          have hOther : name ≠ s.name := by
            rintro rfl
            rw [Section.named?_name] at hNamed
            cases hNamed
          simpa [givenBy, hOther] using hConditions s
      | some s =>
          obtain rfl := Section.named?_eq_some_iff.mp hNamed
          have hAppend : q.append s conditions =
              .ok (q.setConditions s (.arr (held s ++ asConditions conditions))) := by
            rw [append, h s]
          have hStep : ∀ t,
              (q.setConditions s (.arr (held s ++ asConditions conditions))).conditions t =
                .arr (held t ++ if t = s then asConditions conditions else []) := by
            intro t
            by_cases hSame : t = s
            · subst hSame
              simp
            · rw [conditions_setConditions_of_ne hSame, h t, if_neg hSame, List.append_nil]
          obtain ⟨r, hAll, hRest, hConditions⟩ := ih hStep
          simp only [hAppend]
          refine ⟨r, hAll, .trans ?_ hRest, fun t => ?_⟩
          · cases s <;> exact ⟨rfl, rfl, rfl, rfl⟩
          · rw [hConditions t, List.append_assoc]
            by_cases hSame : t = s
            · subst hSame
              simp [givenBy]
            · have hOther : s.name ≠ t.name :=
                fun hName => hSame (Section.name_injective hName).symm
              simp [givenBy, hSame, hOther]

theorem exists_addConditions {held : Section → List Json} {sections : Members}
    (hFree : sections.has reservedName = false) (h : ∀ s, q.conditions s = .arr (held s)) :
    ∃ r, q.addConditions sections = ⟨r, none⟩ ∧ SameRest q r ∧
      ∀ s, r.conditions s = .arr (held s ++ givenBy s sections) := by
  obtain ⟨r, hAll, hRest, hConditions⟩ :=
    exists_appendAll (Text.sortBy (fun a b => Text.before a.1 b.1) sections) h
  refine ⟨r, by simpa [addConditions, hFree] using hAll, hRest, fun s => ?_⟩
  -- Sorting by name keeps the order of what stands under one name.
  have hSame : ∀ a b : Text × Json, (a.1 == s.name) = true → (b.1 == s.name) = true →
      Text.before b.1 a.1 = false := by
    intro a b ha hb
    rw [beq_iff_eq.mp ha, beq_iff_eq.mp hb]
    exact Text.before_self s.name
  rw [hConditions s, givenBy, Text.filter_sortBy hSame, givenBy]

/-! ## What the edits tell of the request -/

/-- The request is the one that the edits tell of. -/
structure Tells (minimum : Json) (edits : List Edit) (q : Query) : Prop where
  conditions : ∀ s, q.conditions s = .arr (given s edits)
  stashed : ∃ held : Members, q.stashed = .obj held ∧
    ∀ s : Section, held.get? s.name = lastStashed? s edits
  nested : lastNesting? edits = none ∧ q.nested = .null ∨
    lastNesting? edits = some (q.nestedPath, q.nested)
  minimum : q.minimumShouldMatch = minimum

theorem tells_nil (h : q.IsFresh) : Tells q.minimumShouldMatch [] q :=
  ⟨fun s => by simpa [given] using h.conditions s, ⟨[], h.stashed, fun _ => rfl⟩,
    .inl ⟨rfl, h.nested⟩, rfl⟩

namespace Tells

/-- An edit that gives conditions and nothing else. -/
theorem snoc_of_given {e : Edit} (h : Tells minimum edits q) (hRest : SameRest q r)
    (hConditions : ∀ s, r.conditions s = .arr (given s (edits ++ [e])))
    (hStash : ∀ s, e.stashes? s = none) (hNested : e.nests? = none) :
    Tells minimum (edits ++ [e]) r := by
  refine ⟨hConditions, ?_, ?_, hRest.minimum.trans h.minimum⟩
  · obtain ⟨held, hHeld, hLast⟩ := h.stashed
    refine ⟨held, hRest.stashed.trans hHeld, fun s => ?_⟩
    rw [lastStashed?_snoc, hStash s, hLast s, Option.none_or]
  · rw [lastNesting?_snoc, hNested, Option.none_or, hRest.nested, hRest.nestedPath]
    exact h.nested

theorem snoc_of_same {e : Edit} (h : Tells minimum edits q) (hSame : SameClause q r)
    (hAll : e.isMatchAll = false) (hConditions : ∀ s, e.conditionsFor s = [])
    (hStash : ∀ s, e.stashes? s = none) (hNested : e.nests? = none) :
    Tells minimum (edits ++ [e]) r := by
  refine h.snoc_of_given hSame.toSameRest (fun s => ?_) hStash hNested
  rw [hSame.conditions s, h.conditions s, given_snoc_of_nil edits hAll (hConditions s)]

theorem snoc_addConditions (h : Tells minimum edits q) (sections : Members) :
    Tells minimum (edits ++ [.addConditions sections]) (q.apply (.addConditions sections)) := by
  cases hFree : sections.has reservedName with
  | true =>
      have hSame : q.apply (.addConditions sections) = q := by
        simp [apply, Query.addConditions, hFree]
      rw [hSame]
      exact h.snoc_of_same (.refl q) rfl (fun s => by simp [Edit.conditionsFor, hFree])
        (fun _ => rfl) rfl
  | false =>
      obtain ⟨r, hAdd, hRest, hConditions⟩ := exists_addConditions hFree h.conditions
      rw [apply, hAdd]
      refine h.snoc_of_given hRest (fun s => ?_) (fun _ => rfl) rfl
      rw [hConditions s, given_snoc]
      simp [Edit.isMatchAll, Edit.conditionsFor, hFree]

theorem snoc_stash (h : Tells minimum edits q) (name : Text) (condition : Json) :
    Tells minimum (edits ++ [.stash name condition]) (q.apply (.stash name condition)) := by
  obtain ⟨held, hHeld, hLast⟩ := h.stashed
  by_cases hSets : ((Section.named? name).isSome && !condition.isNull) = true
  · have hApply : q.apply (.stash name condition) =
        { q with stashed := .obj (Members.set held name condition), scrollId := .null } := by
      simp only [apply, Query.stash, if_pos hSets, hHeld]
      rfl
    rw [hApply]
    refine ⟨fun s => ?_, ⟨_, rfl, fun s => ?_⟩, ?_, h.minimum⟩
    · rw [given_snoc_of_nil edits rfl rfl, ← h.conditions s]
      cases s <;> rfl
    · rw [lastStashed?_snoc, ← hLast s]
      simp only [Bool.and_eq_true, Bool.not_eq_true'] at hSets
      by_cases hName : name = s.name
      · subst hName
        simp [Edit.stashes?, hSets.2, Members.get?_set_self]
      · simp [Edit.stashes?, hName, Members.get?_set_of_ne (Ne.symm hName)]
    · rw [lastNesting?_snoc]
      exact h.nested
  · have hApply : q.apply (.stash name condition) = q := by
      simp only [apply, Query.stash, if_neg hSets]
      rfl
    rw [hApply]
    refine h.snoc_of_same (.refl q) rfl (fun _ => rfl) (fun s => ?_) rfl
    rw [Edit.stashes?, if_neg]
    rintro ⟨rfl, hGiven⟩
    simp [Section.named?_name, hGiven] at hSets

/-- Every edit keeps the request to what the edits tell. -/
theorem snoc (h : Tells minimum edits q) (e : Edit) :
    Tells minimum (edits ++ [e]) (q.apply e) := by
  cases e with
  | addConditions sections => exact h.snoc_addConditions sections
  | stash name condition => exact h.snoc_stash name condition
  | setMatchAll =>
      refine h.snoc_of_given ⟨rfl, rfl, rfl, rfl⟩ (fun s => ?_) (fun _ => rfl) rfl
      rw [given_snoc]
      cases s <;> rfl
  | setNested path query =>
      refine ⟨fun s => ?_, ?_, .inr ?_, h.minimum⟩
      · rw [given_snoc_of_nil edits rfl rfl, ← h.conditions s]
        cases s <;> rfl
      · obtain ⟨held, hHeld, hLast⟩ := h.stashed
        refine ⟨held, hHeld, fun s => ?_⟩
        rw [lastStashed?_snoc, hLast s]
        rfl
      · rw [lastNesting?_snoc]
        rfl
  | addAggregations | addAggregationText | wrapAggregations | setScanScroll | setScrollId
  | clearScrollId =>
      exact h.snoc_of_same (sameClause_apply trivial) rfl (fun _ => rfl) (fun _ => rfl) rfl

theorem foldl (h : Tells minimum [] q) (edits : List Edit) :
    Tells minimum edits (edits.foldl apply q) := by
  induction edits using List.reverseRecOn with
  | nil => exact h
  | append_singleton edits e ih =>
      rw [List.foldl_append]
      exact ih.snoc e

end Tells

/-! ## What is rendered -/

theorem isNull_of_lastStashed? {s : Section} {condition : Json}
    (h : lastStashed? s edits = some condition) : condition.isNull = false := by
  obtain ⟨e, -, hStash⟩ := List.mem_filterMap.mp (List.mem_of_getLast? h)
  cases e with
  | stash name given =>
      rw [Edit.stashes?] at hStash
      split at hStash
      · rename_i hGiven
        cases hStash
        exact hGiven.2
      · cases hStash
  | _ => cases hStash

theorem clause_listed (minimum : Json) (edits : List Edit) :
    Clause.Sections.clause ⟨.arr (listed .must edits), .arr (listed .mustNot edits),
      .arr (listed .should edits), .arr (listed .filter edits), minimum⟩ = boolOf minimum edits := by
  have hGiven : ∀ (name : Text) (conditions : List Json),
      Clause.ifGiven name (.arr conditions) =
        if conditions.isEmpty then [] else [(name, .arr conditions)] := by
    intro name conditions
    cases conditions <;> rfl
  have hMinimum : ∀ name : Text,
      Members.present [(name, minimum)] = if minimum.isNull then [] else [(name, minimum)] := by
    intro name
    cases minimum <;> rfl
  rw [Clause.Sections.clause, boolOf]
  simp [hGiven, hMinimum, Section.all, Section.name]

namespace Tells

theorem fullConditions (h : Tells minimum edits q) (s : Section) :
    q.fullConditions s = .ok (.arr (listed s edits)) := by
  obtain ⟨held, hHeld, hLast⟩ := h.stashed
  have hStashed : q.stashedAt s.name = .ok ((lastStashed? s edits).getD .null) := by
    rw [stashedAt, hHeld, ← hLast s]
    rfl
  rw [Query.fullConditions, hStashed]
  cases hCondition : lastStashed? s edits with
  | none =>
      rw [listed, hCondition, Option.toList_none, List.append_nil, ← h.conditions s]
      rfl
  | some condition =>
      have hGiven := isNull_of_lastStashed? hCondition
      rw [listed, hCondition, Option.toList_some]
      cases condition with
      | null => cases hGiven
      | _ =>
          rw [Option.getD_some, h.conditions s]
          rfl

theorem render (h : Tells minimum edits q) : q.render = .ok (clauseOf minimum edits) := by
  have hBool : q.nested.truthy = false → q.render = .ok (boolOf minimum edits) := by
    intro hNone
    rw [Query.render, hNone, h.fullConditions, h.fullConditions, h.fullConditions, h.fullConditions,
      h.minimum, ← clause_listed]
    rfl
  unfold clauseOf
  rcases h.nested with ⟨hNone, hNull⟩ | hSome
  · rw [hNone]
    exact hBool (by rw [hNull]; rfl)
  · rw [hSome]
    dsimp only
    cases hTruthy : q.nested.truthy with
    | false => exact hBool hTruthy
    | true =>
        rw [Query.render, hTruthy]
        rfl

end Tells

/-- A request renders to what the edits tell, whatever they are. -/
theorem render_foldl_apply (h : q.IsFresh) (edits : List Edit) :
    (edits.foldl apply q).render = .ok (clauseOf q.minimumShouldMatch edits) :=
  ((tells_nil h).foldl edits).render

def hostIs (host : Text) : Json :=
  Clause.onField "term" "host" (.str host)

/-- Conditions before and after every document is matched, beside a replaceable one. -/
def hostEdits : List Edit :=
  [.stash "filter" (hostIs "a"), .addConditions [("must", hostIs "b")], .setMatchAll,
    .addConditions [("should", .arr [hostIs "c", hostIs "d"]), ("must", hostIs "e"),
      ("other", hostIs "f")],
    .setNested (.str "comments") (.obj []), .setScanScroll .null]

theorem render_foldl_apply_hosts :
    ({ minimumShouldMatch := .int 1 } : Query).IsFresh ∧
      (hostEdits.foldl apply { minimumShouldMatch := .int 1 }).render =
        .ok (Clause.single "bool" (.obj
          [("must", .arr [Clause.single "match_all" (.obj []), hostIs "e"]),
            ("should", .arr [hostIs "c", hostIs "d"]), ("filter", .arr [hostIs "a"]),
            ("minimum_should_match", .int 1)])) := by
  have hFresh : ({ minimumShouldMatch := .int 1 } : Query).IsFresh :=
    ⟨fun s => by cases s <;> rfl, rfl, rfl⟩
  exact ⟨hFresh, render_foldl_apply hFresh hostEdits⟩

end Query

end LogQuery
