import LogQuery.Proofs.Token.FreeText
import LogQuery.Proofs.Token.Pieces
import LogQuery.Query.Compile
import Mathlib

/-! The table of an assembly. Where each piece goes is read off the whole list of pieces, without
going through it: a condition by the piece just before it, a dangling word by the first piece after
it that does not dangle, a nested query by standing last. Compilation agrees with the table. -/

namespace LogQuery

/-- The section that conditions go to. -/
def Context.section : Context → Section
  | .query => .must
  | .filter => .filter

namespace Query

/-! ## The table -/

/-- The conditions of the pieces whose predecessor negates, or of those whose predecessor does not.
The flag `first` stands for the predecessor of the first piece. -/
def conditionsAfter (negating first : Bool) (pieces : List Piece) : List Json :=
  ((first :: pieces.map (·.negates)).zip pieces).filterMap fun x =>
    if x.1 = negating then x.2.condition? else none

/-- The query on nested documents that stands last. -/
def lastNested? (pieces : List Piece) : Option Scoped :=
  (pieces.filterMap (·.nested?)).getLast?

/-- The first piece that does not dangle is free text. -/
def textFollows (pieces : List Piece) : Bool :=
  (pieces.find? (!·.dangles)).any (·.kind = .text)

/-- The free text that the first piece of a list gives: all of it, unless the piece dangles and no
free text follows. -/
def headText? : List Piece → Option Text
  | [] => none
  | p :: after => if p.dangles && !textFollows after then none else p.text?

/-- The pieces of the free text. -/
def freeTexts (pieces : List Piece) : List Text :=
  pieces.tails.filterMap headText?

/-- The clause of some words, unless there is none. -/
def textClause (words : List Text) : List Json :=
  if words = [] then [] else [Clause.queryString (.str (Text.join " " words))]

theorem conditionsAfter_cons (negating first : Bool) (p : Piece) (pieces : List Piece) :
    conditionsAfter negating first (p :: pieces) =
      (if first = negating then p.condition?.toList else []) ++
        conditionsAfter negating p.negates pieces := by
  by_cases h : first = negating
  · cases hc : p.condition? <;> simp [conditionsAfter, h, hc]
  · simp [conditionsAfter, h]

theorem lastNested?_cons (p : Piece) (pieces : List Piece) :
    lastNested? (p :: pieces) = (lastNested? pieces).or p.nested? := by
  cases hp : p.nested? with
  | none => simp [lastNested?, hp]
  | some n =>
      simp only [lastNested?, List.filterMap_cons, hp, List.getLast?_cons]
      cases (List.filterMap (·.nested?) pieces).getLast? <;> simp

theorem textFollows_cons (p : Piece) (pieces : List Piece) :
    textFollows (p :: pieces) = if p.dangles then textFollows pieces else p.kind = .text := by
  cases hp : p.dangles <;> simp [textFollows, hp]

theorem freeTexts_cons (p : Piece) (pieces : List Piece) :
    freeTexts (p :: pieces) =
      (if p.dangles && !textFollows pieces then [] else p.text?.toList) ++ freeTexts pieces := by
  by_cases h : (p.dangles && !textFollows pieces) = true
  · simp [freeTexts, headText?, h]
  · cases ht : p.text? <;> simp [freeTexts, headText?, h, ht]

/-! ## Taking in the pieces -/

namespace Assembly

variable (a : Assembly)

/-- Every member of what is held changes by what the piece sets; only the free text also depends on
the words that wait. -/
theorem add_eq {p : Piece} (h : p.SetsOne) :
    a.add p =
      { conditions := a.conditions ++ if a.negates = false then p.condition?.toList else []
        negated := a.negated ++ if a.negates = true then p.condition?.toList else []
        nested := p.nested?.or a.nested
        fragments := a.fragments ++
          if p.dangles = false ∧ p.kind = .text then a.dangling ++ p.text?.toList.map .str else []
        dangling := if p.dangles = true then a.dangling ++ p.text?.toList.map .str else []
        negates := p.negates } := by
  rcases h with ⟨t, h⟩ | ⟨members, h⟩ | ⟨nested, h⟩
  · cases hd : p.dangles <;>
      simp [add, place, hd, h.text, h.condition?, h.nested?, h.kind_eq, h.text?_eq]
  · cases hn : a.negates <;>
      simp [add, place, hn, h.dangles, h.condition?, h.nested?, h.kind_eq, asConditions]
  · simp [add, place, h.dangles, h.condition?, h.nested?, h.kind_eq]

/-- What is held after some pieces is what was held before and what the table says of them. Words
that waited before count only if free text follows. -/
structure Extends (b : Assembly) (pieces : List Piece) : Prop where
  negated : b.negated = a.negated ++ conditionsAfter true a.negates pieces
  conditions : b.conditions = a.conditions ++ conditionsAfter false a.negates pieces
  nested : b.nested = (lastNested? pieces).or a.nested
  fragments : b.fragments =
    a.fragments ++ (if textFollows pieces then a.dangling else []) ++ (freeTexts pieces).map .str

theorem extends_foldl (pieces : List Piece) (hSets : ∀ p ∈ pieces, p.SetsOne) :
    a.Extends (pieces.foldl add a) pieces := by
  induction pieces generalizing a with
  | nil => constructor <;> simp [conditionsAfter, lastNested?, textFollows, freeTexts, headText?]
  | cons p pieces ih =>
      have hp := hSets p List.mem_cons_self
      have hRest := ih (a.add p) fun q hq => hSets q (List.mem_cons_of_mem p hq)
      rw [List.foldl_cons]
      generalize pieces.foldl add (a.add p) = b at hRest
      rw [add_eq a hp] at hRest
      constructor
      · simp [hRest.negated, conditionsAfter_cons]
      · simp [hRest.conditions, conditionsAfter_cons]
      · simp [hRest.nested, lastNested?_cons, Option.or_assoc]
      · rw [hRest.fragments, textFollows_cons, freeTexts_cons]
        cases hd : p.dangles with
        | true => cases hf : textFollows pieces <;> simp
        | false =>
            by_cases hk : p.kind = .text
            · simp [hk]
            · simp [hk, hp.text?_eq_none hk]

end Assembly

end Query

/-! ## The free text -/

namespace FreeText

theorem written_map_str (words : List Text) :
    written (words.map .str) = .ok (Text.join " " words) := by
  have h : (words.map Json.str).mapM textOf = .ok words := by
    rw [mapM_eq_ok_iff, List.forall₂_map_left_iff]
    exact List.forall₂_same.mpr fun _ _ => rfl
  rw [written, h]
  rfl

end FreeText

namespace Query

namespace Assembly

variable {a : Assembly} {s : Token.Settings} {conditions : List Json}

theorem textConditions_eq {join : Join} {texts words : List Text}
    (hTexts : a.fragments = texts.map .str)
    (hWords : FreeText.assemble join (texts.map .str) = words.map .str) :
    a.textConditions join = .ok (textClause words) := by
  have hScalar : (texts.map Json.str).all (·.isScalar) = true := by simp [Json.isScalar]
  have hAssembled : FreeText.assembleValues join a.fragments = .ok (words.map .str) := by
    rw [FreeText.assembleValues, hTexts, if_pos hScalar, hWords]
  cases words with
  | nil =>
      rw [textConditions, hAssembled]
      rfl
  | cons word words =>
      rw [textConditions, hAssembled]
      simp only [List.map_cons, bind, Except.bind]
      rw [← List.map_cons, FreeText.written_map_str]
      rfl

/-! ## The request -/

/-- The conditions are in the section of the context, what is negated in its own, and there is no
other. -/
theorem conditions_inContext (sec : Section) :
    (a.inContext s conditions).conditions sec =
      if sec = s.context.section then .arr conditions
      else if sec = .mustNot then .arr a.negated else .arr [] := by
  unfold inContext
  cases s.context <;> cases sec <;> rfl

@[simp]
theorem nested_inContext :
    (a.inContext s conditions).nested = (a.nested.map (·.query)).getD .null := by
  unfold inContext
  cases s.context <;> rfl

@[simp]
theorem nestedPath_inContext :
    (a.inContext s conditions).nestedPath = (a.nested.map (·.path)).getD .null := by
  unfold inContext
  cases s.context <;> rfl

@[simp]
theorem minimumShouldMatch_inContext :
    (a.inContext s conditions).minimumShouldMatch = .null := by
  unfold inContext
  cases s.context <;> rfl

@[simp]
theorem stashed_inContext : (a.inContext s conditions).stashed = .obj [] := by
  unfold inContext
  cases s.context <;> rfl

end Assembly

/-- The request holds what the table says of some pieces. -/
structure FollowsTable (q : Query) (s : Token.Settings) (pieces : List Piece) : Prop where
  /-- A condition whose predecessor negates is negated. -/
  mustNot : q.mustNot = .arr (conditionsAfter true false pieces)
  /-- Every other condition goes to the section of the context, and the free text stands last. -/
  context : ∃ words : List Text,
    FreeText.assemble s.join ((freeTexts pieces).map .str) = words.map .str ∧
      q.conditions s.context.section =
        .arr (conditionsAfter false false pieces ++ textClause words)
  others : ∀ other, other ≠ .mustNot → other ≠ s.context.section → q.conditions other = .arr []
  nested : q.nested = ((lastNested? pieces).map (·.query)).getD .null
  nestedPath : q.nestedPath = ((lastNested? pieces).map (·.path)).getD .null
  minimumShouldMatch : q.minimumShouldMatch = .null
  stashed : q.stashed = .obj []

theorem exists_ofPieces (s : Token.Settings) (pieces : List Piece)
    (hSets : ∀ p ∈ pieces, p.SetsOne) :
    ∃ q, ofPieces s pieces = .ok q ∧ q.FollowsTable s pieces := by
  have hExtends := Assembly.extends_foldl {} pieces hSets
  have hWords := FreeText.assemble_map_str s.join (freeTexts pieces)
  have hFragments : (pieces.foldl Assembly.add {}).fragments = (freeTexts pieces).map .str := by
    simpa using hExtends.fragments
  have hConditions :
      (pieces.foldl Assembly.add {}).conditions = conditionsAfter false false pieces := by
    simpa using hExtends.conditions
  have hContext : Section.mustNot ≠ s.context.section := by cases s.context <;> decide
  refine ⟨(pieces.foldl Assembly.add {}).inContext s (conditionsAfter false false pieces ++
    textClause (FreeText.woven s.join.word (FreeText.core (freeTexts pieces)))), ?_, ?_⟩
  · rw [ofPieces, Assembly.finish, Assembly.textConditions_eq hFragments hWords, hConditions]
    rfl
  · constructor
    · show Query.conditions _ .mustNot = _
      rw [Assembly.conditions_inContext, if_neg hContext, if_pos rfl, hExtends.negated]
      rfl
    · exact ⟨_, hWords, by rw [Assembly.conditions_inContext, if_pos rfl]⟩
    · intro other hNot hOther
      rw [Assembly.conditions_inContext, if_neg hOther, if_neg hNot]
    · simp [hExtends.nested]
    · simp [hExtends.nested]
    · simp
    · simp

theorem followsTable_of_ofPieces {q : Query} {s : Token.Settings} {pieces : List Piece}
    (hSets : ∀ p ∈ pieces, p.SetsOne) (h : ofPieces s pieces = .ok q) : q.FollowsTable s pieces := by
  obtain ⟨r, hr, hTable⟩ := exists_ofPieces s pieces hSets
  cases hr.symm.trans h
  exact hTable

/-- Whatever the tokens, as long as each can be told what it is and each of the resulting pieces
sets one thing, there is a request, and the table of the pieces says all that it holds. -/
theorem compileValues_followsTable (folder : Folder) (s : Token.Settings) (tokens : List Json)
    (results : List (List Piece))
    (hResults : List.Forall₂ (fun token pieces => (piecesOfValue folder s token).result = .ok pieces)
      tokens results)
    (hSets : ∀ p ∈ results.flatten, p.SetsOne) :
    ∃ q, (compileValues folder s tokens).result = .ok q ∧ q.FollowsTable s results.flatten := by
  obtain ⟨q, hq, hTable⟩ := exists_ofPieces s results.flatten hSets
  refine ⟨q, ?_, hTable⟩
  rw [compileValues, Outcome.result_bind_eq_ok_iff]
  exact ⟨results, Outcome.result_collect_eq_ok_iff.mpr hResults, hq⟩

/-- A dangling word goes with the free text after it, and a negation with the condition after it. -/
theorem compileValues_followsTable_mixed :
    ∃ results : List (List Piece),
      results.flatten =
        [{ text := .str "NOT", negates := true, dangles := true, claimedBy? := some "BareWords" },
          { condition? := some (Clause.onField "term" "program" (.str "sshd")),
            claimedBy? := some "Text" },
          { text := .str "OR", dangles := true, claimedBy? := some "BareWords" },
          { text := .str "error" }] ∧
      ∃ q, (compileValues .empty .plain
          [.str "not", .str "=program:sshd", .str "or", .str "error"]).result = .ok q ∧
        q.FollowsTable .plain results.flatten := by
  refine ⟨[[_], [_], [_], [_]], rfl,
    compileValues_followsTable _ _ _ _ (.cons ?_ (.cons ?_ (.cons ?_ (.cons ?_ .nil)))) ?_⟩
  · cbv
  · cbv
  · cbv
  · cbv
  · intro p hp
    simp only [List.flatten_cons, List.flatten_nil, List.singleton_append, List.append_nil,
      List.mem_cons, List.not_mem_nil, or_false] at hp
    rcases hp with rfl | rfl | rfl | rfl
    · exact .text "NOT" ⟨rfl, rfl, rfl⟩
    · exact .condition _ ⟨rfl, rfl, rfl, rfl⟩
    · exact .text "OR" ⟨rfl, rfl, rfl⟩
    · exact .text "error" ⟨rfl, rfl, rfl⟩

end Query

end LogQuery
