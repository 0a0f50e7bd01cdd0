import LogQuery.Proofs.Result
import LogQuery.Token.Settings

/-! The pieces of tokens. Each piece sets exactly one thing, and the stock recognizers turn a token
that they claim into a single piece, whose form tells which of them it was. The recognizers of a
chain without further ones are the stock ones, in whatever order. -/

namespace LogQuery

namespace Piece

/-- The piece sets free text and nothing else; it may dangle. -/
structure IsText (p : Piece) (t : Text) : Prop where
  text : p.text = .str t
  condition? : p.condition? = none
  nested? : p.nested? = none

/-- The piece sets a condition and nothing else. -/
structure IsCondition (p : Piece) (condition : Json) : Prop where
  text : p.text = .null
  condition? : p.condition? = some condition
  nested? : p.nested? = none
  dangles : p.dangles = false

/-- The piece sets a query on nested documents and nothing else. -/
structure IsNested (p : Piece) (nested : Scoped) : Prop where
  text : p.text = .null
  condition? : p.condition? = none
  nested? : p.nested? = some nested
  dangles : p.dangles = false

/-- The piece sets exactly one thing, and a condition is an object. -/
inductive SetsOne (p : Piece) : Prop where
  | text (t : Text) (h : p.IsText t)
  | condition (members : Members) (h : p.IsCondition (.obj members))
  | nested (nested : Scoped) (h : p.IsNested nested)

/-- The free text of a piece. -/
def text? (p : Piece) : Option Text :=
  match p.text with
  | .str t => some t
  | _ => none

theorem IsText.text?_eq {p : Piece} {t : Text} (h : p.IsText t) : p.text? = some t := by
  simp [text?, h.text]

theorem IsText.kind_eq {p : Piece} {t : Text} (h : p.IsText t) : p.kind = .text := by
  simp [kind, h.condition?, h.nested?]

theorem IsCondition.kind_eq {p : Piece} {c : Json} (h : p.IsCondition c) : p.kind = .condition := by
  simp [kind, h.condition?, h.nested?]

theorem IsNested.kind_eq {p : Piece} {n : Scoped} (h : p.IsNested n) : p.kind = .nested := by
  simp [kind, h.nested?]

theorem SetsOne.text?_eq_none {p : Piece} (h : p.SetsOne) (hk : p.kind ≠ .text) :
    p.text? = none := by
  rcases h with ⟨t, h⟩ | ⟨members, h⟩ | ⟨nested, h⟩
  · exact absurd h.kind_eq hk
  · simp [text?, h.text]
  · simp [text?, h.text]

end Piece

namespace Clause

/-- Clauses of the kind hold no queries. -/
def IsMatcher (kind : Text) : Prop :=
  kind ≠ "nested" ∧ kind ≠ "bool"

instance (kind : Text) : Decidable (IsMatcher kind) :=
  inferInstanceAs (Decidable (_ ∧ _))

/-- A condition of one token: a matcher, or any of several. -/
inductive IsLeaf : Json → Prop
  | single {kind : Text} (h : IsMatcher kind) (value : Json) : IsLeaf (Clause.single kind value)
  | anyOf {matcher : Text} (h : IsMatcher matcher) (field : Text) (patterns : List Json) :
      IsLeaf (Clause.anyOf matcher field patterns)

theorem IsLeaf.exists_obj {c : Json} (h : IsLeaf c) : ∃ members, c = .obj members := by
  cases h <;> exact ⟨_, rfl⟩

end Clause

namespace Token

/-- What the stock recognizers make of a token, given how tokens of nested queries are compiled. -/
inductive StockPiece (within : Json → List Text → Outcome Json) (token : Text) (p : Piece) : Prop
  | condition (members : Members) (h : p.IsCondition (.obj members)) (hn : p.negates = false)
  | nested (n : Scoped) (h : p.IsNested n) (hn : p.negates = false) (depth : Json)
      (inner : List Text) (hQuery : (within depth inner).result = .ok n.query)
  | word (w : Piece) (h : Word.piece? token = some w) (name : Option Text)
      (hp : p = { w with claimedBy? := name })
  | text (t : Text) (h : p.IsText t) (hn : p.negates = false) (hd : p.dangles = false)
      (hFrom : t = token ∨ Escape.text? token = some t)

theorem Word.isText_of_piece? {token : Text} {p : Piece} (h : Word.piece? token = some p) :
    ∃ t, p.IsText t := by
  unfold Word.piece? at h
  simp only at h
  split_ifs at h <;> cases h <;> exact ⟨_, rfl, rfl, rfl⟩

theorem StockPiece.setsOne {within : Json → List Text → Outcome Json} {token : Text} {p : Piece}
    (h : StockPiece within token p) : p.SetsOne := by
  cases h with
  | condition members h => exact .condition members h
  | nested n h => exact .nested n h
  | word w h name hp =>
      obtain ⟨t, ht⟩ := Word.isText_of_piece? h
      subst hp
      exact .text t ⟨ht.text, ht.condition?, ht.nested?⟩
  | text t h => exact .text t h

/-! ## Conditions -/

/-- No operator stands for a clause that holds queries. -/
theorem Field.isMatcher_of_matcher? {operator : CodePoint} {matcher : Text}
    (h : matcher? operator = some matcher) : Clause.IsMatcher matcher := by
  unfold matcher? at h
  split at h <;> cases h <;> decide

theorem Field.isMatcher_of_chooseMatcher {fieldsMeta : Json} {operator : Option Text}
    {field matcher : Text} (hOperator : ∀ other, operator = some other → Clause.IsMatcher other)
    (h : chooseMatcher fieldsMeta operator field = .ok (some matcher)) :
    Clause.IsMatcher matcher := by
  unfold chooseMatcher at h
  split at h
  · obtain ⟨words, -, h⟩ := bind_eq_ok_iff.mp h
    split at h
    · cases pure_eq_ok_iff.mp h
      decide
    · exact hOperator _ (pure_eq_ok_iff.mp h)
  · exact hOperator _ (pure_eq_ok_iff.mp h)

theorem Field.isLeaf_of_condition? {fieldsMeta c : Json} {token : Text}
    (h : Field.condition? fieldsMeta token = .ok (some c)) : Clause.IsLeaf c := by
  unfold Field.condition? at h
  split at h
  · simp only [bind_eq_ok_iff] at h
    obtain ⟨matcher, hMatcher, h⟩ := h
    generalize (if (matcher? _).isSome then _ else _ : Text) = field at hMatcher h
    cases matcher with
    | none => simp [pure_eq_ok_iff] at h
    | some matcher =>
        simp only at h
        split at h
        · simp [pure_eq_ok_iff] at h
        · cases pure_eq_ok_iff.mp h
          exact .single (isMatcher_of_chooseMatcher (fun _ => isMatcher_of_matcher?) hMatcher) _
  · simp [pure_eq_ok_iff] at h

theorem Ranges.isLeaf_of_condition? {c : Json} {token : Text}
    (h : Ranges.condition? token = .ok (some c)) : Clause.IsLeaf c := by
  unfold Ranges.condition? at h
  split at h
  · cases h
  · simp only [bind_eq_ok_iff] at h
    obtain ⟨bounds, _, h⟩ := h
    split at h
    · simp [pure_eq_ok_iff] at h
    · cases pure_eq_ok_iff.mp h
      exact .single (by decide) _

theorem Underscored.isLeaf_of_condition? {c : Json} {token : Text}
    (h : Underscored.condition? token = some c) : Clause.IsLeaf c := by
  unfold Underscored.condition? startCondition? at h
  split at h
  · split at h
    · split at h
      · cases h
        exact .single (by decide) _
      · cases h
    · cases h
  · cases h

theorem AddressBlock.isLeaf_of_condition? {c : Json} {token : Text}
    (h : AddressBlock.condition? token = some c) : Clause.IsLeaf c := by
  simp only [AddressBlock.condition?, Option.bind_eq_bind, Option.bind_eq_some_iff] at h
  obtain ⟨_, _, _, _, h⟩ := h
  cases h
  exact .single (by decide) _

theorem FileReference.isLeaf_of_condition? {folder : Folder} {c : Json} {token : Text}
    (h : (FileReference.condition? folder token).result = .ok (some c)) :
    Clause.IsLeaf c := by
  unfold FileReference.condition? at h
  split at h
  · cases h
  · rename_i r _
    split at h
    · simp only [Outcome.result_bind_eq_ok_iff] at h
      obtain ⟨values?, _, h⟩ := h
      split at h
      · simp [Outcome.result_pure_eq_ok_iff] at h
      · simp [Outcome.result_pure_eq_ok_iff] at h
      · cases Outcome.result_pure_eq_ok_iff.mp h
        unfold Reference.condition
        cases r.matching with
        | exact => exact .single (by decide) _
        | wildcard => exact .anyOf (by decide) _ _
        | regexp => exact .anyOf (by decide) _ _
    · cases h

/-! ## Stock recognizers -/

namespace Recognizer

variable {around : Surroundings} {within : Json → List Text → Outcome Json} {r : Recognizer}
  {stock : Stock} {token : Text} {pieces : List Piece}

/-- What a stock recognizer can make of a token that it does not decline. -/
inductive Makes (around : Surroundings) (depth : Json) (token : Text) : Piece → Prop
  | condition {c : Json} (h : Clause.IsLeaf c) : Makes around depth token (.ofCondition c)
  | word {p : Piece} (h : Word.piece? token = some p) : Makes around depth token p
  | nested {within : Json → List Text → Outcome Json} {path : Text} {inner : List Text}
      {query : Json} (hWithin : around.within = some within)
      (hSplit : Nested.split? token = some (path, inner))
      (hQuery : (within depth inner).result = .ok query) :
      Makes around depth token (.ofNested path query)
  | text {t : Text} (h : Escape.text? token = some t) : Makes around depth token (.ofText t)

theorem makes_of_condition {depth : Json} {c? : Option Json}
    (hPieces : conditionPiece c? = some pieces)
    (hLeaf : ∀ c, c? = some c → Clause.IsLeaf c) :
    ∃ p, pieces = [p] ∧ Makes around depth token p := by
  obtain ⟨c, rfl, rfl⟩ := Option.map_eq_some_iff.mp hPieces
  exact ⟨_, rfl, .condition (hLeaf c rfl)⟩

theorem makes_of_expandStock {depth : Json}
    (h : (expandStock around depth stock token).result = .ok (some pieces)) :
    ∃ p, pieces = [p] ∧ Makes around depth token p := by
  cases stock with
  | fileExpansion =>
      obtain ⟨c?, hc, hPieces⟩ := Outcome.result_map_eq_ok_iff.mp h
      exact makes_of_condition hPieces fun _ he => FileReference.isLeaf_of_condition? (he ▸ hc)
  | text =>
      obtain ⟨c?, hc, hPieces⟩ := map_eq_ok_iff.mp h
      exact makes_of_condition hPieces fun _ he => Field.isLeaf_of_condition? (he ▸ hc)
  | ranges =>
      obtain ⟨c?, hc, hPieces⟩ := map_eq_ok_iff.mp h
      exact makes_of_condition hPieces fun _ he => Ranges.isLeaf_of_condition? (he ▸ hc)
  | underscored =>
      exact makes_of_condition (Except.ok.inj h) fun _ => Underscored.isLeaf_of_condition?
  | ip => exact makes_of_condition (Except.ok.inj h) fun _ => AddressBlock.isLeaf_of_condition?
  | bareWords =>
      obtain ⟨w, hw, rfl⟩ := Option.map_eq_some_iff.mp (Except.ok.inj h)
      exact ⟨w, rfl, .word hw⟩
  | nested =>
      simp only [expandStock] at h
      split at h
      · rename_i within path inner hWithin hSplit
        simp only [Outcome.result_bind_eq_ok_iff, Outcome.result_pure_eq_ok_iff] at h
        obtain ⟨query, hQuery, h⟩ := h
        cases Option.some.inj h
        exact ⟨_, rfl, .nested hWithin hSplit hQuery⟩
      · cases h
  | autoEscape =>
      obtain ⟨t, ht, rfl⟩ := Option.map_eq_some_iff.mp (Except.ok.inj h)
      exact ⟨_, rfl, .text ht⟩

/-- A stock recognizer that claims a token gives the one piece that it makes its name. -/
theorem makes_of_claim (hr : r.rule = .stock stock)
    (h : (r.claim around token).result = .ok (some pieces)) :
    ∃ p, pieces = [{ p with claimedBy? := some r.name }] ∧ Makes around r.depth token p := by
  simp only [claim, expand, hr, Outcome.result_bind_eq_ok_iff] at h
  obtain ⟨made?, hMade, h⟩ := h
  cases made? with
  | none => simp [Outcome.result_pure_eq_ok_iff] at h
  | some made =>
      cases Option.some.inj (Outcome.result_pure_eq_ok_iff.mp h)
      obtain ⟨p, rfl, hMakes⟩ := makes_of_expandStock hMade
      exact ⟨p, rfl, hMakes⟩

/-- A stock recognizer that claims a token makes one piece of it. -/
theorem claim_stock (hWithin : around.within = some within) (hr : r.rule = .stock stock)
    (h : (r.claim around token).result = .ok (some pieces)) :
    ∃ p, pieces = [p] ∧ StockPiece within token p := by
  obtain ⟨p, rfl, hMakes⟩ := makes_of_claim hr h
  refine ⟨_, rfl, ?_⟩
  cases hMakes with
  | condition hLeaf =>
      obtain ⟨members, rfl⟩ := hLeaf.exists_obj
      exact .condition members ⟨rfl, rfl, rfl, rfl⟩ rfl
  | word hw => exact .word p hw _ rfl
  | @nested other path inner query hOther hSplit hQuery =>
      cases hWithin.symm.trans hOther
      exact .nested ⟨.str path, query⟩ ⟨rfl, rfl, rfl, rfl⟩ rfl r.depth inner hQuery
  | text ht => exact .text _ ⟨rfl, rfl, rfl⟩ rfl rfl (.inr ht)

end Recognizer

/-- With stock recognizers alone, a token becomes one piece: what the first of them to claim it
makes of it, or the token itself. -/
theorem claimFirst_stock {around : Recognizer.Surroundings}
    {within : Json → List Text → Outcome Json} {token : Text} {rs : List Recognizer}
    {pieces : List Piece} (hWithin : around.within = some within)
    (hStock : ∀ r ∈ rs, ∃ stock, r.rule = .stock stock)
    (h : (claimFirst around token rs).result = .ok pieces) :
    ∃ p, pieces = [p] ∧ StockPiece within token p := by
  induction rs with
  | nil =>
      cases Except.ok.inj h
      exact ⟨_, rfl, .text token ⟨rfl, rfl, rfl⟩ rfl rfl (Or.inl rfl)⟩
  | cons r rs ih =>
      simp only [claimFirst, Outcome.result_bind_eq_ok_iff] at h
      obtain ⟨claimed?, hClaim, h⟩ := h
      obtain ⟨stock, hr⟩ := hStock r List.mem_cons_self
      cases claimed? with
      | none => exact ih (fun q hq => hStock q (List.mem_cons_of_mem r hq)) h
      | some claimed =>
          cases Outcome.result_pure_eq_ok_iff.mp h
          exact Recognizer.claim_stock hWithin hr hClaim

/-! ## The chain -/

/-- Settings that leave everything as it comes. -/
def Settings.plain : Settings where
  context := .query
  join := .and
  fieldsMeta := .obj []
  options := .obj []
  extras := []
  depth := .int 0
  maxDepth := .int 4

/-- Without further recognizers the chain holds the stock ones that the options leave. -/
theorem Settings.mem_chain_iff {s : Settings} {rs : List Recognizer} {r : Recognizer}
    (hExtras : s.extras = []) (h : s.chain = .ok rs) :
    r ∈ rs ↔ ∃ stock, s.loadStock stock = .ok (some r) := by
  simp only [chain, bind_eq_ok_iff, hExtras, List.map_nil, List.append_nil] at h
  obtain ⟨loaded, hLoaded, hSorted⟩ := h
  rw [(Text.sortByHalving_perm hSorted).mem_iff, List.mem_filterMap]
  rw [mapM_eq_ok_iff] at hLoaded
  constructor
  · rintro ⟨_, hMem, rfl⟩
    obtain ⟨i, hi, hGet⟩ := List.getElem_of_mem hMem
    have hLength := hLoaded.length_eq
    exact ⟨Stock.all[i], by rw [← hGet]; exact hLoaded.get (by omega) hi⟩
  · rintro ⟨stock, hStock⟩
    have hMem : stock ∈ Stock.all := by cases stock <;> decide
    obtain ⟨i, hi, hGet⟩ := List.getElem_of_mem hMem
    have hLength := hLoaded.length_eq
    have hAt := hLoaded.get hi (by omega)
    refine ⟨some r, ?_, rfl⟩
    rw [List.get_eq_getElem, hGet, hStock] at hAt
    rw [Except.ok.inj hAt]
    exact List.get_mem _ _

theorem Settings.stock_of_mem_chain {s : Settings} {rs : List Recognizer} {r : Recognizer}
    (hExtras : s.extras = []) (h : s.chain = .ok rs) (hr : r ∈ rs) :
    ∃ stock, r.rule = .stock stock := by
  obtain ⟨stock, hLoad⟩ := (mem_chain_iff hExtras h).mp hr
  simp only [loadStock, bind_eq_ok_iff] at hLoad
  obtain ⟨priority?, _, hLoad⟩ := hLoad
  cases priority? with
  | none => simp [pure_eq_ok_iff] at hLoad
  | some priority =>
      cases Option.some.inj (pure_eq_ok_iff.mp hLoad)
      exact ⟨stock, rfl⟩

end Token

end LogQuery
