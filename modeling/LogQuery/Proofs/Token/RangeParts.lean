import LogQuery.Proofs.Token.Comparisons
import Mathlib.Data.List.Pairwise

/-! What the recognizer of bounds makes of the parts of a token. Their order does not matter: it
bounds the field by what they carry, fails if two of them carry bounds of one side, and declines the
token if none carries any. A part that carries none is passed over, so that it also claims tokens
that do not keep to the form of bounds. -/

namespace LogQuery.Token.Ranges

open Recognizer

/-- A field, a colon, and parts with commas between them. -/
def joined (field : Text) (parts : List Text) : Text :=
  field ++ .char ':' :: Text.join [.char ','] parts

/-- The token is cut into a field and the parts of a value that is not empty. -/
structure IsCut (token field : Text) (parts : List Text) : Prop where
  written : token = joined field parts
  nonempty : field ≠ []
  colon : .char ':' ∉ field
  commas : ∀ part ∈ parts, .char ',' ∉ part
  value : Text.join [.char ','] parts ≠ []

variable {around : Surroundings} {depth : Json} {token field value : Text}
  {parts : List Text} {bounds : List Bound}

/-! ## Cuts -/

theorem IsCut.fieldAndValue? (h : IsCut token field parts) :
    fieldAndValue? token = some (field, Text.join [.char ','] parts) := by
  rw [h.written]
  exact fieldAndValue?_path h.nonempty h.colon h.value

theorem IsCut.splitOn (h : IsCut token field parts) :
    Text.splitOn ',' (Text.join [.char ','] parts) = parts := by
  have hSome : parts ≠ [] := by
    intro hNil
    exact h.value (by rw [hNil]; rfl)
  exact Text.splitOn_join hSome h.commas

theorem isCut_splitOn (h : fieldAndValue? token = some (field, value)) :
    IsCut token field (Text.splitOn ',' value) := by
  obtain ⟨rfl, hField, hColon, hValue⟩ := fieldAndValue?_eq_some_iff.mp h
  have hJoin : Text.join [.char ','] (Text.splitOn ',' value) = value := Text.join_splitOn ',' value
  exact ⟨by rw [joined, hJoin], hField, hColon, fun _ => Text.notMem_of_mem_splitOn, by rwa [hJoin]⟩

/-- There is one way to cut a token. -/
theorem IsCut.unique {field' : Text} {parts' : List Text} (h : IsCut token field parts)
    (h' : IsCut token field' parts') : field' = field ∧ parts' = parts := by
  have hSame := h'.fieldAndValue?.symm.trans h.fieldAndValue?
  rw [Option.some.injEq, Prod.mk.injEq] at hSame
  exact ⟨hSame.1, by rw [← h'.splitOn, hSame.2, h.splitOn]⟩

/-! ## Outcomes -/

theorem expand_eq :
    expandStock around depth .ranges token = .of (conditionPiece <$> condition? token) := rfl

/-- Only what is cut is claimed. -/
theorem exists_isCut {pieces : List Piece}
    (h : expandStock around depth .ranges token = .done (some pieces)) :
    ∃ field parts, IsCut token field parts := by
  cases hParts : LogQuery.Token.fieldAndValue? token with
  | none =>
      have hDecline : expandStock around depth .ranges token = .done none := by
        rw [expand_eq, condition?, hParts]
        rfl
      cases hDecline.symm.trans h
  | some parts => exact ⟨parts.1, _, isCut_splitOn hParts⟩

theorem expand_of_conflict (around : Surroundings) (depth : Json)
    (hCut : IsCut token field parts) (hConflict : Conflict parts) :
    ∃ side, expandStock around depth .ranges token = .fail (.rangeConflict side token) := by
  rw [← hCut.splitOn] at hConflict
  obtain ⟨side, hCondition⟩ := condition?_of_conflict hCut.fieldAndValue? hConflict
  rw [expand_eq, hCondition]
  exact ⟨side, rfl⟩

theorem expand_of_none (hCut : IsCut token field parts)
    (hNone : parts.filterMap bound? = []) : expandStock around depth .ranges token = .done none := by
  have hFree : ¬Conflict parts := by
    rw [← apart_iff_not_conflict, hNone]
    exact .nil
  rw [← hCut.splitOn] at hNone hFree
  rw [expand_eq, condition?_of_not_conflict hCut.fieldAndValue? hFree, hNone]
  rfl

theorem expand_of_bounds (hCut : IsCut token field parts)
    (hFree : ¬Conflict parts) (hSome : parts.filterMap bound? ≠ []) :
    expandStock around depth .ranges token = .done (some [Piece.ofCondition
      (Clause.range field ((parts.filterMap bound?).map Bound.member))]) := by
  have hCondition := condition?_of_not_conflict hCut.fieldAndValue? (by rwa [hCut.splitOn])
  rw [hCut.splitOn] at hCondition
  obtain ⟨b, bounds, hBounds⟩ := List.exists_cons_of_ne_nil hSome
  rw [expand_eq, hCondition, hBounds]
  rfl

/-! ## Parts in any order -/

/-- The members of a range are the bounds that the parts carry, and at most one of each side. -/
structure AreBoundsOf (members : Members) (parts : List Text) : Prop where
  nodup : (members.map (·.1)).Nodup
  mem_iff : ∀ name value, (name, value) ∈ members ↔
    ∃ part ∈ parts, ∃ b, Carries part b ∧ name = b.comparison.name ∧ value = .str b.value
  single : ∀ c c' : Comparison, c.name ∈ members.map (·.1) → c'.name ∈ members.map (·.1) →
    c.side = c'.side → c = c'

theorem Comparison.name_injective {c c' : Comparison} (h : c.name = c'.name) : c = c' := by
  have hInjective : ∀ c ∈ all, ∀ c' ∈ all, c.name = c'.name → c = c' := by decide
  exact hInjective c (by cases c <;> decide) c' (by cases c' <;> decide) h

theorem areBoundsOf_members (h : ¬Conflict parts) :
    AreBoundsOf ((parts.filterMap bound?).map Bound.member) parts := by
  have hApart := (apart_iff_not_conflict parts).mpr h
  have hKeys : ((parts.filterMap bound?).map Bound.member).map (·.1) =
      (parts.filterMap bound?).map fun b => b.comparison.name := by
    rw [List.map_map]
    rfl
  refine ⟨?_, fun name value => ?_, fun c c' hc hc' hSide => ?_⟩
  · rw [hKeys, List.Nodup, List.pairwise_map]
    refine hApart.imp fun hSides hNames => hSides ?_
    rw [Comparison.name_injective hNames]
  · rw [List.mem_map]
    constructor
    · rintro ⟨b, hb, hMember⟩
      obtain ⟨part, hPart, hCarries⟩ := mem_filterMap_bound?_iff.mp hb
      cases hMember
      exact ⟨part, hPart, b, hCarries, rfl, rfl⟩
    · rintro ⟨part, hPart, b, hCarries, rfl, rfl⟩
      exact ⟨b, mem_filterMap_bound?_iff.mpr ⟨part, hPart, hCarries⟩, rfl⟩
  · rw [hKeys, List.mem_map] at hc hc'
    obtain ⟨b, hb, hName⟩ := hc
    obtain ⟨d, hd, hName'⟩ := hc'
    obtain rfl := Comparison.name_injective hName
    obtain rfl := Comparison.name_injective hName'
    by_contra hOther
    have hDifferent : b ≠ d := fun hSame => hOther (by rw [hSame])
    have hSymm : Std.Symm fun b d : Bound => b.comparison.side ≠ d.comparison.side :=
      ⟨fun _ _ hNe => hNe.symm⟩
    exact hApart.forall hb hd hDifferent hSide

/-- Two tokens come to the same: both fail, both are declined, or both bound the field, and by the
same bounds in whatever order. A failure names the token and the side of the first bound that is one
too many, so that these may differ. -/
inductive SameRange (field token token' : Text) :
    Outcome (Option (List Piece)) → Outcome (Option (List Piece)) → Prop where
  | conflict (side side' : Side) :
      SameRange field token token' (.fail (.rangeConflict side token))
        (.fail (.rangeConflict side' token'))
  | declined : SameRange field token token' (.done none) (.done none)
  | bounded {members members' : Members} (h : members.Perm members') :
      SameRange field token token'
        (.done (some [Piece.ofCondition (Clause.range field members)]))
        (.done (some [Piece.ofCondition (Clause.range field members')]))

theorem Conflict.perm {parts' : List Text} (h : parts.Perm parts') :
    Conflict parts ↔ Conflict parts' := by
  rw [← not_iff_not, ← apart_iff_not_conflict, ← apart_iff_not_conflict]
  exact (h.filterMap bound?).pairwise_iff fun hNe hEq => hNe hEq.symm

theorem IsCut.perm {parts' : List Text} (hCut : IsCut token field parts)
    (h : parts.Perm parts') : IsCut (joined field parts') field parts' := by
  refine ⟨rfl, hCut.nonempty, hCut.colon, fun part hPart => ?_, fun hNil => hCut.value ?_⟩
  · exact hCut.commas part (h.mem_iff.mpr hPart)
  · rw [Text.join_eq_nil_iff] at hNil ⊢
    rcases hNil with rfl | rfl
    · exact .inl h.eq_nil
    · exact .inr (List.perm_singleton.mp h)

theorem sameRange_of_perm {parts' : List Text} (hCut : IsCut token field parts)
    (h : parts.Perm parts') :
    SameRange field token (joined field parts') (expandStock around depth .ranges token)
      (expandStock around depth .ranges (joined field parts')) := by
  have hCut' := hCut.perm h
  have hBounds := h.filterMap bound?
  by_cases hConflict : Conflict parts
  · obtain ⟨side, hExpand⟩ := expand_of_conflict around depth hCut hConflict
    obtain ⟨side', hExpand'⟩ :=
      expand_of_conflict around depth hCut' ((Conflict.perm h).mp hConflict)
    rw [hExpand, hExpand']
    exact .conflict side side'
  · by_cases hNone : parts.filterMap bound? = []
    · have hNone' : parts'.filterMap bound? = [] := List.perm_nil.mp (hNone ▸ hBounds.symm)
      rw [expand_of_none hCut hNone, expand_of_none hCut' hNone']
      exact .declined
    · have hSome' : parts'.filterMap bound? ≠ [] := fun hNone' =>
        hNone (List.perm_nil.mp (hNone' ▸ hBounds))
      rw [expand_of_bounds hCut hConflict hNone,
        expand_of_bounds hCut' (fun h' => hConflict ((Conflict.perm h).mpr h')) hSome']
      exact .bounded (hBounds.map Bound.member)

/-- For a field without a colon, and parts without a comma that make up a value that is not empty,
the recognizer of bounds

* fails exactly if two parts carry bounds of one side;
* declines the token exactly if no part carries a bound;
* otherwise bounds the field by what the parts carry, and at most once on each side;
* and comes to the same whatever the order of the parts. -/
theorem expand_joined (around : Surroundings) (depth : Json) (hField : field ≠ [])
    (hColon : .char ':' ∉ field) (hCommas : ∀ part ∈ parts, .char ',' ∉ part)
    (hValue : Text.join [.char ','] parts ≠ []) :
    ((∃ side, expandStock around depth .ranges (joined field parts) =
        .fail (.rangeConflict side (joined field parts))) ↔ Conflict parts) ∧
      (expandStock around depth .ranges (joined field parts) = .done none ↔
        ∀ part ∈ parts, ∀ b, ¬Carries part b) ∧
      (¬Conflict parts → (∃ part ∈ parts, ∃ b, Carries part b) →
        ∃ members, expandStock around depth .ranges (joined field parts) =
            .done (some [Piece.ofCondition (Clause.range field members)]) ∧
          AreBoundsOf members parts) ∧
      ∀ parts', parts.Perm parts' →
        SameRange field (joined field parts) (joined field parts')
          (expandStock around depth .ranges (joined field parts))
          (expandStock around depth .ranges (joined field parts')) := by
  have hCut : IsCut (joined field parts) field parts := ⟨rfl, hField, hColon, hCommas, hValue⟩
  have hNot : ¬Conflict parts → ∃ pieces?,
      expandStock around depth .ranges (joined field parts) = .done pieces? ∧
        (pieces? = none ↔ parts.filterMap bound? = []) := by
    intro hFree
    by_cases hNone : parts.filterMap bound? = []
    · exact ⟨none, expand_of_none hCut hNone, iff_of_true rfl hNone⟩
    · exact ⟨_, expand_of_bounds hCut hFree hNone, iff_of_false (by simp) hNone⟩
  rw [← filterMap_bound?_eq_nil]
  refine ⟨⟨?_, expand_of_conflict around depth hCut⟩, ⟨?_, expand_of_none hCut⟩, ?_, ?_⟩
  · rintro ⟨side, hFail⟩
    by_contra hFree
    obtain ⟨pieces?, hExpand, -⟩ := hNot hFree
    cases hExpand.symm.trans hFail
  · intro hDecline
    by_cases hConflict : Conflict parts
    · obtain ⟨side, hExpand⟩ := expand_of_conflict around depth hCut hConflict
      cases hExpand.symm.trans hDecline
    · obtain ⟨pieces?, hExpand, hNone⟩ := hNot hConflict
      cases hExpand.symm.trans hDecline
      exact hNone.mp rfl
  · rintro hFree ⟨part, hPart, b, hb⟩
    have hSome : parts.filterMap bound? ≠ [] :=
      List.ne_nil_of_mem (mem_filterMap_bound?_iff.mpr ⟨part, hPart, hb⟩)
    exact ⟨_, expand_of_bounds hCut hFree hSome, areBoundsOf_members hFree⟩
  · exact fun parts' h => sameRange_of_perm hCut h

/-- Bounds of both sides around a part that carries none, and the same parts backwards. -/
theorem expand_joined_price :
    expandStock ⟨.empty, .obj [], none⟩ (.int 0) .ranges (joined "price" ["<=100", "50", ">20"]) =
        .done (some [Piece.ofCondition
          (Clause.range "price" [("lte", .str "100"), ("gt", .str "20")])]) ∧
      AreBoundsOf [("lte", .str "100"), ("gt", .str "20")] ["<=100", "50", ">20"] ∧
      SameRange "price" (joined "price" ["<=100", "50", ">20"])
        (joined "price" [">20", "50", "<=100"])
        (expandStock ⟨.empty, .obj [], none⟩ (.int 0) .ranges
          (joined "price" ["<=100", "50", ">20"]))
        (expandStock ⟨.empty, .obj [], none⟩ (.int 0) .ranges
          (joined "price" [">20", "50", "<=100"])) := by
  have hApart : Apart ((["<=100", "50", ">20"] : List Text).filterMap bound?) := by
    unfold Apart
    decide
  have hRead : expandStock ⟨.empty, .obj [], none⟩ (.int 0) .ranges
      (joined "price" ["<=100", "50", ">20"]) = .done (some [Piece.ofCondition
        (Clause.range "price" [("lte", .str "100"), ("gt", .str "20")])]) := rfl
  have hField : ("price" : Text) ≠ [] := by decide
  have hCommas : ∀ part ∈ (["<=100", "50", ">20"] : List Text), .char ',' ∉ part := by decide
  obtain ⟨-, -, hBounds, hPerm⟩ :=
    expand_joined ⟨.empty, .obj [], none⟩ (.int 0) hField (by decide) hCommas (by decide)
  obtain ⟨members, hExpand, hAre⟩ := hBounds ((apart_iff_not_conflict _).mp hApart)
    ⟨"<=100", List.mem_cons_self, exists_carries_iff.mp (by decide)⟩
  cases hRead.symm.trans hExpand
  exact ⟨hRead, hAre, hPerm _ (by decide)⟩

/-! ## Parts that carry no bound -/

/-- The token keeps to the form of bounds: every part of its value carries one. -/
def KeepsForm (token : Text) : Prop :=
  ∃ field parts, IsCut token field parts ∧ ∀ part ∈ parts, ∃ b, Carries part b

theorem IsCut.keepsForm_iff (hCut : IsCut token field parts) :
    KeepsForm token ↔ ∀ part ∈ parts, ∃ b, Carries part b := by
  constructor
  · rintro ⟨field', parts', hCut', h⟩
    rwa [(hCut.unique hCut').2] at h
  · exact fun h => ⟨field, parts, hCut, h⟩

/-- As many bounds as parts are read exactly if no part is passed over. -/
theorem length_filterMap_bound?_eq_iff :
    (parts.filterMap bound?).length = parts.length ↔ ∀ part ∈ parts, ∃ b, Carries part b := by
  have hKept : (parts.filterMap bound?).length =
      (parts.filter fun part => (bound? part).isSome).length :=
    (forall₂_carries parts).length_eq.symm
  rw [hKept, List.length_filter_eq_length_iff]
  exact forall₂_congr fun part _ => by rw [exists_carries_iff]

/-- What the recognizer of bounds claims, and how far it keeps to the form of bounds. It claims a
token exactly if some part of its value carries a bound and no two conflict. The condition then has
the bounds of the parts that carry one, in their order, and the other parts are passed over: the
token keeps to the form exactly if there are as many bounds as parts. -/
theorem claims_keepsForm_iff (around : Surroundings) (depth : Json) (token : Text) :
    ((∃ pieces, expandStock around depth .ranges token = .done (some pieces)) ↔
      ∃ field parts, IsCut token field parts ∧ (∃ part ∈ parts, ∃ b, Carries part b) ∧
        ¬Conflict parts) ∧
      ∀ pieces, expandStock around depth .ranges token = .done (some pieces) →
        ∃ field parts kept bounds, IsCut token field parts ∧
          kept.Sublist parts ∧ (∀ part ∈ parts, part ∈ kept ↔ ∃ b, Carries part b) ∧
          List.Forall₂ Carries kept bounds ∧
          pieces = [Piece.ofCondition (Clause.range field (bounds.map Bound.member))] ∧
          (KeepsForm token ↔ bounds.length = parts.length) := by
  have hClaimed : ∀ pieces, expandStock around depth .ranges token = .done (some pieces) →
      ∃ field parts, IsCut token field parts ∧ ¬Conflict parts ∧ parts.filterMap bound? ≠ [] ∧
        pieces = [Piece.ofCondition
          (Clause.range field ((parts.filterMap bound?).map Bound.member))] := by
    intro pieces h
    obtain ⟨field, parts, hCut⟩ := exists_isCut h
    have hFree : ¬Conflict parts := by
      intro hConflict
      obtain ⟨side, hFail⟩ := expand_of_conflict around depth hCut hConflict
      cases hFail.symm.trans h
    have hSome : parts.filterMap bound? ≠ [] := by
      intro hNone
      cases (expand_of_none hCut hNone).symm.trans h
    cases (expand_of_bounds hCut hFree hSome).symm.trans h
    exact ⟨field, parts, hCut, hFree, hSome, rfl⟩
  constructor
  · constructor
    · rintro ⟨pieces, h⟩
      obtain ⟨field, parts, hCut, hFree, hSome, -⟩ := hClaimed pieces h
      obtain ⟨b, hMem⟩ := List.exists_mem_of_ne_nil _ hSome
      obtain ⟨part, hPart, hb⟩ := mem_filterMap_bound?_iff.mp hMem
      exact ⟨field, parts, hCut, ⟨part, hPart, b, hb⟩, hFree⟩
    · rintro ⟨field, parts, hCut, ⟨part, hPart, b, hb⟩, hFree⟩
      have hMem : b ∈ parts.filterMap bound? := mem_filterMap_bound?_iff.mpr ⟨part, hPart, hb⟩
      exact ⟨_, expand_of_bounds hCut hFree (List.ne_nil_of_mem hMem)⟩
  · intro pieces h
    obtain ⟨field, parts, hCut, -, -, hPieces⟩ := hClaimed pieces h
    refine ⟨field, parts, parts.filter fun part => (bound? part).isSome, parts.filterMap bound?,
      hCut, List.filter_sublist, fun part hPart => ?_, forall₂_carries parts, hPieces, ?_⟩
    · rw [List.mem_filter, and_iff_right hPart, exists_carries_iff]
    · rw [hCut.keepsForm_iff, length_filterMap_bound?_eq_iff]

/-- A value of two parts that both carry a bound. -/
theorem claims_keepsForm_iff_price :
    expandStock ⟨.empty, .obj [], none⟩ (.int 0) .ranges "price:>50,<=100" =
        .done (some [Piece.ofCondition
          (Clause.range "price" [("gt", .str "50"), ("lte", .str "100")])]) ∧
      KeepsForm "price:>50,<=100" := by
  have hRead : expandStock ⟨.empty, .obj [], none⟩ (.int 0) .ranges "price:>50,<=100" =
      .done (some [Piece.ofCondition
        (Clause.range "price" [("gt", .str "50"), ("lte", .str "100")])]) := rfl
  have hCut : IsCut "price:>50,<=100" "price" [">50", "<=100"] :=
    ⟨by decide, by decide, by decide, by decide, by decide⟩
  obtain ⟨field, parts, kept, bounds, hCut', -, -, -, hPieces, hForm⟩ :=
    (claims_keepsForm_iff ⟨.empty, .obj [], none⟩ (.int 0) "price:>50,<=100").2 _ hRead
  obtain ⟨rfl, rfl⟩ := hCut.unique hCut'
  simp only [Piece.ofCondition, Clause.range, Clause.onField, Clause.single, List.cons.injEq,
    Piece.mk.injEq, Option.some.injEq, Json.obj.injEq, Prod.mk.injEq, true_and, and_true]
    at hPieces
  have hLength := congrArg List.length hPieces
  rw [List.length_map] at hLength
  exact ⟨hRead, hForm.mpr hLength.symm⟩

/-- A part without a comparison is passed over: the upper bound that was meant is not there. -/
theorem not_keepsForm_price :
    expandStock ⟨.empty, .obj [], none⟩ (.int 0) .ranges "price:>50,100" =
        .done (some [Piece.ofCondition (Clause.range "price" [("gt", .str "50")])]) ∧
      ¬KeepsForm "price:>50,100" := by
  have hCut : IsCut "price:>50,100" "price" [">50", "100"] :=
    ⟨by decide, by decide, by decide, by decide, by decide⟩
  refine ⟨rfl, fun h => ?_⟩
  obtain ⟨b, hb⟩ := hCut.keepsForm_iff.mp h "100" (by decide)
  have hNone : bound? "100" = none := by decide
  rw [bound?_eq_some_iff.mpr hb] at hNone
  cases hNone

end LogQuery.Token.Ranges
