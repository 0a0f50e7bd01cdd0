import LogQuery.Proofs.Token.Bounds
import Mathlib.Data.List.Forall2

/-! The bounds that the parts of a value carry. A part carries the bound of the longest sign that
leaves a value. The parts of a value conflict if two of them carry bounds of one side; otherwise the
condition of a token has the bounds that they carry, in their order. -/

namespace LogQuery.Token.Ranges

variable {token field value part cs : Text} {parts : List Text} {b d : Bound} {c : Comparison}

/-! ## Parts -/

/-- The sign of the bound and its value, which is one line, make up the part; a line feed may end
it. -/
structure Leaves (part : Text) (b : Bound) : Prop where
  nonempty : b.value ≠ []
  line : .char '\n' ∉ b.value
  written : part = b.comparison.sign ++ b.value ∨
    part = b.comparison.sign ++ (b.value ++ [.char '\n'])

/-- The part carries the bound: no longer sign leaves a value. -/
structure Carries (part : Text) (b : Bound) : Prop where
  leaves : Leaves part b
  longest : ∀ d, Leaves part d → d.comparison.sign.length ≤ b.comparison.sign.length

theorem value?_eq_some_iff :
    value? cs = some value ↔
      value ≠ [] ∧ .char '\n' ∉ value ∧ (cs = value ∨ cs = value ++ [.char '\n']) := by
  constructor
  · intro h
    simp only [value?] at h
    split at h
    · cases h
    · rename_i hBody
      cases h
      simp only [Bool.or_eq_true, not_or, List.isEmpty_iff, List.contains_iff_mem] at hBody
      exact ⟨hBody.1, hBody.2, Text.dropFinalNewline_cases cs⟩
  · rintro ⟨hSome, hLine, hText⟩
    rw [value?, Text.dropFinalNewline_of_line hLine hText, if_neg]
    simp [hSome, hLine]

theorem boundBy?_eq_some_iff : boundBy? part c = some b ↔ b.comparison = c ∧ Leaves part b := by
  constructor
  · intro h
    unfold boundBy? at h
    split at h
    · rename_i hSign
      obtain ⟨rest, rfl⟩ := List.isPrefixOf_iff_prefix.mp hSign
      obtain ⟨value, hValue, rfl⟩ := Option.map_eq_some_iff.mp h
      rw [List.drop_left] at hValue
      obtain ⟨hSome, hLine, hRest⟩ := value?_eq_some_iff.mp hValue
      exact ⟨rfl, hSome, hLine, hRest.imp (congrArg _) (congrArg _)⟩
    · cases h
  · rintro ⟨rfl, hSome, hLine, hWritten⟩
    obtain ⟨rest, hPart, hRest⟩ : ∃ rest, part = b.comparison.sign ++ rest ∧
        (rest = b.value ∨ rest = b.value ++ [.char '\n']) := by
      rcases hWritten with h | h
      · exact ⟨_, h, .inl rfl⟩
      · exact ⟨_, h, .inr rfl⟩
    have hSign : b.comparison.sign.isPrefixOf part = true :=
      List.isPrefixOf_iff_prefix.mpr ⟨rest, hPart.symm⟩
    have hValue : value? (part.drop b.comparison.sign.length) = some b.value := by
      rw [hPart, List.drop_left]
      exact value?_eq_some_iff.mpr ⟨hSome, hLine, hRest⟩
    rw [boundBy?, if_pos hSign, hValue]
    rfl

/-- Signs of one length at the front of a part are the same sign. -/
theorem Leaves.comparison_eq (hb : Leaves part b) (hd : Leaves part d)
    (hLength : b.comparison.sign.length = d.comparison.sign.length) :
    b.comparison = d.comparison := by
  have hFront : ∀ {b : Bound}, Leaves part b → ∃ rest, part = b.comparison.sign ++ rest := by
    intro b h
    rcases h.written with h | h
    · exact ⟨_, h⟩
    · exact ⟨_, h⟩
  obtain ⟨rest, hPart⟩ := hFront hb
  obtain ⟨other, hOther⟩ := hFront hd
  have hSign : b.comparison.sign = d.comparison.sign :=
    List.append_inj_left (hPart.symm.trans hOther) hLength
  have hInjective : ∀ c ∈ Comparison.all, ∀ c' ∈ Comparison.all, c.sign = c'.sign → c = c' := by
    decide
  have hAll : ∀ c : Comparison, c ∈ Comparison.all := by
    intro c
    cases c <;> decide
  exact hInjective _ (hAll _) _ (hAll _) hSign

theorem Carries.eq (hb : Carries part b) (hd : Carries part d) : b = d := by
  have hLength : b.comparison.sign.length = d.comparison.sign.length :=
    Nat.le_antisymm (hd.longest b hb.leaves) (hb.longest d hd.leaves)
  have hComparison := hb.leaves.comparison_eq hd.leaves hLength
  have hBound := boundBy?_eq_some_iff.mpr ⟨hComparison, hb.leaves⟩
  rw [boundBy?_eq_some_iff.mpr ⟨rfl, hd.leaves⟩] at hBound
  exact (Option.some.inj hBound).symm

/-- The bound that is read off a part is the one that it carries: the signs are tried in an order in
which no sign comes before a longer one. -/
theorem bound?_eq_some_iff : bound? part = some b ↔ Carries part b := by
  have hRead : ∀ {b : Bound}, bound? part = some b → Carries part b := by
    intro b h
    obtain ⟨before, c, after, hAll, hBound, hNone⟩ := List.findSome?_eq_some_iff.mp h
    obtain ⟨rfl, hLeaves⟩ := boundBy?_eq_some_iff.mp hBound
    have hOrder : Comparison.all.Pairwise fun c c' => c'.sign.length ≤ c.sign.length := by decide
    rw [hAll, List.pairwise_append, List.pairwise_cons] at hOrder
    refine ⟨hLeaves, fun d hd => ?_⟩
    have hMem : d.comparison ∈ before ++ b.comparison :: after := by
      rw [← hAll]
      cases d.comparison <;> decide
    rcases List.mem_append.mp hMem with hBefore | hRest
    · have hTried := boundBy?_eq_some_iff.mpr ⟨rfl, hd⟩
      rw [hNone _ hBefore] at hTried
      cases hTried
    · rcases List.mem_cons.mp hRest with hSame | hAfter
      · exact Nat.le_of_eq (by rw [hSame])
      · exact hOrder.2.1.1 _ hAfter
  constructor
  · exact hRead
  · intro h
    have hTried : boundBy? part b.comparison = some b :=
      boundBy?_eq_some_iff.mpr ⟨rfl, h.leaves⟩
    have hSome : (bound? part).isSome = true := by
      rw [bound?, List.isSome_findSome?, List.any_eq_true]
      exact ⟨b.comparison, by cases b.comparison <;> decide, by rw [hTried]; rfl⟩
    obtain ⟨d, hd⟩ := Option.isSome_iff_exists.mp hSome
    rw [hd, (hRead hd).eq h]

theorem exists_carries_iff : (bound? part).isSome = true ↔ ∃ b, Carries part b := by
  simp only [Option.isSome_iff_exists, bound?_eq_some_iff]

/-- The bounds that are read off the parts are those of the parts that carry one, in order. -/
theorem forall₂_carries (parts : List Text) :
    List.Forall₂ Carries (parts.filter fun part => (bound? part).isSome)
      (parts.filterMap bound?) := by
  induction parts with
  | nil => exact .nil
  | cons first rest ih =>
      cases hBound : bound? first with
      | none =>
          rw [List.filterMap_cons_none hBound, List.filter_cons_of_neg (by simp [hBound])]
          exact ih
      | some b =>
          rw [List.filterMap_cons_some hBound, List.filter_cons_of_pos (by simp [hBound])]
          exact .cons (bound?_eq_some_iff.mp hBound) ih

theorem filterMap_bound?_eq_nil :
    parts.filterMap bound? = [] ↔ ∀ part ∈ parts, ∀ b, ¬Carries part b := by
  simp only [List.filterMap_eq_nil_iff, Option.eq_none_iff_forall_ne_some, ne_eq,
    bound?_eq_some_iff]

theorem mem_filterMap_bound?_iff :
    b ∈ parts.filterMap bound? ↔ ∃ part ∈ parts, Carries part b := by
  simp only [List.mem_filterMap, bound?_eq_some_iff]

/-! ## Conflicts -/

/-- No two bounds are of one side. -/
def Apart (bounds : List Bound) : Prop :=
  bounds.Pairwise fun b d => b.comparison.side ≠ d.comparison.side

/-- Two of the parts carry bounds of one side. -/
def Conflict (parts : List Text) : Prop :=
  ∃ p q b d, [p, q].Sublist parts ∧ Carries p b ∧ Carries q d ∧
    b.comparison.side = d.comparison.side

theorem apart_iff_not_conflict (parts : List Text) :
    Apart (parts.filterMap bound?) ↔ ¬Conflict parts := by
  rw [Apart, List.pairwise_filterMap, List.pairwise_iff_forall_sublist]
  constructor
  · rintro h ⟨p, q, b, d, hParts, hp, hq, hSide⟩
    exact h hParts b (bound?_eq_some_iff.mpr hp) d (bound?_eq_some_iff.mpr hq) hSide
  · intro h p q hParts b hb d hd hSide
    exact h ⟨p, q, b, d, hParts, bound?_eq_some_iff.mp hb, bound?_eq_some_iff.mp hd, hSide⟩

/-- Bounds are added to others up to the first that is of the side of one before it. -/
theorem addBounds_eq_ok_iff (token : Text) {done bounds : List Bound} (hDone : Apart done) :
    addBounds token done bounds = .ok (done ++ bounds) ↔ Apart (done ++ bounds) := by
  induction bounds generalizing done with
  | nil => simpa [addBounds] using hDone
  | cons b bounds ih =>
      rw [addBounds]
      by_cases hTaken : done.any (·.comparison.side == b.comparison.side) = true
      · rw [if_pos hTaken]
        obtain ⟨d, hd, hSide⟩ := List.any_eq_true.mp hTaken
        refine iff_of_false (fun h => by cases h) fun hApart => ?_
        exact (List.pairwise_append.mp hApart).2.2 d hd b List.mem_cons_self (beq_iff_eq.mp hSide)
      · rw [if_neg hTaken, List.append_cons done b bounds]
        refine ih (List.pairwise_append.mpr ⟨hDone, List.pairwise_singleton _ _, ?_⟩)
        rintro d hd e he hSide
        rw [List.mem_singleton.mp he] at hSide
        exact hTaken (List.any_eq_true.mpr ⟨d, hd, beq_iff_eq.mpr hSide⟩)

/-! ## Conditions -/

/-- The member of a range that a bound becomes. -/
def Bound.member (b : Bound) : Text × Json :=
  (b.comparison.name, .str b.value)

/-- Parts that carry bounds of one side leave no condition. -/
theorem condition?_of_conflict (h : fieldAndValue? token = some (field, value))
    (hConflict : Conflict (Text.splitOn ',' value)) :
    ∃ side, condition? token = .error (.rangeConflict side token) := by
  rw [condition?, h]
  rcases addBounds_cases token [] ((Text.splitOn ',' value).filterMap bound?) with
    ⟨side, hError⟩ | hAll
  · refine ⟨side, ?_⟩
    dsimp only
    rw [hError]
    rfl
  · have hApart := (addBounds_eq_ok_iff token List.Pairwise.nil).mp hAll
    exact absurd hConflict ((apart_iff_not_conflict _).mp hApart)

/-- Without a conflict, the condition of a token has all bounds that its parts carry. -/
theorem condition?_of_not_conflict (h : fieldAndValue? token = some (field, value))
    (hFree : ¬Conflict (Text.splitOn ',' value)) :
    condition? token = .ok (match (Text.splitOn ',' value).filterMap bound? with
      | [] => none
      | bounds => some (Clause.range field (bounds.map Bound.member))) := by
  have hApart := (apart_iff_not_conflict _).mpr hFree
  have hAll := (addBounds_eq_ok_iff token List.Pairwise.nil).mpr hApart
  rw [List.nil_append] at hAll
  rw [condition?, h]
  dsimp only
  rw [hAll]
  cases (Text.splitOn ',' value).filterMap bound? <;> rfl

end LogQuery.Token.Ranges
