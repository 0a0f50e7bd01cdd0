import LogQuery.Proofs.Token.Chain

/-! What the recognizers of a chain make of a token, depending on what is made of the tokens in it.
Only recognizers of nested documents look at those, and of several the first decides. So two chains
that differ in their depths, and in what is made of the tokens within, give outcomes that are
related as those within are. -/

namespace LogQuery

namespace Outcome

/-- A relation of outcomes that every outcome has to itself, and that steps keep. -/
structure IsCongruence (R : ∀ α : Type, Outcome α → Outcome α → Prop) : Prop where
  refl : ∀ {α : Type} (x : Outcome α), R α x x
  bind : ∀ {α β : Type} {x y : Outcome α} {f g : α → Outcome β}, R α x y →
    (∀ a, x.result = .ok a → R β (f a) (g a)) → R β (x >>= f) (y >>= g)

theorem isCongruence_eq : IsCongruence fun _ => Eq where
  refl _ := rfl
  bind := by
    rintro α β x _ f g rfl h
    rw [bind_def, bind_def, andThen, andThen]
    cases hx : x.result with
    | error failure => rfl
    | ok a =>
        dsimp only
        rw [h a hx]

theorem IsCongruence.collect {R : ∀ α : Type, Outcome α → Outcome α → Prop} (hR : IsCongruence R)
    {α β : Type} {f g : α → Outcome β} {as : List α} (h : ∀ a ∈ as, R β (f a) (g a)) :
    R (List β) (collect f as) (collect g as) := by
  induction as with
  | nil => exact hR.refl _
  | cons a as ih =>
      refine hR.bind (h a List.mem_cons_self) fun b _ => ?_
      exact hR.bind (ih fun c hc => h c (List.mem_cons_of_mem a hc)) fun bs _ => hR.refl _

end Outcome

namespace Token

namespace Recognizer

variable {folder : Folder} {fieldsMeta : Json} {r : Recognizer} {token : Text}
  {within : Json → List Text → Outcome Json}

/-- The pieces of a claimed token bear the name of the recognizer. -/
theorem claim_of_expand {around : Surroundings} {pieces? : Option (List Piece)}
    (h : r.expand around token = .done pieces?) :
    r.claim around token =
      .done (pieces?.map (·.map fun p => { p with claimedBy? := some r.name })) := by
  rw [claim, h, Outcome.bind_def, Outcome.done_andThen]
  cases pieces? <;> rfl

/-- A recognizer of nested documents that claims a token compiles the tokens in it, one deeper than
the compilation that it belongs to. -/
theorem claim_nested {path : Text} {inner : List Text} (hr : r.rule.isNested = true)
    (hSplit : Nested.split? token = some (path, inner)) :
    r.claim ⟨folder, fieldsMeta, some within⟩ token =
      (within r.depth inner).andThen fun query =>
        .done (some [{ Piece.ofNested path query with claimedBy? := some r.name }]) := by
  have hExpand : r.expand ⟨folder, fieldsMeta, some within⟩ token =
      (within r.depth inner).andThen fun query => .done (some [Piece.ofNested path query]) := by
    simp only [expand, Rule.isNested_iff.mp hr, expandStock, hSplit]
    rfl
  rw [claim, hExpand, Outcome.bind_def, Outcome.andThen_assoc]
  simp only [Outcome.done_andThen]
  rfl

theorem claim_nested_of_none {around : Surroundings} (hr : r.rule.isNested = true)
    (hSplit : Nested.split? token = none) : r.claim around token = .done none := by
  have hExpand : r.expand around token = .done none := by
    simp only [expand, Rule.isNested_iff.mp hr, expandStock, hSplit]
    cases around.within <;> rfl
  exact claim_of_expand hExpand

/-- Only recognizers of nested documents look at how deep they are and at what is within. -/
theorem claim_of_not_nested {around : Surroundings}
    (within? : Option (Json → List Text → Outcome Json)) (hr : r.rule.isNested = false) :
    r.claim around token = r.claim { around with within := within? } token := by
  have hExpand : r.expand around token = r.expand { around with within := within? } token := by
    unfold expand
    cases hRule : r.rule with
    | stock stock =>
        cases stock with
        | nested => simp [hRule, Rule.isNested] at hr
        | _ => rfl
    | table entries => rfl
    | unspecified => rfl
  rw [claim, claim, hExpand]

end Recognizer

section

variable {around : Recognizer.Surroundings} {token : Text} {r : Recognizer}

theorem claimFirst_of_claimed {ps : List Piece} (h : r.claim around token = .done (some ps))
    (rs : List Recognizer) : claimFirst around token (r :: rs) = .done ps := by
  rw [claimFirst, h]
  exact Outcome.done_andThen (some ps) _

theorem claimFirst_of_fail {failure : Failure} (h : r.claim around token = .fail failure)
    (rs : List Recognizer) : claimFirst around token (r :: rs) = .fail failure := by
  rw [claimFirst, h]
  rfl

theorem claimFirst_of_declined (h : r.claim around token = .done none) (rs : List Recognizer) :
    claimFirst around token (r :: rs) = claimFirst around token rs := by
  rw [claimFirst, h]
  exact Outcome.done_andThen none _

/-- Recognizers that decline a token leave it to those after them. -/
theorem claimFirst_append_of_declined {before : List Recognizer}
    (h : ∀ r ∈ before, r.claim around token = .done none) (rest : List Recognizer) :
    claimFirst around token (before ++ rest) = claimFirst around token rest := by
  induction before with
  | nil => rfl
  | cons r before ih =>
      obtain ⟨hFirst, hOthers⟩ := List.forall_mem_cons.mp h
      exact (claimFirst_of_declined hFirst _).trans (ih hOthers)

end

/-! ## Uniform depth -/

section Uniform

variable {folder : Folder} {fieldsMeta : Json} {token : Text}
  {within : Json → List Text → Outcome Json}

theorem claimFirst_of_split_none {rs : List Recognizer} (hSplit : Nested.split? token = none)
    (within within' : Option (Json → List Text → Outcome Json)) :
    claimFirst ⟨folder, fieldsMeta, within⟩ token rs =
      claimFirst ⟨folder, fieldsMeta, within'⟩ token rs := by
  induction rs with
  | nil => rfl
  | cons r rs ih =>
      have hClaim : r.claim ⟨folder, fieldsMeta, within⟩ token =
          r.claim ⟨folder, fieldsMeta, within'⟩ token := by
        cases hr : r.rule.isNested with
        | true => rw [r.claim_nested_of_none hr hSplit, r.claim_nested_of_none hr hSplit]
        | false => exact r.claim_of_not_nested within' hr
      rw [claimFirst, claimFirst, hClaim, ih]

/-- Of several recognizers of nested documents the first claims the token, so that the depths of the
others do not matter. -/
theorem claimFirst_uniform {rs : List Recognizer} {depth : Json}
    (h : ∀ r, rs.find? (·.rule.isNested) = some r → r.depth = depth) :
    claimFirst ⟨folder, fieldsMeta, some within⟩ token rs =
      claimFirst ⟨folder, fieldsMeta, some fun _ => within depth⟩ token rs := by
  induction rs with
  | nil => rfl
  | cons r rs ih =>
      cases hr : r.rule.isNested with
      | false =>
          rw [claimFirst, claimFirst, ih (by simpa [List.find?_cons, hr] using h),
            r.claim_of_not_nested (some fun _ => within depth) hr]
      | true =>
          have hDepth : r.depth = depth := h r (by simp [hr])
          cases hSplit : Nested.split? token with
          | none => exact claimFirst_of_split_none hSplit _ _
          | some parts =>
              obtain ⟨path, inner⟩ := parts
              rw [claimFirst, claimFirst, r.claim_nested hr hSplit, r.claim_nested hr hSplit,
                hDepth, Outcome.bind_def, Outcome.bind_def, Outcome.andThen_assoc,
                Outcome.andThen_assoc]
              simp only [Outcome.done_andThen]

end Uniform

/-! ## Relations of compilations -/

variable {R : ∀ α : Type, Outcome α → Outcome α → Prop}

open Outcome in
theorem Recognizer.claim_congr (hR : IsCongruence R) {r r' : Recognizer} {folder folder' : Folder}
    {fieldsMeta : Json} {token : Text} {w w' : List Text → Outcome Json} (hName : r'.name = r.name)
    (hRule : r'.rule = r.rule) (hFolder : folder' = folder ∨ r.rule ≠ .stock .fileExpansion)
    (hw : ∀ inner, R _ (w inner) (w' inner)) :
    R _ (r.claim ⟨folder, fieldsMeta, some fun _ => w⟩ token)
      (r'.claim ⟨folder', fieldsMeta, some fun _ => w'⟩ token) := by
  cases hr : r.rule.isNested with
  | true =>
      have hr' : r'.rule.isNested = true := hRule ▸ hr
      cases hSplit : Nested.split? token with
      | none =>
          rw [r.claim_nested_of_none hr hSplit, r'.claim_nested_of_none hr' hSplit]
          exact hR.refl _
      | some parts =>
          obtain ⟨path, inner⟩ := parts
          rw [r.claim_nested hr hSplit, r'.claim_nested hr' hSplit, hName]
          exact hR.bind (hw inner) fun query _ => hR.refl _
  | false =>
      have hExpand : r.expand ⟨folder, fieldsMeta, some fun _ => w⟩ token =
          r'.expand ⟨folder', fieldsMeta, some fun _ => w'⟩ token := by
        unfold expand
        rw [hRule]
        cases hKind : r.rule with
        | stock stock =>
            cases stock with
            | nested => simp [hKind, Rule.isNested] at hr
            | fileExpansion =>
                rcases hFolder with rfl | hOther
                · rfl
                · exact absurd hKind hOther
            | _ => rfl
        | table entries => rfl
        | unspecified => rfl
      rw [claim, claim, hExpand, hName]
      exact hR.refl _

theorem claimFirst_congr (hR : Outcome.IsCongruence R) {around around' : Recognizer.Surroundings}
    {token : Text} {slots : List Slot} {fill fill' : Slot → Recognizer}
    (h : ∀ slot ∈ slots, R _ ((fill slot).claim around token) ((fill' slot).claim around' token)) :
    R _ (claimFirst around token (slots.map fill))
      (claimFirst around' token (slots.map fill')) := by
  induction slots with
  | nil => exact hR.refl _
  | cons slot slots ih =>
      refine hR.bind (h slot List.mem_cons_self) fun claimed? _ => ?_
      cases claimed? with
      | some pieces => exact hR.refl _
      | none => exact ih fun other hOther => h other (List.mem_cons_of_mem slot hOther)

end Token

end LogQuery
