import LogQuery.Proofs.Query.Congruence
import LogQuery.Proofs.Query.Levels

/-! How deep nested queries lie in some tokens. A token opens a nested query if the recognizer of
nested documents comes to claim it, whichever that is. What is compiled of the tokens has no more
levels than they reach, at whatever depth they lie. -/

namespace LogQuery

namespace Token

/-- The tokens in a token, if the recognizer of nested documents comes to claim it: those that are
tried before decline it. -/
def Settings.Opens (folder : Folder) (s : Settings) (token : Text) (inner : List Text) : Prop :=
  ∃ front slot back path, s.slots = .ok (front ++ slot :: back) ∧ slot.rule.isNested = true ∧
    (∀ other ∈ front, other.rule.isNested = false ∧
      (other.bare.claim ⟨folder, s.fieldsMeta, none⟩ token).result = .ok none) ∧
    Nested.split? token = some (path, inner)

variable {folder : Folder} {s s' : Settings}

theorem Slot.claim_fill {slot : Slot} (hNested : slot.rule.isNested = false) {fieldsMeta : Json}
    {token : Text} (w : List Text → Outcome Json) :
    (s.fill slot).claim ⟨folder, fieldsMeta, some fun _ => w⟩ token =
      slot.bare.claim ⟨folder, fieldsMeta, none⟩ token := by
  have hBare : slot.bare.rule.isNested = false := hNested
  rw [slot.bare.claim_of_not_nested (some fun _ => w) hBare]
  exact Recognizer.claim_congr Outcome.isCongruence_eq rfl rfl (.inl rfl) fun _ => rfl

/-- Whoever claims such a token has compiled what is in it. -/
theorem Settings.Opens.exists_within {token : Text} {inner : List Text} {pieces : List Piece}
    {w : List Text → Outcome Json} (h : s.Opens folder token inner)
    {slots : List Slot} (hSlots : s.slots = .ok slots)
    (hPieces : (claimFirst ⟨folder, s.fieldsMeta, some fun _ => w⟩ token
      (slots.map s'.fill)).result = .ok pieces) :
    ∃ query, (w inner).result = .ok query := by
  obtain ⟨front, slot, back, path, hSplit, hNested, hDecline, hInner⟩ := h
  cases hSlots.symm.trans hSplit
  clear hSlots hSplit
  induction front with
  | nil =>
      have hRule : (s'.fill slot).rule.isNested = true := hNested
      rw [List.nil_append, List.map_cons, claimFirst, Recognizer.claim_nested hRule hInner,
        Outcome.bind_def, Outcome.andThen_assoc] at hPieces
      obtain ⟨query, hQuery, -⟩ := Outcome.result_bind_eq_ok_iff.mp hPieces
      exact ⟨query, hQuery⟩
  | cons other front ih =>
      obtain ⟨hOther, hNone⟩ := hDecline other List.mem_cons_self
      rw [List.cons_append, List.map_cons, claimFirst, Slot.claim_fill hOther] at hPieces
      obtain ⟨claimed?, hClaim, hRest⟩ := Outcome.result_bind_eq_ok_iff.mp hPieces
      cases hNone.symm.trans hClaim
      exact ih (fun q hq => hDecline q (List.mem_cons_of_mem other hq)) hRest

theorem Recognizer.Makes.isFlat {around : Surroundings} {depth : Json} {token : Text} {p : Piece}
    (h : Makes around depth token p) : p.IsFlat := by
  cases h with
  | condition hLeaf => exact fun c hc => Option.some.inj hc ▸ hLeaf.isFlat
  | word hWord =>
      obtain ⟨t, ht⟩ := Word.isText_of_piece? hWord
      exact .of_none ht.condition?
  | nested => exact .of_none rfl
  | text => exact .of_none rfl

theorem Recognizer.Makes.nested?_eq_none {around : Surroundings} {depth : Json} {token : Text}
    {p : Piece} (h : Makes around depth token p) (hAlone : around.within = none) :
    p.nested? = none := by
  cases h with
  | condition => rfl
  | word hWord =>
      obtain ⟨t, ht⟩ := Word.isText_of_piece? hWord
      exact ht.nested?
  | nested hWithin => cases hAlone.symm.trans hWithin
  | text => rfl

/-- On its own, a stock recognizer makes no nested query of a token. -/
theorem Recognizer.flat_of_claim {r : Recognizer} {stock : Stock} (hr : r.rule = .stock stock)
    {fieldsMeta : Json} {token : Text} {pieces : List Piece}
    (h : (r.claim ⟨folder, fieldsMeta, none⟩ token).result = .ok (some pieces)) :
    ∀ p ∈ pieces, p.IsFlat ∧ p.nested? = none := by
  obtain ⟨p, rfl, hMakes⟩ := makes_of_claim hr h
  intro q hq
  cases List.mem_singleton.mp hq
  exact ⟨hMakes.isFlat, hMakes.nested?_eq_none rfl⟩

theorem flat_of_claimFirst {rs : List Recognizer} {fieldsMeta : Json} {token : Text}
    {pieces : List Piece} (hStock : ∀ r ∈ rs, ∃ stock, r.rule = .stock stock)
    (h : (claimFirst ⟨folder, fieldsMeta, none⟩ token rs).result = .ok pieces) :
    ∀ p ∈ pieces, p.IsFlat ∧ p.nested? = none := by
  induction rs with
  | nil =>
      cases h
      intro p hp
      cases List.mem_singleton.mp hp
      exact ⟨.of_none rfl, rfl⟩
  | cons r rs ih =>
      obtain ⟨claimed?, hClaim, h⟩ := Outcome.result_bind_eq_ok_iff.mp h
      obtain ⟨stock, hr⟩ := hStock r List.mem_cons_self
      cases claimed? with
      | some claimed =>
          cases Outcome.result_pure_eq_ok_iff.mp h
          exact Recognizer.flat_of_claim hr hClaim
      | none => exact ih (fun q hq => hStock q (List.mem_cons_of_mem r hq)) h

/-- A nested query is made only of a token that opens one. -/
theorem Settings.opens_of_claimFirst {token path : Text} {inner : List Text} {pieces : List Piece}
    {w : List Text → Outcome Json} (hSplit : Nested.split? token = some (path, inner))
    {front slots : List Slot} (hSlots : s.slots = .ok (front ++ slots))
    (hFront : ∀ other ∈ front, other.rule.isNested = false ∧
      (other.bare.claim ⟨folder, s.fieldsMeta, none⟩ token).result = .ok none)
    (hStock : ∀ slot ∈ slots, ∃ stock, slot.rule = .stock stock)
    (h : (claimFirst ⟨folder, s.fieldsMeta, some fun _ => w⟩ token
      (slots.map s'.fill)).result = .ok pieces) :
    ∀ p ∈ pieces, p.IsFlat ∧
      ∀ n, p.nested? = some n → s.Opens folder token inner ∧ (w inner).result = .ok n.query := by
  induction slots generalizing front with
  | nil =>
      cases h
      intro p hp
      cases List.mem_singleton.mp hp
      exact ⟨.of_none rfl, fun n hn => by cases hn⟩
  | cons slot slots ih =>
      cases hNested : slot.rule.isNested with
      | true =>
          have hRule : (s'.fill slot).rule.isNested = true := hNested
          rw [List.map_cons, claimFirst, Recognizer.claim_nested hRule hSplit, Outcome.bind_def,
            Outcome.andThen_assoc] at h
          obtain ⟨query, hQuery, h⟩ := Outcome.result_bind_eq_ok_iff.mp h
          cases h
          intro p hp
          cases List.mem_singleton.mp hp
          refine ⟨.of_none rfl, fun n hn => ?_⟩
          cases hn
          exact ⟨⟨front, slot, slots, path, hSlots, hNested, hFront, hSplit⟩, hQuery⟩
      | false =>
          rw [List.map_cons, claimFirst, Slot.claim_fill hNested] at h
          obtain ⟨claimed?, hClaim, h⟩ := Outcome.result_bind_eq_ok_iff.mp h
          obtain ⟨stock, hRule⟩ := hStock slot List.mem_cons_self
          cases claimed? with
          | some claimed =>
              cases Outcome.result_pure_eq_ok_iff.mp h
              have hBare : slot.bare.rule = .stock stock := hRule
              intro p hp
              obtain ⟨hFlat, hNone⟩ := Recognizer.flat_of_claim hBare hClaim p hp
              exact ⟨hFlat, by simp [hNone]⟩
          | none =>
              rw [List.append_cons] at hSlots
              refine ih hSlots ?_ (fun q hq => hStock q (List.mem_cons_of_mem slot hq)) h
              intro other hOther
              rcases List.mem_append.mp hOther with hOther | hOther
              · exact hFront other hOther
              · cases List.mem_singleton.mp hOther
                exact ⟨hNested, hClaim⟩

end Token

namespace Query

open Token

variable {folder : Folder} {s base : Settings} {w : List Text → Outcome Json}

/-- Nested queries lie so deep in some tokens. -/
inductive Reaches (folder : Folder) (s : Settings) : List Json → Nat → Prop
  | here (tokens : List Json) : Reaches folder s tokens 0
  | within {tokens : List Json} {token : Text} {inner : List Text} {n : Nat}
      (hMem : .str token ∈ tokens) (hOpens : s.Opens folder token inner)
      (h : Reaches folder s (inner.map .str) n) : Reaches folder s tokens (n + 1)

theorem exists_within_of_opens (hAgrees : base.Agrees s) {token : Text} {inner : List Text}
    {ps : List Piece} (hOpens : base.Opens folder token inner)
    (h : (piecesWith folder (fun _ => w) s token).result = .ok ps) :
    ∃ query, (w inner).result = .ok query := by
  obtain ⟨front, slot, back, path, hSlots, -⟩ := id hOpens
  rw [piecesWith_of_slots (hAgrees.slots.trans hSlots), hAgrees.fieldsMeta] at h
  exact hOpens.exists_within hSlots h

/-- What the pieces of a token hold: only of a token that opens it a nested query. -/
theorem opens_of_piecesWith (hAgrees : base.Agrees s) (hStock : s.HasStockExtras) {token : Text}
    {ps : List Piece} (h : (piecesWith folder (fun _ => w) s token).result = .ok ps) :
    ∀ p ∈ ps, p.IsFlat ∧ ∀ n, p.nested? = some n →
      ∃ inner, base.Opens folder token inner ∧ (w inner).result = .ok n.query := by
  cases hSlots : s.slots with
  | error failure =>
      rw [piecesWith_of_error hSlots] at h
      cases h
  | ok slots =>
      rw [piecesWith_of_slots hSlots] at h
      cases hSplit : Nested.split? token with
      | none =>
          rw [claimFirst_of_split_none hSplit _ none] at h
          have hRules : ∀ r ∈ slots.map s.fill, ∃ stock, r.rule = .stock stock := by
            intro r hr
            obtain ⟨slot, hSlot, rfl⟩ := List.mem_map.mp hr
            exact hStock.exists_stock hSlots hSlot
          intro p hp
          obtain ⟨hFlat, hNone⟩ := flat_of_claimFirst hRules h p hp
          exact ⟨hFlat, by simp [hNone]⟩
      | some parts =>
          obtain ⟨path, inner⟩ := parts
          rw [hAgrees.fieldsMeta] at h
          have hBase : base.slots = .ok ([] ++ slots) := hAgrees.slots.symm.trans hSlots
          intro p hp
          obtain ⟨hFlat, hOpens⟩ := Settings.opens_of_claimFirst hSplit hBase nofun
            (fun slot => hStock.exists_stock hSlots) h p hp
          exact ⟨hFlat, fun n hn => ⟨inner, hOpens n hn⟩⟩

/-- The levels of a request are those of the nested query of a token, and one more. -/
theorem levels_of_collect {α : Type} {f : α → Outcome (List Piece)} {tokens : List α} {q : Query}
    {x : Json} (hFlat : ∀ token ps, (f token).result = .ok ps → ∀ p ∈ ps, p.IsFlat)
    (h : (Outcome.collect f tokens >>= fun results =>
      .of (ofPieces s results.flatten)).result = .ok q) (hRender : q.render = .ok x) :
    Clause.levels x = 0 ∨ ∃ token ∈ tokens, ∃ ps, (f token).result = .ok ps ∧ ∃ p ∈ ps, ∃ n,
      p.nested? = some n ∧ Clause.levels x = Clause.levels n.query + 1 := by
  obtain ⟨results, hResults, hPieces⟩ := Outcome.result_bind_eq_ok_iff.mp h
  have hFrom : ∀ p ∈ results.flatten, ∃ token ∈ tokens, ∃ ps,
      (f token).result = .ok ps ∧ p ∈ ps := by
    intro p hp
    obtain ⟨ps, hMem, hp⟩ := List.mem_flatten.mp hp
    obtain ⟨token, hToken, hResult⟩ := Outcome.exists_of_mem_collect hResults hMem
    exact ⟨token, hToken, ps, hResult, hp⟩
  have hAllFlat : ∀ p ∈ results.flatten, p.IsFlat := by
    intro p hp
    obtain ⟨token, -, ps, hResult, hp⟩ := hFrom p hp
    exact hFlat token ps hResult p hp
  refine (levels_of_ofPieces hAllFlat hPieces hRender).imp_right ?_
  rintro ⟨p, hp, n, hn, hLevels⟩
  obtain ⟨token, hToken, ps, hResult, hp⟩ := hFrom p hp
  exact ⟨token, hToken, ps, hResult, p, hp, n, hn, hLevels⟩

/-- As many levels as a nested query has, its tokens reach. -/
theorem reaches_of_compileWithin (hAgrees : base.Agrees s) (hStock : s.HasStockExtras)
    {levels : Nat} {depth : Json} {tokens : List Text} {x : Json}
    (h : (compileWithin folder levels s depth tokens).result = .ok x) :
    Reaches folder base (tokens.map .str) (Clause.levels x) := by
  induction levels generalizing s depth tokens x with
  | zero =>
      obtain ⟨_, -, hFail⟩ := Outcome.result_bind_eq_ok_iff.mp h
      cases hFail
  | succ levels ih =>
      rw [compileWithin_succ] at h
      obtain ⟨deeper, -, h⟩ := Outcome.result_bind_eq_ok_iff.mp h
      obtain ⟨q, hq, hRender⟩ := Outcome.result_bind_eq_ok_iff.mp h
      have hAgreesHere : base.Agrees (s.inner deeper) := hAgrees.trans (s.agrees_inner _)
      have hStockHere : (s.inner deeper).HasStockExtras := hStock
      rcases levels_of_collect (fun token ps hps p hp =>
          (opens_of_piecesWith hAgreesHere hStockHere hps p hp).1) hq hRender with
        hNone | ⟨token, hToken, ps, hps, p, hp, n, hn, hLevels⟩
      · rw [hNone]
        exact .here _
      · obtain ⟨inner, hInner, hResult⟩ :=
          (opens_of_piecesWith hAgreesHere hStockHere hps p hp).2 n hn
        rw [hLevels]
        exact .within (List.mem_map_of_mem hToken) hInner
          (ih (hAgreesHere.trans (Settings.agrees_inUse _)) hStock hResult)

/-- As many levels as a request has, its tokens reach. -/
theorem reaches_of_compileValues (hAgrees : base.Agrees s) (hStock : s.HasStockExtras)
    {tokens : List Json} {q : Query} {x : Json}
    (h : (compileValues folder s tokens).result = .ok q) (hRender : q.render = .ok x) :
    Reaches folder base tokens (Clause.levels x) := by
  have hPieces : ∀ token ps, (piecesOfValue folder s token).result = .ok ps → ∀ p ∈ ps,
      p.IsFlat ∧ ∀ n, p.nested? = some n → ∃ t inner, token = .str t ∧
        base.Opens folder t inner ∧
        (within folder s s.nestedDepth inner).result = .ok n.query := by
    intro token ps hps p hp
    unfold piecesOfValue at hps
    split at hps
    · rename_i t
      rw [pieces, piecesWith_uniform] at hps
      obtain ⟨hFlat, hOpens⟩ := opens_of_piecesWith hAgrees hStock hps p hp
      exact ⟨hFlat, fun n hn => ⟨t, _, rfl, (hOpens n hn).choose_spec⟩⟩
    · obtain ⟨rs, -, hPassed⟩ := Outcome.result_bind_eq_ok_iff.mp hps
      unfold passThrough at hPassed
      split at hPassed
      · cases hPassed
      · cases hPassed
        cases List.mem_singleton.mp hp
        exact ⟨.of_none rfl, fun n hn => by cases hn⟩
  rcases levels_of_collect (fun token ps hps p hp => (hPieces token ps hps p hp).1) h hRender with
    hNone | ⟨token, hToken, ps, hps, p, hp, n, hn, hLevels⟩
  · rw [hNone]
    exact .here _
  · obtain ⟨t, inner, rfl, hInner, hResult⟩ := (hPieces token ps hps p hp).2 n hn
    rw [hLevels]
    exact .within hToken hInner
      (reaches_of_compileWithin (hAgrees.trans s.agrees_inUse) hStock hResult)

end Query

end LogQuery
