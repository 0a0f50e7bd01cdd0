import LogQuery.Text.Order
import Mathlib.Data.List.Pairwise

/-! Sorting by halving, where any two items can be compared and the order has no gaps. It gives the
items in order, whatever order they come in. -/

namespace LogQuery.Text

variable {α ε : Type} {lt : α → α → Bool} {a b c : α} {as bs : List α}

/-- Items that are not before one another are alike, and those alike to one are alike. -/
structure IsWeakOrder (lt : α → α → Bool) : Prop where
  asymm {a b : α} (h : lt a b = true) : lt b a = false
  trans_false {a b c : α} (h : lt a b = false) (h' : lt b c = false) : lt a c = false

theorem IsWeakOrder.trans (hOrder : IsWeakOrder lt) (h : lt a b = true) (h' : lt b c = true) :
    lt a c = true := by
  by_contra hNot
  have hBack := hOrder.trans_false (Bool.eq_false_iff.mpr hNot) (hOrder.asymm h')
  rw [h] at hBack
  cases hBack

/-- No item comes before one that stands in front of it. -/
def InOrder (lt : α → α → Bool) (as : List α) : Prop :=
  as.Pairwise fun a b => lt b a = false

/-- A comparison that does not fail. -/
def sure (lt : α → α → Bool) (a b : α) : Except ε Bool :=
  .ok (lt a b)

/-! ## The first run -/

theorem chainFrom_sure (lt : α → α → Bool) (falls : Bool) (a : α) (bs : List α) :
    ∃ front rest, chainFrom (runsOn (sure lt : α → α → Except ε Bool) falls) a bs =
        .ok (front, rest) ∧ (a :: front).IsChain fun a b => lt b a = falls := by
  induction bs generalizing a with
  | nil => exact ⟨[], [], rfl, .singleton a⟩
  | cons b bs ih =>
      obtain ⟨front, rest, hFront, hChain⟩ := ih b
      have hRuns : runsOn (sure lt : α → α → Except ε Bool) falls a b = .ok (lt b a == falls) := rfl
      rw [chainFrom, hRuns, hFront]
      by_cases h : lt b a = falls
      · refine ⟨b :: front, rest, ?_, .cons_cons h hChain⟩
        rw [beq_iff_eq.mpr h]
        rfl
      · refine ⟨[], b :: bs, ?_, .singleton a⟩
        rw [beq_eq_false_iff_ne.mpr h]
        rfl

theorem firstRun_sure (hOrder : IsWeakOrder lt) (as : List α) :
    ∃ run rest, firstRun (sure lt : α → α → Except ε Bool) as = .ok (run, rest) ∧
      InOrder lt run := by
  match as with
  | [] => exact ⟨[], [], rfl, .nil⟩
  | [a] => exact ⟨[a], [], rfl, List.pairwise_singleton _ _⟩
  | a :: b :: bs =>
    obtain ⟨front, rest, hFront, hChain⟩ := chainFrom_sure (ε := ε) lt (lt b a) b bs
    have hRun : firstRun (sure lt : α → α → Except ε Bool) (a :: b :: bs) =
        .ok (if lt b a then (a :: b :: front).reverse else a :: b :: front, rest) := by
      rw [firstRun]
      show (do
        let parts ← chainFrom (runsOn (sure lt) (lt b a)) b bs
        _) = _
      rw [hFront]
      rfl
    refine ⟨_, rest, hRun, ?_⟩
    have hAll : (a :: b :: front).IsChain fun c d => lt d c = lt b a := .cons_cons rfl hChain
    cases hFalls : lt b a with
    | false =>
        rw [hFalls] at hAll
        have hTrans : Trans (fun c d : α => lt d c = false) (fun c d => lt d c = false)
            (fun c d => lt d c = false) := ⟨fun h h' => hOrder.trans_false h' h⟩
        exact hAll.pairwise
    | true =>
        rw [hFalls] at hAll
        have hTrans : Trans (fun c d : α => lt d c = true) (fun c d => lt d c = true)
            (fun c d => lt d c = true) := ⟨fun h h' => hOrder.trans h' h⟩
        rw [if_pos rfl, InOrder, List.pairwise_reverse]
        exact hAll.pairwise.imp fun h => hOrder.asymm h

/-! ## Places -/

/-- Halving finds where the items begin that an item comes before. -/
theorem placeByHalving_sure (hOrder : IsWeakOrder lt) (a : α) {fuel : Nat}
    (hFuel : bs.length ≤ fuel) (hSorted : InOrder lt bs) :
    ∃ low high, bs = low ++ high ∧
      placeByHalving (sure lt : α → α → Except ε Bool) a fuel bs = .ok low.length ∧
      (∀ b ∈ low, lt a b = false) ∧ ∀ b ∈ high, lt a b = true := by
  induction fuel generalizing bs with
  | zero =>
      obtain rfl : bs = [] := List.length_eq_zero_iff.mp (by omega)
      exact ⟨[], [], rfl, rfl, by simp, by simp⟩
  | succ fuel ih =>
      have hBelow : (bs.take (bs.length / 2)).length = bs.length / 2 := by
        rw [List.length_take]
        omega
      have hCut := List.take_append_drop (bs.length / 2) bs
      rw [placeByHalving]
      cases hDrop : bs.drop (bs.length / 2) with
      | nil =>
          obtain rfl : bs = [] := by
            rw [List.drop_eq_nil_iff] at hDrop
            exact List.length_eq_zero_iff.mp (by omega)
          exact ⟨[], [], rfl, rfl, by simp, by simp⟩
      | cons middle above =>
          rw [hDrop] at hCut
          generalize bs.take (bs.length / 2) = below at hBelow hCut ⊢
          rw [← hCut, List.length_append, List.length_cons] at hFuel
          rw [← hCut, InOrder, List.pairwise_append, List.pairwise_cons] at hSorted
          obtain ⟨hLow, ⟨hMiddle, hHigh⟩, hAcross⟩ := hSorted
          have hCompare : (sure lt a middle : Except ε Bool) = .ok (lt a middle) := rfl
          dsimp only
          rw [hCompare]
          cases hBefore : lt a middle with
          | true =>
              obtain ⟨low, high, rfl, hPlace, hNot, hLess⟩ := ih (by omega) hLow
              refine ⟨low, high ++ middle :: above, by rw [← hCut, List.append_assoc], hPlace, hNot,
                ?_⟩
              rw [List.forall_mem_append, List.forall_mem_cons]
              refine ⟨hLess, hBefore, fun b hb => ?_⟩
              by_contra hNotLess
              have hMiddleNot :=
                hOrder.trans_false (Bool.eq_false_iff.mpr hNotLess) (hMiddle b hb)
              rw [hBefore] at hMiddleNot
              cases hMiddleNot
          | false =>
              obtain ⟨low, high, rfl, hPlace, hNot, hLess⟩ := ih (by omega) hHigh
              refine ⟨below ++ middle :: low, high, ?_, ?_, ?_, hLess⟩
              · rw [← hCut, List.append_assoc, List.cons_append]
              · have hCount : bs.length / 2 + 1 + low.length = (below ++ middle :: low).length := by
                  rw [List.length_append, List.length_cons, hBelow]
                  omega
                show (placeByHalving (sure lt) a fuel (low ++ high) >>= fun place =>
                  (.ok (bs.length / 2 + 1 + place) : Except ε Nat)) = _
                rw [hPlace, ← hCount]
                rfl
              · rw [List.forall_mem_append, List.forall_mem_cons]
                refine ⟨fun b hb => ?_, hBefore, hNot⟩
                exact hOrder.trans_false hBefore (hAcross b hb middle List.mem_cons_self)

theorem insertByHalving_sure (hOrder : IsWeakOrder lt) (a : α) (hSorted : InOrder lt bs) :
    ∃ more, insertByHalving (sure lt : α → α → Except ε Bool) bs a = .ok more ∧
      InOrder lt more := by
  obtain ⟨low, high, rfl, hPlace, hNot, hLess⟩ :=
    placeByHalving_sure (ε := ε) hOrder a (Nat.le_refl _) hSorted
  refine ⟨low ++ a :: high, ?_, ?_⟩
  · rw [insertByHalving, hPlace]
    show Except.ok (_ ++ a :: _) = _
    rw [List.take_left, List.drop_left]
  · rw [InOrder, List.pairwise_append] at hSorted ⊢
    obtain ⟨hLow, hHigh, hAcross⟩ := hSorted
    refine ⟨hLow, List.pairwise_cons.mpr ⟨fun b hb => hOrder.asymm (hLess b hb), hHigh⟩, ?_⟩
    intro b hb
    exact List.forall_mem_cons.mpr ⟨hNot b hb, hAcross b hb⟩

/-- Items that can all be compared are sorted. -/
theorem exists_sortByHalving (hOrder : IsWeakOrder lt) (as : List α) :
    ∃ bs, sortByHalving (sure lt : α → α → Except ε Bool) as = .ok bs ∧ InOrder lt bs := by
  obtain ⟨run, rest, hRun, hSorted⟩ := firstRun_sure (ε := ε) hOrder as
  rw [sortByHalving, hRun]
  show ∃ bs, rest.foldlM (insertByHalving (sure lt)) run = .ok bs ∧ InOrder lt bs
  clear hRun
  induction rest generalizing run with
  | nil => exact ⟨run, rfl, hSorted⟩
  | cons a rest ih =>
      obtain ⟨more, hMore, hInOrder⟩ := insertByHalving_sure (ε := ε) hOrder a hSorted
      rw [List.foldlM_cons, hMore]
      exact ih more hInOrder

end LogQuery.Text
