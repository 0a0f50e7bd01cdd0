import LogQuery.Text.Basic

/-!
Sorting that keeps the order of equal items. A sorted list is a permutation of the one it came from.
Of the two ways to sort the second finds the place of each item by halving those sorted before, and
it may fail to compare two items. Where the order has gaps, such as a number that is none, the ways
may differ.
-/

namespace LogQuery.Text

variable {α ε : Type}

/-- Put an item before the first one that does not come before it. -/
def insertBy (lt : α → α → Bool) (a : α) : List α → List α
  | [] => [a]
  | b :: bs => if lt b a then b :: insertBy lt a bs else a :: b :: bs

/-- The items in order; of two that are equal in order the first stays first. -/
def sortBy (lt : α → α → Bool) : List α → List α
  | [] => []
  | a :: as => insertBy lt a (sortBy lt as)

/-- The items in front of a list that each go on from the one before, the first from `a`, and the
rest. -/
def chainFrom (goesOn : α → α → Except ε Bool) (a : α) : List α → Except ε (List α × List α)
  | [] => .ok ([], [])
  | b :: bs => do
    if ← goesOn a b then
      let (front, rest) ← chainFrom goesOn b bs
      return (b :: front, rest)
    else return ([], b :: bs)

/-- An item falls below the one before it, or it does not, as `falls` says. -/
def runsOn (lt : α → α → Except ε Bool) (falls : Bool) (a b : α) : Except ε Bool :=
  return (← lt b a) == falls

/-- The front that is in order already, or in reverse order and then turned, and the rest. -/
def firstRun (lt : α → α → Except ε Bool) : List α → Except ε (List α × List α)
  | a :: b :: bs => do
    let falls ← lt b a
    let (front, rest) ← chainFrom (runsOn lt falls) b bs
    return (if falls then (a :: b :: front).reverse else a :: b :: front, rest)
  | short => .ok (short, [])

/-- How many items an item goes behind, found by halving them again and again. The fuel bounds the
number of halvings. -/
def placeByHalving (lt : α → α → Except ε Bool) (a : α) : Nat → List α → Except ε Nat
  | 0, _ => .ok 0
  | fuel + 1, bs =>
    match bs.drop (bs.length / 2) with
    | [] => .ok 0
    | middle :: above => do
      if ← lt a middle then placeByHalving lt a fuel (bs.take (bs.length / 2))
      else return bs.length / 2 + 1 + (← placeByHalving lt a fuel above)

/-- Put an item behind as many items as it goes behind. -/
def insertByHalving (lt : α → α → Except ε Bool) (bs : List α) (a : α) :
    Except ε (List α) := do
  let place ← placeByHalving lt a bs.length bs
  return bs.take place ++ a :: bs.drop place

/-- The items in order: those after the first run are put into it one after the other. It fails if
two items that are compared on the way cannot be. -/
def sortByHalving (lt : α → α → Except ε Bool) (as : List α) : Except ε (List α) := do
  let (run, rest) ← firstRun lt as
  rest.foldlM (insertByHalving lt) run

/-- Texts in the order of their code points. -/
def before (s t : Text) : Bool :=
  decide (s < t)

/-- Texts sorted by code points. -/
def sort (ss : List Text) : List Text :=
  sortBy before ss

theorem insertBy_perm (lt : α → α → Bool) (a : α) (bs : List α) :
    (insertBy lt a bs).Perm (a :: bs) := by
  induction bs with
  | nil => exact List.Perm.refl _
  | cons b bs ih =>
    by_cases h : lt b a
    · simpa [insertBy, h] using (List.Perm.cons b ih).trans (List.Perm.swap a b bs)
    · simp [insertBy, h]

theorem sortBy_perm (lt : α → α → Bool) (as : List α) : (sortBy lt as).Perm as := by
  induction as with
  | nil => exact List.Perm.refl _
  | cons a as ih => exact (insertBy_perm lt a _).trans (List.Perm.cons a ih)

theorem chainFrom_append {goesOn : α → α → Except ε Bool} {a : α} {as front rest : List α}
    (h : chainFrom goesOn a as = .ok (front, rest)) : front ++ rest = as := by
  induction as generalizing a front rest with
  | nil =>
    cases h
    rfl
  | cons b bs ih =>
    unfold chainFrom at h
    cases hg : goesOn a b with
    | error e => simp [hg, bind, Except.bind] at h
    | ok goes =>
      cases goes with
      | false =>
        simp [hg, bind, Except.bind, pure, Except.pure] at h
        simp [← h.1, ← h.2]
      | true =>
        cases hc : chainFrom goesOn b bs with
        | error e => simp [hg, hc, bind, Except.bind] at h
        | ok parts =>
          simp [hg, hc, bind, Except.bind, pure, Except.pure] at h
          rw [← h.1, ← h.2, List.cons_append, ih hc]

theorem firstRun_perm {lt : α → α → Except ε Bool} {as run rest : List α}
    (h : firstRun lt as = .ok (run, rest)) : (run ++ rest).Perm as := by
  match as with
  | [] =>
    cases h
    exact List.Perm.refl _
  | [a] =>
    cases h
    exact List.Perm.refl _
  | a :: b :: bs =>
    unfold firstRun at h
    cases hf : lt b a with
    | error e => simp [hf, bind, Except.bind] at h
    | ok falls =>
      cases hc : chainFrom (runsOn lt falls) b bs with
      | error e => simp [hf, hc, bind, Except.bind] at h
      | ok parts =>
        simp only [hf, hc, bind, Except.bind, pure, Except.pure, Except.ok.injEq,
          Prod.mk.injEq] at h
        have happend : a :: b :: parts.1 ++ parts.2 = a :: b :: bs := by
          rw [List.cons_append, List.cons_append, chainFrom_append hc]
        rw [← h.1, ← h.2, ← happend]
        cases falls with
        | false => exact List.Perm.refl _
        | true => exact (List.reverse_perm _).append_right _

theorem insertByHalving_perm {lt : α → α → Except ε Bool} {as bs : List α} {a : α}
    (h : insertByHalving lt as a = .ok bs) : bs.Perm (a :: as) := by
  unfold insertByHalving at h
  cases hp : placeByHalving lt a as.length as with
  | error e => simp [hp, bind, Except.bind] at h
  | ok place =>
    simp only [hp, bind, Except.bind, pure, Except.pure, Except.ok.injEq] at h
    rw [← h]
    exact List.perm_middle.trans (by rw [List.take_append_drop])

theorem sortByHalving_perm {lt : α → α → Except ε Bool} {as bs : List α}
    (h : sortByHalving lt as = .ok bs) : bs.Perm as := by
  have fold : ∀ rest run done : List α, rest.foldlM (insertByHalving lt) run = .ok done →
      done.Perm (run ++ rest) := by
    intro rest
    induction rest with
    | nil =>
      intro run done hd
      cases hd
      simp
    | cons a rest ih =>
      intro run done hd
      cases hi : insertByHalving lt run a with
      | error e => simp [List.foldlM_cons, hi, bind, Except.bind] at hd
      | ok more =>
        simp only [List.foldlM_cons, hi, bind, Except.bind] at hd
        exact (ih more done hd).trans
          (((insertByHalving_perm hi).append_right rest).trans List.perm_middle.symm)
  unfold sortByHalving at h
  cases hf : firstRun lt as with
  | error e => simp [hf, bind, Except.bind] at h
  | ok parts =>
    simp only [hf, bind, Except.bind] at h
    exact (fold _ _ _ h).trans (firstRun_perm hf)

theorem mem_sortBy {lt : α → α → Bool} {a : α} {as : List α} : a ∈ sortBy lt as ↔ a ∈ as :=
  (sortBy_perm lt as).mem_iff

end LogQuery.Text
