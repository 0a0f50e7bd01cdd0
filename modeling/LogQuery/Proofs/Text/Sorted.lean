import LogQuery.Text.Order
import Mathlib.Data.List.Nodup
import Mathlib.Data.List.Sort

/-! Sorting by code points. Texts are linearly ordered, so what they are sorted to does not depend on
the order in which they come. -/

namespace LogQuery

namespace CodePoint

theorem toNat_injective : Function.Injective toNat :=
  Function.LeftInverse.injective ofNat_toNat

instance : LE CodePoint := ⟨fun c d => c.toNat ≤ d.toNat⟩

theorem le_def {c d : CodePoint} : c ≤ d ↔ c.toNat ≤ d.toNat := Iff.rfl

instance : Std.LawfulOrderLT CodePoint where
  lt_iff c d := by
    rw [lt_def, le_def, le_def]
    omega

instance : Std.IsLinearOrder CodePoint where
  le_refl c := Nat.le_refl c.toNat
  le_trans _ _ _ hb hc := Nat.le_trans hb hc
  le_antisymm _ _ hc hd := toNat_injective (Nat.le_antisymm hc hd)
  le_total c d := Nat.le_total c.toNat d.toNat

end CodePoint

namespace Text

variable {α β : Type}

theorem insertBy_eq_orderedInsert (lt : α → α → Bool) (a : α) (bs : List α) :
    insertBy lt a bs = bs.orderedInsert (fun a b => lt b a = false) a := by
  induction bs with
  | nil => rfl
  | cons b bs ih => cases h : lt b a <;> simp [insertBy, h, ih]

theorem sortBy_eq_insertionSort (lt : α → α → Bool) (as : List α) :
    sortBy lt as = as.insertionSort (fun a b => lt b a = false) := by
  induction as with
  | nil => rfl
  | cons a as ih => rw [sortBy, ih, insertBy_eq_orderedInsert, List.insertionSort_cons]

theorem sort_eq_insertionSort (texts : List Text) : sort texts = texts.insertionSort (· ≤ ·) := by
  rw [sort, sortBy_eq_insertionSort]
  simp only [before, decide_eq_false_iff_not, List.not_lt]

/-- Sorting forgets the order in which texts come. -/
theorem sort_eq_of_perm {texts others : List Text} (h : texts.Perm others) :
    sort texts = sort others := by
  have hSorted := List.pairwise_insertionSort (· ≤ · : Text → Text → Prop)
  rw [sort_eq_insertionSort, sort_eq_insertionSort]
  apply List.Perm.eq_of_pairwise' (r := (· ≤ ·)) (hSorted texts) (hSorted others)
  exact (List.perm_insertionSort _ texts).trans (h.trans (List.perm_insertionSort _ others).symm)

theorem pairwise_sort (texts : List Text) : (sort texts).Pairwise (· ≤ ·) := by
  rw [sort_eq_insertionSort]
  exact List.pairwise_insertionSort (· ≤ ·) texts

/-- Distinct texts are sorted strictly. -/
theorem pairwise_lt_sort {texts : List Text} (h : texts.Nodup) :
    (sort texts).Pairwise (· < ·) := by
  have hNodup : (sort texts).Nodup := (sortBy_perm before texts).nodup_iff.mpr h
  refine ((pairwise_sort texts).and hNodup).imp ?_
  rintro s t ⟨hLe, hNe⟩
  exact Std.lt_of_le_of_ne hLe hNe

/-- Some of the texts sorted are some of the sorted texts. -/
theorem sort_filter (p : Text → Bool) (texts : List Text) :
    sort (texts.filter p) = (sort texts).filter p := by
  apply List.Perm.eq_of_pairwise' (r := (· ≤ ·)) (pairwise_sort _)
    ((pairwise_sort texts).filter p)
  exact (sortBy_perm before _).trans ((sortBy_perm before texts).filter p).symm

/-- An item is put somewhere among the others. -/
theorem exists_insertBy (lt : α → α → Bool) (a : α) (bs : List α) :
    ∃ front rest, bs = front ++ rest ∧ insertBy lt a bs = front ++ a :: rest := by
  induction bs with
  | nil => exact ⟨[], [], rfl, rfl⟩
  | cons b bs ih =>
      obtain ⟨front, rest, rfl, hInsert⟩ := ih
      cases h : lt b a with
      | false => exact ⟨[], b :: (front ++ rest), rfl, by simp [insertBy, h]⟩
      | true => exact ⟨b :: front, rest, rfl, by simp [insertBy, h, hInsert]⟩

theorem filter_insertBy {lt : α → α → Bool} {p : α → Bool} {a : α} {bs : List α}
    (h : ∀ b ∈ bs, p a = true → p b = true → lt b a = false) :
    (insertBy lt a bs).filter p = (a :: bs).filter p := by
  induction bs with
  | nil => rfl
  | cons b bs ih =>
      obtain ⟨hFirst, hRest⟩ := List.forall_mem_cons.mp h
      cases hLess : lt b a with
      | false => simp [insertBy, hLess]
      | true =>
          rw [insertBy, if_pos hLess, List.filter_cons, ih hRest]
          cases ha : p a with
          | false => simp [ha, List.filter_cons]
          | true =>
              have hb : p b = false := by
                by_contra hb
                rw [hFirst ha (by simpa using hb)] at hLess
                cases hLess
              simp [ha, hb]

/-- Sorting leaves items in place that are all equal in order. -/
theorem filter_sortBy {lt : α → α → Bool} {p : α → Bool}
    (h : ∀ a b, p a = true → p b = true → lt b a = false) (as : List α) :
    (sortBy lt as).filter p = as.filter p := by
  induction as with
  | nil => rfl
  | cons a as ih =>
      rw [sortBy, filter_insertBy fun b _ => h a b, List.filter_cons, List.filter_cons, ih]

theorem before_self (s : Text) : before s s = false := by
  simp [before]

theorem insertBy_map {lt : α → α → Bool} {lt' : β → β → Bool} {f : α → β}
    (h : ∀ a b, lt' (f a) (f b) = lt a b) (a : α) (bs : List α) :
    insertBy lt' (f a) (bs.map f) = (insertBy lt a bs).map f := by
  induction bs with
  | nil => rfl
  | cons b bs ih => cases hb : lt b a <;> simp [insertBy, h, hb, ih]

/-- Sorting images by what they are images of. -/
theorem sortBy_map {lt : α → α → Bool} {lt' : β → β → Bool} {f : α → β}
    (h : ∀ a b, lt' (f a) (f b) = lt a b) (as : List α) :
    sortBy lt' (as.map f) = (sortBy lt as).map f := by
  induction as with
  | nil => rfl
  | cons a as ih => rw [List.map_cons, sortBy, ih, insertBy_map h, sortBy]

/-- Sorting by distinct names forgets the order in which the items come. -/
theorem sortBy_name_eq_of_perm {as bs : List (Text × α)} (hNodup : (as.map (·.1)).Nodup)
    (h : as.Perm bs) :
    sortBy (fun a b => before a.1 b.1) as = sortBy (fun a b => before a.1 b.1) bs := by
  have hSorted (cs : List (Text × α)) :
      (sortBy (fun a b => before a.1 b.1) cs).Pairwise fun a b => a.1 ≤ b.1 := by
    have hNames : sort (cs.map Prod.fst) = (sortBy (fun a b => before a.1 b.1) cs).map Prod.fst :=
      sortBy_map (fun _ _ => rfl) cs
    rw [← List.pairwise_map (f := Prod.fst) (R := fun s t : Text => s ≤ t), ← hNames]
    exact pairwise_sort _
  have hPerm : (sortBy (fun a b => before a.1 b.1) as).Perm (sortBy (fun a b => before a.1 b.1) bs) :=
    (sortBy_perm _ as).trans (h.trans (sortBy_perm _ bs).symm)
  apply List.Perm.eq_of_pairwise _ (hSorted as) (hSorted bs) hPerm
  intro a b ha hb hab hba
  have hMem : b ∈ as := h.mem_iff.mpr ((sortBy_perm _ bs).mem_iff.mp hb)
  have hName : a.1 = b.1 := Std.le_antisymm hab hba
  exact List.inj_on_of_nodup_map hNodup (mem_sortBy.mp ha) hMem hName

/-! ## Sorting by halving -/

section Map

variable {ε : Type} {lt : α → α → Except ε Bool} {lt' : β → β → Except ε Bool} {f : α → β}

theorem chainFrom_map {goesOn : α → α → Except ε Bool} {goesOn' : β → β → Except ε Bool}
    (h : ∀ a b, goesOn' (f a) (f b) = goesOn a b) (a : α) (as : List α) :
    chainFrom goesOn' (f a) (as.map f) =
      (fun parts => (parts.1.map f, parts.2.map f)) <$> chainFrom goesOn a as := by
  induction as generalizing a with
  | nil => rfl
  | cons b bs ih =>
      rw [List.map_cons, chainFrom, chainFrom, h, ih]
      cases goesOn a b with
      | error failure => rfl
      | ok goes =>
          cases goes with
          | false => rfl
          | true => cases chainFrom goesOn b bs <;> rfl

theorem firstRun_map (h : ∀ a b, lt' (f a) (f b) = lt a b) (as : List α) :
    firstRun lt' (as.map f) =
      (fun parts => (parts.1.map f, parts.2.map f)) <$> firstRun lt as := by
  match as with
  | [] => rfl
  | [a] => rfl
  | a :: b :: bs =>
    rw [List.map_cons, List.map_cons, firstRun, firstRun, h]
    cases lt b a with
    | error failure => rfl
    | ok falls =>
        have hRuns : ∀ x y, runsOn lt' falls (f x) (f y) = runsOn lt falls x y := by
          intro x y
          rw [runsOn, runsOn, h]
        show (do
          let parts ← chainFrom (runsOn lt' falls) (f b) (bs.map f)
          _) = _ <$> (do
          let parts ← chainFrom (runsOn lt falls) b bs
          _)
        rw [chainFrom_map hRuns]
        cases chainFrom (runsOn lt falls) b bs with
        | error failure => rfl
        | ok parts =>
            cases falls <;> simp [Functor.map, Except.map, bind, Except.bind, pure, Except.pure]

theorem placeByHalving_map (h : ∀ a b, lt' (f a) (f b) = lt a b) (a : α) (fuel : Nat)
    (bs : List α) : placeByHalving lt' (f a) fuel (bs.map f) = placeByHalving lt a fuel bs := by
  induction fuel generalizing bs with
  | zero => rfl
  | succ fuel ih =>
      rw [placeByHalving, placeByHalving, List.length_map, ← List.map_drop, ← List.map_take]
      cases bs.drop (bs.length / 2) with
      | nil => rfl
      | cons middle above => simp only [List.map_cons, h, ih]

theorem insertByHalving_map (h : ∀ a b, lt' (f a) (f b) = lt a b) (bs : List α) (a : α) :
    insertByHalving lt' (bs.map f) (f a) = List.map f <$> insertByHalving lt bs a := by
  rw [insertByHalving, insertByHalving, List.length_map, placeByHalving_map h]
  cases placeByHalving lt a bs.length bs with
  | error failure => rfl
  | ok place => simp [Functor.map, Except.map, bind, Except.bind, pure, Except.pure]

/-- Sorting images by what they are images of. -/
theorem sortByHalving_map (h : ∀ a b, lt' (f a) (f b) = lt a b) (as : List α) :
    sortByHalving lt' (as.map f) = List.map f <$> sortByHalving lt as := by
  have hFold : ∀ rest run : List α, (rest.map f).foldlM (insertByHalving lt') (run.map f) =
      List.map f <$> rest.foldlM (insertByHalving lt) run := by
    intro rest
    induction rest with
    | nil => exact fun run => rfl
    | cons a rest ih =>
        intro run
        rw [List.map_cons, List.foldlM_cons, List.foldlM_cons, insertByHalving_map h]
        cases insertByHalving lt run a with
        | error failure => rfl
        | ok more => exact ih more
  rw [sortByHalving, sortByHalving, firstRun_map h]
  cases firstRun lt as with
  | error failure => rfl
  | ok parts => exact hFold parts.2 parts.1

end Map

end Text

end LogQuery
