import LogQuery.Outcome
import LogQuery.Step
import Mathlib.Data.List.Forall2

/-! Taking results apart. A sequence of steps gave a result exactly if each of its steps did, and
this holds for plain results, for outcomes with warnings, and for steps on a state. -/

namespace LogQuery

section Plain

variable {ε α β : Type}

theorem bind_eq_ok_iff {x : Except ε α} {f : α → Except ε β} {b : β} :
    x >>= f = .ok b ↔ ∃ a, x = .ok a ∧ f a = .ok b := by
  cases x <;> simp [bind, Except.bind]

theorem map_eq_ok_iff {x : Except ε α} {f : α → β} {b : β} :
    f <$> x = .ok b ↔ ∃ a, x = .ok a ∧ f a = b := by
  cases x <;> simp [Functor.map, Except.map]

theorem pure_eq_ok_iff {a b : α} : (pure a : Except ε α) = .ok b ↔ a = b := by
  simp [pure, Except.pure]

theorem exists_eq_ok {x : Except ε α} (h : x.toBool = true) : ∃ a, x = .ok a := by
  cases x with
  | error e => cases h
  | ok a => exact ⟨a, rfl⟩

theorem eq_ok_of_toOption {x : Except ε α} {a : α} (h : x.toOption = some a) : x = .ok a := by
  cases x with
  | error e => cases h
  | ok b => rw [Option.some.inj h]

/-- All items have results, in order, exactly if mapping over the list has one. -/
theorem mapM_eq_ok_iff {f : α → Except ε β} {as : List α} {bs : List β} :
    as.mapM f = .ok bs ↔ List.Forall₂ (fun a b => f a = .ok b) as bs := by
  induction as generalizing bs with
  | nil => simp [pure, Except.pure, eq_comm]
  | cons a as ih =>
      simp only [List.mapM_cons, bind_eq_ok_iff, pure_eq_ok_iff, List.forall₂_cons_left_iff, ih]
      constructor
      · rintro ⟨b, hb, rest, hRest, rfl⟩
        exact ⟨b, rest, hb, hRest, rfl⟩
      · rintro ⟨b, rest, hb, hRest, rfl⟩
        exact ⟨b, hb, rest, hRest, rfl⟩

theorem mapM_eq_some_iff {f : α → Option β} {as : List α} {bs : List β} :
    as.mapM f = some bs ↔ List.Forall₂ (fun a b => f a = some b) as bs := by
  induction as generalizing bs with
  | nil => simp [eq_comm]
  | cons a as ih =>
      simp only [List.mapM_cons, bind, Option.bind_eq_some_iff, List.forall₂_cons_left_iff, ih]
      constructor
      · rintro ⟨b, hb, rest, hRest, hAll⟩
        exact ⟨b, rest, hb, hRest, (Option.some.inj hAll).symm⟩
      · rintro ⟨b, rest, hb, hRest, rfl⟩
        exact ⟨b, hb, rest, hRest, rfl⟩

/-- Every member of a list has its counterpart in the other. -/
theorem exists_forall₂ {r : α → β → Prop} (h : ∀ a, ∃ b, r a b) (as : List α) :
    ∃ bs, List.Forall₂ r as bs := by
  induction as with
  | nil => exact ⟨[], .nil⟩
  | cons a as ih =>
      obtain ⟨b, hFirst⟩ := h a
      obtain ⟨bs, hRest⟩ := ih
      exact ⟨b :: bs, .cons hFirst hRest⟩

theorem exists_of_mem_forall₂ {r : α → β → Prop} {as : List α} {bs : List β} {b : β}
    (h : List.Forall₂ r as bs) (hMem : b ∈ bs) : ∃ a ∈ as, r a b := by
  induction h with
  | nil => cases hMem
  | @cons a _ as _ hFirst _ ih =>
      rcases List.mem_cons.mp hMem with rfl | hMem
      · exact ⟨a, List.mem_cons_self, hFirst⟩
      · obtain ⟨other, hOther, hPair⟩ := ih hMem
        exact ⟨other, List.mem_cons_of_mem a hOther, hPair⟩

/-- Whatever mapping over a list gives is the result of one of its items. -/
theorem exists_of_mem_mapM {f : α → Except ε β} {as : List α} {bs : List β} {b : β}
    (h : as.mapM f = .ok bs) (hMem : b ∈ bs) : ∃ a ∈ as, f a = .ok b := by
  obtain ⟨a, ha, hResult⟩ := exists_of_mem_forall₂ (mapM_eq_ok_iff.mp h) hMem
  exact ⟨a, ha, hResult⟩

theorem exists_of_mapM {f : α → Except ε β} {as : List α} {bs : List β} {a : α}
    (h : as.mapM f = .ok bs) (hMem : a ∈ as) : ∃ b, f a = .ok b := by
  obtain ⟨b, -, hResult⟩ := exists_of_mem_forall₂ (mapM_eq_ok_iff.mp h).flip hMem
  exact ⟨b, hResult⟩

end Plain

/-! ## Failures that do not occur -/

/-- The result is none of the failures of a kind. -/
def Spares {ι α : Type} (kind : ι → Failure) (x : Except Failure α) : Prop :=
  ∀ i, x ≠ .error (kind i)

namespace Spares

variable {ι α β : Type} {kind : ι → Failure} {x : Except Failure α}

theorem ok (a : α) : Spares kind (.ok a) :=
  fun _ h => nomatch h

theorem bind {f : α → Except Failure β} (hx : Spares kind x)
    (hf : ∀ a, x = .ok a → Spares kind (f a)) : Spares kind (x >>= f) := by
  cases x with
  | error failure =>
      intro i h
      cases h
      exact hx i rfl
  | ok a => exact hf a rfl

theorem map (hx : Spares kind x) (f : α → β) : Spares kind (f <$> x) := by
  rw [map_eq_pure_bind]
  exact hx.bind fun a _ => ok (f a)

theorem mapM {f : α → Except Failure β} (h : ∀ a, Spares kind (f a)) (as : List α) :
    Spares kind (as.mapM f) := by
  induction as with
  | nil => exact ok _
  | cons a as ih =>
      rw [List.mapM_cons]
      exact (h a).bind fun _ _ => ih.bind fun _ _ => ok _

theorem foldlM {f : β → α → Except Failure β} (h : ∀ b a, Spares kind (f b a)) (as : List α)
    (b : β) : Spares kind (as.foldlM f b) := by
  induction as generalizing b with
  | nil => exact ok _
  | cons a as ih =>
      rw [List.foldlM_cons]
      exact (h b a).bind fun c _ => ih c

end Spares

namespace Outcome

variable {α β : Type}

@[simp]
theorem result_of (x : Except Failure α) : (of x).result = x := rfl

@[simp]
theorem result_done (a : α) : (done a).result = .ok a := rfl

theorem result_bind_eq_ok_iff {x : Outcome α} {f : α → Outcome β} {b : β} :
    (x >>= f).result = .ok b ↔ ∃ a, x.result = .ok a ∧ (f a).result = .ok b := by
  cases hx : x.result <;> simp [bind_def, andThen, hx]

theorem result_bind_of_ok {x : Outcome α} {f : α → Outcome β} {a : α} (h : x.result = .ok a) :
    (x >>= f).result = (f a).result := by
  simp [bind_def, andThen, h]

theorem result_bind_of_error {x : Outcome α} {f : α → Outcome β} {failure : Failure}
    (h : x.result = .error failure) : (x >>= f).result = .error failure := by
  simp [bind_def, andThen, h]

theorem result_pure_eq_ok_iff {a b : α} : (pure a : Outcome α).result = .ok b ↔ a = b := by
  simp [pure_def]

theorem result_map_eq_ok_iff {x : Outcome α} {f : α → β} {b : β} :
    (f <$> x).result = .ok b ↔ ∃ a, x.result = .ok a ∧ f a = b := by
  simp only [map_eq_pure_bind, result_bind_eq_ok_iff, result_pure_eq_ok_iff]

/-- Collecting has a result exactly if every item has one. -/
theorem result_collect_eq_ok_iff {f : α → Outcome β} {as : List α} {bs : List β} :
    (collect f as).result = .ok bs ↔ List.Forall₂ (fun a b => (f a).result = .ok b) as bs := by
  induction as generalizing bs with
  | nil => simp [collect, eq_comm]
  | cons a as ih =>
      simp only [collect, result_bind_eq_ok_iff, result_pure_eq_ok_iff,
        List.forall₂_cons_left_iff, ih]
      constructor
      · rintro ⟨b, hb, rest, hRest, rfl⟩
        exact ⟨b, rest, hb, hRest, rfl⟩
      · rintro ⟨b, rest, hb, hRest, rfl⟩
        exact ⟨b, hb, rest, hRest, rfl⟩

theorem exists_of_mem_collect {f : α → Outcome β} {as : List α} {bs : List β} {b : β}
    (h : (collect f as).result = .ok bs) (hMem : b ∈ bs) : ∃ a ∈ as, (f a).result = .ok b := by
  obtain ⟨a, ha, hResult⟩ := exists_of_mem_forall₂ (result_collect_eq_ok_iff.mp h) hMem
  exact ⟨a, ha, hResult⟩

theorem exists_of_collect {f : α → Outcome β} {as : List α} {bs : List β} {a : α}
    (h : (collect f as).result = .ok bs) (hMem : a ∈ as) : ∃ b, (f a).result = .ok b := by
  obtain ⟨b, -, hResult⟩ := exists_of_mem_forall₂ (result_collect_eq_ok_iff.mp h).flip hMem
  exact ⟨b, hResult⟩

end Outcome

namespace Step

variable {σ τ α β : Type}

theorem run_bind_eq_ok_iff {x : Step σ α} {f : α → Step σ β} {s t : σ} {b : β} :
    (x >>= f).run s = (.ok b, t) ↔ ∃ a u, x.run s = (.ok a, u) ∧ (f a).run u = (.ok b, t) := by
  rw [run_bind]
  rcases hx : x.run s with ⟨result, u⟩
  cases result <;> simp

theorem run_pure_eq_ok_iff {a b : α} {s t : σ} :
    (pure a : Step σ α).run s = (.ok b, t) ↔ a = b ∧ s = t := by
  simp [run_pure]

theorem exists_run_eq_ok {x : Step σ α} {s : σ} (h : (x.run s).1.toBool = true) :
    ∃ a t, x.run s = (.ok a, t) := by
  rcases hx : x.run s with ⟨result, t⟩
  rw [hx] at h
  obtain ⟨a, rfl⟩ := exists_eq_ok h
  exact ⟨a, t, rfl⟩

theorem run_map_eq_ok_iff {x : Step σ α} {f : α → β} {s t : σ} {b : β} :
    (f <$> x).run s = (.ok b, t) ↔ ∃ a, x.run s = (.ok a, t) ∧ f a = b := by
  simp only [map_eq_pure_bind, run_bind_eq_ok_iff, run_pure_eq_ok_iff]
  constructor
  · rintro ⟨a, _, ha, hb, rfl⟩
    exact ⟨a, ha, hb⟩
  · rintro ⟨a, ha, hb⟩
    exact ⟨a, t, ha, hb, rfl⟩

theorem run_of_eq_ok_iff {x : Except Failure α} {s t : σ} {a : α} :
    (of x).run s = (.ok a, t) ↔ x = .ok a ∧ s = t := by
  simp [of, run]

theorem run_onPart_eq_ok_iff {part : σ → τ} {replace : σ → τ → σ} {x : Step τ α} {s t : σ}
    {a : α} :
    (onPart part replace x).run s = (.ok a, t) ↔
      ∃ u, x.run (part s) = (.ok a, u) ∧ t = replace s u := by
  rcases hx : x.run (part s) with ⟨result, u⟩
  simp only [run] at hx
  simp [onPart, run, hx, eq_comm]

end Step

end LogQuery
