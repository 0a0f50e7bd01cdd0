import LogQuery.File.Values
import LogQuery.Proofs.Json.Same
import LogQuery.Proofs.Text.Sorted
import Mathlib.Data.List.Pairwise

/-! Values as a set. Of the values that count as the same the first stays, and what stays is sorted
by texts. Where different values neither count as the same nor have the same text, the outcome hangs
on nothing but which values there are. -/

namespace LogQuery.ValueFile

variable {values others seen : List Json} {v w : Json}

/-! ## One of each -/

theorem distinctFrom_sublist (seen values : List Json) :
    (distinctFrom seen values).Sublist values := by
  induction values generalizing seen with
  | nil => exact .slnil
  | cons v values ih =>
      rw [distinctFrom]
      split
      · exact (ih seen).cons v
      · exact (ih (v :: seen)).cons_cons v

theorem same_eq_false_of_mem_distinctFrom (hv : v ∈ distinctFrom seen values) (hw : w ∈ seen) :
    v.same w = false := by
  induction values generalizing seen with
  | nil => cases hv
  | cons u values ih =>
      rw [distinctFrom] at hv
      split at hv
      · exact ih hv hw
      · rename_i hNew
        rcases List.mem_cons.mp hv with rfl | hLater
        · rw [List.any_eq_true, not_exists] at hNew
          simpa using fun hSame => hNew w ⟨hw, hSame⟩
        · exact ih hLater (List.mem_cons_of_mem u hw)

/-- No value counts as the same as one that stands in front of it. -/
theorem pairwise_distinctFrom (seen values : List Json) :
    (distinctFrom seen values).Pairwise fun a b => b.same a = false := by
  induction values generalizing seen with
  | nil => exact .nil
  | cons v values ih =>
      rw [distinctFrom]
      split
      · exact ih seen
      · refine .cons (fun w hw => ?_) (ih (v :: seen))
        exact same_eq_false_of_mem_distinctFrom hw List.mem_cons_self

/-- Every value has one that counts as the same. -/
theorem exists_same_of_mem (hSelf : ∀ v ∈ values, v.same v = true) (h : v ∈ values) :
    ∃ w, (w ∈ seen ∨ w ∈ distinctFrom seen values) ∧ v.same w = true := by
  -- A value that is kept moves to those seen, where later ones find it.
  induction values generalizing seen with
  | nil => cases h
  | cons u values ih =>
      obtain ⟨hFirst, hRest⟩ := List.forall_mem_cons.mp hSelf
      rw [distinctFrom]
      split
      · rename_i hSeen
        rcases List.mem_cons.mp h with rfl | hLater
        · obtain ⟨w, hw, hSame⟩ := List.any_eq_true.mp hSeen
          exact ⟨w, .inl hw, hSame⟩
        · exact ih hRest hLater
      · rcases List.mem_cons.mp h with rfl | hLater
        · exact ⟨v, .inr List.mem_cons_self, hFirst⟩
        · obtain ⟨w, hw, hSame⟩ := @ih (u :: seen) hRest hLater
          refine ⟨w, ?_, hSame⟩
          rcases hw with hw | hw
          · rcases List.mem_cons.mp hw with rfl | hw
            · exact .inr List.mem_cons_self
            · exact .inl hw
          · exact .inr (List.mem_cons_of_mem u hw)

/-! ## Sorted -/

theorem mem_of_mem_settle (h : v ∈ settle values) : v ∈ values :=
  (distinctFrom_sublist [] values).subset (Text.mem_sortBy.mp h)

theorem pairwise_settle (values : List Json) :
    (settle values).Pairwise fun a b => a.plain ≤ b.plain := by
  have hSort : (settle values).map Json.plain =
      Text.sort ((distinctFrom [] values).map Json.plain) := by
    rw [settle, Text.sort, Text.sortBy_map]
    exact fun _ _ => rfl
  have hSorted := Text.pairwise_sort ((distinctFrom [] values).map Json.plain)
  rwa [← hSort, List.pairwise_map] at hSorted

/-! ## Values that are told apart -/

/-- No two different values of some count as the same. -/
def KeepsApart (p : Json → Prop) : Prop :=
  ∀ a b, p a → p b → a.same b = true → a = b

/-- No two different values of some have the same text. -/
def TextsDiffer (p : Json → Prop) : Prop :=
  ∀ a b, p a → p b → a.plain = b.plain → a = b

/-- Neither value counts as the same as the other. -/
def Differ (a b : Json) : Prop :=
  a.same b = false ∧ b.same a = false

instance : Std.Symm Differ := ⟨fun _ _ h => h.symm⟩

section Scalars

variable (hScalar : ∀ v ∈ values, v.isScalar = true)

include hScalar

theorem pairwise_differ_settle : (settle values).Pairwise Differ := by
  have hDistinct : (distinctFrom [] values).Pairwise Differ := by
    refine (pairwise_distinctFrom [] values).imp_of_mem fun {a b} ha hb h => ⟨?_, h⟩
    have hMem := (distinctFrom_sublist [] values).subset
    rw [Json.same_comm (hScalar a (hMem ha)) (hScalar b (hMem hb)), h]
  exact ((Text.sortBy_perm _ _).pairwise_iff fun h => Std.Symm.symm _ _ h).mpr hDistinct

theorem nodup_settle : (settle values).Nodup := by
  refine (pairwise_differ_settle hScalar).imp_of_mem ?_
  rintro a _ ha - ⟨hNot, -⟩ rfl
  rw [Json.same_self (hScalar a (mem_of_mem_settle ha))] at hNot
  cases hNot

theorem settle_eq_nil_iff : settle values = [] ↔ values = [] := by
  constructor
  · intro h
    by_contra hSome
    obtain ⟨v, hv⟩ := List.exists_mem_of_ne_nil values hSome
    obtain ⟨w, hw, -⟩ :=
      @exists_same_of_mem values [] v (fun u hu => Json.same_self (hScalar u hu)) hv
    rcases hw with hw | hw
    · cases hw
    · have hSettled : w ∈ settle values := Text.mem_sortBy.mpr hw
      rw [h] at hSettled
      cases hSettled
  · rintro rfl
    rfl

theorem mem_settle_iff (hApart : KeepsApart (· ∈ values)) : v ∈ settle values ↔ v ∈ values := by
  refine ⟨mem_of_mem_settle, fun h => ?_⟩
  obtain ⟨w, hw, hSame⟩ :=
    @exists_same_of_mem values [] v (fun u hu => Json.same_self (hScalar u hu)) h
  rcases hw with hw | hw
  · cases hw
  · have hMem := (distinctFrom_sublist [] values).subset hw
    obtain rfl := hApart v w h hMem hSame
    exact Text.mem_sortBy.mpr hw

/-- Values are kept apart exactly if all of them stay. -/
theorem keepsApart_iff : KeepsApart (· ∈ values) ↔ ∀ v ∈ values, v ∈ settle values := by
  refine ⟨fun h v hv => (mem_settle_iff hScalar h).mpr hv, fun h a b ha hb hSame => ?_⟩
  by_contra hNe
  have hDiffer := (pairwise_differ_settle hScalar).forall (h a ha) (h b hb) hNe
  rw [hDiffer.1] at hSame
  cases hSame

/-- What values become hangs only on which there are. -/
theorem settle_congr (hApart : KeepsApart (· ∈ values)) (hTexts : TextsDiffer (· ∈ values))
    (h : ∀ v, v ∈ values ↔ v ∈ others) : settle values = settle others := by
  have hOthers : ∀ v ∈ others, v.isScalar = true := fun v hv => hScalar v ((h v).mpr hv)
  have hOthersApart : KeepsApart (· ∈ others) := fun a b ha hb =>
    hApart a b ((h a).mpr ha) ((h b).mpr hb)
  have hPerm : (settle values).Perm (settle others) := by
    refine (List.perm_ext_iff_of_nodup (nodup_settle hScalar) (nodup_settle hOthers)).mpr ?_
    intro v
    rw [mem_settle_iff hScalar hApart, mem_settle_iff hOthers hOthersApart, h]
  refine hPerm.eq_of_pairwise ?_ (pairwise_settle values) (pairwise_settle others)
  intro a b ha hb hLe hGe
  have hMem := (mem_settle_iff hOthers hOthersApart).mp hb
  exact hTexts a b (mem_of_mem_settle ha) ((h b).mpr hMem) (Std.le_antisymm hLe hGe)

end Scalars

/-! ## Texts -/

section Texts

variable (texts : List Text)

theorem isScalar_of_mem_texts : ∀ v ∈ texts.map Json.str, v.isScalar = true := by
  intro v hv
  obtain ⟨s, -, rfl⟩ := List.mem_map.mp hv
  rfl

theorem keepsApart_texts : KeepsApart (· ∈ texts.map .str) := by
  intro a b ha hb hSame
  obtain ⟨s, -, rfl⟩ := List.mem_map.mp ha
  obtain ⟨t, -, rfl⟩ := List.mem_map.mp hb
  rw [Json.same_str_iff.mp hSame]

/-- Texts become a strictly ascending list of them. -/
theorem exists_settle_texts :
    ∃ sorted : List Text, settle (texts.map .str) = sorted.map .str ∧
      sorted.Pairwise (· < ·) ∧ ∀ s, s ∈ sorted ↔ s ∈ texts := by
  have hScalar := isScalar_of_mem_texts texts
  obtain ⟨sorted, hSorted⟩ : ∃ sorted : List Text, settle (texts.map .str) = sorted.map .str := by
    refine ⟨(settle (texts.map .str)).map Json.plain, ?_⟩
    rw [List.map_map]
    refine (List.map_id _).symm.trans (List.map_congr_left fun v hv => ?_)
    obtain ⟨s, -, rfl⟩ := List.mem_map.mp (mem_of_mem_settle hv)
    rfl
  have hOrder := pairwise_settle (texts.map .str)
  have hNodup := nodup_settle hScalar
  rw [hSorted, List.pairwise_map] at hOrder
  rw [hSorted] at hNodup
  have hInjective : Function.Injective Json.str := fun _ _ h => Json.str.inj h
  refine ⟨sorted, hSorted, ?_, fun s => ?_⟩
  · refine (hOrder.and ((List.nodup_map_iff hInjective).mp hNodup)).imp ?_
    rintro s t ⟨hLe, hNe⟩
    exact Std.lt_of_le_of_ne hLe hNe
  · have hMem := @mem_settle_iff _ (.str s) hScalar (keepsApart_texts texts)
    rwa [hSorted, List.mem_map_of_injective hInjective,
      List.mem_map_of_injective hInjective] at hMem

end Texts

end LogQuery.ValueFile
