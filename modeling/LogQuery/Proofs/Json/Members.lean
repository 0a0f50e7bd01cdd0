import LogQuery.Json.Basic

/-! Looking up members and putting new ones in, where the keys are distinct. -/

namespace LogQuery.Members

variable {members more : Members} {key : Text} {value : Json}

theorem get?_append (members more : Members) (key : Text) :
    (members ++ more).get? key = (members.get? key).or (more.get? key) :=
  List.lookup_append

theorem get?_eq_none (h : key ∉ members.map (·.1)) : members.get? key = none := by
  rw [get?, List.lookup_eq_none_iff]
  intro m hm
  rw [bne_iff_ne]
  rintro rfl
  exact h (List.mem_map.mpr ⟨m, hm, rfl⟩)

theorem mem_of_get? (h : members.get? key = some value) : (key, value) ∈ members := by
  obtain ⟨front, rest, rfl, -⟩ := List.lookup_eq_some_iff.mp h
  exact List.mem_append_right front List.mem_cons_self

theorem mem_keys_of_get? (h : members.get? key = some value) : key ∈ members.map (·.1) :=
  List.mem_map.mpr ⟨(key, value), mem_of_get? h, rfl⟩

/-- A key is there exactly if something is found under it. -/
theorem mem_keys_iff : key ∈ members.map (·.1) ↔ members.get? key ≠ none := by
  constructor
  · intro hMem hNone
    obtain ⟨m, hm, rfl⟩ := List.mem_map.mp hMem
    rw [get?, List.lookup_eq_none_iff] at hNone
    exact bne_iff_ne.mp (hNone m hm) rfl
  · intro h
    obtain ⟨value, hValue⟩ := Option.ne_none_iff_exists'.mp h
    exact mem_keys_of_get? hValue

/-- The key of a member is not among the keys before it. -/
theorem notMem_of_nodup_append {m : Text × Json}
    (h : ((members ++ m :: more).map (·.1)).Nodup) : m.1 ∉ members.map (·.1) := by
  rw [List.map_append, List.nodup_append] at h
  exact fun hMem => h.2.2 _ hMem _ List.mem_cons_self rfl

theorem get?_of_mem (hNodup : (members.map (·.1)).Nodup) (h : (key, value) ∈ members) :
    members.get? key = some value := by
  obtain ⟨front, rest, rfl⟩ := List.append_of_mem h
  have hNew : key ∉ front.map (·.1) := notMem_of_nodup_append hNodup
  rw [get?_append, get?_eq_none hNew, get?_cons, if_pos rfl]
  rfl

theorem exists_get?_of_mem (hNodup : (members.map (·.1)).Nodup) (h : key ∈ members.map (·.1)) :
    ∃ value, members.get? key = some value := by
  obtain ⟨⟨k, value⟩, hMem, rfl⟩ := List.mem_map.mp h
  exact ⟨value, get?_of_mem hNodup hMem⟩

theorem set_of_notMem (h : key ∉ members.map (·.1)) :
    members.set key value = members ++ [(key, value)] := by
  induction members with
  | nil => rfl
  | cons m members ih =>
      rw [List.map_cons, List.mem_cons, not_or] at h
      rw [set, if_neg fun hKey => h.1 hKey.symm, ih h.2, List.cons_append]

theorem keys_set (members : Members) (key : Text) (value : Json) :
    (members.set key value).map (·.1) =
      if key ∈ members.map (·.1) then members.map (·.1) else members.map (·.1) ++ [key] := by
  induction members with
  | nil => simp [set]
  | cons m members ih =>
      obtain ⟨k, v⟩ := m
      by_cases h : k = key
      · simp [set, h]
      · have hKey : key ≠ k := fun hKey => h hKey.symm
        by_cases hMem : key ∈ members.map (·.1)
        · rw [if_pos hMem] at ih
          simp [set, h, ih, List.mem_cons, hKey, hMem]
        · rw [if_neg hMem] at ih
          rw [if_neg (by simp [hKey, hMem])]
          simp [set, h, ih]

theorem nodup_set (h : (members.map (·.1)).Nodup) : ((members.set key value).map (·.1)).Nodup := by
  rw [keys_set]
  split
  · exact h
  · rename_i hNew
    refine List.nodup_append.mpr ⟨h, by simp, ?_⟩
    rintro k hk _ hKey rfl
    exact hNew (List.mem_singleton.mp hKey ▸ hk)

theorem eq_or_mem_of_mem_set {m : Text × Json} (h : m ∈ members.set key value) :
    m = (key, value) ∨ m ∈ members := by
  induction members with
  | nil => exact .inl (List.mem_singleton.mp h)
  | cons n members ih =>
      obtain ⟨k, v⟩ := n
      unfold set at h
      split at h
      · rename_i hKey
        rcases List.mem_cons.mp h with rfl | hMem
        · exact .inl (by rw [hKey])
        · exact .inr (List.mem_cons_of_mem _ hMem)
      · rcases List.mem_cons.mp h with rfl | hMem
        · exact .inr List.mem_cons_self
        · exact (ih hMem).imp_right (List.mem_cons_of_mem _)

theorem set_ne_nil (members : Members) (key : Text) (value : Json) :
    members.set key value ≠ [] := by
  cases members with
  | nil => exact List.cons_ne_nil _ _
  | cons m members =>
      unfold set
      split <;> exact List.cons_ne_nil _ _

theorem update_ne_nil (h : members ≠ []) : members.update more ≠ [] := by
  induction more generalizing members with
  | nil => exact h
  | cons m more ih => exact ih (set_ne_nil members m.1 m.2)

theorem update_ne_nil_of_right (h : more ≠ []) : members.update more ≠ [] := by
  cases more with
  | nil => exact absurd rfl h
  | cons m more =>
      show (members.set m.1 m.2).update more ≠ []
      exact update_ne_nil (set_ne_nil members m.1 m.2)

theorem nodup_update (h : (members.map (·.1)).Nodup) : ((members.update more).map (·.1)).Nodup := by
  induction more generalizing members with
  | nil => exact h
  | cons m more ih => exact ih (nodup_set h)

theorem eq_or_mem_of_mem_update {m : Text × Json} (h : m ∈ members.update more) :
    m ∈ more ∨ m ∈ members := by
  induction more generalizing members with
  | nil => exact .inr h
  | cons n more ih =>
      rcases ih h with hMore | hSet
      · exact .inl (List.mem_cons_of_mem n hMore)
      · rcases eq_or_mem_of_mem_set hSet with rfl | hMem
        · exact .inl List.mem_cons_self
        · exact .inr hMem

theorem mem_keys_set {other : Text} :
    other ∈ (members.set key value).map (·.1) ↔ other = key ∨ other ∈ members.map (·.1) := by
  rw [keys_set]
  split
  · rename_i hMem
    constructor
    · exact .inr
    · rintro (rfl | hOther)
      · exact hMem
      · exact hOther
  · rw [List.mem_append, List.mem_singleton, or_comm]

theorem mem_keys_update :
    key ∈ (members.update more).map (·.1) ↔
      key ∈ more.map (·.1) ∨ key ∈ members.map (·.1) := by
  induction more generalizing members with
  | nil => simp [update]
  | cons m more ih =>
      have hStep : members.update (m :: more) = (members.set m.1 m.2).update more := rfl
      rw [hStep, ih, mem_keys_set, List.map_cons, List.mem_cons]
      exact or_left_comm.trans or_assoc.symm

/-- What is put in counts, and all else stays. -/
theorem get?_update (h : (more.map (·.1)).Nodup) (members : Members) (key : Text) :
    (members.update more).get? key = (more.get? key).or (members.get? key) := by
  induction more generalizing members with
  | nil => rfl
  | cons m more ih =>
      obtain ⟨hNew, hRest⟩ := List.nodup_cons.mp h
      have hStep : members.update (m :: more) = (members.set m.1 m.2).update more := rfl
      rw [hStep, ih hRest, get?_cons]
      by_cases hKey : key = m.1
      · subst hKey
        rw [get?_eq_none hNew, get?_set_self, if_pos rfl]
        rfl
      · rw [get?_set_of_ne hKey, if_neg hKey]

theorem get?_update_of_notMem (h : key ∉ more.map (·.1)) :
    (members.update more).get? key = members.get? key := by
  induction more generalizing members with
  | nil => rfl
  | cons m more ih =>
      rw [List.map_cons, List.mem_cons, not_or] at h
      have hStep : members.update (m :: more) = (members.set m.1 m.2).update more := rfl
      rw [hStep, ih h.2, get?_set_of_ne h.1]

theorem notMem_of_get? (h : members.get? key = none) : key ∉ members.map (·.1) := by
  intro hMem
  obtain ⟨⟨k, v⟩, hIn, rfl⟩ := List.mem_map.mp hMem
  exact absurd (List.lookup_eq_none_iff.mp h (k, v) hIn) (by simp)

theorem get?_map (f : Json → Json) (members : Members) (key : Text) :
    get? (members.map fun m => (m.1, f m.2)) key = (members.get? key).map f := by
  induction members with
  | nil => rfl
  | cons m members ih =>
      rw [List.map_cons, get?_cons, get?_cons, ih]
      split <;> rfl

theorem update_of_nodup (h : ((members ++ more).map (·.1)).Nodup) :
    members.update more = members ++ more := by
  induction more generalizing members with
  | nil => simp [update]
  | cons m more ih =>
      have hNew := notMem_of_nodup_append h
      have hRest : ((members.set m.1 m.2 ++ more).map (·.1)).Nodup := by
        rw [set_of_notMem hNew]
        simpa using h
      rw [update, List.foldl_cons, ← update, ih hRest, set_of_notMem hNew]
      simp

/-- A key leads to the same value in whatever order the members come. -/
theorem get?_of_perm (hNodup : (members.map (·.1)).Nodup) (h : members.Perm more) (key : Text) :
    members.get? key = more.get? key := by
  cases hGet : members.get? key with
  | none =>
      have hNew : key ∉ more.map (·.1) := by
        rw [← (h.map (·.1)).mem_iff]
        exact notMem_of_get? hGet
      exact (get?_eq_none hNew).symm
  | some value =>
      have hMore : (more.map (·.1)).Nodup := (h.map (·.1)).nodup_iff.mp hNodup
      exact (get?_of_mem hMore (h.mem_iff.mp (mem_of_get? hGet))).symm

theorem get?_filter_key (p : Text → Bool) (members : Members) (h : p key = true) :
    get? (members.filter fun m => p m.1) key = members.get? key := by
  induction members with
  | nil => rfl
  | cons m members ih =>
      rw [get?_cons, List.filter_cons]
      by_cases hKey : key = m.1
      · rw [← hKey, h, if_pos rfl, if_pos rfl, get?_cons, if_pos hKey]
      · rw [if_neg hKey]
        split
        · rw [get?_cons, if_neg hKey, ih]
        · exact ih

theorem present_eq_filter (members : Members) : members.present = members.filter (!·.2.isNull) := by
  unfold present
  congr 1
  funext m
  cases m.2 <;> rfl

/-- Under a key is what was there, unless it is `null`. -/
theorem get?_present (h : (members.map (·.1)).Nodup) (key : Text) :
    members.present.get? key = (members.get? key).filter (!·.isNull) := by
  rw [present_eq_filter]
  induction members with
  | nil => rfl
  | cons m members ih =>
      obtain ⟨k, v⟩ := m
      obtain ⟨hNew, hRest⟩ := List.nodup_cons.mp h
      rw [List.filter_cons, get?_cons]
      by_cases hKey : key = k
      · subst hKey
        rw [get?_eq_none hNew] at ih
        cases hNull : v.isNull <;> simp [hNull, ih hRest, get?_cons, Option.filter]
      · cases hNull : v.isNull <;> simp [hKey, ih hRest, get?_cons]

end LogQuery.Members
