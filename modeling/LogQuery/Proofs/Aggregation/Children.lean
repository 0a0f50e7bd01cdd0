import LogQuery.Proofs.Aggregation.LevelRows

/-! The children of a node of any result, whether or not it answers a tree: those with buckets, and
the computed values. The rows of a node are put together from them, each kind in the order of its
names. -/

namespace LogQuery.Aggregation.Rows

/-! ## Names and buckets -/

/-- The members of the child that a node has under a name. -/
def child? (node : Members) (name : Text) : Option Members :=
  if isChildKey name then
    match node.get? name with
    | some (.obj child) => some child
    | _ => none
  else none

/-- What a child holds as its buckets, if it holds any. -/
def collection? (node : Members) (name : Text) : Option Json :=
  (child? node name).bind fun child => child.get? "buckets"

/-- The names of the children with buckets, ascending. -/
def branchNames (node : Members) : List Text :=
  Text.sort ((node.map (·.1)).filter fun name => (collection? node name).isSome)

/-- The names of the computed values, ascending. -/
def valueNames (node : Members) : List Text :=
  Text.sort ((node.map (·.1)).filter fun name =>
    (child? node name).isSome && (collection? node name).isNone)

/-- The columns of the computed values of a node. -/
def valueSegment (node : Members) : Row :=
  (valueNames node).flatMap fun name => valueColumns name ((child? node name).getD [])

/-- The buckets in a list, or in an object that keeps them under keys, in order. -/
def entries : Json → List (Option Json × Members)
  | .arr buckets => buckets.filterMap fun bucket => match bucket with
    | .obj members => some (none, members)
    | _ => none
  | .obj buckets => buckets.filterMap fun bucket => match bucket.2 with
    | .obj members => some (some (.str bucket.1), members)
    | _ => none
  | _ => []

/-- Buckets as they should be given: a list of objects, or an object that keeps objects. -/
inductive IsCollection : Json → Prop
  | list (buckets : List Members) : IsCollection (.arr (buckets.map .obj))
  | keyed (buckets : List (Text × Members)) :
      IsCollection (.obj (buckets.map fun bucket => (bucket.1, .obj bucket.2)))

/-- The buckets of a child, each with the key it is kept under. -/
def entriesAt (node : Members) (name : Text) : List (Option Json × Members) :=
  ((collection? node name).map entries).getD []

theorem exists_child_of_collection {node : Members} {name : Text} {held : Json}
    (h : collection? node name = some held) :
    ∃ child, child? node name = some child ∧ child.get? "buckets" = some held :=
  Option.bind_eq_some_iff.mp h

theorem get?_of_child {node child : Members} {name : Text} (h : child? node name = some child) :
    isChildKey name = true ∧ node.get? name = some (.obj child) := by
  unfold child? at h
  split at h
  · rename_i hKey
    split at h
    · rename_i hGet
      cases h
      exact ⟨hKey, hGet⟩
    · cases h
  · cases h

theorem mem_branchNames {node : Members} {name : Text} :
    name ∈ branchNames node ↔ (collection? node name).isSome = true := by
  rw [branchNames, Text.sort, Text.mem_sortBy, List.mem_filter, and_iff_right_iff_imp]
  intro h
  obtain ⟨held, hHeld⟩ := Option.isSome_iff_exists.mp h
  obtain ⟨child, hChild, -⟩ := exists_child_of_collection hHeld
  exact Members.mem_keys_of_get? (get?_of_child hChild).2

theorem entriesAt_of_collection {node : Members} {name : Text} {held : Json}
    (h : collection? node name = some held) : entriesAt node name = entries held := by
  simp [entriesAt, h]

theorem exists_collection_of_entry {node : Members} {name : Text} {entry : Option Json × Members}
    (h : entry ∈ entriesAt node name) : ∃ held, collection? node name = some held := by
  cases hHeld : collection? node name with
  | none =>
      rw [entriesAt, hHeld] at h
      cases h
  | some held => exact ⟨held, rfl⟩

theorem entries_list (buckets : List Members) :
    entries (.arr (buckets.map .obj)) = buckets.map (none, ·) := by
  simp only [entries, List.filterMap_map, Function.comp_def]
  exact congrFun List.filterMap_eq_map buckets

theorem entries_keyed (buckets : List (Text × Members)) :
    entries (.obj (buckets.map fun bucket => (bucket.1, .obj bucket.2))) =
      buckets.map fun bucket => (some (.str bucket.1), bucket.2) := by
  simp only [entries, List.filterMap_map, Function.comp_def]
  exact congrFun List.filterMap_eq_map buckets

/-! ## Children in order -/

theorem childAt_of_child {node child : Members} {name : Text} (h : child? node name = some child) :
    childAt node name =
      match collection? node name with
      | some held => .buckets (ofBuckets name held)
      | none => .columns (valueColumns name child) := by
  have hGet := (get?_of_child h).2
  cases hHeld : Members.get? child "buckets" <;>
    simp [childAt, collection?, h, hGet, bucketsIn_eq, hHeld]

/-- The members that are no children are passed over, and the others are found by their names. -/
theorem childrenOf_filter {node members : Members} (h : ∀ m ∈ members, node.get? m.1 = some m.2) :
    childrenOf members =
      ((members.map (·.1)).filter fun name => (child? node name).isSome).map fun name =>
        (name, childAt node name) := by
  induction members with
  | nil => rfl
  | cons m members ih =>
      obtain ⟨name, value⟩ := m
      have hGet : node.get? name = some value := h _ List.mem_cons_self
      rw [childrenOf, ih fun n hn => h n (List.mem_cons_of_mem _ hn), List.map_cons]
      cases hKey : isChildKey name with
      | false =>
          have hChild : child? node name = none := by simp [child?, hKey]
          rw [List.filter_cons_of_neg (by simp [hChild])]
          cases value <;> simp [childOf, hKey]
      | true =>
          cases value with
          | obj child =>
              have hChild : child? node name = some child := by simp [child?, hKey, hGet]
              rw [List.filter_cons_of_pos (by simp [hChild]), List.map_cons, childAt, hGet]
              cases hBuckets : bucketsIn name child <;> simp [childOf, hKey, hBuckets]
          | _ =>
              rw [List.filter_cons_of_neg (by simp [child?, hKey, hGet])]
              rfl

theorem flatMap_row_children {node : Members} {names : List Text}
    (h : ∀ name ∈ names, (child? node name).isSome = true) :
    (names.map fun name => (name, childAt node name)).flatMap (·.2.row) =
      (names.filter fun name => (collection? node name).isNone).flatMap fun name =>
        valueColumns name ((child? node name).getD []) := by
  induction names with
  | nil => rfl
  | cons name names ih =>
      obtain ⟨child, hChild⟩ := Option.isSome_iff_exists.mp (h name List.mem_cons_self)
      rw [List.map_cons, List.flatMap_cons, ih fun n hn => h n (List.mem_cons_of_mem _ hn),
        childAt_of_child hChild]
      cases hHeld : collection? node name <;> simp [hHeld, hChild, Child.row]

theorem branches_children {node : Members} {names : List Text}
    (h : ∀ name ∈ names, (child? node name).isSome = true) :
    branches (names.map fun name => (name, childAt node name)) =
      (names.filter fun name => (collection? node name).isSome).map fun name =>
        ofBuckets name ((collection? node name).getD .null) := by
  induction names with
  | nil => rfl
  | cons name names ih =>
      obtain ⟨child, hChild⟩ := Option.isSome_iff_exists.mp (h name List.mem_cons_self)
      have hRest := ih fun n hn => h n (List.mem_cons_of_mem _ hn)
      unfold branches at hRest ⊢
      rw [List.map_cons, List.filterMap_cons, hRest, childAt_of_child hChild]
      cases hHeld : collection? node name <;> simp [hHeld]

/-- The children with buckets, and the computed values, as `gather` finds them. -/
theorem sortBy_children {node : Members} (h : (node.map (·.1)).Nodup) :
    (Text.sortBy (fun a b => Text.before a.1 b.1) (childrenOf node)).flatMap (·.2.row) =
        valueSegment node ∧
      branches (Text.sortBy (fun a b => Text.before a.1 b.1) (childrenOf node)) =
        (branchNames node).map fun name =>
          ofBuckets name ((collection? node name).getD .null) := by
  have hSorted : Text.sortBy (fun a b => Text.before a.1 b.1) (childrenOf node) =
      (Text.sort ((node.map (·.1)).filter fun name => (child? node name).isSome)).map fun name =>
        (name, childAt node name) := by
    rw [childrenOf_filter fun m hm => Members.get?_of_mem h hm]
    exact Text.sortBy_map (fun _ _ => rfl) _
  have hChild : ∀ name ∈ Text.sort
      ((node.map (·.1)).filter fun name => (child? node name).isSome),
      (child? node name).isSome = true := fun name hName =>
    (List.mem_filter.mp (Text.mem_sortBy.mp hName)).2
  rw [hSorted, flatMap_row_children hChild, branches_children hChild, ← Text.sort_filter,
    ← Text.sort_filter, List.filter_filter, List.filter_filter]
  constructor
  · simp only [valueSegment, valueNames, Bool.and_comm]
  · have hSome : ∀ name, ((collection? node name).isSome && (child? node name).isSome) =
        (collection? node name).isSome := by
      intro name
      cases hHeld : collection? node name with
      | none => rfl
      | some held =>
          obtain ⟨child, hChild, -⟩ := exists_child_of_collection hHeld
          simp [hChild]
    simp only [branchNames, hSome]

/-! ## Gathering -/

theorem mapM_id_ok {α β : Type} (f : α → β) (as : List α) :
    (as.map fun a => (.ok (f a) : Except Failure β)).mapM id = .ok (as.map f) := by
  rw [mapM_eq_ok_iff, List.forall₂_map_left_iff, List.forall₂_map_right_iff]
  exact List.forall₂_same.mpr fun _ _ => rfl

/-- The rows of a node, given those of the buckets of each child that has buckets. -/
theorem gather_eq {node : Members} (own : Row) (below : Text → List Row)
    (hKeys : (node.map (·.1)).Nodup)
    (hBelow : ∀ name held, collection? node name = some held →
      ofBuckets name held = .ok (.ok (below name))) :
    gather own (childrenOf node) =
      .ok (if branchNames node = [] then [own ++ valueSegment node]
        else ((branchNames node).flatMap below).map (own ++ valueSegment node ++ ·)) := by
  obtain ⟨hColumns, hBranches⟩ := sortBy_children hKeys
  have hRows : (branchNames node).map (fun name =>
      ofBuckets name ((collection? node name).getD .null)) =
      (branchNames node).map fun name => .ok (.ok (below name)) := by
    apply List.map_congr_left
    intro name hName
    obtain ⟨held, hHeld⟩ := Option.isSome_iff_exists.mp (mem_branchNames.mp hName)
    rw [hHeld, Option.getD_some, hBelow name held hHeld]
  simp only [gather, hColumns, hBranches, hRows, mapM_id_ok]
  cases hNames : branchNames node with
  | nil => rfl
  | cons name names =>
      show (do
        let rows ← ((name :: names).map fun name => (.ok (below name) : Except Failure _)).mapM id
        return rows.flatten.map (own ++ valueSegment node ++ ·) : Except Failure (List Row)) = _
      rw [mapM_id_ok, if_neg (List.cons_ne_nil _ _), List.flatMap_def]
      rfl

theorem ofKeyed_eq {name : Text} {buckets : List (Text × Members)}
    {rows : Option Json × Members → List Row}
    (h : ∀ bucket ∈ buckets, ofBucket name (some (.str bucket.1)) (.obj bucket.2) =
      .ok (rows (some (.str bucket.1), bucket.2))) :
    ofKeyed name (buckets.map fun bucket => (bucket.1, .obj bucket.2)) =
      .ok (buckets.flatMap fun bucket => rows (some (.str bucket.1), bucket.2)) := by
  induction buckets with
  | nil => rfl
  | cons bucket buckets ih =>
      have hFirst := h bucket List.mem_cons_self
      have hRest := ih fun b hb => h b (List.mem_cons_of_mem bucket hb)
      rw [List.map_cons, ofKeyed, ofEntry, hFirst, hRest, List.flatMap_cons]
      rfl

/-- The rows of a collection are those of its buckets in order, or one without columns. -/
theorem ofBuckets_eq {name : Text} {held : Json} (hHeld : IsCollection held)
    {rows : Option Json × Members → List Row}
    (h : ∀ entry ∈ entries held, ofBucket name entry.1 (.obj entry.2) = .ok (rows entry)) :
    ofBuckets name held =
      .ok (.ok (if entries held = [] then [[]] else (entries held).flatMap rows)) := by
  cases hHeld with
  | list buckets =>
      rw [entries_list] at h ⊢
      have hRows : ofList name (buckets.map .obj) =
          .ok (buckets.flatMap fun bucket => rows (none, bucket)) :=
        ofList_eq fun bucket hMem => h (none, bucket) (List.mem_map.mpr ⟨bucket, hMem, rfl⟩)
      rw [ofBuckets, hRows]
      cases buckets <;> simp [List.flatMap_map]
  | keyed buckets =>
      rw [entries_keyed] at h ⊢
      have hRows : ofKeyed name (buckets.map fun bucket => (bucket.1, .obj bucket.2)) =
          .ok (buckets.flatMap fun bucket => rows (some (.str bucket.1), bucket.2)) :=
        ofKeyed_eq fun bucket hMem => h _ (List.mem_map.mpr ⟨bucket, hMem, rfl⟩)
      rw [ofBuckets, if_pos (by simp), hRows]
      cases buckets <;> simp [List.flatMap_map]

end LogQuery.Aggregation.Rows
