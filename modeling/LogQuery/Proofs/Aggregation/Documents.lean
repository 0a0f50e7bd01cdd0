import LogQuery.Proofs.Aggregation.Shape

/-! A smallest result in the shape of a tree: each node of any number of buckets has exactly one, and
all buckets have one key, except that those within a count of missing values have another one. -/

namespace LogQuery.Aggregation

open Rows

/-- What stands in a bucket beside the documents for the nodes within. -/
def ownMembers (key : Text) : Members :=
  [("key", .str key), ("doc_count", .int 1)]

/-- What stands in the answer to a count of missing values beside the documents within. -/
def countMembers : Members :=
  [("doc_count", .int 1)]

mutual

/-- A document in the shape of a node, with one bucket wherever there may be many. The buckets have
one key, and another one within a count of missing values. -/
def documentOf (shown hidden : Text) : Json → Json
  | .obj members =>
    match method? members with
    | some .missing => .obj (countMembers ++ documentsIn hidden hidden members)
    | some m =>
      if m.isBucket then
        .obj [("buckets", .arr [.obj (ownMembers shown ++ documentsIn shown hidden members)])]
      else .obj [("value", .int 1)]
    | none => .null
  | _ => .null

/-- Documents for the nodes within a node. -/
def documentsIn (shown hidden : Text) : List (Text × Json) → Members
  | [] => []
  | member :: members =>
    match documentsAt shown hidden member with
    | some documents => documents
    | none => documentsIn shown hidden members

/-- Documents for the nodes in a member, if it is the one that holds them. -/
def documentsAt (shown hidden : Text) : Text × Json → Option Members
  | (key, .obj tree) => if key = treeKey then some (documentsOf shown hidden tree) else none
  | _ => none

def documentsOf (shown hidden : Text) : List (Text × Json) → Members
  | [] => []
  | node :: nodes => memberOf shown hidden node :: documentsOf shown hidden nodes

def memberOf (shown hidden : Text) : Text × Json → Text × Json
  | (name, node) => (name, documentOf shown hidden node)

end

variable {shown hidden : Text}

theorem documentsOf_eq (tree : Members) :
    documentsOf shown hidden tree = tree.map fun n => (n.1, documentOf shown hidden n.2) := by
  induction tree with
  | nil => rfl
  | cons n tree ih => rw [documentsOf, memberOf, ih, List.map_cons]

theorem keys_documentsOf (tree : Members) :
    (documentsOf shown hidden tree).map (·.1) = tree.map (·.1) := by
  rw [documentsOf_eq, List.map_map]
  rfl

theorem documentsIn_node (m : Method) (body inner : Members) :
    documentsIn shown hidden (node m body inner) = documentsOf shown hidden inner := by
  have hName := (treeKey_ne_name m).symm
  cases inner with
  | nil => simp [node, documentsIn, documentsAt, documentsOf, hName]
  | cons n inner => simp [node, documentsIn, documentsAt, hName]

theorem documentOf_value {m : Method} (h : m.isSingleValue = true) (body inner : Members) :
    documentOf shown hidden (.obj (node m body inner)) = .obj [("value", .int 1)] := by
  have hBucket := Method.isBucket_of_isSingleValue h
  have hMissing : m ≠ .missing := by
    rintro rfl
    cases h
  simp [documentOf, method?_node, hBucket]

theorem documentOf_missing (body inner : Members) :
    documentOf shown hidden (.obj (node .missing body inner)) =
      .obj (countMembers ++ documentsOf hidden hidden inner) := by
  simp [documentOf, method?_node, documentsIn_node]

theorem documentOf_buckets {m : Method} (h : m.isMultiBucket = true) (body inner : Members) :
    documentOf shown hidden (.obj (node m body inner)) =
      .obj [("buckets", .arr [.obj (ownMembers shown ++ documentsOf shown hidden inner)])] := by
  obtain ⟨hBucket, hMissing⟩ : m.isBucket = true ∧ m ≠ .missing := by
    simpa [Method.isMultiBucket] using h
  simp [documentOf, method?_node, documentsIn_node, hBucket]

/-! ## The result has the shape of its tree -/

/-- Members that are no children, each under its own key. -/
structure AreOwn (extra : Members) : Prop where
  keys : (extra.map (·.1)).Nodup
  others : ∀ m ∈ extra, isChildKey m.1 = false

theorem areOwn_nil : AreOwn [] :=
  ⟨List.nodup_nil, by simp⟩

theorem areOwn_ownMembers (key : Text) : AreOwn (ownMembers key) := by
  have hKeys : (["key", "doc_count"] : List Text).Nodup := by decide
  refine ⟨hKeys, ?_⟩
  intro m hm
  rcases List.mem_cons.mp hm with rfl | hm
  · rfl
  · rw [List.mem_singleton.mp hm]
    rfl

theorem areOwn_countMembers : AreOwn countMembers := by
  refine ⟨by decide, ?_⟩
  intro m hm
  rw [List.mem_singleton.mp hm]
  decide

section

variable (shown hidden) {tree extra : Members} (hTree : GroupTree tree) (hNames : IsNamedApart tree)
  (hExtra : AreOwn extra)

include hTree hNames hExtra

theorem bears_documents : Bears tree (extra ++ documentsOf shown hidden tree) := by
  refine ⟨?_, ?_, ?_⟩
  · rw [List.map_append, keys_documentsOf]
    refine List.nodup_append.mpr ⟨hExtra.keys, hTree.keys, ?_⟩
    rintro key hKey _ hName rfl
    obtain ⟨m, hm, rfl⟩ := List.mem_map.mp hKey
    obtain ⟨members, hNode⟩ := hTree.exists_members hName
    have hChild := (hNames _ members (.here hNode)).1
    rw [hExtra.others m hm] at hChild
    cases hChild
  · intro name hName
    rw [List.map_append, keys_documentsOf]
    exact List.mem_append_right _ hName
  · intro name hName hChild
    rw [List.map_append, keys_documentsOf] at hName
    rcases List.mem_append.mp hName with hKey | hName
    · obtain ⟨m, hm, rfl⟩ := List.mem_map.mp hKey
      rw [hExtra.others m hm] at hChild
      cases hChild
    · exact hName

theorem get?_documents {name : Text} {held : Json} (hNode : (name, held) ∈ tree) :
    (extra ++ documentsOf shown hidden tree).get? name = some (documentOf shown hidden held) := by
  apply Members.get?_of_mem (bears_documents shown hidden hTree hNames hExtra).keys
  apply List.mem_append_right
  rw [documentsOf_eq]
  exact List.mem_map.mpr ⟨_, hNode, rfl⟩

omit hExtra in
/-- Members that are no children are found in front of the documents. -/
theorem get?_extra {key : Text} (hKey : isChildKey key = false) :
    (extra ++ documentsOf shown hidden tree).get? key = extra.get? key := by
  have hNone : (documentsOf shown hidden tree).get? key = none := by
    apply Members.get?_eq_none
    rw [keys_documentsOf]
    intro hMem
    obtain ⟨members, hNode⟩ := hTree.exists_members hMem
    rw [(hNames _ members (.here hNode)).1] at hKey
    cases hKey
  rw [Members.get?_append, hNone, Option.or_none]

end

theorem shapedAs_documents (shown hidden : Text) {tree extra : Members} (hTree : GroupTree tree)
    (hNames : IsNamedApart tree) (hExtra : AreOwn extra) :
    ShapedAs tree (extra ++ documentsOf shown hidden tree) := by
  induction hTree generalizing shown hidden extra with
  | @intro tree hNodup hNodes hInner ih =>
      have hGroup : GroupTree tree := .intro hNodup hNodes hInner
      refine ⟨bears_documents shown hidden hGroup hNames hExtra, ?_⟩
      intro name held answer hNode hGet
      rw [get?_documents shown hidden hGroup hNames hExtra hNode] at hGet
      cases hGet
      obtain ⟨members, hMembers⟩ := hGroup.exists_obj hNode
      subst hMembers
      have hApart := hNames.within hNode
      have hWithin : ∀ (shown hidden : Text) {own : Members}, AreOwn own →
          ShapedAs (within members) (own ++ documentsOf shown hidden (within members)) :=
        fun shown hidden _ hOwn => ih name members hNode shown hidden hApart hOwn
      obtain ⟨body, inner, hHeld, -⟩ | ⟨m, body, inner, hHeld, hMulti, -⟩ | ⟨m, body, hHeld, hSingle⟩ :=
        (hGroup.node_of_mem hNode).kinds <;> cases hHeld <;> rw [within_node] at hWithin
      · rw [documentOf_missing]
        refine .of_count (method?_node _ _ _) rfl ?_
        rw [within_node]
        exact hWithin hidden hidden areOwn_countMembers
      · rw [documentOf_buckets hMulti]
        refine .of_bucket ⟨m, method?_node _ _ _, hMulti⟩ rfl ⟨rfl, rfl⟩ ?_
        rw [within_node]
        exact hWithin shown hidden (areOwn_ownMembers shown)
      · rw [documentOf_value hSingle]
        exact .value (method?_node _ _ _) hSingle rfl rfl

end LogQuery.Aggregation
