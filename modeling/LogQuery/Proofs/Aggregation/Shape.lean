import LogQuery.Proofs.Aggregation.GroupTree
import LogQuery.Proofs.Aggregation.Paths

/-! Results in the shape of a tree of group-by levels, the counts of missing values included. A
bucket of such a result lies on a path unless it is within the answer to a count of missing
values. -/

namespace LogQuery.Aggregation

/-! ## Nodes -/

/-- A node stands somewhere in a tree, under its name. -/
inductive HasNode : Members → Text → Members → Prop
  | here {tree members : Members} {name : Text} (h : (name, .obj members) ∈ tree) :
      HasNode tree name members
  | within {tree around members : Members} {outer name : Text} (h : (outer, .obj around) ∈ tree)
      (hNode : HasNode (within around) name members) : HasNode tree name members

theorem not_hasNode_nil (name : Text) (members : Members) : ¬HasNode [] name members := by
  intro h
  cases h with
  | here h => cases h
  | within h => cases h

/-- What stands within a node that stands within a tree stands within the tree. -/
theorem HasNode.trans {tree around members : Members} {outer name : Text}
    (h : HasNode tree outer around) (hInside : HasNode (Aggregation.within around) name members) :
    HasNode tree name members := by
  induction h with
  | here hNode => exact .within hNode hInside
  | within hNode _ ih => exact .within hNode (ih hInside)

/-- The node makes any number of buckets. -/
def IsMultiBucket (members : Members) : Prop :=
  ∃ m, method? members = some m ∧ m.isMultiBucket = true

/-- Within a count of missing values stands a node of any number of buckets. -/
def Hides (tree : Members) : Prop :=
  ∃ outer around name members, HasNode tree outer around ∧ method? around = some .missing ∧
    HasNode (within around) name members ∧ IsMultiBucket members

/-- No node has a name that a result uses for something else. -/
def IsNamedApart (tree : Members) : Prop :=
  ∀ name members, HasNode tree name members → Rows.isChildKey name = true ∧ name ≠ "buckets"

/-- The answer to a count of missing values is not taken for a child with buckets: none of the nodes
within the count is called as the buckets are. -/
def CountsStandApart (tree : Members) : Prop :=
  ∀ name members inside, HasNode tree name members → method? members = some .missing →
    (("buckets" : Text), Json.obj inside) ∉ within members

/-! ## Results -/

/-- A result, or a bucket in it, has one member for each node of a tree. The others are no
children. -/
structure Bears (tree holder : Members) : Prop where
  keys : (holder.map (·.1)).Nodup
  nodes : ∀ name ∈ tree.map (·.1), name ∈ holder.map (·.1)
  others : ∀ name ∈ holder.map (·.1), Rows.isChildKey name = true → name ∈ tree.map (·.1)

/-- A document has the shape of a node: a single value; a list of buckets, each with its key, its
number of documents and a document for every node within; or a single bucket without a key. -/
inductive Shaped : Json → Json → Prop
  | value {members answer : Members} {m : Method} {v : Json}
      (hMethod : method? members = some m) (hSingle : m.isSingleValue = true)
      (hValue : answer.get? "value" = some v) (hNoBuckets : answer.get? "buckets" = none) :
      Shaped (.obj members) (.obj answer)
  | buckets {members answer : Members} {buckets : List Members}
      (hMulti : IsMultiBucket members)
      (hBuckets : answer.get? "buckets" = some (.arr (buckets.map .obj)))
      (hOwn : ∀ bucket ∈ buckets, bucket.has "key" = true ∧ bucket.has "doc_count" = true)
      (hBears : ∀ bucket ∈ buckets, Bears (within members) bucket)
      (hShaped : ∀ bucket ∈ buckets, ∀ name node held, (name, node) ∈ within members →
        bucket.get? name = some held → Shaped node held) :
      Shaped (.obj members) (.obj answer)
  | missing {members answer : Members} (hMethod : method? members = some .missing)
      (hCount : answer.has "doc_count" = true) (hBears : Bears (within members) answer)
      (hShaped : ∀ name node held, (name, node) ∈ within members →
        answer.get? name = some held → Shaped node held) :
      Shaped (.obj members) (.obj answer)

/-- A result, or a bucket in it, has the shape of a tree. -/
structure ShapedAs (tree holder : Members) : Prop extends Bears tree holder where
  shaped : ∀ name node held, (name, node) ∈ tree → holder.get? name = some held → Shaped node held

/-- A list of buckets has the shape of a node of any number of buckets. -/
theorem Shaped.of_buckets {members answer : Members} {buckets : List Members}
    (hMulti : IsMultiBucket members)
    (hBuckets : answer.get? "buckets" = some (.arr (buckets.map .obj)))
    (h : ∀ bucket ∈ buckets, (bucket.has "key" = true ∧ bucket.has "doc_count" = true) ∧
      ShapedAs (within members) bucket) : Shaped (.obj members) (.obj answer) :=
  .buckets hMulti hBuckets (fun bucket hMem => (h bucket hMem).1)
    (fun bucket hMem => (h bucket hMem).2.toBears) fun bucket hMem => (h bucket hMem).2.shaped

theorem Shaped.of_bucket {members answer bucket : Members} (hMulti : IsMultiBucket members)
    (hBuckets : answer.get? "buckets" = some (.arr [.obj bucket]))
    (hOwn : bucket.has "key" = true ∧ bucket.has "doc_count" = true)
    (hShape : ShapedAs (within members) bucket) : Shaped (.obj members) (.obj answer) := by
  have hList : answer.get? "buckets" = some (.arr ([bucket].map .obj)) := hBuckets
  refine .of_buckets hMulti hList fun b hb => ?_
  cases List.mem_singleton.mp hb
  exact ⟨hOwn, hShape⟩

/-- A count of missing values has the shape of its node. -/
theorem Shaped.of_count {members answer : Members} (hMethod : method? members = some .missing)
    (hCount : answer.has "doc_count" = true) (hShape : ShapedAs (within members) answer) :
    Shaped (.obj members) (.obj answer) :=
  .missing hMethod hCount hShape.toBears hShape.shaped

/-- A bucket of a node of any number of buckets, wherever in a result it is. -/
inductive HasBucket : Members → Members → Text → Members → Prop
  | here {tree holder members bucket : Members} {name : Text} (hNode : (name, .obj members) ∈ tree)
      (hMulti : IsMultiBucket members) (hBucket : bucket ∈ bucketsOf holder name) :
      HasBucket tree holder name bucket
  | inBucket {tree holder around outer bucket : Members} {name inner : Text}
      (hNode : (name, .obj around) ∈ tree) (hMulti : IsMultiBucket around)
      (hOuter : outer ∈ bucketsOf holder name)
      (hBucket : HasBucket (within around) outer inner bucket) : HasBucket tree holder inner bucket
  | inMissing {tree holder around answer bucket : Members} {name inner : Text}
      (hNode : (name, .obj around) ∈ tree) (hMethod : method? around = some .missing)
      (hGet : holder.get? name = some (.obj answer))
      (hBucket : HasBucket (within around) answer inner bucket) : HasBucket tree holder inner bucket

/-- The key of a bucket as it is shown. -/
def shownKey (bucket : Members) : Json :=
  (bucket.get? "key_as_string").getD (bucket.getD "key")

theorem IsNamedApart.within {tree around : Members} {name : Text} (h : IsNamedApart tree)
    (hNode : (name, .obj around) ∈ tree) : IsNamedApart (within around) :=
  fun inner members hInner => h inner members (.within hNode hInner)

theorem IsNamedApart.countsStandApart {tree : Members} (h : IsNamedApart tree) :
    CountsStandApart tree :=
  fun _ _ inside hNode _ hInside => (h "buckets" inside (hNode.trans (.here hInside))).2 rfl

theorem CountsStandApart.within {tree around : Members} {name : Text} (h : CountsStandApart tree)
    (hNode : (name, .obj around) ∈ tree) : CountsStandApart (within around) :=
  fun inner members inside hInner => h inner members inside (.within hNode hInner)

theorem Hides.of_within {tree around : Members} {name : Text} (hNode : (name, .obj around) ∈ tree)
    (h : Hides (within around)) : Hides tree := by
  obtain ⟨outer, inside, inner, members, hOuter, hRest⟩ := h
  exact ⟨outer, inside, inner, members, .within hNode hOuter, hRest⟩

theorem HasBucket.exists_node {tree holder bucket : Members} {name : Text}
    (h : HasBucket tree holder name bucket) :
    ∃ members, HasNode tree name members ∧ IsMultiBucket members := by
  induction h with
  | here hNode hMulti _ => exact ⟨_, .here hNode, hMulti⟩
  | inBucket hNode _ _ _ ih =>
      obtain ⟨members, hInner, hMulti⟩ := ih
      exact ⟨members, .within hNode hInner, hMulti⟩
  | inMissing hNode _ _ _ ih =>
      obtain ⟨members, hInner, hMulti⟩ := ih
      exact ⟨members, .within hNode hInner, hMulti⟩

theorem GroupTree.within_of_mem {tree members : Members} {name : Text} (h : GroupTree tree)
    (hNode : (name, .obj members) ∈ tree) : GroupTree (within members) := by
  cases h with
  | intro hKeys hNodes hInner => exact hInner name members hNode

theorem GroupTree.exists_obj {tree : Members} {name : Text} {held : Json} (h : GroupTree tree)
    (hNode : (name, held) ∈ tree) : ∃ members, held = .obj members := by
  obtain ⟨m, body, inner, hHeld, -⟩ := h.node_of_mem hNode
  exact ⟨node m body inner, hHeld⟩

theorem GroupTree.exists_members {tree : Members} {name : Text} (h : GroupTree tree)
    (hName : name ∈ tree.map (·.1)) : ∃ members, (name, .obj members) ∈ tree := by
  obtain ⟨⟨_, held⟩, hMem, rfl⟩ := List.mem_map.mp hName
  obtain ⟨members, rfl⟩ := h.exists_obj hMem
  exact ⟨members, hMem⟩

/-! ## Paths to buckets -/

open Rows

/-- A child with buckets is in the shape of a node of any number of buckets. -/
theorem ShapedAs.exists_buckets {tree holder : Members} {name : Text} {held : Json}
    (h : ShapedAs tree holder) (hTree : GroupTree tree) (hCounts : CountsStandApart tree)
    (hHeld : collection? holder name = some held) :
    ∃ (members : Members) (buckets : List Members), (name, .obj members) ∈ tree ∧
      held = .arr (buckets.map .obj) ∧ ∀ bucket ∈ buckets, ShapedAs (within members) bucket ∧
        bucket.has "key" = true ∧ bucket.has "doc_count" = true := by
  obtain ⟨child, hChild, hBuckets⟩ := exists_child_of_collection hHeld
  obtain ⟨hKey, hGet⟩ := get?_of_child hChild
  have hHolder := Members.mem_keys_of_get? hGet
  obtain ⟨members, hNode⟩ := hTree.exists_members (h.others name hHolder hKey)
  have hShape := h.shaped _ _ _ hNode hGet
  cases hShape with
  | value hMethod hSingle hValue hNoBuckets =>
      rw [hNoBuckets] at hBuckets
      cases hBuckets
  | @buckets _ _ buckets hMulti hList hOwn hBears hShaped =>
      cases hBuckets.symm.trans hList
      exact ⟨members, buckets, hNode, rfl,
        fun bucket hMem => ⟨⟨hBears bucket hMem, hShaped bucket hMem⟩, hOwn bucket hMem⟩⟩
  | missing hMethod hCount hBears hShaped =>
      -- The answer has a member of that name only if a node within is called so.
      have hMember := Members.mem_keys_of_get? hBuckets
      obtain ⟨inside, hInside⟩ :=
        (hTree.within_of_mem hNode).exists_members (hBears.others _ hMember (by decide))
      exact absurd hInside (hCounts name members inside (.here hNode) hMethod)

theorem ShapedAs.wellFormed {tree holder : Members} (h : ShapedAs tree holder)
    (hTree : GroupTree tree) (hCounts : CountsStandApart tree) : WellFormed holder := by
  induction hTree generalizing holder with
  | @intro tree hKeys hNodes hInner ih =>
      have hGroup : GroupTree tree := .intro hKeys hNodes hInner
      refine .of_branches (branchNames holder) h.keys rfl ?_
      intro name hName
      obtain ⟨held, hHeld⟩ := Option.isSome_iff_exists.mp (mem_branchNames.mp hName)
      obtain ⟨members, buckets, hNode, rfl, hBuckets⟩ := h.exists_buckets hGroup hCounts hHeld
      refine ⟨_, hHeld, .list buckets, ?_⟩
      intro entry hEntry
      rw [entries_list] at hEntry
      obtain ⟨bucket, hBucket, rfl⟩ := List.mem_map.mp hEntry
      exact ih name members hNode (hBuckets bucket hBucket).1 (hCounts.within hNode)

theorem WellFormed.exists_leads {node : Members} (h : WellFormed node) :
    ∃ path, Path.Leads node path := by
  induction h with
  | @intro node hKeys hCollections _ ih =>
      cases hNames : branchNames node with
      | nil => exact ⟨.stop, .stop hNames⟩
      | cons name names =>
          have hName : name ∈ branchNames node := hNames ▸ List.mem_cons_self
          cases hEntries : entriesAt node name with
          | nil => exact ⟨.empty name, .empty hName hEntries⟩
          | cons entry others =>
              obtain ⟨rest, hRest⟩ := ih name entry (hEntries ▸ List.mem_cons_self)
              have hFirst : (entriesAt node name)[0]? = some (entry.1, entry.2) := by
                rw [hEntries]
                rfl
              exact ⟨.pick name 0 rest, .pick hName hFirst hRest⟩

/-- The buckets of a node are found at positions of a child with buckets. -/
theorem ShapedAs.exists_position {tree holder members bucket : Members} {name : Text}
    (h : ShapedAs tree holder) (hNames : IsNamedApart tree) (hNode : (name, .obj members) ∈ tree)
    (hMulti : IsMultiBucket members) (hBucket : bucket ∈ bucketsOf holder name) :
    ShapedAs (within members) bucket ∧ (bucket.has "key" = true ∧ bucket.has "doc_count" = true) ∧
      name ∈ branchNames holder ∧
        ∃ position : Nat, (entriesAt holder name)[position]? = some (none, bucket) := by
  have hHolder : name ∈ holder.map (·.1) := h.nodes name (List.mem_map.mpr ⟨_, hNode, rfl⟩)
  obtain ⟨held, hGet⟩ := Members.exists_get?_of_mem h.keys hHolder
  have hShape := h.shaped _ _ _ hNode hGet
  obtain ⟨m, hMethod, hMany⟩ := hMulti
  cases hShape with
  | value hMethod' hSingle =>
      cases hMethod.symm.trans hMethod'
      rw [Method.isMultiBucket, Method.isBucket_of_isSingleValue hSingle] at hMany
      cases hMany
  | missing hMethod' =>
      cases hMethod.symm.trans hMethod'
      cases hMany
  | @buckets _ answer buckets hMulti' hList hOwn hBears hShaped =>
      rw [bucketsOf_eq hGet hList] at hBucket
      have hKey : isChildKey name = true := (hNames name members (.here hNode)).1
      have hHeld : collection? holder name = some (.arr (buckets.map .obj)) := by
        simp [collection?, child?, hKey, hGet, hList]
      have hEntry : (none, bucket) ∈ entriesAt holder name := by
        rw [entriesAt_of_collection hHeld, entries_list]
        exact List.mem_map.mpr ⟨bucket, hBucket, rfl⟩
      exact ⟨⟨hBears bucket hBucket, hShaped bucket hBucket⟩, hOwn bucket hBucket,
        mem_branchNames.mpr (by simp [hHeld]), List.mem_iff_getElem?.mp hEntry⟩

/-- A bucket of a result lies on a path from its root, if the tree hides none. -/
theorem HasBucket.exists_path {tree holder bucket : Members} {name : Text}
    (h : HasBucket tree holder name bucket) (hShape : ShapedAs tree holder)
    (hTree : GroupTree tree) (hNames : IsNamedApart tree) (hHides : ¬Hides tree) :
    (bucket.has "key" = true ∧ bucket.has "doc_count" = true) ∧
      ∃ path, Path.Leads holder path ∧ ⟨name, none, bucket⟩ ∈ path.visits holder := by
  induction h with
  | here hNode hMulti hBucket =>
      obtain ⟨hInner, hOwn, hName, position, hAt⟩ :=
        hShape.exists_position hNames hNode hMulti hBucket
      have hWellFormed := hInner.wellFormed (hTree.within_of_mem hNode)
        (hNames.within hNode).countsStandApart
      obtain ⟨rest, hRest⟩ := hWellFormed.exists_leads
      refine ⟨hOwn, _, .pick hName hAt hRest, ?_⟩
      rw [Path.visits_pick rest hAt]
      exact List.mem_cons_self
  | inBucket hNode hMulti hOuter _ ih =>
      obtain ⟨hInner, -, hName, position, hAt⟩ :=
        hShape.exists_position hNames hNode hMulti hOuter
      obtain ⟨hOwn, rest, hRest, hVisit⟩ := ih hInner (hTree.within_of_mem hNode)
        (hNames.within hNode) fun hInside => hHides (.of_within hNode hInside)
      refine ⟨hOwn, _, .pick hName hAt hRest, ?_⟩
      rw [Path.visits_pick rest hAt]
      exact List.mem_cons_of_mem _ hVisit
  | inMissing hNode hMethod _ hBucket _ =>
      obtain ⟨members, hIn, hMulti⟩ := hBucket.exists_node
      exact absurd ⟨_, _, _, members, .here hNode, hMethod, hIn, hMulti⟩ hHides

theorem shownKey_mem_ownColumns {name : Text} {bucket : Members}
    (h : bucket.has "key" = true ∧ bucket.has "doc_count" = true) :
    (name, shownKey bucket) ∈ ownColumns name none bucket := by
  obtain ⟨key, hKey⟩ := Option.isSome_iff_exists.mp h.1
  obtain ⟨count, hCount⟩ := Option.isSome_iff_exists.mp h.2
  simp [ownColumns, shownKey, Members.getD, hKey, hCount]

/-- A result has rows, and one of them shows the key of a bucket. -/
def Shows (result : Members) (name : Text) (bucket : Members) : Prop :=
  ∃ found row, rows (.obj result) [] = .ok found ∧ row ∈ found ∧ (name, shownKey bucket) ∈ row

theorem HasBucket.shows {tree result bucket : Members} {name : Text}
    (h : HasBucket tree result name bucket) (hShape : ShapedAs tree result)
    (hTree : GroupTree tree) (hNames : IsNamedApart tree) (hHides : ¬Hides tree) :
    Shows result name bucket := by
  obtain ⟨hOwn, path, hLeads, hVisit⟩ := h.exists_path hShape hTree hNames hHides
  have hSome : result ≠ [] := by
    rintro rfl
    cases hLeads with
    | stop h => cases hVisit
    | empty hName hEmpty => cases hName
    | pick hName hBucket hRest => cases hName
  obtain ⟨paths, hPaths, hRows⟩ := (hShape.wellFormed hTree hNames.countsStandApart).exists_rows hSome
  refine ⟨_, path.row result, hRows [], ?_, ?_⟩
  · exact List.mem_map.mpr ⟨path, (hPaths.mem_iff path).mpr hLeads, rfl⟩
  · refine List.mem_append_right _ (List.mem_flatMap.mpr ⟨_, hVisit, ?_⟩)
    exact List.mem_append_left _ (shownKey_mem_ownColumns hOwn)

end LogQuery.Aggregation
