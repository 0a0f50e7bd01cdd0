import LogQuery.Proofs.Aggregation.Nodes

/-! The shape of every tree of group-by levels, whatever the names in it and however many
definitions a level has. Each step of building a tree keeps the shape. -/

namespace LogQuery.Aggregation

/-- Every node counts buckets and may have such a tree within, or computes a single value. No two
nodes side by side have one name. -/
inductive GroupTree : Members → Prop
  | intro {tree : Members} (hKeys : (tree.map (·.1)).Nodup)
      (hNodes : ∀ n ∈ tree, ∃ m body inner, n.2 = .obj (node m body inner) ∧
        (m.isBucket = true ∨ m.isSingleValue = true ∧ inner = []))
      (hInner : ∀ name members, (name, .obj members) ∈ tree → GroupTree (within members)) :
      GroupTree tree

/-- A node of a tree of group-by levels. -/
def GroupNode (held : Json) : Prop :=
  ∃ m body inner, held = .obj (node m body inner) ∧ GroupTree inner ∧
    (m.isBucket = true ∨ m.isSingleValue = true ∧ inner = [])

/-- A node counts missing values, makes any number of buckets, or computes a value. -/
theorem GroupNode.kinds {held : Json} (h : GroupNode held) :
    (∃ body inner, held = .obj (node .missing body inner) ∧ GroupTree inner) ∨
    (∃ m body inner, held = .obj (node m body inner) ∧ m.isMultiBucket = true ∧ GroupTree inner) ∨
    ∃ m body, held = .obj (node m body []) ∧ m.isSingleValue = true := by
  obtain ⟨m, body, inner, rfl, hInner, hBucket | ⟨hSingle, rfl⟩⟩ := h
  · by_cases hMissing : m = .missing
    · subst hMissing
      exact .inl ⟨body, inner, rfl, hInner⟩
    · have hMulti : m.isMultiBucket = true := by
        simp [Method.isMultiBucket, hBucket, hMissing]
      exact .inr (.inl ⟨m, body, inner, rfl, hMulti, hInner⟩)
  · exact .inr (.inr ⟨m, body, rfl, hSingle⟩)

namespace GroupTree

variable {tree more : Members}

theorem keys (h : GroupTree tree) : (tree.map (·.1)).Nodup := by
  cases h with
  | intro hKeys hNodes hInner => exact hKeys

theorem node_of_mem (h : GroupTree tree) {n : Text × Json} (hMem : n ∈ tree) : GroupNode n.2 := by
  cases h with
  | intro hKeys hNodes hInner =>
      obtain ⟨m, body, inner, hNode, hMethod⟩ := hNodes n hMem
      have hTree := hInner n.1 (node m body inner) (hNode ▸ hMem)
      rw [within_node] at hTree
      exact ⟨m, body, inner, hNode, hTree, hMethod⟩

theorem of_nodes (hKeys : (tree.map (·.1)).Nodup) (hNodes : ∀ n ∈ tree, GroupNode n.2) :
    GroupTree tree := by
  refine .intro hKeys ?_ ?_
  · intro n hMem
    obtain ⟨m, body, inner, hNode, -, hMethod⟩ := hNodes n hMem
    exact ⟨m, body, inner, hNode, hMethod⟩
  · intro name members hMem
    obtain ⟨m, body, inner, hNode, hTree, -⟩ := hNodes _ hMem
    obtain rfl : members = node m body inner := Json.obj.inj hNode
    rwa [within_node]

theorem nil : GroupTree [] :=
  of_nodes List.nodup_nil (by simp)

theorem update (h : GroupTree tree) (hMore : ∀ n ∈ more, GroupNode n.2) :
    GroupTree (tree.update more) := by
  refine of_nodes (Members.nodup_update h.keys) fun n hMem => ?_
  rcases Members.eq_or_mem_of_mem_update hMem with hMem | hMem
  · exact hMore n hMem
  · exact h.node_of_mem hMem

theorem map {f : Json → Json} (h : GroupTree tree)
    (hf : ∀ held, GroupNode held → GroupNode (f held)) :
    GroupTree (tree.map fun n => (n.1, f n.2)) := by
  refine of_nodes ?_ fun _ hMap => ?_
  · simpa [Function.comp_def] using h.keys
  · obtain ⟨n, hMem, rfl⟩ := List.mem_map.mp hMap
    exact hf _ (h.node_of_mem hMem)

end GroupTree

/-- What holds of the only definition in a text holds of all that are read from it. -/
theorem Definition.forall_of_readAll {text : Text} {d : Definition} {p : Definition → Prop}
    (h : Definition.readAll text = .ok [d]) (hp : p d) :
    ∀ ds, Definition.readAll text = .ok ds → ∀ d' ∈ ds, p d' := by
  intro ds hRead d' hMem
  cases h.symm.trans hRead
  rwa [List.mem_singleton.mp hMem]

/-- The definitions in a text all count buckets. -/
def CountsBuckets (text : Text) : Prop :=
  ∀ ds, Definition.readAll text = .ok ds → ∀ d ∈ ds, d.method.isBucket = true

variable {ds : List Definition} {inner : Members}

theorem groupTree_nodesOf (h : ∀ d ∈ ds, d.method.isBucket = true) (hInner : GroupTree inner) :
    GroupTree ((nodesOf ds).map fun n => (n.1, around inner n.2)) := by
  refine .of_nodes ?_ fun _ hMap => ?_
  · have hKeys : ((nodesOf ds).map (·.1)).Nodup := Members.nodup_update List.nodup_nil
    simpa [Function.comp_def] using hKeys
  · obtain ⟨n, hMem, rfl⟩ := List.mem_map.mp hMap
    obtain ⟨d, hd, rfl⟩ := exists_of_mem_nodesOf hMem
    exact ⟨d.method, d.bodyMembers, inner, around_bare _ _ _, hInner, .inl (h d hd)⟩

theorem groupNode_of_mem_valuesOf {v : Text × Json} (h : v ∈ valuesOf ds) : GroupNode v.2 := by
  obtain ⟨d, -, hSingle, rfl⟩ := exists_of_mem_valuesOf h
  exact ⟨d.method, d.bodyMembers, [], d.body_eq_node, .nil, .inr ⟨hSingle, rfl⟩⟩

theorem GroupNode.ordered {held : Json} (h : GroupNode held) (direction : Json) :
    GroupNode (ordered direction ds held) := by
  by_cases hNone : orderingValues ds = []
  · rwa [ordered_of_nil _ _ hNone]
  · obtain ⟨m, body, inner, rfl, hInner, hMethod⟩ := h
    rw [ordered_node direction m body inner hNone]
    cases hOrderable : m.isOrderable with
    | false =>
        rw [orderedTree, if_neg (by simp [hOrderable])]
        exact ⟨m, _, inner, rfl, hInner, hMethod⟩
    | true =>
        rw [orderedTree, if_pos hOrderable]
        have hTree := hInner.update fun v (hv : v ∈ valuesOf ds) => groupNode_of_mem_valuesOf hv
        exact ⟨m, _, _, rfl, hTree, .inl (Method.isBucket_of_isOrderable hOrderable)⟩

theorem groupTree_treeOf (direction : Json) {tiers : List Tier}
    (h : ∀ tier ∈ tiers, ∀ d ∈ tier.definitions, d.method.isBucket = true) :
    GroupTree (treeOf direction tiers) := by
  induction tiers with
  | nil => exact .nil
  | cons tier tiers ih =>
      obtain ⟨hBuckets, hRest⟩ := List.forall_mem_cons.mp h
      have hAround := groupTree_nodesOf hBuckets (ih hRest)
      have hOrdered := hAround.map (f := ordered direction tier.ordering) fun held hHeld =>
        hHeld.ordered direction
      simpa [treeOf, Tier.treeAround, Tier.nodes, Function.comp_def] using hOrdered

/-- The tree of levels of buckets has the shape, if there is one. -/
theorem groupTree_of_groupBy {direction : Json} {levels : List Level} {tree : Members}
    (hLevels : ∀ level ∈ levels, CountsBuckets level.text)
    (h : groupBy (.arr (levels.map Level.toJson)) direction = .ok (.obj tree)) :
    GroupTree tree := by
  obtain ⟨tiers, hTiers, hTree⟩ := groupBy_eq_ok_iff.mp h
  rw [Json.obj.inj hTree]
  refine groupTree_treeOf direction fun tier hTier => ?_
  obtain ⟨level, hLevel, hSays⟩ := exists_of_mem_forall₂ hTiers hTier
  exact hLevels level hLevel _ hSays.text

end LogQuery.Aggregation
