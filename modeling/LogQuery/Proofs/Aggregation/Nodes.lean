import LogQuery.Proofs.Aggregation.Levels

/-! What is done to a tree of aggregations is done to each of its nodes. Wrapping puts a tree within
every node, and ordering gives every node that can be ordered an order and the values that it names.
So the tree of some levels is a function of what the levels say. -/

namespace LogQuery.Aggregation

variable {tree inner : Members} {ds : List Definition}

/-- Every member of the tree is a node. -/
def AreNodes (tree : Members) : Prop :=
  ∀ n ∈ tree, ∃ m body inner, n.2 = .obj (node m body inner)

/-- Every member of the tree is an object, as a node should be. -/
def AreObjects (tree : Members) : Prop :=
  ∀ n ∈ tree, ∃ members : Members, n.2 = .obj members

theorem AreNodes.areObjects (h : AreNodes tree) : AreObjects tree := by
  intro n hMem
  obtain ⟨m, body, inner, hNode⟩ := h n hMem
  exact ⟨node m body inner, hNode⟩

/-- Every member of the tree is a node without a tree within. -/
def AreBare (tree : Members) : Prop :=
  ∀ n ∈ tree, ∃ m body, n.2 = .obj (node m body [])

theorem AreBare.areNodes (h : AreBare tree) : AreNodes tree := by
  intro n hMem
  obtain ⟨m, body, hNode⟩ := h n hMem
  exact ⟨m, body, [], hNode⟩

theorem AreNodes.exists_of_get? (h : AreNodes tree) {name : Text} {held : Json}
    (hGet : tree.get? name = some held) : ∃ m body inner, held = .obj (node m body inner) :=
  h _ (Members.mem_of_get? hGet)

theorem AreBare.exists_of_get? (h : AreBare tree) {name : Text} {held : Json}
    (hGet : tree.get? name = some held) : ∃ m body, held = .obj (node m body []) :=
  h _ (Members.mem_of_get? hGet)

/-! ## Definitions as nodes -/

/-- The nodes of some definitions; of two with one name the later replaces the earlier. -/
def nodesOf (ds : List Definition) : Members :=
  Members.update [] (ds.map fun d => (d.name, d.body))

theorem expand_eq_ok_iff {text : Text} :
    expand text = .ok tree ↔ ∃ ds, Definition.readAll text = .ok ds ∧ tree = nodesOf ds := by
  have hNodes : ∀ ds : List Definition,
      ds.foldl (fun (tree : Members) d => tree.set d.name d.body) [] = nodesOf ds := by
    intro ds
    rw [nodesOf, Members.update, List.foldl_map]
  simp only [expand, bind_eq_ok_iff, pure_eq_ok_iff, hNodes, eq_comm (a := tree)]

theorem exists_of_mem_nodesOf {n : Text × Json} (h : n ∈ nodesOf ds) :
    ∃ d ∈ ds, n = (d.name, d.body) := by
  rcases Members.eq_or_mem_of_mem_update h with hMem | hMem
  · obtain ⟨d, hd, rfl⟩ := List.mem_map.mp hMem
    exact ⟨d, hd, rfl⟩
  · cases hMem

theorem areBare_nodesOf (ds : List Definition) : AreBare (nodesOf ds) := by
  intro n hMem
  obtain ⟨d, -, rfl⟩ := exists_of_mem_nodesOf hMem
  exact ⟨d.method, d.bodyMembers, d.body_eq_node⟩

/-! ## Wrapping -/

theorem set_treeKey_node (m : Method) (body old : Members) {inner : Members} (h : inner ≠ []) :
    (node m body old).set treeKey (.obj inner) = node m body inner := by
  have hMethod := (treeKey_ne_name m).symm
  cases old <;> simp [node, Members.set, hMethod, h]

/-- A node with a tree put within it, unless the tree is empty. -/
def around (inner : Members) (held : Json) : Json :=
  match held with
  | .obj members =>
      .obj (if inner.isEmpty then members else Members.set members treeKey (.obj inner))
  | other => other

theorem around_nil (held : Json) : around [] held = held := by
  cases held <;> rfl

theorem around_node (m : Method) (body old : Members) (h : inner ≠ []) :
    around inner (.obj (node m body old)) = .obj (node m body inner) := by
  rw [around, if_neg (by simpa using h), set_treeKey_node m body old h]

theorem around_bare (m : Method) (body inner : Members) :
    around inner (.obj (node m body [])) = .obj (node m body inner) := by
  cases inner with
  | nil => exact around_nil _
  | cons n inner => exact around_node m body [] (List.cons_ne_nil n inner)

theorem AreNodes.around (h : AreNodes tree) (inner : Members) :
    AreNodes (tree.map fun n => (n.1, around inner n.2)) := by
  intro _ hMap
  obtain ⟨n, hMem, rfl⟩ := List.mem_map.mp hMap
  obtain ⟨m, body, old, hNode⟩ := h n hMem
  rw [hNode]
  cases inner with
  | nil => exact ⟨m, body, old, around_nil (.obj (node m body old))⟩
  | cons first inner =>
      exact ⟨m, body, first :: inner, around_node m body old (List.cons_ne_nil first inner)⟩

theorem mapM_nestUnder (h : AreObjects tree) (hInner : inner ≠ []) :
    tree.mapM (nestUnder (.obj inner)) = .ok (tree.map fun n => (n.1, around inner n.2)) := by
  rw [mapM_eq_ok_iff, List.forall₂_map_right_iff, List.forall₂_same]
  rintro ⟨name, held⟩ hMem
  obtain ⟨members, rfl⟩ := h _ hMem
  rw [nestUnder, around, if_neg (by simpa using hInner)]

theorem wrap_objects {outer : Json} {wrapper : Members} (hObjects : AreObjects wrapper)
    (hOuter : outer = .obj wrapper ∨ ∃ text, outer = .str text ∧ expand text = .ok wrapper)
    (inner : Members) :
    wrap outer (.obj inner) = .ok (.obj (wrapper.map fun n => (n.1, around inner n.2))) := by
  have hWrap : wrap outer (.obj inner) =
      if (Json.obj inner).truthy then Json.obj <$> wrapper.mapM (nestUnder (.obj inner))
      else .ok (.obj wrapper) := by
    rcases hOuter with rfl | ⟨text, rfl, hExpand⟩
    · rfl
    · simp only [wrap, hExpand]
      rfl
  rw [hWrap]
  cases inner with
  | nil => simp [Json.truthy, around_nil]
  | cons n inner =>
      rw [mapM_nestUnder hObjects (List.cons_ne_nil n inner)]
      rfl

/-- A text that can be read puts its nodes around a tree. -/
theorem wrap_text_eq_ok_iff {text : Text} {wrapped : Json} :
    wrap (.str text) (.obj inner) = .ok wrapped ↔ ∃ ds, Definition.readAll text = .ok ds ∧
      wrapped = .obj ((nodesOf ds).map fun n => (n.1, around inner n.2)) := by
  cases hRead : Definition.readAll text with
  | error failure => simp [wrap, expand, hRead, bind, Except.bind, Functor.map, Except.map]
  | ok ds =>
      have hExpand := expand_eq_ok_iff.mpr ⟨ds, hRead, rfl⟩
      rw [wrap_objects (areBare_nodesOf ds).areNodes.areObjects (.inr ⟨_, rfl, hExpand⟩)]
      simp [eq_comm]

/-- Wrapping nothing and wrapping an empty tree is the same. -/
theorem wrap_orElse (outer inner : Json) :
    wrap outer (inner.orElse (.obj [])) = wrap outer inner := by
  unfold Json.orElse
  split
  · rfl
  · rename_i hNone
    simp only [wrap, if_neg hNone]
    rfl

/-! ## Ordering -/

/-- The values that definitions give to order by, by name. -/
def valuesOf (ds : List Definition) : Members :=
  Members.update [] (orderingValues ds)

theorem nodup_valuesOf (ds : List Definition) : ((valuesOf ds).map (·.1)).Nodup :=
  Members.nodup_update List.nodup_nil

theorem valuesOf_ne_nil (h : orderingValues ds ≠ []) : valuesOf ds ≠ [] :=
  Members.update_ne_nil_of_right h

theorem exists_of_mem_valuesOf {v : Text × Json} (h : v ∈ valuesOf ds) :
    ∃ d ∈ ds, d.method.isSingleValue = true ∧ v = (Text.replace '.' ['_'] d.name, d.body) := by
  rcases Members.eq_or_mem_of_mem_update h with hMem | hMem
  · obtain ⟨d, hd, rfl⟩ := List.mem_map.mp hMem
    obtain ⟨hMem, hSingle⟩ := List.mem_filter.mp hd
    exact ⟨d, hMem, hSingle, rfl⟩
  · cases hMem

theorem exists_get?_valuesOf {v : Text × Json} (h : v ∈ orderingValues ds) :
    ∃ value, (valuesOf ds).get? v.1 = some value := by
  refine Members.exists_get?_of_mem (nodup_valuesOf ds) ?_
  exact Members.mem_keys_update.mpr (.inl (List.mem_map_of_mem h))

/-- What ordering by some values makes of a node of a method. -/
def orderedBody (m : Method) (order : Json) (body : Members) : Members :=
  if m.isOrderable then Members.set body "order" order else body

/-- The tree within a node of a method that is ordered by some values. -/
def orderedTree (m : Method) (values inner : Members) : Members :=
  if m.isOrderable then inner.update values else inner

/-- Ordering a node gives it an order and the values, each in the place of what has its name. -/
theorem orderNode_node {values : Members} (m : Method) (order : Json) (body inner : Members)
    (hKeys : (values.map (·.1)).Nodup) (hSome : values ≠ []) :
    orderNode order values (.obj (node m body inner)) =
      ⟨.obj (node m (orderedBody m order body) (orderedTree m values inner)), none⟩ := by
  cases hOrderable : m.isOrderable with
  | false => simp [orderedBody, orderedTree, hOrderable, orderNode_of_not_orderable hOrderable]
  | true =>
      have hTreeKey : isOrderableKey treeKey = false := by decide
      have hName := treeKey_ne_name m
      cases inner with
      | nil =>
          have hValues : Members.update [] values = values := Members.update_of_nodup hKeys
          simp [orderedBody, orderedTree, hOrderable, orderNode, orderKeys, node,
            isOrderableKey_name, Members.getD, Members.get?_cons, Members.get?_nil, Members.set,
            hName, hName.symm, hSome, hValues]
      | cons n inner =>
          have hNonempty : (Members.update (n :: inner) values).isEmpty = false := by
            rw [List.isEmpty_eq_false_iff]
            exact Members.update_ne_nil (List.cons_ne_nil n inner)
          simp [orderedBody, orderedTree, hOrderable, orderNode, orderKeys, node,
            isOrderableKey_name, hTreeKey, Members.getD, Members.get?_cons, Members.set, hName,
            hName.symm, hNonempty]

/-- A member of a tree that is ordered by the values of some definitions. -/
def ordered (direction : Json) (ds : List Definition) (held : Json) : Json :=
  if (orderingValues ds).isEmpty then held
  else (orderNode (orderEntries direction (orderingValues ds)) (valuesOf ds) held).reached

theorem ordered_node (direction : Json) (m : Method) (body inner : Members)
    (h : orderingValues ds ≠ []) :
    ordered direction ds (.obj (node m body inner)) =
      .obj (node m (orderedBody m (orderEntries direction (orderingValues ds)) body)
        (orderedTree m (valuesOf ds) inner)) := by
  rw [ordered, if_neg (by simpa using h),
    orderNode_node m _ body inner (nodup_valuesOf ds) (valuesOf_ne_nil h)]

theorem ordered_of_nil (direction held : Json) (h : orderingValues ds = []) :
    ordered direction ds held = held := by
  simp [ordered, h]

/-- The bodies have the same members but for an order. -/
def SameButOrder (body body' : Members) : Prop :=
  ∀ key : Text, key ≠ "order" → body'.get? key = body.get? key

/-- Ordering a node puts the values within it, and the rest of its body stays but for the order. -/
theorem exists_ordered_node (direction : Json) (ds : List Definition) (m : Method)
    (body inner : Members) :
    ∃ body', ordered direction ds (.obj (node m body inner)) =
        .obj (node m body' (orderedTree m (valuesOf ds) inner)) ∧ SameButOrder body body' := by
  by_cases hNone : orderingValues ds = []
  · refine ⟨body, ?_, fun _ _ => rfl⟩
    have hValues : valuesOf ds = [] := by rw [valuesOf, hNone]; rfl
    have hTree : orderedTree m [] inner = inner := ite_self inner
    rw [ordered_of_nil _ _ hNone, hValues, hTree]
  · refine ⟨_, ordered_node direction m body inner hNone, fun key hKey => ?_⟩
    unfold orderedBody
    split
    · exact Members.get?_set_of_ne hKey
    · rfl

theorem orderNodes_eq {values : Members} (order : Json) (hNodes : AreNodes tree)
    (hKeys : (values.map (·.1)).Nodup) (hSome : values ≠ []) :
    orderNodes order values tree =
      ⟨tree.map fun n => (n.1, (orderNode order values n.2).reached), none⟩ := by
  induction tree with
  | nil => rfl
  | cons n tree ih =>
      obtain ⟨name, held⟩ := n
      obtain ⟨⟨m, body, inner, hNode⟩, hRest⟩ := List.forall_mem_cons.mp hNodes
      obtain rfl : held = .obj (node m body inner) := hNode
      simp only [orderNodes, orderNode_node m order body inner hKeys hSome, ih hRest, List.map_cons]

theorem orderBy_of_nil {definitions : Json} (hRead : readDefinitions definitions = .ok ds)
    (h : orderingValues ds = []) (tree direction : Json) :
    orderBy tree direction definitions = ⟨tree, none⟩ := by
  simp only [orderBy, hRead, h]

theorem orderBy_of_ne_nil {definitions : Json} (hRead : readDefinitions definitions = .ok ds)
    (h : orderingValues ds ≠ []) (tree : Members) (direction : Json) :
    orderBy (.obj tree) direction definitions =
      ⟨.obj (orderNodes (orderEntries direction (orderingValues ds)) (valuesOf ds) tree).reached,
        (orderNodes (orderEntries direction (orderingValues ds)) (valuesOf ds) tree).failure⟩ := by
  simp only [orderBy, hRead, valuesOf]

/-- Ordering a tree orders each of its nodes. -/
theorem orderBy_nodes {definitions : Json} (hNodes : AreNodes tree)
    (hRead : readDefinitions definitions = .ok ds) (direction : Json) :
    orderBy (.obj tree) direction definitions =
      ⟨.obj (tree.map fun n => (n.1, ordered direction ds n.2)), none⟩ := by
  by_cases h : orderingValues ds = []
  · simp [orderBy_of_nil hRead h, ordered_of_nil _ _ h]
  · have hOrdered : ∀ held, ordered direction ds held =
        (orderNode (orderEntries direction (orderingValues ds)) (valuesOf ds) held).reached := by
      intro held
      rw [ordered, if_neg (by simpa using h)]
    rw [orderBy_of_ne_nil hRead h, orderNodes_eq _ hNodes (nodup_valuesOf ds) (valuesOf_ne_nil h)]
    simp only [hOrdered]

/-! ## Levels -/

/-- What a level says: the definitions of its nodes, and those that they are ordered by. -/
structure Tier where
  definitions : List Definition
  ordering : List Definition

/-- The texts of the level can be read, and this is what they say. -/
structure Level.Says (level : Level) (tier : Tier) : Prop where
  text : Definition.readAll level.text = .ok tier.definitions
  ordering : ((level.orderedBy?.getD []).mapM Definition.readAll).map List.flatten =
    .ok tier.ordering

/-- The nodes of a level, by name. -/
def Tier.nodes (tier : Tier) : Members :=
  nodesOf tier.definitions

/-- The nodes of a level with a tree within each of them, ordered by the values of the level. -/
def Tier.treeAround (tier : Tier) (direction : Json) (inner : Members) : Members :=
  tier.nodes.map fun n => (n.1, ordered direction tier.ordering (around inner n.2))

/-- The tree of what some levels say, the outermost first. -/
def treeOf (direction : Json) : List Tier → Members
  | [] => []
  | tier :: tiers => tier.treeAround direction (treeOf direction tiers)

theorem AreNodes.ordered (h : AreNodes tree) (direction : Json) (ds : List Definition) :
    AreNodes (tree.map fun n => (n.1, ordered direction ds n.2)) := by
  intro _ hMap
  obtain ⟨n, hMem, rfl⟩ := List.mem_map.mp hMap
  obtain ⟨m, body, inner, hNode⟩ := h n hMem
  obtain ⟨body', hOrdered, -⟩ := exists_ordered_node direction ds m body inner
  exact ⟨m, body', _, by rw [hNode, hOrdered]⟩

theorem areNodes_treeOf (direction : Json) (tiers : List Tier) :
    AreNodes (treeOf direction tiers) := by
  cases tiers with
  | nil => simp [treeOf, AreNodes]
  | cons tier tiers =>
      have hAround := (areBare_nodesOf tier.definitions).areNodes.around (treeOf direction tiers)
      simpa [treeOf, Tier.treeAround, Tier.nodes, Function.comp_def] using
        hAround.ordered direction tier.ordering

/-- Putting a tree within nodes and ordering them is what a level does, if it can be read. -/
theorem order_around {direction added : Json} {texts : List Text} (hBare : AreBare tree)
    (inner : Members) :
    (if (Json.texts texts).truthy then
      (orderBy (.obj (tree.map fun n => (n.1, around inner n.2))) direction (Json.texts texts)).result
    else pure (.obj (tree.map fun n => (n.1, around inner n.2)))) = .ok added ↔
      ∃ ordering, (texts.mapM Definition.readAll).map List.flatten = .ok ordering ∧
        added = .obj (tree.map fun n => (n.1, ordered direction ordering (around inner n.2))) := by
  have hNodes := hBare.areNodes.around inner
  cases texts with
  | nil =>
      have hFalse : ¬(Json.texts []).truthy = true := Bool.false_ne_true
      have hRead : (([] : List Text).mapM Definition.readAll).map List.flatten = .ok [] := rfl
      have hSame : ∀ held, ordered direction [] held = held := fun held => ordered_of_nil _ held rfl
      rw [if_neg hFalse, hRead, pure_eq_ok_iff, eq_comm]
      simp only [Except.ok.injEq, exists_eq_left', hSame]
  | cons text texts =>
      have hTruthy : (Json.texts (text :: texts)).truthy = true := rfl
      rw [if_pos hTruthy, ← readDefinitions_texts]
      cases hRead : readDefinitions (Json.texts (text :: texts)) with
      | error failure => simp [orderBy, hRead, Change.result]
      | ok ordering =>
          rw [orderBy_nodes hNodes hRead]
          simp [Change.result, Function.comp_def, eq_comm]

/-- A level that can be read puts its tree around another one. -/
theorem addLevel_eq_ok_iff {direction added : Json} {level : Level} :
    addLevel direction level.toJson (.obj inner) = .ok added ↔
      ∃ tier, level.Says tier ∧ added = .obj (tier.treeAround direction inner) := by
  rw [addLevel, levelParts_toJson, bind_eq_ok_iff]
  simp only [Except.ok.injEq, exists_eq_left', bind_eq_ok_iff, wrap_text_eq_ok_iff]
  constructor
  · rintro ⟨_, ⟨ds, hRead, rfl⟩, h⟩
    obtain ⟨ordering, hOrdering, rfl⟩ := (order_around (areBare_nodesOf ds) inner).mp h
    exact ⟨⟨ds, ordering⟩, ⟨hRead, hOrdering⟩, rfl⟩
  · rintro ⟨tier, ⟨hRead, hOrdering⟩, rfl⟩
    refine ⟨_, ⟨tier.definitions, hRead, rfl⟩, ?_⟩
    exact (order_around (areBare_nodesOf _) inner).mpr ⟨tier.ordering, hOrdering, rfl⟩

/-- Grouping by levels that can be read gives the tree of what they say, and nothing else has one.
-/
theorem groupBy_eq_ok_iff {levels : List Level} {direction grouped : Json} :
    groupBy (.arr (levels.map Level.toJson)) direction = .ok grouped ↔
      ∃ tiers, List.Forall₂ Level.Says levels tiers ∧ grouped = .obj (treeOf direction tiers) := by
  have hLevels : groupBy (.arr (levels.map Level.toJson)) direction =
      nestLevels direction (levels.map Level.toJson).reverse (.obj []) := rfl
  rw [hLevels]
  clear hLevels
  induction levels generalizing grouped with
  | nil => simp [nestLevels, treeOf, eq_comm]
  | cons level levels ih =>
      rw [List.map_cons, List.reverse_cons, nestLevels_append, bind_eq_ok_iff]
      simp only [ih, List.forall₂_cons_left_iff]
      constructor
      · rintro ⟨_, ⟨tiers, hTiers, rfl⟩, h⟩
        obtain ⟨tier, hTier, rfl⟩ := addLevel_eq_ok_iff.mp h
        exact ⟨tier :: tiers, ⟨tier, tiers, hTier, hTiers, rfl⟩, rfl⟩
      · rintro ⟨_, ⟨tier, tiers, hTier, hTiers, rfl⟩, rfl⟩
        exact ⟨_, ⟨tiers, hTiers, rfl⟩, addLevel_eq_ok_iff.mpr ⟨tier, hTier, rfl⟩⟩

/-! ## Levels of one definition -/

/-- As what a level says. -/
def Grouping.tier (g : Grouping) : Tier :=
  ⟨[g.definition], g.ordering⟩

theorem Level.Reads.says {level : Level} {g : Grouping} (h : level.Reads g) : level.Says g.tier :=
  ⟨h.text, h.ordering⟩

/-- Ordering puts the values of a grouping beside what is within its node. -/
theorem Grouping.orderedTree_eq {g : Grouping}
    (hNames : ((inner ++ g.values).map (·.1)).Nodup) :
    orderedTree g.definition.method (valuesOf g.ordering) inner = inner ++ g.values := by
  cases hOrderable : g.definition.method.isOrderable with
  | false => simp [orderedTree, Grouping.values, hOrderable]
  | true =>
      have hSame : g.values = orderingValues g.ordering := by simp [Grouping.values, hOrderable]
      rw [hSame] at hNames ⊢
      have hValues : valuesOf g.ordering = orderingValues g.ordering := by
        refine Members.update_of_nodup ?_
        rw [List.map_append] at hNames
        exact (List.nodup_append.mp hNames).2.1
      rw [orderedTree, if_pos hOrderable, hValues, Members.update_of_nodup hNames]

/-- A level of one definition puts one node around a tree, with the values that it is ordered by. -/
theorem Grouping.exists_treeAround (g : Grouping) (direction : Json)
    (hNames : ((inner ++ g.values).map (·.1)).Nodup) :
    ∃ body, g.tier.treeAround direction inner =
      [(g.name, .obj (node g.definition.method body (inner ++ g.values)))] := by
  have hTree : g.tier.treeAround direction inner = [(g.name, ordered direction g.ordering
      (.obj (node g.definition.method g.definition.bodyMembers inner)))] := by
    rw [← around_bare, ← Definition.body_eq_node]
    rfl
  by_cases hNone : orderingValues g.ordering = []
  · have hValues : g.values = [] := by simp [Grouping.values, hNone]
    rw [hTree, ordered_of_nil _ _ hNone, hValues, List.append_nil]
    exact ⟨_, rfl⟩
  · rw [hTree, ordered_node direction _ _ _ hNone, g.orderedTree_eq hNames]
    exact ⟨_, rfl⟩

theorem nests_treeOf (direction : Json) {gs : List Grouping}
    (hMulti : ∀ g ∈ gs, g.definition.method.isMultiBucket = true)
    (hNames : (gs.flatMap Grouping.names).Nodup) :
    Nests gs (treeOf direction (gs.map Grouping.tier)) := by
  induction gs with
  | nil => exact .nil
  | cons g gs ih =>
      obtain ⟨hFirst, hRest⟩ := List.forall_mem_cons.mp hMulti
      have hInner : (gs.flatMap Grouping.names).Nodup := by
        rw [List.flatMap_cons] at hNames
        exact (List.nodup_append.mp hNames).2.1
      have hNests := ih hRest hInner
      obtain ⟨body, hBody⟩ := g.exists_treeAround direction (hNests.nodup_within hNames)
      rw [List.map_cons, treeOf, hBody]
      exact .cons g gs body _ hNests hFirst

theorem exists_groupBy (direction : Json) {levels : List Level} {gs : List Grouping}
    (hReads : List.Forall₂ Level.Reads levels gs)
    (hNames : (gs.flatMap Grouping.names).Nodup) :
    ∃ tree, groupBy (.arr (levels.map Level.toJson)) direction = .ok (.obj tree) ∧
      Nests gs tree := by
  have hSays : List.Forall₂ Level.Says levels (gs.map Grouping.tier) := by
    rw [List.forall₂_map_right_iff]
    exact hReads.imp fun _ _ h => h.says
  have hMulti : ∀ g ∈ gs, g.definition.method.isMultiBucket = true := by
    clear hNames hSays
    induction hReads with
    | nil => simp
    | cons hLevel _ ih => exact List.forall_mem_cons.mpr ⟨hLevel.multiBucket, ih⟩
  exact ⟨_, groupBy_eq_ok_iff.mpr ⟨_, hSays, rfl⟩, nests_treeOf direction hMulti hNames⟩

end LogQuery.Aggregation
