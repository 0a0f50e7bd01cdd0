import LogQuery.Proofs.Aggregation.Nodes

/-! Orders whose entries resolve. An order sends a request back unless every value it names stands
within its own node, at whatever depth. Definitions without an order of their own give no order to a
node; wrapping leaves the orders within as they are; and ordering puts the values that it names into
the node, so that a later value can only take the place of another one. -/

namespace LogQuery.Aggregation

variable {tree inner more : Members} {ds : List Definition}

/-- The entry of an order for the number of documents. -/
def countEntry : Json :=
  .obj [("_count", .str "desc")]

/-- If a node has an order, its method has buckets that can be ordered, the number of documents
comes last, and each other entry names a single value within the node. -/
def HasResolvedOrder (m : Method) (body inner : Members) : Prop :=
  ∀ order, body.get? "order" = some order → m.isOrderable = true ∧
    ∃ entries : List Json, order = .arr (entries ++ [countEntry]) ∧
      ∀ entry ∈ entries, ∃ name direction, entry = .obj [(name, direction)] ∧
        ∃ m' body' inner', inner.get? name = some (.obj (node m' body' inner')) ∧
          m'.isSingleValue = true

/-- The tree has nodes only, and so has every tree within one; the order of every node resolves. -/
inductive OrdersResolve : Members → Prop
  | intro {tree : Members}
      (hNodes : ∀ n ∈ tree, ∃ m body inner, n.2 = .obj (node m body inner) ∧
        HasResolvedOrder m body inner)
      (hInner : ∀ name members, (name, .obj members) ∈ tree → OrdersResolve (within members)) :
      OrdersResolve tree

/-- A node of a tree whose orders resolve. -/
def ResolvedNode (held : Json) : Prop :=
  ∃ m body inner, held = .obj (node m body inner) ∧ HasResolvedOrder m body inner ∧
    OrdersResolve inner

namespace OrdersResolve

theorem node_of_mem (h : OrdersResolve tree) {n : Text × Json} (hMem : n ∈ tree) :
    ResolvedNode n.2 := by
  cases h with
  | intro hNodes hInner =>
      obtain ⟨m, body, inner, hNode, hOrder⟩ := hNodes n hMem
      have hTree := hInner n.1 (node m body inner) (hNode ▸ hMem)
      rw [within_node] at hTree
      exact ⟨m, body, inner, hNode, hOrder, hTree⟩

theorem of_nodes (h : ∀ n ∈ tree, ResolvedNode n.2) : OrdersResolve tree := by
  refine .intro ?_ ?_
  · intro n hMem
    obtain ⟨m, body, inner, hNode, hOrder, -⟩ := h n hMem
    exact ⟨m, body, inner, hNode, hOrder⟩
  · intro name members hMem
    obtain ⟨m, body, inner, hNode, -, hTree⟩ := h _ hMem
    obtain rfl : members = node m body inner := Json.obj.inj hNode
    rwa [within_node]

theorem nil : OrdersResolve [] :=
  of_nodes (by simp)

theorem areNodes (h : OrdersResolve tree) : AreNodes tree := by
  intro n hMem
  obtain ⟨m, body, inner, hNode, -⟩ := h.node_of_mem hMem
  exact ⟨m, body, inner, hNode⟩

theorem update (h : OrdersResolve tree) (hMore : OrdersResolve more) :
    OrdersResolve (tree.update more) := by
  refine of_nodes fun n hMem => ?_
  rcases Members.eq_or_mem_of_mem_update hMem with hMem | hMem
  · exact hMore.node_of_mem hMem
  · exact h.node_of_mem hMem

theorem map {f : Json → Json} (h : OrdersResolve tree)
    (hf : ∀ held, ResolvedNode held → ResolvedNode (f held)) :
    OrdersResolve (tree.map fun n => (n.1, f n.2)) := by
  refine of_nodes fun _ hMap => ?_
  obtain ⟨n, hMem, rfl⟩ := List.mem_map.mp hMap
  exact hf _ (h.node_of_mem hMem)

end OrdersResolve

/-! ## Definitions without an order -/

/-- No order is among the parameters of the definition. -/
def Definition.GivesNoOrder (d : Definition) : Prop :=
  d.params.get? "order" = none

theorem hasResolvedOrder_of_none {m : Method} {body inner : Members}
    (h : body.get? "order" = none) : HasResolvedOrder m body inner := by
  intro order hOrder
  rw [h] at hOrder
  cases hOrder

theorem Definition.GivesNoOrder.bodyMembers {d : Definition} (h : d.GivesNoOrder) :
    d.bodyMembers.get? "order" = none := by
  rw [Definition.bodyMembers, Members.get?_update_of_notMem (Members.notMem_of_get? h)]
  rfl

theorem ordersResolve_nodesOf (h : ∀ d ∈ ds, d.GivesNoOrder) (hInner : OrdersResolve inner) :
    OrdersResolve ((nodesOf ds).map fun n => (n.1, around inner n.2)) := by
  refine .of_nodes fun _ hMap => ?_
  obtain ⟨n, hMem, rfl⟩ := List.mem_map.mp hMap
  obtain ⟨d, hd, rfl⟩ := exists_of_mem_nodesOf hMem
  refine ⟨d.method, d.bodyMembers, inner, ?_, hasResolvedOrder_of_none (h d hd).bodyMembers, hInner⟩
  exact around_bare d.method d.bodyMembers inner

theorem ordersResolve_valuesOf (h : ∀ d ∈ ds, d.GivesNoOrder) : OrdersResolve (valuesOf ds) := by
  refine .of_nodes fun _ hMem => ?_
  obtain ⟨d, hd, -, rfl⟩ := exists_of_mem_valuesOf hMem
  exact ⟨d.method, d.bodyMembers, [], d.body_eq_node,
    hasResolvedOrder_of_none (h d hd).bodyMembers, .nil⟩

/-! ## Ordering -/

/-- The order that a node gets names the values that are put within it. -/
theorem hasResolvedOrder_ordered {m : Method} {body inner : Members} (direction : Json)
    (h : HasResolvedOrder m body inner) :
    HasResolvedOrder m (orderedBody m (orderEntries direction (orderingValues ds)) body)
      (orderedTree m (valuesOf ds) inner) := by
  cases hOrderable : m.isOrderable with
  | false => simpa [orderedBody, orderedTree, hOrderable] using h
  | true =>
      intro order hOrder
      rw [orderedBody, if_pos hOrderable, Members.get?_set_self] at hOrder
      refine ⟨hOrderable, _, (Option.some.inj hOrder).symm, ?_⟩
      intro entry hEntry
      obtain ⟨v, hv, rfl⟩ := List.mem_map.mp hEntry
      obtain ⟨value, hValue⟩ := exists_get?_valuesOf hv
      obtain ⟨d, -, hSingle, hSame⟩ := exists_of_mem_valuesOf (Members.mem_of_get? hValue)
      obtain rfl : value = d.body := congrArg Prod.snd hSame
      refine ⟨v.1, direction, rfl, d.method, d.bodyMembers, [], ?_, hSingle⟩
      rw [orderedTree, if_pos hOrderable, Members.get?_update (nodup_valuesOf ds), hValue,
        d.body_eq_node]
      rfl

theorem ResolvedNode.ordered {held : Json} (h : ResolvedNode held) (direction : Json)
    (hDefinitions : ∀ d ∈ ds, d.GivesNoOrder) : ResolvedNode (ordered direction ds held) := by
  by_cases hNone : orderingValues ds = []
  · rwa [ordered_of_nil _ _ hNone]
  · obtain ⟨m, body, inner, rfl, hOrder, hInner⟩ := h
    rw [ordered_node direction m body inner hNone]
    refine ⟨m, _, _, rfl, hasResolvedOrder_ordered direction hOrder, ?_⟩
    unfold orderedTree
    split
    · exact hInner.update (ordersResolve_valuesOf hDefinitions)
    · exact hInner

/-! ## Levels -/

/-- No definition of the level gives an order. -/
def Tier.GivesNoOrder (tier : Tier) : Prop :=
  (∀ d ∈ tier.definitions, d.GivesNoOrder) ∧ ∀ d ∈ tier.ordering, d.GivesNoOrder

theorem ordersResolve_treeOf (direction : Json) {tiers : List Tier}
    (h : ∀ tier ∈ tiers, tier.GivesNoOrder) : OrdersResolve (treeOf direction tiers) := by
  induction tiers with
  | nil => exact .nil
  | cons tier tiers ih =>
      obtain ⟨⟨hNodes, hOrdering⟩, hRest⟩ := List.forall_mem_cons.mp h
      have hAround := ordersResolve_nodesOf hNodes (ih hRest)
      have hOrdered := hAround.map fun held hHeld => hHeld.ordered direction hOrdering
      simpa [treeOf, Tier.treeAround, Tier.nodes, Function.comp_def] using hOrdered

/-! ## Texts without an order -/

/-- No definition in the text gives an order. -/
def GivesNoOrder (text : Text) : Prop :=
  ∀ ds, Definition.readAll text = .ok ds → ∀ d ∈ ds, d.GivesNoOrder

instance (d : Definition) : Decidable d.GivesNoOrder :=
  decidable_of_iff ((d.params.get? "order").isNone = true) Option.isNone_iff_eq_none

instance (text : Text) : Decidable (GivesNoOrder text) :=
  match hRead : Definition.readAll text with
  | .error _ => .isTrue (by simp [GivesNoOrder, hRead])
  | .ok ds => decidable_of_iff (∀ d ∈ ds, d.GivesNoOrder) (by simp [GivesNoOrder, hRead])

/-- The texts of a level. -/
def Level.texts (level : Level) : List Text :=
  level.text :: level.orderedBy?.getD []

theorem givesNoOrder_of_mapM {texts : List Text} (h : ∀ text ∈ texts, GivesNoOrder text)
    (hRead : (texts.mapM Definition.readAll).map List.flatten = .ok ds) :
    ∀ d ∈ ds, d.GivesNoOrder := by
  intro d hd
  obtain ⟨all, hAll, rfl⟩ := map_eq_ok_iff.mp hRead
  obtain ⟨part, hPart, hMem⟩ := List.mem_flatten.mp hd
  obtain ⟨text, hText, hOne⟩ := exists_of_mem_mapM hAll hPart
  exact h text hText part hOne d hMem

theorem Level.Says.givesNoOrder {level : Level} {tier : Tier} (hSays : level.Says tier)
    (h : ∀ text ∈ level.texts, GivesNoOrder text) : tier.GivesNoOrder := by
  obtain ⟨hText, hOrdering⟩ := List.forall_mem_cons.mp h
  exact ⟨hText _ hSays.text, givesNoOrder_of_mapM hOrdering hSays.ordering⟩

theorem ordersResolve_expand {text : Text} (hText : GivesNoOrder text)
    (h : expand text = .ok tree) : OrdersResolve tree := by
  obtain ⟨ds, hRead, rfl⟩ := expand_eq_ok_iff.mp h
  simpa [around_nil] using ordersResolve_nodesOf (hText ds hRead) .nil

theorem ordersResolve_wrap {text : Text} {wrapped : Json} (hText : GivesNoOrder text)
    (hInner : OrdersResolve inner) (h : wrap (.str text) (.obj inner) = .ok wrapped) :
    ∃ tree, wrapped = .obj tree ∧ OrdersResolve tree := by
  obtain ⟨ds, hRead, rfl⟩ := wrap_text_eq_ok_iff.mp h
  exact ⟨_, rfl, ordersResolve_nodesOf (hText ds hRead) hInner⟩

theorem ordersResolve_orderBy {texts : List Text} (hTexts : ∀ text ∈ texts, GivesNoOrder text)
    (hTree : OrdersResolve tree) (direction : Json) :
    ∃ after, (orderBy (.obj tree) direction (Json.texts texts)).reached = .obj after ∧
      OrdersResolve after := by
  cases hRead : readDefinitions (Json.texts texts) with
  | error failure => exact ⟨tree, by rw [orderBy, hRead], hTree⟩
  | ok ds =>
      have hDefinitions := givesNoOrder_of_mapM hTexts (readDefinitions_texts texts ▸ hRead)
      rw [orderBy_nodes hTree.areNodes hRead]
      exact ⟨_, rfl, hTree.map fun held hHeld => hHeld.ordered direction hDefinitions⟩

theorem ordersResolve_groupBy {levels : List Level} {direction grouped : Json}
    (hLevels : ∀ level ∈ levels, ∀ text ∈ level.texts, GivesNoOrder text)
    (h : groupBy (.arr (levels.map Level.toJson)) direction = .ok grouped) :
    ∃ tree, grouped = .obj tree ∧ OrdersResolve tree := by
  obtain ⟨tiers, hTiers, rfl⟩ := groupBy_eq_ok_iff.mp h
  refine ⟨_, rfl, ordersResolve_treeOf direction fun tier hTier => ?_⟩
  obtain ⟨level, hLevel, hSays⟩ := exists_of_mem_forall₂ hTiers hTier
  exact hSays.givesNoOrder (hLevels level hLevel)

end LogQuery.Aggregation
