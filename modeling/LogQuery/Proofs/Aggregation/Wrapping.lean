import LogQuery.Proofs.Aggregation.Orders

/-! What stands within the nodes of an outer tree once another tree was put under them. The tree comes
in the place of what was there before: the body of a node stays as it was, but of the nodes of its own
within it none is left. So an order that named one of these no longer resolves. -/

namespace LogQuery.Aggregation

variable {outer existing members inner : Members} {name : Text}

/-- The members of the tree are objects, and so is what stands within them. -/
def IsExpanded (tree : Members) : Prop :=
  ∀ n ∈ tree, ∃ members : Members, n.2 = .obj members ∧
    ∀ held, members.get? treeKey = some held → ∃ inner : Members, held = .obj inner

/-- No node of one tree has the name of a node of the other. -/
def HaveOwnNames (tree other : Members) : Prop :=
  ∀ name ∈ tree.map (·.1), name ∉ other.map (·.1)

/-- Every node of a tree stands, as it is, within a node. -/
def StandsWithin (tree members : Members) : Prop :=
  ∀ name held, tree.get? name = some held → (within members).get? name = some held

theorem IsExpanded.areObjects (h : IsExpanded outer) : AreObjects outer := by
  intro n hMem
  obtain ⟨members, hNode, -⟩ := h n hMem
  exact ⟨members, hNode⟩

theorem within_set_treeKey (members inner : Members) :
    within (members.set treeKey (.obj inner)) = inner := by
  rw [within, Members.get?_set_self]

/-- What stands under a node after wrapping is the tree that was wrapped. -/
theorem get?_map_around (hExisting : existing ≠ []) (hGet : outer.get? name = some (.obj members)) :
    Members.get? (outer.map fun n => (n.1, around existing n.2)) name =
      some (.obj (members.set treeKey (.obj existing))) := by
  rw [Members.get?_map, hGet, Option.map_some, around, if_neg (by simpa using hExisting)]

/-- Nodes stand within others with names of their own only if there are none. -/
theorem standsWithin_iff_of_haveOwnNames (h : HaveOwnNames inner (within members)) :
    StandsWithin inner members ↔ inner = [] := by
  constructor
  · intro hStands
    cases inner with
    | nil => rfl
    | cons n inner =>
        have hFirst : Members.get? (n :: inner) n.1 = some n.2 := by
          rw [Members.get?_cons, if_pos rfl]
        have hOther := Members.mem_keys_of_get? (hStands n.1 n.2 hFirst)
        exact absurd hOther (h n.1 List.mem_cons_self)
  · rintro rfl name held hGet
    cases hGet

/-- Every node keeps its body and holds all of the tree that was put under it, and it keeps the nodes
of its own exactly if it had none. -/
theorem wrap_keeps_iff (hOuter : IsExpanded outer) (hExisting : existing ≠ [])
    (hNames : ∀ (name : Text) (members : Members), outer.get? name = some (.obj members) →
      HaveOwnNames (within members) existing) :
    ∃ wrapped : Members, wrap (.obj outer) (.obj existing) = .ok (.obj wrapped) ∧
      wrapped.map (·.1) = outer.map (·.1) ∧
      ∀ (name : Text) (members : Members), outer.get? name = some (.obj members) →
        ∃ members' : Members, wrapped.get? name = some (.obj members') ∧
          (∀ key : Text, key ≠ treeKey → members'.get? key = members.get? key) ∧
          StandsWithin existing members' ∧
          (StandsWithin (within members) members' ↔ within members = []) := by
  refine ⟨_, wrap_objects hOuter.areObjects (.inl rfl) existing, by simp, ?_⟩
  intro name members hGet
  have hWithin := within_set_treeKey members existing
  refine ⟨_, get?_map_around hExisting hGet, fun key hKey => Members.get?_set_of_ne hKey, ?_, ?_⟩
  · intro key held hHeld
    rwa [hWithin]
  · apply standsWithin_iff_of_haveOwnNames
    rw [hWithin]
    exact hNames name members hGet

/-- An order that named nodes within its own does not resolve within a tree without their names. -/
theorem HasResolvedOrder.not_of_haveOwnNames {m : Method} {body : Members} {entries : List Json}
    (hOrder : body.get? "order" = some (.arr (entries ++ [countEntry]))) (hSome : entries ≠ [])
    (h : HasResolvedOrder m body inner) (hNames : HaveOwnNames inner existing) :
    ¬HasResolvedOrder m body existing := by
  intro hExisting
  obtain ⟨-, named, hNamed, hInner⟩ := h _ hOrder
  obtain ⟨-, named', hNamed', hOther⟩ := hExisting _ hOrder
  obtain rfl : entries = named := List.append_cancel_right (Json.arr.inj hNamed)
  obtain rfl : entries = named' := List.append_cancel_right (Json.arr.inj hNamed')
  obtain ⟨entry, rest, rfl⟩ := List.exists_cons_of_ne_nil hSome
  obtain ⟨name, direction, hEntry, _, _, _, hGet, -⟩ := hInner entry List.mem_cons_self
  obtain ⟨name', direction', hEntry', _, _, _, hGet', -⟩ := hOther entry List.mem_cons_self
  cases hEntry.symm.trans hEntry'
  exact hNames name (Members.mem_keys_of_get? hGet) (Members.mem_keys_of_get? hGet')

/-- The traffic of a bucket, as a tree of one node. -/
def trafficNode : Members :=
  [("max_bytes", .obj (node .max [("field", .str "bytes")] []))]

/-- Sources, most traffic first. -/
def byTraffic : Members :=
  [("field", .str "src_ip"), ("order", .arr [.obj [("max_bytes", .str "desc")], countEntry])]

/-- Sources with the traffic that they are ordered by, and hosts. -/
def sourcesAndHosts : Members :=
  [("src_ip", .obj (node .terms byTraffic trafficNode)),
    ("host", .obj (node .terms [("field", .str "host")] []))]

/-- Ports of destinations. -/
def ports : Members :=
  [("dst_port", .obj (node .terms [("field", .str "dst_port")] []))]

theorem isExpanded_of_areNodes {tree : Members} (h : AreNodes tree) : IsExpanded tree := by
  intro n hMem
  obtain ⟨m, body, inner, hNode⟩ := h n hMem
  refine ⟨node m body inner, hNode, fun held hHeld => ?_⟩
  cases inner with
  | nil => simp [node, Members.get?_cons, Members.get?_nil, treeKey_ne_name] at hHeld
  | cons first inner =>
      simp only [node, Members.get?_cons, if_neg (treeKey_ne_name m)] at hHeld
      exact ⟨_, (Option.some.inj hHeld).symm⟩

theorem isExpanded_sourcesAndHosts : IsExpanded sourcesAndHosts := by
  apply isExpanded_of_areNodes
  simp [AreNodes, sourcesAndHosts]

theorem haveOwnNames_traffic : HaveOwnNames trafficNode ports := by
  have hName : ("max_bytes" : Text) ≠ "dst_port" := by decide
  simp [HaveOwnNames, trafficNode, ports, hName]

theorem haveOwnNames_sourcesAndHosts (name : Text) (members : Members)
    (h : sourcesAndHosts.get? name = some (.obj members)) :
    HaveOwnNames (within members) ports := by
  rcases List.mem_cons.mp (Members.mem_of_get? h) with hFirst | hSecond
  · cases hFirst
    exact haveOwnNames_traffic
  · cases List.mem_singleton.mp hSecond
    simp [HaveOwnNames]

theorem wrap_keeps_iff_ports : IsExpanded sourcesAndHosts ∧ ports ≠ [] ∧
    (∀ (name : Text) (members : Members), sourcesAndHosts.get? name = some (.obj members) →
      HaveOwnNames (within members) ports) ∧
    ∃ wrapped : Members, wrap (.obj sourcesAndHosts) (.obj ports) = .ok (.obj wrapped) ∧
      wrapped.map (·.1) = sourcesAndHosts.map (·.1) ∧
      ∀ (name : Text) (members : Members), sourcesAndHosts.get? name = some (.obj members) →
        ∃ members' : Members, wrapped.get? name = some (.obj members') ∧
          (∀ key : Text, key ≠ treeKey → members'.get? key = members.get? key) ∧
          StandsWithin ports members' ∧
          (StandsWithin (within members) members' ↔ within members = []) := by
  have hSome : ports ≠ [] := List.cons_ne_nil _ _
  exact ⟨isExpanded_sourcesAndHosts, hSome, haveOwnNames_sourcesAndHosts,
    wrap_keeps_iff isExpanded_sourcesAndHosts hSome haveOwnNames_sourcesAndHosts⟩

theorem hasResolvedOrder_byTraffic : HasResolvedOrder .terms byTraffic trafficNode := by
  intro order hOrder
  cases hOrder
  refine ⟨rfl, [.obj [("max_bytes", .str "desc")]], rfl, fun entry hEntry => ?_⟩
  cases List.mem_singleton.mp hEntry
  exact ⟨_, _, rfl, .max, _, [], rfl, rfl⟩

/-- Sources that are ordered by their traffic lose it, and with it what their order names. -/
theorem wrap_displaces_traffic : IsExpanded sourcesAndHosts ∧ ports ≠ [] ∧
    (∀ (name : Text) (members : Members), sourcesAndHosts.get? name = some (.obj members) →
      HaveOwnNames (within members) ports) ∧
    sourcesAndHosts.get? "src_ip" = some (.obj (node .terms byTraffic trafficNode)) ∧
    HasResolvedOrder .terms byTraffic trafficNode ∧
    ∃ wrapped : Members, wrap (.obj sourcesAndHosts) (.obj ports) = .ok (.obj wrapped) ∧
      wrapped.get? "src_ip" = some (.obj (node .terms byTraffic ports)) ∧
      ¬StandsWithin trafficNode (node .terms byTraffic ports) ∧
      ¬HasResolvedOrder .terms byTraffic ports := by
  have hSome : ports ≠ [] := List.cons_ne_nil _ _
  refine ⟨isExpanded_sourcesAndHosts, hSome, haveOwnNames_sourcesAndHosts, rfl,
    hasResolvedOrder_byTraffic, _, rfl, rfl, ?_, ?_⟩
  · rw [standsWithin_iff_of_haveOwnNames (by rw [within_node]; exact haveOwnNames_traffic)]
    exact List.cons_ne_nil _ _
  · have hOrder : byTraffic.get? "order" =
        some (.arr ([.obj [("max_bytes", .str "desc")]] ++ [countEntry])) := rfl
    exact hasResolvedOrder_byTraffic.not_of_haveOwnNames hOrder (List.cons_ne_nil _ _)
      haveOwnNames_traffic

end LogQuery.Aggregation
