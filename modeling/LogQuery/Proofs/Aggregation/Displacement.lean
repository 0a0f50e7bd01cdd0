import LogQuery.Proofs.Aggregation.Nodes

/-! What stands within a node after it was ordered. The values to order by and the tree that was
there before share one name space, and a value takes the place of what has its name. So ordering
keeps what it finds, and grouping keeps the next level, exactly where the names are apart. -/

namespace LogQuery.Aggregation

variable {tree inner : Members} {ds : List Definition}

/-! ## Trees that are built from texts -/

/-- A tree that a text expands to, that is wrapped in a text or in another tree, or that levels are
grouped by. -/
inductive Built : Members → Prop
  | expand {text : Text} {tree : Members} (h : Aggregation.expand text = .ok tree) : Built tree
  | wrapText {text : Text} {inner tree : Members} (hInner : Built inner)
      (h : wrap (.str text) (.obj inner) = .ok (.obj tree)) : Built tree
  | wrapTree {outer inner tree : Members} (hOuter : Built outer) (hInner : Built inner)
      (h : wrap (.obj outer) (.obj inner) = .ok (.obj tree)) : Built tree
  | groupBy {levels : List Level} {direction : Text} {tree : Members}
      (h : Aggregation.groupBy (.arr (levels.map Level.toJson)) (.str direction) = .ok (.obj tree)) :
      Built tree

theorem Built.areNodes (h : Built tree) : AreNodes tree := by
  induction h with
  | expand h =>
      obtain ⟨ds, -, rfl⟩ := expand_eq_ok_iff.mp h
      exact (areBare_nodesOf ds).areNodes
  | wrapText _ h =>
      obtain ⟨ds, -, hTree⟩ := wrap_text_eq_ok_iff.mp h
      rw [Json.obj.inj hTree]
      exact (areBare_nodesOf ds).areNodes.around _
  | wrapTree _ _ h hOuter =>
      rw [wrap_objects hOuter.areObjects (.inl rfl)] at h
      rw [← Json.obj.inj (Except.ok.inj h)]
      exact hOuter.around _
  | groupBy h =>
      obtain ⟨tiers, -, hTree⟩ := groupBy_eq_ok_iff.mp h
      rw [Json.obj.inj hTree]
      exact areNodes_treeOf _ tiers

/-! ## What stands within an ordered node -/

theorem get?_orderedTree {m : Method} {values : Members} (hKeys : (values.map (·.1)).Nodup)
    (inner : Members) (key : Text) :
    (orderedTree m values inner).get? key =
      if m.isOrderable then (values.get? key).or (inner.get? key) else inner.get? key := by
  unfold orderedTree
  split
  · exact Members.get?_update hKeys inner key
  · rfl

/-- Every node within a node at the top is still there, as it was. -/
def KeepsInner (before after : Members) : Prop :=
  ∀ name members, before.get? name = some (.obj members) →
    ∀ key held, (within members).get? key = some held →
      ∃ members', after.get? name = some (.obj members') ∧ (within members').get? key = some held

/-- What stands in a node that can be ordered under the name of a value is that value. -/
def AreApart (values tree : Members) : Prop :=
  ∀ name m body inner, tree.get? name = some (.obj (node m body inner)) → m.isOrderable = true →
    ∀ key value held, values.get? key = some value → inner.get? key = some held → held = value

theorem keepsInner_ordered_iff (hNodes : AreNodes tree) (direction : Json) (ds : List Definition) :
    KeepsInner tree (tree.map fun n => (n.1, ordered direction ds n.2)) ↔
      AreApart (valuesOf ds) tree := by
  constructor
  · intro hKeeps name m body inner hNode hOrderable key value held hValue hHeld
    obtain ⟨members, hAfter, hKept⟩ :=
      hKeeps name (node m body inner) hNode key held (by rwa [within_node])
    obtain ⟨body', hOrdered, -⟩ := exists_ordered_node direction ds m body inner
    rw [Members.get?_map, hNode, Option.map_some, hOrdered] at hAfter
    cases hAfter
    rw [within_node, get?_orderedTree (nodup_valuesOf ds), if_pos hOrderable, hValue] at hKept
    exact (Option.some.inj hKept).symm
  · intro hApart name members hGet key held hHeld
    obtain ⟨m, body, inner, hNode⟩ := hNodes.exists_of_get? hGet
    cases hNode
    rw [within_node] at hHeld
    obtain ⟨body', hOrdered, -⟩ := exists_ordered_node direction ds m body inner
    refine ⟨node m body' (orderedTree m (valuesOf ds) inner), ?_, ?_⟩
    · rw [Members.get?_map, hGet, Option.map_some, hOrdered]
    · rw [within_node, get?_orderedTree (nodup_valuesOf ds)]
      split
      · rename_i hOrderable
        cases hValue : (valuesOf ds).get? key with
        | none => exact hHeld
        | some value =>
            rw [hApart name m body inner hGet hOrderable key value held hValue hHeld]
            rfl
      · exact hHeld

/-- The values that texts give to order by, by name. Texts that cannot be read give none. -/
def valuesIn (texts : List Text) : Members :=
  match readDefinitions (Json.texts texts) with
  | .ok ds => valuesOf ds
  | .error _ => []

theorem exists_orderBy_iff (hNodes : AreNodes tree) (direction : Json) (texts : List Text) :
    ∃ after, (orderBy (.obj tree) direction (Json.texts texts)).reached = .obj after ∧
      (KeepsInner tree after ↔ AreApart (valuesIn texts) tree) := by
  unfold valuesIn
  cases hRead : readDefinitions (Json.texts texts) with
  | error failure =>
      refine ⟨tree, by rw [orderBy, hRead], ?_⟩
      have hKeeps : KeepsInner tree tree := fun _ members hGet _ _ hHeld => ⟨members, hGet, hHeld⟩
      have hApart : AreApart [] tree := by
        intro _ _ _ _ _ _ _ _ _ hValue
        cases hValue
      exact iff_of_true hKeeps hApart
  | ok ds =>
      rw [orderBy_nodes hNodes hRead]
      exact ⟨_, rfl, keepsInner_ordered_iff hNodes direction ds⟩

/-! ## Levels within levels -/

/-- The members are those of a node, but for an order and a tree within. -/
def IsNodeOf (held : Json) (members : Members) : Prop :=
  ∃ m body body' inner, held = .obj (node m body []) ∧ members = node m body' inner ∧
    SameButOrder body body'

/-- Every node of each level is there, and within it every node of the next one. -/
def HoldsTiers : List Tier → Members → Prop
  | [], _ => True
  | tier :: tiers, tree => ∀ name held, tier.nodes.get? name = some held →
      ∃ members, tree.get? name = some (.obj members) ∧ IsNodeOf held members ∧
        HoldsTiers tiers (within members)

/-- Some node of the level can be ordered. -/
def Tier.IsOrderable (tier : Tier) : Prop :=
  ∃ name m body, tier.nodes.get? name = some (.obj (node m body [])) ∧ m.isOrderable = true

/-- A node of the next level under the name of a value is that value, and there is no level after
it. -/
def MeetsOnlySame (values : Members) (next : Tier) (rest : List Tier) : Prop :=
  ∀ name value held, values.get? name = some value → next.nodes.get? name = some held →
    rest = [] ∧ ∃ members, value = .obj members ∧ IsNodeOf held members

/-- The values of each level that orders some node are apart from the next level. -/
def AreTiersApart : List Tier → Prop
  | tier :: next :: rest =>
      (tier.IsOrderable → MeetsOnlySame (valuesOf tier.ordering) next rest) ∧
        AreTiersApart (next :: rest)
  | _ => True

theorem Tier.get?_treeAround (tier : Tier) (direction : Json) (inner : Members) (name : Text) :
    (tier.treeAround direction inner).get? name =
      (tier.nodes.get? name).map fun held => ordered direction tier.ordering (around inner held) :=
  Members.get?_map (fun held => ordered direction tier.ordering (around inner held)) _ _

/-- A node of a level, with a tree around which the level was put. -/
theorem Tier.exists_get?_treeAround {tier : Tier} {name : Text} {held : Json}
    (hGet : tier.nodes.get? name = some held) (direction : Json) (inner : Members) :
    ∃ m body body', held = .obj (node m body []) ∧
      (tier.treeAround direction inner).get? name =
        some (.obj (node m body' (orderedTree m (valuesOf tier.ordering) inner))) ∧
      SameButOrder body body' := by
  obtain ⟨m, body, rfl⟩ := (areBare_nodesOf tier.definitions).exists_of_get? hGet
  obtain ⟨body', hOrdered, hBody⟩ := exists_ordered_node direction tier.ordering m body inner
  refine ⟨m, body, body', rfl, ?_, hBody⟩
  rw [tier.get?_treeAround, hGet, Option.map_some, around_bare, hOrdered]

/-- A level holds the next ones if they stand within each of its nodes. -/
theorem holdsTiers_treeAround_iff {tier : Tier} {tiers : List Tier} (direction : Json)
    (inner : Members) :
    HoldsTiers (tier :: tiers) (tier.treeAround direction inner) ↔
      ∀ name m body, tier.nodes.get? name = some (.obj (node m body [])) →
        HoldsTiers tiers (orderedTree m (valuesOf tier.ordering) inner) := by
  constructor
  · intro hHolds name m body hGet
    obtain ⟨m', body₀, body', hNode, hTree, -⟩ := tier.exists_get?_treeAround hGet direction inner
    obtain ⟨members, hMembers, -, hInner⟩ := hHolds name _ hGet
    rw [hTree] at hMembers
    cases hMembers
    have hMethod : method? (node m body []) = method? (node m' body₀ []) := by
      rw [Json.obj.inj hNode]
    simp only [method?_node, Option.some.injEq] at hMethod
    rwa [within_node, ← hMethod] at hInner
  · intro hHolds name held hGet
    obtain ⟨m, body, body', rfl, hTree, hBody⟩ := tier.exists_get?_treeAround hGet direction inner
    refine ⟨_, hTree, ⟨m, body, body', _, rfl, rfl, hBody⟩, ?_⟩
    rw [within_node]
    exact hHolds name m body hGet

theorem Tier.exists_get?_nodes {tier : Tier} (h : tier.definitions ≠ []) :
    ∃ name m body, tier.nodes.get? name = some (.obj (node m body [])) := by
  have hNodes : tier.nodes ≠ [] := Members.update_ne_nil_of_right (by simpa using h)
  obtain ⟨⟨name, held⟩, rest, hCons⟩ := List.exists_cons_of_ne_nil hNodes
  have hGet : tier.nodes.get? name = some held := by
    rw [hCons, Members.get?_cons, if_pos rfl]
  obtain ⟨m, body, rfl⟩ := (areBare_nodesOf tier.definitions).exists_of_get? hGet
  exact ⟨name, m, body, hGet⟩

/-- Only the empty list of levels stands in an empty tree. -/
theorem not_holdsTiers_nil {tier : Tier} (h : tier.definitions ≠ []) (tiers : List Tier) :
    ¬HoldsTiers (tier :: tiers) [] := by
  intro hHolds
  obtain ⟨name, m, body, hGet⟩ := tier.exists_get?_nodes h
  obtain ⟨members, hMembers, -⟩ := hHolds name _ hGet
  cases hMembers

/-- With values put in its place, a tree of levels still holds them if the values are apart from the
first one. -/
theorem holdsTiers_update_iff {next : Tier} {rest : List Tier} (direction : Json)
    (hSome : ∀ tier ∈ rest, tier.definitions ≠ []) (ds : List Definition) :
    HoldsTiers (next :: rest) ((treeOf direction (next :: rest)).update (valuesOf ds)) ↔
      HoldsTiers (next :: rest) (treeOf direction (next :: rest)) ∧
        MeetsOnlySame (valuesOf ds) next rest := by
  have hGet := Members.get?_update (nodup_valuesOf ds) (treeOf direction (next :: rest))
  constructor
  · intro hHolds
    have hMeets : MeetsOnlySame (valuesOf ds) next rest := by
      intro name value held hValue hHeld
      obtain ⟨members, hMembers, hNode, hInner⟩ := hHolds name held hHeld
      rw [hGet, hValue] at hMembers
      obtain ⟨d, -, -, hSame⟩ := exists_of_mem_valuesOf (Members.mem_of_get? hValue)
      obtain rfl : value = .obj members := Option.some.inj hMembers
      have hBare : members = node d.method d.bodyMembers [] := by
        simpa [d.body_eq_node] using congrArg Prod.snd hSame
      refine ⟨?_, members, rfl, hNode⟩
      rw [hBare, within_node] at hInner
      cases rest with
      | nil => rfl
      | cons tier tiers =>
          exact absurd hInner (not_holdsTiers_nil (hSome tier List.mem_cons_self) tiers)
    refine ⟨fun name held hHeld => ?_, hMeets⟩
    cases hValue : (valuesOf ds).get? name with
    | none => simpa [hGet, hValue] using hHolds name held hHeld
    | some value =>
        obtain ⟨rfl, -⟩ := hMeets name value held hValue hHeld
        obtain ⟨m, body, body', rfl, hTree, hBody⟩ := next.exists_get?_treeAround hHeld direction []
        exact ⟨_, hTree, ⟨m, body, body', _, rfl, rfl, hBody⟩, trivial⟩
  · rintro ⟨hHolds, hMeets⟩ name held hHeld
    rw [hGet]
    cases hValue : (valuesOf ds).get? name with
    | none => exact hHolds name held hHeld
    | some value =>
        obtain ⟨rfl, members, rfl, hNode⟩ := hMeets name value held hValue hHeld
        exact ⟨members, rfl, hNode, trivial⟩

theorem holdsTiers_treeOf_iff (direction : Json) {tiers : List Tier}
    (hSome : ∀ tier ∈ tiers, tier.definitions ≠ []) :
    HoldsTiers tiers (treeOf direction tiers) ↔ AreTiersApart tiers := by
  induction tiers with
  | nil => exact Iff.rfl
  | cons tier tiers ih =>
      obtain ⟨hFirst, hRest⟩ := List.forall_mem_cons.mp hSome
      rw [treeOf, holdsTiers_treeAround_iff]
      cases tiers with
      | nil => exact iff_of_true (fun _ _ _ _ => trivial) trivial
      | cons next rest =>
          have hUpdate : _ ↔ HoldsTiers (next :: rest) (treeOf direction (next :: rest)) ∧ _ :=
            holdsTiers_update_iff direction (fun t ht => hRest t (List.mem_cons_of_mem _ ht))
              tier.ordering
          rw [AreTiersApart, ← ih hRest]
          constructor
          · intro hHolds
            constructor
            · rintro ⟨name, m, body, hGet, hOrderable⟩
              have hInner := hHolds name m body hGet
              rw [orderedTree, if_pos hOrderable] at hInner
              exact (hUpdate.mp hInner).2
            · obtain ⟨name, m, body, hGet⟩ := tier.exists_get?_nodes hFirst
              have hInner := hHolds name m body hGet
              unfold orderedTree at hInner
              split at hInner
              · exact (hUpdate.mp hInner).1
              · exact hInner
          · rintro ⟨hMeets, hHolds⟩ name m body hGet
            unfold orderedTree
            split
            · rename_i hOrderable
              exact hUpdate.mpr ⟨hHolds, hMeets ⟨name, m, body, hGet, hOrderable⟩⟩
            · exact hHolds

/-- Ordering keeps what stands within the nodes at the top, and grouping keeps every level within
the one before it, exactly where no value has the name of something else. -/
theorem ordering_keeps_iff {levels : List Level} {tiers : List Tier} (hBuilt : Built tree)
    (hSays : List.Forall₂ Level.Says levels tiers) (hSome : ∀ tier ∈ tiers, tier.definitions ≠ [])
    (direction : Text) (texts : List Text) :
    (∃ after, (orderBy (.obj tree) (.str direction) (Json.texts texts)).reached = .obj after ∧
        (KeepsInner tree after ↔ AreApart (valuesIn texts) tree)) ∧
      ∃ grouped, groupBy (.arr (levels.map Level.toJson)) (.str direction) = .ok (.obj grouped) ∧
        (HoldsTiers tiers grouped ↔ AreTiersApart tiers) := by
  refine ⟨exists_orderBy_iff hBuilt.areNodes (.str direction) texts, ?_⟩
  exact ⟨_, groupBy_eq_ok_iff.mpr ⟨tiers, hSays, rfl⟩, holdsTiers_treeOf_iff (.str direction) hSome⟩

/-- Sources by traffic, and a level within them. -/
def levelsWithin (inner : Text) : List Level :=
  [{ text := "src_ip", orderedBy? := some ["max:bytes"] }, { text := inner }]

/-- Sources with the values of a field within them. -/
def sourcesAround (inner : Text) : Members :=
  [("src_ip", .obj (node .terms [("field", .str "src_ip"), ("size", .int 20)]
    [(inner, .obj (node .terms [("field", .str inner), ("size", .int 20)] []))]))]

/-- The traffic of a bucket, as a definition. -/
def traffic : Definition :=
  ⟨"max.bytes", .max, "bytes", []⟩

def tiersWithin (inner : Text) : List Tier :=
  [⟨[⟨"src_ip", .terms, "src_ip", [("size", .int 20)]⟩], [traffic]⟩,
    ⟨[⟨inner, .terms, inner, [("size", .int 20)]⟩], []⟩]

/-- The values of the field stand within sources, and the levels say so. -/
theorem built_sourcesAround_ports : Built (sourcesAround "dst_port") :=
  .wrapText (.expand (rfl : expand "dst_port" = .ok _)) (rfl : wrap (.str "src_ip") _ = .ok _)

theorem says_ports : List.Forall₂ Level.Says (levelsWithin "dst_port") (tiersWithin "dst_port") :=
  .cons ⟨rfl, rfl⟩ (.cons ⟨rfl, rfl⟩ .nil)

theorem eq_of_get?_traffic {name : Text} {value : Json}
    (h : (valuesOf [traffic]).get? name = some value) : name = "max_bytes" := by
  have hOne : valuesOf [traffic] = [(Text.ofString "max_bytes", traffic.body)] := rfl
  rw [hOne, Members.get?_cons] at h
  split at h
  · assumption
  · cases h

theorem areApart_ports : AreApart (valuesIn ["max:bytes"]) (sourcesAround "dst_port") := by
  intro name m body inner hNode hOrderable key value held hValue hHeld
  obtain rfl := eq_of_get?_traffic hValue
  rw [sourcesAround, Members.get?_cons] at hNode
  split at hNode
  · have hInner := congrArg within (Json.obj.inj (Option.some.inj hNode))
    rw [within_node, within_node] at hInner
    rw [← hInner] at hHeld
    cases hHeld
  · cases hNode

theorem areTiersApart_ports : AreTiersApart (tiersWithin "dst_port") := by
  refine ⟨fun _ name value held hValue hHeld => ?_, trivial⟩
  obtain rfl := eq_of_get?_traffic hValue
  cases hHeld

theorem ordering_keeps_iff_ports :
    Built (sourcesAround "dst_port") ∧
      List.Forall₂ Level.Says (levelsWithin "dst_port") (tiersWithin "dst_port") ∧
      (∀ tier ∈ tiersWithin "dst_port", tier.definitions ≠ []) ∧
      (∃ after, (orderBy (.obj (sourcesAround "dst_port")) (.str "desc")
          (Json.texts ["max:bytes"])).reached = .obj after ∧
        KeepsInner (sourcesAround "dst_port") after) ∧
      ∃ grouped, groupBy (.arr ((levelsWithin "dst_port").map Level.toJson)) (.str "desc") =
          .ok (.obj grouped) ∧ HoldsTiers (tiersWithin "dst_port") grouped := by
  have hSome : ∀ tier ∈ tiersWithin "dst_port", tier.definitions ≠ [] := by simp [tiersWithin]
  obtain ⟨⟨after, hAfter, hKeeps⟩, grouped, hGrouped, hHolds⟩ :=
    ordering_keeps_iff built_sourcesAround_ports says_ports hSome "desc" ["max:bytes"]
  exact ⟨built_sourcesAround_ports, says_ports, hSome, ⟨after, hAfter, hKeeps.mpr areApart_ports⟩,
    grouped, hGrouped, hHolds.mpr areTiersApart_ports⟩

/-- A field with the name that a value gets is displaced, by ordering and by grouping. -/
theorem ordering_displaces :
    (∃ after, Built (sourcesAround "max_bytes") ∧
      (orderBy (.obj (sourcesAround "max_bytes")) (.str "desc") (Json.texts ["max:bytes"])).reached =
        .obj after ∧
      ¬KeepsInner (sourcesAround "max_bytes") after) ∧
    ∃ grouped, List.Forall₂ Level.Says (levelsWithin "max_bytes") (tiersWithin "max_bytes") ∧
      (∀ tier ∈ tiersWithin "max_bytes", tier.definitions ≠ []) ∧
      groupBy (.arr ((levelsWithin "max_bytes").map Level.toJson)) (.str "desc") =
        .ok (.obj grouped) ∧
      ¬HoldsTiers (tiersWithin "max_bytes") grouped := by
  have hBuilt : Built (sourcesAround "max_bytes") :=
    .wrapText (.expand (rfl : expand "max_bytes" = .ok _)) (rfl : wrap (.str "src_ip") _ = .ok _)
  refine ⟨⟨_, hBuilt, rfl, ?_⟩, _, .cons ⟨rfl, rfl⟩ (.cons ⟨rfl, rfl⟩ .nil), by simp [tiersWithin],
    rfl, ?_⟩
  · intro hKeeps
    obtain ⟨members, hAfter, hKept⟩ := hKeeps "src_ip" _ rfl "max_bytes" _ rfl
    cases hAfter
    cases hKept
  · intro hHolds
    obtain ⟨members, hMembers, -, hInner⟩ := hHolds "src_ip" _ rfl
    cases hMembers
    obtain ⟨members', hMembers', ⟨m, body, body', inner, hHeld, hSame, -⟩, -⟩ :=
      hInner "max_bytes" _ rfl
    cases hMembers'
    have hTerms : some Method.terms = some m :=
      (congrArg method? (Json.obj.inj hHeld)).trans (method?_node m body [])
    have hMax : some Method.max = some m :=
      (congrArg method? hSame).trans (method?_node m body' inner)
    cases hTerms.trans hMax.symm

end LogQuery.Aggregation
