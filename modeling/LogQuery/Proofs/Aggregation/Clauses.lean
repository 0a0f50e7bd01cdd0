import LogQuery.Proofs.Aggregation.Displacement
import LogQuery.Proofs.Aggregation.OrderNames
import LogQuery.Proofs.Aggregation.Readable

/-! Order clauses and where they stand. Ordering writes one clause, with its direction, and leaves
every other as it was; what a definition says can set an order too, but none with entries. So each
entry of a clause that ordering or grouping puts into a tree has the direction that was given. -/

namespace LogQuery.Aggregation

variable {tree inner members values : Members} {path : List Text} {key name : Text}
  {order : Json} {ds : List Definition}

/-! ## Clauses and entries -/

/-- An entry of an order: what is ordered by, and the direction. -/
inductive IsEntry : Json → Text → Json → Prop
  | ofList {items : List Json} {entry : Members} {name : Text} {direction : Json}
      (hItem : .obj entry ∈ items) (hEntry : (name, direction) ∈ entry) :
      IsEntry (.arr items) name direction
  | ofObject {entry : Members} {name : Text} {direction : Json}
      (hEntry : (name, direction) ∈ entry) : IsEntry (.obj entry) name direction

/-- An order without entries. -/
def HasNoEntry (order : Json) : Prop :=
  ∀ name direction, ¬IsEntry order name direction

/-- The direction of each entry is one of the two that there are. -/
def IsDirected (order : Json) : Prop :=
  ∀ name direction, IsEntry order name direction → direction = .str "asc" ∨ direction = .str "desc"

/-- The order of a type in a tree, given the names of the nodes that lead to it. -/
inductive HasClause : Members → List Text → Text → Json → Prop
  | top {tree members body : Members} {name key : Text} {order : Json}
      (hNode : tree.get? name = some (.obj members)) (hKey : key ≠ treeKey)
      (hBody : members.get? key = some (.obj body)) (hOrder : body.get? "order" = some order) :
      HasClause tree [name] key order
  | within {tree members : Members} {name key : Text} {path : List Text} {order : Json}
      (hNode : tree.get? name = some (.obj members))
      (hInner : HasClause (within members) path key order) : HasClause tree (name :: path) key order

theorem HasNoEntry.isDirected (h : HasNoEntry order) : IsDirected order :=
  fun name direction hEntry => absurd hEntry (h name direction)

theorem not_hasClause_nil : ¬HasClause [] path key order := by
  intro h
  cases h with
  | top hNode => cases hNode
  | within hNode => cases hNode

theorem HasClause.ne_nil (h : HasClause tree path key order) : tree ≠ [] := by
  rintro rfl
  exact not_hasClause_nil h

theorem HasClause.exists_get? (h : HasClause tree (name :: path) key order) :
    ∃ value, tree.get? name = some value := by
  cases h with
  | top hNode => exact ⟨_, hNode⟩
  | within hNode => exact ⟨_, hNode⟩

/-- A clause stays where its node does. -/
theorem HasClause.of_get? {other : Members} (h : HasClause tree (name :: path) key order)
    (hSame : other.get? name = tree.get? name) : HasClause other (name :: path) key order := by
  cases h with
  | top hNode hKey hBody hOrder => exact .top (hSame.trans hNode) hKey hBody hOrder
  | within hNode hInner => exact .within (hSame.trans hNode) hInner

/-- With values put in, each clause is one of theirs or was there before. -/
theorem hasClause_update (hKeys : (values.map (·.1)).Nodup)
    (h : HasClause (inner.update values) path key order) :
    HasClause values path key order ∨ HasClause inner path key order := by
  cases path with
  | nil => cases h
  | cons name path =>
      have hGet := Members.get?_update hKeys inner name
      cases hValue : values.get? name with
      | some value =>
          rw [hValue, Option.some_or] at hGet
          exact .inl (h.of_get? (hValue.trans hGet.symm))
      | none =>
          rw [hValue, Option.none_or] at hGet
          exact .inr (h.of_get? hGet.symm)

/-- The clauses of values that are put in are there. -/
theorem HasClause.of_update (h : HasClause values path key order) (hKeys : (values.map (·.1)).Nodup)
    (inner : Members) : HasClause (inner.update values) path key order := by
  cases path with
  | nil => cases h
  | cons name path =>
      obtain ⟨value, hValue⟩ := h.exists_get?
      apply h.of_get?
      rw [Members.get?_update hKeys, hValue, Option.some_or]

theorem get?_node (m : Method) (body inner : Members) (hKey : key ≠ treeKey) :
    (node m body inner).get? key = if key = m.name then some (.obj body) else none := by
  cases inner <;> simp [node, Members.get?_cons, Members.get?_nil, hKey]

/-- A clause that a node leads to is that of its body, or is within it. -/
theorem hasClause_node_iff {m : Method} {body inner : Members}
    (hNode : tree.get? name = some (.obj (node m body inner))) :
    HasClause tree (name :: path) key order ↔
      (path = [] ∧ key = m.name ∧ body.get? "order" = some order) ∨
        HasClause inner path key order := by
  constructor
  · intro h
    cases h with
    | top hNode' hKey hBody hOrder =>
        cases hNode.symm.trans hNode'
        rw [get?_node m body inner hKey] at hBody
        split at hBody
        · rename_i hName
          cases hBody
          exact .inl ⟨rfl, hName, hOrder⟩
        · cases hBody
    | within hNode' hInner =>
        cases hNode.symm.trans hNode'
        rw [within_node] at hInner
        exact .inr hInner
  · rintro (⟨rfl, rfl, hOrder⟩ | hInner)
    · have hKey := (treeKey_ne_name m).symm
      exact .top hNode hKey (by rw [get?_node m body inner hKey, if_pos rfl]) hOrder
    · exact .within hNode (by rwa [within_node])

/-! ## Orders of definitions -/

namespace Definition

/-- No parameter of the definition has entries. -/
def HasNoEntries (d : Definition) : Prop :=
  ∀ p ∈ d.params, HasNoEntry p.2

theorem hasNoEntry_of_standsFor {cs : Text} {value : Json} (h : StandsFor cs value) :
    HasNoEntry value := by
  intro name direction hEntry
  cases h <;> cases hEntry

theorem hasNoEntry_of_items {items : List Json} (h : ∀ item ∈ items, HasNoEntry item) :
    HasNoEntry (.arr items) := by
  intro name direction hEntry
  cases hEntry with
  | ofList hItem hEntry => exact h _ hItem name direction (.ofObject hEntry)

theorem hasNoEntry_of_forall₂ {texts : List Text} {items : List Json}
    (h : List.Forall₂ StandsFor texts items) : HasNoEntry (.arr items) := by
  apply hasNoEntry_of_items
  intro item hItem
  obtain ⟨text, -, hStands⟩ := exists_of_mem_forall₂ h hItem
  exact hasNoEntry_of_standsFor hStands

theorem hasNoEntry_of_hasValue {cs : Text} {value : Json} (h : HasValue cs value) :
    HasNoEntry value := by
  cases h with
  | single _ h => exact hasNoEntry_of_standsFor h
  | list _ h => exact hasNoEntry_of_forall₂ h

theorem hasNoEntry_of_adds {params final : Members} {pairs : List Text}
    (h : Adds params pairs final) (hParams : ∀ p ∈ params, HasNoEntry p.2) :
    ∀ p ∈ final, HasNoEntry p.2 := by
  induction h with
  | nil params => exact hParams
  | cons hFirst _ ih =>
      apply ih
      cases hFirst with
      | skip _ => exact hParams
      | put _ _ hValue =>
          intro p hMem
          rcases Members.eq_or_mem_of_mem_set hMem with rfl | hOld
          · exact hasNoEntry_of_hasValue hValue
          · exact hParams p hOld

theorem hasNoEntry_of_numeral (n : Numeral) : HasNoEntry (.ofNumeral n) := by
  intro name direction hEntry
  cases n <;> cases hEntry

theorem hasNoEntry_int (n : Int) : HasNoEntry (.int n) := by
  intro name direction hEntry
  cases hEntry

theorem hasNoEntry_of_mem_singleton {p : Text × Json} {value : Json} (h : HasNoEntry value)
    (hMem : p ∈ [(key, value)]) : HasNoEntry p.2 := by
  rw [List.mem_singleton.mp hMem]
  exact h

theorem hasNoEntry_of_makesBare {m : Method} {given : Text} {params : Members}
    (h : MakesBare m given params) : ∀ p ∈ params, HasNoEntry p.2 := by
  intro p hMem
  cases h with
  | whole _ h =>
      cases h with
      | number _ _ => exact hasNoEntry_of_mem_singleton (hasNoEntry_int _) hMem
      | other _ => cases hMem
  | interval h =>
      cases h with
      | positive _ _ _ => exact hasNoEntry_of_mem_singleton (hasNoEntry_of_numeral _) hMem
      | other _ _ => cases hMem
  | calendar _ =>
      apply hasNoEntry_of_mem_singleton _ hMem
      intro name direction hEntry
      cases hEntry
  | percents h =>
      apply hasNoEntry_of_mem_singleton _ hMem
      split
      · apply hasNoEntry_of_items
        intro item hItem
        obtain ⟨n, -, rfl⟩ := List.mem_map.mp hItem
        exact hasNoEntry_int n
      · exact hasNoEntry_of_forall₂ h
  | nothing _ _ _ _ _ => cases hMem

theorem hasNoEntries_of_isReadAs {piece : Text} {d : Definition} (h : IsReadAs piece d) :
    d.HasNoEntries := by
  intro p hMem
  cases h with
  | alone _ _ _ hParams =>
      rw [hParams] at hMem
      exact hasNoEntry_of_mem_singleton (hasNoEntry_int _) hMem
  | given _ _ _ hParams =>
      cases hParams with
      | keyed _ h => exact hasNoEntry_of_adds h (fun _ hNone => nomatch hNone) p hMem
      | bare _ h => exact hasNoEntry_of_makesBare h p hMem

theorem hasNoEntries_of_readAll {text : Text} (h : readAll text = .ok ds) :
    ∀ d ∈ ds, d.HasNoEntries := by
  intro d hMem
  obtain ⟨piece, -, hRead⟩ := exists_of_mem_forall₂ (readAll_eq_ok_iff.mp h).2 hMem
  exact hasNoEntries_of_isReadAs hRead

/-- The clause of a node that a definition gives has no entries. -/
theorem HasNoEntries.of_clause {d : Definition} (h : d.HasNoEntries)
    (hOrder : d.bodyMembers.get? "order" = some order) : HasNoEntry order := by
  have hOther : ("order" : Text) ≠ "field" := by decide
  rcases Members.eq_or_mem_of_mem_update (Members.mem_of_get? hOrder) with hParam | hField
  · exact h _ hParam
  · exact absurd (congrArg Prod.fst (List.mem_singleton.mp hField)) hOther

end Definition

theorem hasNoEntry_valuesOf (h : ∀ d ∈ ds, d.HasNoEntries)
    (hClause : HasClause (valuesOf ds) path key order) : HasNoEntry order := by
  cases path with
  | nil => cases hClause
  | cons name path =>
      have hNode : ∃ d ∈ ds, (valuesOf ds).get? name =
          some (.obj (node d.method d.bodyMembers [])) := by
        obtain ⟨value, hValue⟩ := hClause.exists_get?
        obtain ⟨d, hMem, -, hSame⟩ := exists_of_mem_valuesOf (Members.mem_of_get? hValue)
        obtain rfl : value = d.body := congrArg Prod.snd hSame
        exact ⟨d, hMem, hValue⟩
      obtain ⟨d, hMem, hNode⟩ := hNode
      rcases (hasClause_node_iff hNode).mp hClause with ⟨-, -, hOrder⟩ | hInner
      · exact (h d hMem).of_clause hOrder
      · exact absurd hInner not_hasClause_nil

/-! ## Ordering any tree -/

/-- Of the clauses of the types of a node each is the order or was there before, and of those within
it each is one of the values or was there before. -/
structure Reorders (order : Json) (values members members' : Members) : Prop where
  own : ∀ (key : Text) (body' : Members) (held : Json), key ≠ treeKey →
    members'.get? key = some (.obj body') → body'.get? "order" = some held →
      held = order ∨ ∃ body : Members, members.get? key = some (.obj body) ∧
        body.get? "order" = some held
  inner : ∀ path key held, HasClause (within members') path key held →
    HasClause values path key held ∨ HasClause (within members) path key held

namespace Reorders

variable {members' members'' : Members}

theorem refl (order : Json) (values members : Members) : Reorders order values members members :=
  ⟨fun _ body' _ _ hBody hOrder => .inr ⟨body', hBody, hOrder⟩, fun _ _ _ h => .inr h⟩

theorem trans (h : Reorders order values members members')
    (h' : Reorders order values members' members'') : Reorders order values members members'' := by
  constructor
  · intro key body'' held hKey hBody hOrder
    rcases h'.own key body'' held hKey hBody hOrder with hSame | ⟨body', hBody', hOrder'⟩
    · exact .inl hSame
    · exact h.own key body' held hKey hBody' hOrder'
  · intro path key held hClause
    rcases h'.inner path key held hClause with hValue | hClause'
    · exact .inl hValue
    · exact h.inner path key held hClause'

/-- A type gets the order. -/
theorem setOrder (values members : Members) (hKey : key ≠ treeKey) (body : Members) :
    Reorders order values members (members.set key (.obj (body.set "order" order))) := by
  constructor
  · intro other body' held _ hBody hOrder
    by_cases hOther : other = key
    · subst hOther
      rw [Members.get?_set_self] at hBody
      cases hBody
      rw [Members.get?_set_self] at hOrder
      exact .inl (Option.some.inj hOrder).symm
    · rw [Members.get?_set_of_ne hOther] at hBody
      exact .inr ⟨body', hBody, hOrder⟩
  · intro path other held hClause
    have hWithin : within (members.set key (.obj (body.set "order" order))) = within members := by
      rw [within, within, Members.get?_set_of_ne hKey.symm]
    rw [hWithin] at hClause
    exact .inr hClause

/-- The values get into the tree within. -/
theorem setTree (order : Json) (hKeys : (values.map (·.1)).Nodup) (members : Members) :
    Reorders order values members
      (members.set treeKey (.obj ((within members).update values))) := by
  constructor
  · intro key body' held hKey hBody hOrder
    rw [Members.get?_set_of_ne hKey] at hBody
    exact .inr ⟨body', hBody, hOrder⟩
  · intro path key held hClause
    rw [within, Members.get?_set_self] at hClause
    exact hasClause_update hKeys hClause

end Reorders

theorem reorders_orderKeys (order : Json) (hKeys : (values.map (·.1)).Nodup) (keys : List Text)
    (members : Members) :
    Reorders order values members (orderKeys order values keys members).reached := by
  induction keys generalizing members with
  | nil => exact .refl order values members
  | cons key keys ih =>
      simp only [orderKeys]
      split
      · rename_i hOrderable
        have hKey : key ≠ treeKey := (treeKey_ne_of_isOrderableKey hOrderable).symm
        split
        · rename_i body _
          have hOrder : Reorders order values members _ := .setOrder values members hKey body
          generalize members.set key (.obj (Members.set body "order" order)) = next at hOrder
          have hTree := hOrder.trans (.setTree order hKeys next)
          split
          · rename_i hNone
            have hValues : (within next).update values = values := by
              rw [within, hNone]
              exact Members.update_of_nodup hKeys
            rw [hValues] at hTree
            exact hTree.trans (ih _)
          · rename_i inner hInner
            have hWithin : within next = inner := by rw [within, hInner]
            rw [hWithin] at hTree
            exact hTree.trans (ih _)
          · exact hOrder
        · exact .refl order values members
      · exact ih members

/-- Only a node is ordered. -/
theorem reorders_orderNode {held : Json} {members' : Members} (order : Json)
    (hKeys : (values.map (·.1)).Nodup)
    (h : (orderNode order values held).reached = .obj members') :
    ∃ members, held = .obj members ∧ Reorders order values members members' := by
  cases held with
  | obj members =>
      cases h
      exact ⟨members, rfl, reorders_orderKeys order hKeys _ members⟩
  | _ => cases h

/-- Nodes are ordered in place, up to the first that cannot be. -/
theorem exists_get?_of_orderNodes {nodes : Members} {held : Json} (order : Json)
    (h : (orderNodes order values nodes).reached.get? name = some held) :
    ∃ before, nodes.get? name = some before ∧
      (held = before ∨ held = (orderNode order values before).reached) := by
  induction nodes with
  | nil => cases h
  | cons n nodes ih =>
      obtain ⟨first, before⟩ := n
      simp only [orderNodes] at h
      rw [Members.get?_cons]
      split at h
      · rw [Members.get?_cons] at h
        split at h
        · rename_i hName
          exact ⟨before, if_pos hName, .inr (Option.some.inj h).symm⟩
        · rename_i hName
          exact ⟨held, by rw [if_neg hName, h], .inl rfl⟩
      · rw [Members.get?_cons] at h
        split at h
        · rename_i hName
          exact ⟨before, if_pos hName, .inr (Option.some.inj h).symm⟩
        · rename_i hName
          rw [if_neg hName]
          exact ih h

/-- Ordering nodes leaves each clause as it was, or writes the order or one of the values there. -/
theorem hasClause_of_orderNodes {nodes : Members} (hKeys : (values.map (·.1)).Nodup)
    {held : Json} (h : HasClause (orderNodes order values nodes).reached path key held) :
    held = order ∨ (∃ path, HasClause values path key held) ∨ HasClause nodes path key held := by
  have hNode : ∀ {name : Text} {members' : Members},
      (orderNodes order values nodes).reached.get? name = some (.obj members') →
        ∃ members, nodes.get? name = some (.obj members) ∧
          Reorders order values members members' := by
    intro name members' hGet
    obtain ⟨before, hBefore, rfl | hReached⟩ := exists_get?_of_orderNodes order hGet
    · exact ⟨members', hBefore, .refl order values members'⟩
    · obtain ⟨members, rfl, hReorders⟩ := reorders_orderNode order hKeys hReached.symm
      exact ⟨members, hBefore, hReorders⟩
  cases h with
  | top hGet hKey hBody hOrder =>
      obtain ⟨members, hMembers, hReorders⟩ := hNode hGet
      rcases hReorders.own key _ held hKey hBody hOrder with hSame | ⟨body, hBody', hOrder'⟩
      · exact .inl hSame
      · exact .inr (.inr (.top hMembers hKey hBody' hOrder'))
  | within hGet hInner =>
      obtain ⟨members, hMembers, hReorders⟩ := hNode hGet
      rcases hReorders.inner _ key held hInner with hValue | hBefore
      · exact .inr (.inl ⟨_, hValue⟩)
      · exact .inr (.inr (.within hMembers hBefore))

/-! ## Directions -/

/-- The entries of an order are the values in the direction, and the number of documents. -/
theorem isEntry_orderEntries_iff {direction held : Json} {vs : List (Text × Json)} :
    IsEntry (orderEntries direction vs) name held ↔
      (held = direction ∧ ∃ v ∈ vs, name = v.1) ∨ (name = "_count" ∧ held = .str "desc") := by
  constructor
  · intro h
    cases h with
    | ofList hItem hEntry =>
        rcases List.mem_append.mp hItem with hValue | hCount
        · obtain ⟨v, hMem, hSame⟩ := List.mem_map.mp hValue
          obtain rfl := Json.obj.inj hSame
          cases List.mem_singleton.mp hEntry
          exact .inl ⟨rfl, v, hMem, rfl⟩
        · obtain rfl := Json.obj.inj (List.mem_singleton.mp hCount)
          cases List.mem_singleton.mp hEntry
          exact .inr ⟨rfl, rfl⟩
  · rintro (⟨rfl, v, hMem, rfl⟩ | ⟨rfl, rfl⟩)
    · exact .ofList (List.mem_append_left _ (List.mem_map_of_mem hMem)) List.mem_cons_self
    · exact .ofList (List.mem_append_right _ List.mem_cons_self) List.mem_cons_self

theorem isDirected_orderEntries_iff {direction : Json} {vs : List (Text × Json)} (hSome : vs ≠ []) :
    IsDirected (orderEntries direction vs) ↔ direction = .str "asc" ∨ direction = .str "desc" := by
  constructor
  · intro h
    obtain ⟨v, vs, rfl⟩ := List.exists_cons_of_ne_nil hSome
    exact h v.1 direction (isEntry_orderEntries_iff.mpr (.inl ⟨rfl, v, List.mem_cons_self, rfl⟩))
  · intro h name held hEntry
    rcases isEntry_orderEntries_iff.mp hEntry with ⟨rfl, -⟩ | ⟨-, rfl⟩
    · exact h
    · exact .inr rfl

theorem Definition.hasNoEntries_of_readTexts {texts : List Text}
    (h : (texts.mapM Definition.readAll).map List.flatten = .ok ds) :
    ∀ d ∈ ds, d.HasNoEntries := by
  obtain ⟨read, hRead, rfl⟩ := (map_eq_ok_iff).mp h
  intro d hMem
  obtain ⟨part, hPart, hMem⟩ := List.mem_flatten.mp hMem
  obtain ⟨text, -, hText⟩ := exists_of_mem_forall₂ (mapM_eq_ok_iff.mp hRead) hPart
  exact Definition.hasNoEntries_of_readAll hText d hMem

/-- Whatever tree is ordered, in one of the two directions: every clause that was not there before
is directed. -/
theorem isDirected_of_orderBy {before after : Members} {direction : Json} {texts : List Text}
    (hDirection : direction = .str "asc" ∨ direction = .str "desc")
    (hAfter : (orderBy (.obj before) direction (Json.texts texts)).reached = .obj after)
    (h : HasClause after path key order) (hNew : ¬HasClause before path key order) :
    IsDirected order := by
  cases hRead : readDefinitions (Json.texts texts) with
  | error failure =>
      rw [orderBy, hRead] at hAfter
      cases hAfter
      exact absurd h hNew
  | ok ds =>
      have hPlain := Definition.hasNoEntries_of_readTexts (readDefinitions_texts texts ▸ hRead)
      by_cases hNone : orderingValues ds = []
      · rw [orderBy_of_nil hRead hNone] at hAfter
        cases hAfter
        exact absurd h hNew
      · rw [orderBy_of_ne_nil hRead hNone] at hAfter
        cases hAfter
        rcases hasClause_of_orderNodes (nodup_valuesOf ds) h with rfl | ⟨path, hValue⟩ | hBefore
        · exact (isDirected_orderEntries_iff hNone).mpr hDirection
        · exact (hasNoEntry_valuesOf hPlain hValue).isDirected
        · exact absurd hBefore hNew

/-! ## Clauses of levels -/

theorem Level.Says.hasNoEntries_definitions {level : Level} {tier : Tier} (h : level.Says tier) :
    ∀ d ∈ tier.definitions, d.HasNoEntries :=
  Definition.hasNoEntries_of_readAll h.text

theorem Level.Says.hasNoEntries_ordering {level : Level} {tier : Tier} (h : level.Says tier) :
    ∀ d ∈ tier.ordering, d.HasNoEntries :=
  Definition.hasNoEntries_of_readTexts h.ordering

theorem nodup_treeOf (direction : Json) (tiers : List Tier) :
    ((treeOf direction tiers).map (·.1)).Nodup := by
  cases tiers with
  | nil => exact List.nodup_nil
  | cons tier tiers =>
      rw [treeOf, Tier.treeAround, List.map_map]
      exact Members.nodup_update List.nodup_nil

/-- A node of a level, with a tree around which the level was put, and its definition. -/
theorem Tier.exists_of_get?_treeAround {tier : Tier} {held direction : Json}
    (hGet : (tier.treeAround direction inner).get? name = some held) :
    ∃ d ∈ tier.definitions, tier.nodes.get? name = some (.obj (node d.method d.bodyMembers [])) ∧
      held = ordered direction tier.ordering (.obj (node d.method d.bodyMembers inner)) := by
  rw [tier.get?_treeAround, Option.map_eq_some_iff] at hGet
  obtain ⟨bare, hBare, rfl⟩ := hGet
  obtain ⟨d, hMem, hSame⟩ := exists_of_mem_nodesOf (Members.mem_of_get? hBare)
  obtain rfl : bare = .obj (node d.method d.bodyMembers []) :=
    (congrArg Prod.snd hSame).trans d.body_eq_node
  exact ⟨d, hMem, hBare, by rw [around_bare]⟩

theorem Tier.ne_nil_of_hasClause {tier : Tier} {direction : Json}
    (h : HasClause (tier.treeAround direction inner) path key order) : tier.definitions ≠ [] := by
  intro hNone
  apply h.ne_nil
  rw [Tier.treeAround, Tier.nodes, hNone]
  rfl

/-- The level has a node that can be ordered, and a value to order it by. -/
def Tier.Orders (tier : Tier) : Prop :=
  tier.IsOrderable ∧ orderingValues tier.ordering ≠ []

/-- The order that a level writes. -/
def Tier.writtenOrder (tier : Tier) (direction : Json) : Json :=
  orderEntries direction (orderingValues tier.ordering)

/-- A level leaves the clauses of the tree that it is put around, and of its own it writes at most
one with entries. -/
theorem Tier.hasClause_treeAround {tier : Tier} {direction : Json}
    (hNodes : ∀ d ∈ tier.definitions, d.HasNoEntries)
    (hValues : ∀ d ∈ tier.ordering, d.HasNoEntries)
    (h : HasClause (tier.treeAround direction inner) path key order) :
    HasNoEntry order ∨ (tier.Orders ∧ order = tier.writtenOrder direction) ∨
      ∃ path, HasClause inner path key order := by
  cases path with
  | nil => cases h
  | cons name path =>
      obtain ⟨held, hHeld⟩ := h.exists_get?
      obtain ⟨d, hMem, hBare, rfl⟩ := Tier.exists_of_get?_treeAround hHeld
      by_cases hNone : orderingValues tier.ordering = []
      · rw [ordered_of_nil _ _ hNone] at hHeld
        rcases (hasClause_node_iff hHeld).mp h with ⟨-, -, hOrder⟩ | hInner
        · exact .inl ((hNodes d hMem).of_clause hOrder)
        · exact .inr (.inr ⟨_, hInner⟩)
      · rw [ordered_node direction _ _ _ hNone] at hHeld
        have hClause := (hasClause_node_iff hHeld).mp h
        unfold orderedBody orderedTree at hClause
        split at hClause
        · rename_i hOrderable
          have hOrders : tier.Orders := ⟨⟨name, _, _, hBare, hOrderable⟩, hNone⟩
          rcases hClause with ⟨-, -, hOrder⟩ | hInner
          · rw [Members.get?_set_self] at hOrder
            exact .inr (.inl ⟨hOrders, (Option.some.inj hOrder).symm⟩)
          · rcases hasClause_update (nodup_valuesOf tier.ordering) hInner with hValue | hInner
            · exact .inl (hasNoEntry_valuesOf hValues hValue)
            · exact .inr (.inr ⟨_, hInner⟩)
        · rcases hClause with ⟨-, -, hOrder⟩ | hInner
          · exact .inl ((hNodes d hMem).of_clause hOrder)
          · exact .inr (.inr ⟨_, hInner⟩)

/-- Some level orders its nodes, and every level around it has a node. -/
def Orders : List Tier → Prop
  | [] => False
  | tier :: tiers => tier.definitions ≠ [] ∧ (tier.Orders ∨ Orders tiers)

/-- A clause of a tree of levels has no entries, or it is the order of a level. -/
theorem hasClause_treeOf {direction : Json} {levels : List Level} {tiers : List Tier}
    (hSays : List.Forall₂ Level.Says levels tiers)
    (h : HasClause (treeOf direction tiers) path key order) :
    HasNoEntry order ∨
      (Orders tiers ∧ ∃ tier ∈ tiers, tier.Orders ∧ order = tier.writtenOrder direction) := by
  induction hSays generalizing path with
  | nil => exact absurd h not_hasClause_nil
  | cons hTier _ ih =>
      have hSome := Tier.ne_nil_of_hasClause h
      rcases Tier.hasClause_treeAround hTier.hasNoEntries_definitions hTier.hasNoEntries_ordering h
        with hPlain | ⟨hOrders, hOrder⟩ | ⟨path, hInner⟩
      · exact .inl hPlain
      · exact .inr ⟨⟨hSome, .inl hOrders⟩, _, List.mem_cons_self, hOrders, hOrder⟩
      · rcases ih hInner with hPlain | ⟨hRest, tier, hMem, hOrder⟩
        · exact .inl hPlain
        · exact .inr ⟨⟨hSome, .inr hRest⟩, tier, List.mem_cons_of_mem _ hMem, hOrder⟩

/-- The order of a level stands on each of its nodes that can be ordered. -/
theorem Tier.Orders.exists_hasClause {tier : Tier} (h : tier.Orders) (direction : Json)
    (inner : Members) :
    ∃ path key,
      HasClause (tier.treeAround direction inner) path key (tier.writtenOrder direction) := by
  obtain ⟨⟨name, m, body, hGet, hOrderable⟩, hSome⟩ := h
  have hNode : (tier.treeAround direction inner).get? name =
      some (ordered direction tier.ordering (.obj (node m body inner))) := by
    rw [tier.get?_treeAround, hGet, Option.map_some, around_bare]
  rw [ordered_node direction m body inner hSome] at hNode
  refine ⟨[name], m.name, (hasClause_node_iff hNode).mpr (.inl ⟨rfl, rfl, ?_⟩)⟩
  rw [orderedBody, if_pos hOrderable, Members.get?_set_self]
  rfl

/-- A level that does not order keeps the clauses of the tree that it is put around. -/
theorem Tier.exists_hasClause_of_inner {tier : Tier} {direction : Json}
    (hSome : tier.definitions ≠ []) (hOrders : ¬tier.Orders)
    (h : HasClause inner path key order) :
    ∃ path, HasClause (tier.treeAround direction inner) path key order := by
  obtain ⟨name, m, body, hGet⟩ := tier.exists_get?_nodes hSome
  obtain ⟨m', body₀, body', hSame, hTree, -⟩ := tier.exists_get?_treeAround hGet direction inner
  have hInner : orderedTree m' (valuesOf tier.ordering) inner = inner := by
    by_cases hNone : orderingValues tier.ordering = []
    · rw [valuesOf, hNone]
      exact ite_self inner
    · have hOrderable : ¬m'.isOrderable = true := by
        intro hOrderable
        exact hOrders ⟨⟨name, m', body₀, hGet.trans (congrArg some hSame), hOrderable⟩, hNone⟩
      rw [orderedTree, if_neg hOrderable]
  rw [hInner] at hTree
  exact ⟨name :: path, (hasClause_node_iff hTree).mpr (.inr h)⟩

/-- Where a level orders, the tree has its clause. -/
theorem exists_hasClause_treeOf (direction : Json) {tiers : List Tier} (h : Orders tiers) :
    ∃ path key, ∃ tier ∈ tiers, tier.Orders ∧
      HasClause (treeOf direction tiers) path key (tier.writtenOrder direction) := by
  induction tiers with
  | nil => exact h.elim
  | cons tier tiers ih =>
      obtain ⟨hSome, hRest⟩ := h
      by_cases hOrders : tier.Orders
      · obtain ⟨path, key, hClause⟩ := hOrders.exists_hasClause direction (treeOf direction tiers)
        exact ⟨path, key, tier, List.mem_cons_self, hOrders, hClause⟩
      · obtain ⟨path, key, inner, hMem, hInner, hClause⟩ := ih (hRest.resolve_left hOrders)
        obtain ⟨path, hClause⟩ := tier.exists_hasClause_of_inner hSome hOrders hClause
        exact ⟨path, key, inner, List.mem_cons_of_mem _ hMem, hInner, hClause⟩

/-- The clauses of a tree of levels are directed if the direction is one of the two, or if no level
orders. -/
theorem isDirected_treeOf_iff {direction : Json} {levels : List Level} {tiers : List Tier}
    (hSays : List.Forall₂ Level.Says levels tiers) :
    (∀ path key order, HasClause (treeOf direction tiers) path key order → IsDirected order) ↔
      (direction = .str "asc" ∨ direction = .str "desc") ∨ ¬Orders tiers := by
  constructor
  · intro hAll
    by_cases hOrders : Orders tiers
    · obtain ⟨path, key, tier, -, ⟨-, hSome⟩, hClause⟩ := exists_hasClause_treeOf direction hOrders
      exact .inl ((isDirected_orderEntries_iff hSome).mp (hAll path key _ hClause))
    · exact .inr hOrders
  · intro h path key order hClause
    rcases hasClause_treeOf hSays hClause with hPlain | ⟨hOrders, tier, -, ⟨-, hSome⟩, rfl⟩
    · exact hPlain.isDirected
    · exact (isDirected_orderEntries_iff hSome).mpr (h.resolve_right fun hNone => hNone hOrders)

end LogQuery.Aggregation
