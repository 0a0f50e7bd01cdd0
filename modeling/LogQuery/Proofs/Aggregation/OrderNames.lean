import LogQuery.Proofs.Aggregation.Orders
import Mathlib.Data.List.Nodup

/-! The names in an order. Each value of the definitions gets one entry, and its body is put within
the node under the name of the entry. Dots in a name become underscores on the way, so that two names
may become one; then both entries name the later of the two values. -/

namespace LogQuery.Aggregation

variable {tree inner : Members} {ds : List Definition}

/-! ## Ordering any node -/

/-- A node as it can be ordered, whatever its types: the bodies of those that can be ordered are
objects, and so is what stands within the node. -/
structure IsOrderable (members : Members) : Prop where
  keys : (members.map (·.1)).Nodup
  bodies : ∀ key held, isOrderableKey key = true → members.get? key = some held →
    ∃ body, held = .obj body
  inner : ∀ held, members.get? treeKey = some held → ∃ inner, held = .obj inner

/-- Every node at the top can be ordered. -/
def IsTree (tree : Members) : Prop :=
  ∀ n ∈ tree, ∃ members : Members, n.2 = .obj members ∧ IsOrderable members

theorem treeKey_ne_of_isOrderableKey {key : Text} (h : isOrderableKey key = true) : treeKey ≠ key := by
  rintro rfl
  exact absurd h (by decide)

/-- What ordering makes of a node by some of its keys: each type among them that can be ordered has
the order, and the values stand within the node if there is such a type or they stood there before. -/
structure Ordered (order : Json) (values : Members) (keys : List Text) (before after : Members) :
    Prop where
  order : ∀ key ∈ keys, isOrderableKey key = true → ∀ body, before.get? key = some (.obj body) →
    after.get? key = some (.obj (Members.set body "order" order))
  others : ∀ key, key ∉ keys → key ≠ treeKey → after.get? key = before.get? key
  values : ∀ name value, values.get? name = some value →
    ((∃ key ∈ keys, isOrderableKey key = true) ∨ (within before).get? name = some value) →
      (within after).get? name = some value

/-- A node with an order in the body of one of its types, and with a tree within. -/
def withOrder (order : Json) (node : Members) (key : Text) (body inner : Members) : Members :=
  (node.set key (.obj (Members.set body "order" order))).set treeKey (.obj inner)

section

variable {order : Json} {values node after body inner : Members} {key other : Text} {keys : List Text}

theorem get?_withOrder_of_ne (hKey : other ≠ key) (hTree : other ≠ treeKey) :
    (withOrder order node key body inner).get? other = node.get? other := by
  rw [withOrder, Members.get?_set_of_ne hTree, Members.get?_set_of_ne hKey]

theorem get?_withOrder_self (h : isOrderableKey key = true) :
    (withOrder order node key body inner).get? key = some (.obj (Members.set body "order" order)) := by
  rw [withOrder, Members.get?_set_of_ne (treeKey_ne_of_isOrderableKey h).symm,
    Members.get?_set_self]

theorem get?_withOrder_treeKey :
    (withOrder order node key body inner).get? treeKey = some (.obj inner) :=
  Members.get?_set_self _ _ _

/-- One type that can be ordered gets the order, and the values are put within the node. -/
theorem exists_orderKeys_cons (order : Json) (keys : List Text) (hValues : (values.map (·.1)).Nodup)
    (hKey : isOrderableKey key = true) (hBody : node.get? key = some (.obj body))
    (hInner : ∀ held, node.get? treeKey = some held → ∃ inner, held = .obj inner) :
    ∃ inner : Members, orderKeys order values (key :: keys) node =
        orderKeys order values keys (withOrder order node key body inner) ∧
      ∀ name value, values.get? name = some value → inner.get? name = some value := by
  have hTree : (node.set key (.obj (Members.set body "order" order))).get? treeKey =
      node.get? treeKey := Members.get?_set_of_ne (treeKey_ne_of_isOrderableKey hKey)
  have hHeld : node.getD key = .obj body := by rw [Members.getD, hBody, Option.getD_some]
  cases hGet : node.get? treeKey with
  | none =>
      refine ⟨values, ?_, fun _ _ h => h⟩
      simp only [orderKeys, hKey, ↓reduceIte, hHeld, hTree, hGet, withOrder]
  | some held =>
      obtain ⟨inner, rfl⟩ := hInner held hGet
      refine ⟨Members.update inner values, ?_, fun name value h => ?_⟩
      · simp only [orderKeys, hKey, ↓reduceIte, hHeld, hTree, hGet, withOrder]
      · rw [Members.get?_update hValues, h, Option.some_or]

theorem Ordered.nil (order : Json) (values node : Members) : Ordered order values [] node node := by
  refine ⟨by simp, fun _ _ _ => rfl, fun name value _ h => ?_⟩
  exact h.resolve_left (by simp)

theorem Ordered.skip (hKey : isOrderableKey key = false) (h : Ordered order values keys node after) :
    Ordered order values (key :: keys) node after := by
  have hMem : ∀ k ∈ key :: keys, isOrderableKey k = true → k ∈ keys := by
    intro k hk hOrderable
    refine (List.mem_cons.mp hk).resolve_left ?_
    rintro rfl
    rw [hKey] at hOrderable
    cases hOrderable
  refine ⟨?_, ?_, ?_⟩
  · exact fun k hk hOrderable => h.order k (hMem k hk hOrderable) hOrderable
  · exact fun k hk => h.others k fun hIn => hk (List.mem_cons_of_mem _ hIn)
  · intro name value hValue hSome
    refine h.values name value hValue (hSome.imp_left ?_)
    rintro ⟨k, hk, hOrderable⟩
    exact ⟨k, hMem k hk hOrderable, hOrderable⟩

theorem Ordered.step (hKey : isOrderableKey key = true) (hNew : key ∉ keys)
    (hBody : node.get? key = some (.obj body))
    (hInside : ∀ name value, values.get? name = some value → inner.get? name = some value)
    (h : Ordered order values keys (withOrder order node key body inner) after) :
    Ordered order values (key :: keys) node after := by
  refine ⟨?_, ?_, ?_⟩
  · intro k hk hOrderable b hb
    have hTree := (treeKey_ne_of_isOrderableKey hOrderable).symm
    rcases List.mem_cons.mp hk with rfl | hk
    · cases hBody.symm.trans hb
      rw [h.others k hNew hTree, get?_withOrder_self hKey]
    · refine h.order k hk hOrderable b ?_
      rwa [get?_withOrder_of_ne (ne_of_mem_of_not_mem hk hNew) hTree]
  · intro k hk hTree
    rw [List.mem_cons, not_or] at hk
    rw [h.others k hk.2 hTree, get?_withOrder_of_ne hk.1 hTree]
  · intro name value hValue _
    refine h.values name value hValue (.inr ?_)
    rw [within, get?_withOrder_treeKey]
    exact hInside name value hValue

end

/-- Ordering a node by some of its keys succeeds where the bodies of their types and the tree within
are objects. -/
theorem exists_orderKeys (order : Json) {values : Members} (hValues : (values.map (·.1)).Nodup)
    {keys : List Text} {node : Members} (hKeys : keys.Nodup)
    (hBodies : ∀ key ∈ keys, isOrderableKey key = true → ∃ body, node.get? key = some (.obj body))
    (hInner : ∀ held, node.get? treeKey = some held → ∃ inner, held = .obj inner) :
    ∃ after, orderKeys order values keys node = ⟨after, none⟩ ∧
      Ordered order values keys node after := by
  induction keys generalizing node with
  | nil => exact ⟨node, rfl, .nil order values node⟩
  | cons key keys ih =>
      obtain ⟨hNew, hRest⟩ := List.nodup_cons.mp hKeys
      obtain ⟨hFirst, hLater⟩ := List.forall_mem_cons.mp hBodies
      cases hKey : isOrderableKey key with
      | false =>
          obtain ⟨after, hAfter, hOrdered⟩ := ih hRest hLater hInner
          refine ⟨after, ?_, hOrdered.skip hKey⟩
          simp only [orderKeys, hKey, Bool.false_eq_true, ↓reduceIte, hAfter]
      | true =>
          obtain ⟨body, hBody⟩ := hFirst hKey
          obtain ⟨inner, hStep, hInside⟩ :=
            exists_orderKeys_cons order keys hValues hKey hBody hInner
          have hBodies' : ∀ k ∈ keys, isOrderableKey k = true →
              ∃ b, (withOrder order node key body inner).get? k = some (.obj b) := by
            intro k hk hOrderable
            rw [get?_withOrder_of_ne (ne_of_mem_of_not_mem hk hNew)
              (treeKey_ne_of_isOrderableKey hOrderable).symm]
            exact hLater k hk hOrderable
          have hInner' : ∀ held, (withOrder order node key body inner).get? treeKey = some held →
              ∃ inner, held = .obj inner := by
            intro held hHeld
            rw [get?_withOrder_treeKey] at hHeld
            exact ⟨inner, (Option.some.inj hHeld).symm⟩
          obtain ⟨after, hAfter, hOrdered⟩ := ih hRest hBodies' hInner'
          exact ⟨after, hStep.trans hAfter, hOrdered.step hKey hNew hBody hInside⟩

/-- A tree that can be ordered is ordered node by node. -/
theorem exists_orderNodes (order : Json) {values : Members} (hValues : (values.map (·.1)).Nodup)
    (hTree : IsTree tree) :
    ∃ after, orderNodes order values tree = ⟨after, none⟩ ∧
      ∀ name members, tree.get? name = some (.obj members) →
        ∃ members', after.get? name = some (.obj members') ∧
          Ordered order values (members.map (·.1)) members members' := by
  induction tree with
  | nil => exact ⟨[], rfl, by simp [Members.get?_nil]⟩
  | cons n tree ih =>
      obtain ⟨name, held⟩ := n
      obtain ⟨⟨members, hHeld, hNode⟩, hRest⟩ := List.forall_mem_cons.mp hTree
      obtain rfl : held = .obj members := hHeld
      obtain ⟨rest, hOrder, hNodes⟩ := ih hRest
      have hBodies : ∀ key ∈ members.map (·.1), isOrderableKey key = true →
          ∃ body, members.get? key = some (.obj body) := by
        intro key hKey hOrderable
        obtain ⟨body, hBody⟩ := Members.exists_get?_of_mem hNode.keys hKey
        obtain ⟨body, rfl⟩ := hNode.bodies key body hOrderable hBody
        exact ⟨body, hBody⟩
      obtain ⟨after, hAfter, hOrdered⟩ :=
        exists_orderKeys order hValues hNode.keys hBodies hNode.inner
      refine ⟨(name, .obj after) :: rest, ?_, ?_⟩
      · simp only [orderNodes, orderNode, hAfter, hOrder]
      · intro other others hGet
        rw [Members.get?_cons] at hGet ⊢
        split at hGet
        · rename_i hName
          cases hGet
          rw [if_pos hName]
          exact ⟨after, rfl, hOrdered⟩
        · rename_i hName
          rw [if_neg hName]
          exact hNodes other others hGet

/-! ## Names that become one -/

/-- The definitions of single values, in order. -/
def singleValues (ds : List Definition) : List Definition :=
  ds.filter (·.method.isSingleValue)

/-- The name that the value of a definition is ordered by. -/
def Definition.orderName (d : Definition) : Text :=
  Text.replace '.' ['_'] d.name

theorem orderingValues_eq (ds : List Definition) :
    orderingValues ds = (singleValues ds).map fun d => (d.orderName, d.body) := rfl

/-- No two values with different bodies are ordered by one name. -/
def AreNamesApart (ds : List Definition) : Prop :=
  ∀ d ∈ singleValues ds, ∀ e ∈ singleValues ds, d.orderName = e.orderName → d.body = e.body

theorem exists_get?_orderName {d : Definition} (h : d ∈ singleValues ds) :
    ∃ e ∈ singleValues ds, e.orderName = d.orderName ∧
      (valuesOf ds).get? d.orderName = some e.body := by
  have hMem : (d.orderName, d.body) ∈ orderingValues ds := List.mem_map.mpr ⟨d, h, rfl⟩
  obtain ⟨value, hValue⟩ := exists_get?_valuesOf hMem
  obtain ⟨e, he, hSingle, hSame⟩ := exists_of_mem_valuesOf (Members.mem_of_get? hValue)
  obtain ⟨hName, rfl⟩ : d.orderName = e.orderName ∧ value = e.body := Prod.mk.inj hSame
  exact ⟨e, List.mem_filter.mpr ⟨he, hSingle⟩, hName.symm, hValue⟩

/-- The values are all found under their names exactly if the names keep them apart. -/
theorem forall_get?_orderName_iff :
    (∀ d ∈ singleValues ds, (valuesOf ds).get? d.orderName = some d.body) ↔ AreNamesApart ds := by
  constructor
  · intro h d hd e he hName
    have hSame := h e he
    rw [← hName, h d hd] at hSame
    exact Option.some.inj hSame
  · intro h d hd
    obtain ⟨e, he, hName, hValue⟩ := exists_get?_orderName hd
    rw [hValue, h d hd e he hName.symm]

/-- A type of a node has an order: an entry in a direction for each name, and last the number of
documents. -/
def HasOrder (direction : Json) (members : Members) (key : Text) (names : List Text) : Prop :=
  ∃ body, members.get? key = some (.obj body) ∧ Members.get? body "order" =
    some (.arr (names.map (fun name => .obj [(name, direction)]) ++ [countEntry]))

/-- Every name stands for the body of its own definition within the node. -/
def NamesBodies (members : Members) (ds : List Definition) : Prop :=
  ∀ d ∈ ds, (within members).get? d.orderName = some d.body

/-- A node that was ordered by the values of some definitions. -/
theorem Ordered.hasOrder {direction : Json} {before after body : Members} {key : Text}
    (h : Ordered (orderEntries direction (orderingValues ds)) (valuesOf ds) (before.map (·.1)) before
      after) (hKey : isOrderableKey key = true) (hBody : before.get? key = some (.obj body)) :
    HasOrder direction after key ((singleValues ds).map Definition.orderName) ∧
      (NamesBodies after (singleValues ds) ↔ AreNamesApart ds) := by
  have hMem : key ∈ before.map (·.1) := Members.mem_keys_of_get? hBody
  constructor
  · refine ⟨_, h.order key hMem hKey body hBody, ?_⟩
    rw [Members.get?_set_self, orderEntries, orderingValues_eq, List.map_map, List.map_map]
    rfl
  · rw [← forall_get?_orderName_iff]
    have hSame : ∀ d ∈ singleValues ds,
        (within after).get? d.orderName = (valuesOf ds).get? d.orderName := by
      intro d hd
      obtain ⟨e, -, -, hValue⟩ := exists_get?_orderName hd
      rw [h.values _ _ hValue (.inl ⟨key, hMem, hKey⟩), hValue]
    exact forall₂_congr fun d hd => by rw [hSame d hd]

/-- Ordering a tree gives each type that can be ordered an entry for every value, in the order of the
definitions, and each entry names its own value exactly if no two values with different bodies get
one name. Without a value to order by the tree stays as it is. -/
theorem orderBy_names_iff {texts : List Text} (hTree : IsTree tree)
    (hRead : readDefinitions (Json.texts texts) = .ok ds) (direction : Json) :
    ∃ after : Members, orderBy (.obj tree) direction (Json.texts texts) = ⟨.obj after, none⟩ ∧
      (singleValues ds = [] → after = tree) ∧
      (singleValues ds ≠ [] → ∀ name members, tree.get? name = some (.obj members) →
        ∃ members' : Members, after.get? name = some (.obj members') ∧
          ∀ key body, isOrderableKey key = true → Members.get? members key = some (.obj body) →
            HasOrder direction members' key ((singleValues ds).map Definition.orderName) ∧
              (NamesBodies members' (singleValues ds) ↔ AreNamesApart ds)) := by
  by_cases hNone : singleValues ds = []
  · have hValues : orderingValues ds = [] := by rw [orderingValues_eq, hNone, List.map_nil]
    exact ⟨tree, orderBy_of_nil hRead hValues _ _, fun _ => rfl, fun h => absurd hNone h⟩
  · have hValues : orderingValues ds ≠ [] := by
      rw [orderingValues_eq]
      simpa using hNone
    obtain ⟨after, hAfter, hNodes⟩ :=
      exists_orderNodes (orderEntries direction (orderingValues ds)) (nodup_valuesOf ds) hTree
    refine ⟨after, ?_, fun h => absurd h hNone, fun _ name members hGet => ?_⟩
    · rw [orderBy_of_ne_nil hRead hValues, hAfter]
    · obtain ⟨members', hMembers, hOrdered⟩ := hNodes name members hGet
      exact ⟨members', hMembers, fun key body hKey hBody => hOrdered.hasOrder hKey hBody⟩

/-- Sources, without an order. -/
def unorderedSources : Members :=
  [("src_ip", .obj [("terms", .obj [("field", .str "src_ip")])])]

theorem isTree_sources : IsTree unorderedSources := by
  intro n hn
  cases List.mem_singleton.mp hn
  refine ⟨_, rfl, ⟨by decide, ?_, ?_⟩⟩
  · intro key held _ hHeld
    rw [Members.get?_cons] at hHeld
    split at hHeld
    · exact ⟨_, (Option.some.inj hHeld).symm⟩
    · cases hHeld
  · intro held hHeld
    cases hHeld

/-- The mean and the greatest of the bytes of a bucket. -/
def bytesValues : List Definition :=
  [⟨"avg.bytes", .avg, "bytes", []⟩, ⟨"max.bytes", .max, "bytes", []⟩]

theorem orderBy_names_iff_bytes :
    IsTree unorderedSources ∧ readDefinitions (Json.texts ["avg:bytes", "max:bytes"]) = .ok bytesValues ∧
      ∃ after members : Members, orderBy (.obj unorderedSources) (.str "asc")
          (Json.texts ["avg:bytes", "max:bytes"]) = ⟨.obj after, none⟩ ∧
        after.get? "src_ip" = some (.obj members) ∧
        HasOrder (.str "asc") members "terms" ["avg_bytes", "max_bytes"] ∧
        NamesBodies members bytesValues := by
  have hRead : readDefinitions (Json.texts ["avg:bytes", "max:bytes"]) = .ok bytesValues := rfl
  obtain ⟨after, hAfter, -, hNodes⟩ := orderBy_names_iff isTree_sources hRead (.str "asc")
  obtain ⟨members, hMembers, hOrdered⟩ := hNodes (List.cons_ne_nil _ _) "src_ip" _ rfl
  obtain ⟨hOrder, hNames⟩ := hOrdered "terms" _ (by decide) rfl
  have hApart : AreNamesApart bytesValues := by
    have hNodup : ((singleValues bytesValues).map Definition.orderName).Nodup := by decide
    intro d hd e he hName
    rw [List.inj_on_of_nodup_map hNodup hd he hName]
  exact ⟨isTree_sources, hRead, after, members, hAfter, hMembers, hOrder, hNames.mpr hApart⟩

/-- Values of two fields that differ in a dot and an underscore get one name, and the entry of the
first names the value of the second. -/
theorem orderBy_confuses :
    ∃ (ds : List Definition) (after members : Members) (d : Definition),
      readDefinitions (Json.texts ["avg:bytes.in", "avg:bytes_in"]) = .ok ds ∧
      ((singleValues ds).map Definition.name).Nodup ∧
      orderBy (.obj unorderedSources) (.str "desc") (Json.texts ["avg:bytes.in", "avg:bytes_in"]) =
        ⟨.obj after, none⟩ ∧
      after.get? "src_ip" = some (.obj members) ∧
      HasOrder (.str "desc") members "terms" ["avg_bytes_in", "avg_bytes_in"] ∧
      (singleValues ds)[0]? = some d ∧ (within members).get? "avg_bytes_in" ≠ some d.body := by
  refine ⟨_, _, _, _, rfl, by decide, rfl, rfl, ⟨_, rfl, rfl⟩, rfl, ?_⟩
  intro h
  cases h

end LogQuery.Aggregation
