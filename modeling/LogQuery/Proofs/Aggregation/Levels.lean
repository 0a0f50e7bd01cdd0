import LogQuery.Aggregation.Tree
import LogQuery.Proofs.Json.Members
import LogQuery.Proofs.Result

/-! Trees of group-by levels. Levels are put around one another from the inside out, and each orders
only its own node, so the finished tree has one node for each level, nested as the levels are. -/

namespace LogQuery.Aggregation

/-- The method makes any number of buckets. -/
def Method.isMultiBucket (m : Method) : Bool :=
  m.isBucket && m != .missing

/-- A level to group by: the text of a definition, and perhaps texts of what to order by. -/
structure Level where
  text : Text
  orderedBy? : Option (List Text) := none

/-- As it is given. -/
def Level.toJson (level : Level) : Json :=
  match level.orderedBy? with
  | none => .str level.text
  | some texts => .arr [.str level.text, Json.texts texts]

/-- What a level says: the definition of its buckets, and those that it is ordered by. -/
structure Grouping where
  definition : Definition
  ordering : List Definition

namespace Grouping

def name (g : Grouping) : Text :=
  g.definition.name

/-- The single values within the buckets. Buckets that cannot be ordered have none. -/
def values (g : Grouping) : Members :=
  if g.definition.method.isOrderable then orderingValues g.ordering else []

def metrics (g : Grouping) : List Text :=
  g.values.map (·.1)

def names (g : Grouping) : List Text :=
  g.name :: g.metrics

end Grouping

/-- The level is a single definition of buckets, and its texts of what to order by can be read. -/
structure Level.Reads (level : Level) (g : Grouping) : Prop where
  text : Definition.readAll level.text = .ok [g.definition]
  multiBucket : g.definition.method.isMultiBucket = true
  ordering : ((level.orderedBy?.getD []).mapM Definition.readAll).map List.flatten = .ok g.ordering

/-! ## Nodes -/

/-- A node with the body of its method and a tree within. -/
def node (m : Method) (body tree : Members) : Members :=
  (m.name, .obj body) :: if tree.isEmpty then [] else [(treeKey, .obj tree)]

/-- The method of a node. -/
def method? (members : Members) : Option Method :=
  members.findSome? fun member => Method.named? member.1

/-- The tree within a node. -/
def within (members : Members) : Members :=
  match members.get? treeKey with
  | some (.obj tree) => tree
  | _ => []

theorem treeKey_ne_name (m : Method) : treeKey ≠ m.name := by
  cases m <;> decide

@[simp]
theorem method?_node (m : Method) (body tree : Members) : method? (node m body tree) = some m := by
  simp [method?, node, Method.named?_name]

@[simp]
theorem within_node (m : Method) (body tree : Members) : within (node m body tree) = tree := by
  cases tree <;>
    simp [within, node, Members.get?_cons, Members.get?_nil, treeKey_ne_name]

/-- The body that a definition gives its node. -/
def Definition.bodyMembers (d : Definition) : Members :=
  Members.update [("field", .str d.field)] d.params

theorem Definition.body_eq_node (d : Definition) :
    d.body = .obj (node d.method d.bodyMembers []) := rfl

/-- The tree has one node for each grouping, the outermost first. Within it are the node of the next
one and the values it is ordered by. -/
inductive Nests : List Grouping → Members → Prop
  | nil : Nests [] []
  | cons (g : Grouping) (gs : List Grouping) (body inner : Members) (hInner : Nests gs inner)
      (hMultiBucket : g.definition.method.isMultiBucket = true) :
      Nests (g :: gs) [(g.name, .obj (node g.definition.method body (inner ++ g.values)))]

theorem Nests.keys_sublist {gs : List Grouping} {tree : Members} (h : Nests gs tree) :
    (tree.map (·.1)).Sublist (gs.flatMap Grouping.names) := by
  cases h with
  | nil => exact List.Sublist.refl _
  | cons g gs body inner hInner hMultiBucket =>
      rw [List.flatMap_cons, Grouping.names]
      exact (List.nil_sublist _).cons_cons g.name

/-- The names within the node of a grouping are distinct. -/
theorem Nests.nodup_within {g : Grouping} {gs : List Grouping} {inner : Members}
    (h : Nests gs inner) (hNames : ((g :: gs).flatMap Grouping.names).Nodup) :
    ((inner ++ g.values).map (·.1)).Nodup := by
  rw [List.flatMap_cons] at hNames
  rw [List.map_append]
  refine List.Perm.nodup List.perm_append_comm ?_
  refine hNames.sublist (List.Sublist.append ?_ h.keys_sublist)
  exact List.sublist_cons_self _ _

/-! ## Putting a level around a tree -/

theorem levelParts_toJson (level : Level) :
    levelParts level.toJson = .ok (.str level.text, Json.texts (level.orderedBy?.getD [])) := by
  unfold Level.toJson
  cases level.orderedBy? <;> rfl

theorem readDefinitions_texts (texts : List Text) :
    readDefinitions (Json.texts texts) = (texts.mapM Definition.readAll).map List.flatten := by
  have hTexts : (texts.map Json.str).mapM (fun text => do Definition.readAll (← text.asText)) =
      texts.mapM Definition.readAll := by
    rw [List.mapM_map]
    rfl
  simp only [readDefinitions, Json.texts, Json.parts]
  show (do
    let definitions ← (texts.map Json.str).mapM fun text => do Definition.readAll (← text.asText)
    return definitions.flatten : Except Failure (List Definition)) = _
  rw [hTexts]
  cases texts.mapM Definition.readAll <;> rfl

theorem isOrderableKey_name (m : Method) : isOrderableKey m.name = m.isOrderable := by
  rw [isOrderableKey, Method.named?_name]

theorem orderNode_of_not_orderable {m : Method} (h : m.isOrderable = false) (order : Json)
    (values body tree : Members) :
    orderNode order values (.obj (node m body tree)) = ⟨.obj (node m body tree), none⟩ := by
  have hTreeKey : isOrderableKey treeKey = false := by decide
  cases tree <;>
    simp [orderNode, orderKeys, node, isOrderableKey_name, h, hTreeKey]

/-! ## The tree of all levels -/

theorem nestLevels_append (direction tree : Json) (levels : List Json) (level : Json) :
    nestLevels direction (levels ++ [level]) tree =
      nestLevels direction levels tree >>= addLevel direction level := by
  induction levels generalizing tree with
  | nil =>
      show addLevel direction level tree >>= pure = pure tree >>= addLevel direction level
      rw [bind_pure, pure_bind]
  | cons first levels ih =>
      simp only [List.cons_append, nestLevels, ih, bind_assoc]

end LogQuery.Aggregation
