import LogQuery.Aggregation.Definition
import LogQuery.Change

/-!
Trees of aggregations: an object of named nodes, each an object with the body of its type and, under
`aggregations`, the nodes within it. Trees are built from texts, put into one another, and ordered
by single values.
-/

namespace LogQuery.Aggregation

/-- The key that the nodes within a node stand under. -/
def treeKey : Text := "aggregations"

/-- The tree of a text; of two definitions with one name the later replaces the earlier. -/
def expand (text : Text) : Except Failure Members := do
  return (← Definition.readAll text).foldl (fun tree d => tree.set d.name d.body) []

/-! ## Nesting -/

/-- Put a tree under a node. -/
def nestUnder (inner : Json) (node : Text × Json) : Except Failure (Text × Json) :=
  match node with
  | (name, .obj members) => .ok (name, .obj (Members.set members treeKey inner))
  | _ => .error .wrongType

/-- Put a tree under every node of an outer one, which a text may stand for. -/
def wrap (outer inner : Json) : Except Failure Json := do
  let wrapper ←
    match outer with
    | .str text => Json.obj <$> expand text
    | _ => .ok outer
  if inner.truthy then
    return .obj (← (← wrapper.asMembers).mapM (nestUnder inner))
  else return wrapper

/-! ## Ordering -/

/-- The single values to order by, in the order of their definitions: a name and a body each. Dots
in a name would address a value inside another, so they become underscores. -/
def orderingValues (definitions : List Definition) : List (Text × Json) :=
  (definitions.filter (·.method.isSingleValue)).map fun d =>
    (Text.replace '.' ['_'] d.name, d.body)

/-- The entries of an order: each value in a direction, and last the number of documents. -/
def orderEntries (direction : Json) (values : List (Text × Json)) : Json :=
  .arr (values.map (fun v => .obj [(v.1, direction)]) ++ [.obj [("_count", .str "desc")]])

/-- The key is a type with buckets that can be ordered. -/
def isOrderableKey (key : Text) : Bool :=
  match Method.named? key with
  | some method => method.isOrderable
  | none => false

/-- Give every orderable type among the keys of a node an order, and the node the values. -/
def orderKeys (order : Json) (values : Members) : List Text → Members → Change Members
  | [], node => ⟨node, none⟩
  | key :: keys, node =>
    if isOrderableKey key then
      match node.getD key with
      | .obj body =>
        let node := node.set key (.obj (Members.set body "order" order))
        match node.get? treeKey with
        | none => orderKeys order values keys (node.set treeKey (.obj values))
        | some (.obj inner) =>
          orderKeys order values keys (node.set treeKey (.obj (Members.update inner values)))
        | some _ => ⟨node, some .noMember⟩
      | _ => ⟨node, some .wrongType⟩
    else orderKeys order values keys node

/-- An item in place of a node's key that stops the change. -/
def stopsOrdering : Json → Bool
  | .str key => isOrderableKey key
  | .arr items => !items.isEmpty
  | .obj members => !members.isEmpty
  | _ => false

/-- Order the orderable types of a node. -/
def orderNode (order : Json) (values : Members) (node : Json) : Change Json :=
  match node with
  | .obj members =>
    let change := orderKeys order values (members.map (·.1)) members
    ⟨.obj change.reached, change.failure⟩
  | .arr items => ⟨node, if items.any stopsOrdering then some .wrongType else none⟩
  | .str _ => ⟨node, none⟩
  | _ => ⟨node, some .wrongType⟩

/-- Order node after node up to the first failure. -/
def orderNodes (order : Json) (values : Members) : Members → Change Members
  | [] => ⟨[], none⟩
  | (name, node) :: nodes =>
    let change := orderNode order values node
    match change.failure with
    | some failure => ⟨(name, change.reached) :: nodes, some failure⟩
    | none =>
      let rest := orderNodes order values nodes
      ⟨(name, change.reached) :: rest.reached, rest.failure⟩

def readDefinitions (texts : Json) : Except Failure (List Definition) := do
  let definitions ← (← texts.parts).mapM fun text => do Definition.readAll (← text.asText)
  return definitions.flatten

/-- Order the nodes at the top of a tree by the single values among some definitions. Without one
the tree stays. Each value becomes a node within every node that it orders. -/
def orderBy (tree direction definitions : Json) : Change Json :=
  match readDefinitions definitions with
  | .error failure => ⟨tree, some failure⟩
  | .ok definitions =>
    match orderingValues definitions with
    | [] => ⟨tree, none⟩
    | values =>
      match tree with
      | .obj nodes =>
        let change := orderNodes (orderEntries direction values) (Members.update [] values) nodes
        ⟨.obj change.reached, change.failure⟩
      | _ => ⟨tree, some .noMember⟩

/-! ## Levels -/

/-- The text of a level and the definitions to order it by. -/
def levelParts (level : Json) : Except Failure (Json × Json) :=
  match level with
  | .str _ => .ok (level, .arr [])
  | _ => level.asPair

/-- Put a level around a tree. -/
def addLevel (direction level tree : Json) : Except Failure Json := do
  let (outer, definitions) ← levelParts level
  let tree ← wrap outer tree
  if definitions.truthy then (orderBy tree direction definitions).result else return tree

/-- The tree of some levels, the innermost first. -/
def nestLevels (direction : Json) : List Json → Json → Except Failure Json
  | [], tree => .ok tree
  | level :: levels, tree => do nestLevels direction levels (← addLevel direction level tree)

/-- The tree of some levels, the outermost first. -/
def groupBy (levels direction : Json) : Except Failure Json := do
  nestLevels direction (← levels.parts).reverse (.obj [])

end LogQuery.Aggregation
