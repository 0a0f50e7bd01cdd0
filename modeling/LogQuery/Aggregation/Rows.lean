import LogQuery.Json.Access
import LogQuery.Text.Order

/-!
Rows of an aggregation result. A result is a tree of nodes; a child of a node either has buckets,
which are nodes again, or is a computed value, which gives columns. Every path from the root that
picks a child with buckets and one of its buckets, as long as there is one, is a row: the columns of
the nodes on it, in order.
-/

namespace LogQuery.Aggregation

/-- Columns with their values, in order. -/
abbrev Row := List (Text × Json)

namespace Rows

/-- Members that tell nothing about the documents. -/
def noiseKeys : List Text := ["doc_count_error_upper_bound", "sum_other_doc_count"]

/-- Members of a bucket that are no child of it. -/
def bucketKeys : List Text := ["key", "key_as_string", "doc_count"]

def isChildKey (key : Text) : Bool :=
  !noiseKeys.contains key && !bucketKeys.contains key

/-- The columns of a computed value: its single value, those of its values that count as given, or
its members that are neither lists nor objects. -/
def valueColumns (name : Text) (value : Members) : Row :=
  match value.get? "value" with
  | some single => [(name, single)]
  | none =>
    match value.getD "values" with
    | .obj values => (values.filter (·.2.truthy)).map fun v => (name ++ "." ++ v.1, v.2)
    | _ =>
      (value.filter fun v => match v.2 with
        | .arr _ | .obj _ => false
        | _ => true).map fun v => (name ++ "." ++ v.1, v.2)

/-- The columns of a bucket itself: its key and its number of documents, if it has both. A bucket
without a key of its own has the one it is kept under. -/
def ownColumns (name : Text) (keptUnder : Option Json) (node : Members) : Row :=
  let key := (node.get? "key").orElse fun _ => keptUnder
  match key, node.get? "doc_count" with
  | some key, some count =>
    [(name, (node.get? "key_as_string").getD key), (name ++ ".hits", count)]
  | _, _ => []

inductive Child where
  /-- A computed value with its columns. -/
  | columns (row : Row)
  /-- A child with buckets. They may be no collection at all; otherwise there are the rows of the
  buckets, one of no columns if there is no bucket. -/
  | buckets (rows : Except Failure (Except Failure (List Row)))

def Child.row : Child → Row
  | .columns row => row
  | .buckets _ => []

/-- The buckets of the children that have some. -/
def branches (children : List (Text × Child)) : List (Except Failure (Except Failure (List Row))) :=
  children.filterMap fun child => match child.2 with
    | .columns _ => none
    | .buckets rows => some rows

/-- The rows of a node from its own columns and its children: the computed values come first, and
then each row of each child with buckets, the children in the order of their names. -/
def gather (own : Row) (children : List (Text × Child)) : Except Failure (List Row) := do
  let children := Text.sortBy (fun a b => Text.before a.1 b.1) children
  let front := own ++ children.flatMap (·.2.row)
  match ← (branches children).mapM id with
  | [] => return [front]
  | below =>
    let rows ← below.mapM id
    return rows.flatten.map (front ++ ·)

mutual

/-- The rows of a bucket of a child, perhaps kept under a key. -/
def ofBucket (name : Text) (keptUnder : Option Json) : Json → Except Failure (List Row)
  | .obj node => gather (ownColumns name keptUnder node) (childrenOf node)
  | _ => .error .noMember

/-- The children among the members of a node. -/
def childrenOf : List (Text × Json) → List (Text × Child)
  | [] => []
  | member :: members => childOf member ++ childrenOf members

/-- The child that a member of a node is, if it is one. -/
def childOf : Text × Json → List (Text × Child)
  | (name, .obj value) =>
    if isChildKey name then
      match bucketsIn name value with
      | some rows => [(name, .buckets rows)]
      | none => [(name, .columns (valueColumns name value))]
    else []
  | _ => []

/-- The buckets among the members of a child. -/
def bucketsIn (name : Text) :
    List (Text × Json) → Option (Except Failure (Except Failure (List Row)))
  | [] => none
  | member :: members =>
    match bucketsAt name member with
    | some rows => some rows
    | none => bucketsIn name members

/-- The buckets that a member of a child holds, if it is the one that does. -/
def bucketsAt (name : Text) :
    Text × Json → Option (Except Failure (Except Failure (List Row)))
  | (key, value) => if key == "buckets" then some (ofBuckets name value) else none

def ofBuckets (name : Text) : Json → Except Failure (Except Failure (List Row))
  | .arr buckets => .ok (if buckets.isEmpty then .ok [[]] else ofList name buckets)
  | .obj buckets =>
    if buckets.all fun bucket => match bucket.2 with
      | .obj _ => true
      | _ => false
    then .ok (if buckets.isEmpty then .ok [[]] else ofKeyed name buckets)
    else .error .wrongType
  | .str s => .ok (if s == "" then .ok [[]] else .error .noMember)
  | .null => .ok (.ok [[]])
  | .bool b => if b then .error .wrongType else .ok (.ok [[]])
  | .int n => if n != 0 then .error .wrongType else .ok (.ok [[]])
  | .float x => if x != 0 then .error .wrongType else .ok (.ok [[]])

def ofList (name : Text) : List Json → Except Failure (List Row)
  | [] => .ok []
  | bucket :: buckets => do
    let first ← ofBucket name none bucket
    let rest ← ofList name buckets
    return first ++ rest

def ofKeyed (name : Text) : List (Text × Json) → Except Failure (List Row)
  | [] => .ok []
  | bucket :: buckets => do
    let first ← ofEntry name bucket
    let rest ← ofKeyed name buckets
    return first ++ rest

/-- The rows of one bucket kept under a key. -/
def ofEntry (name : Text) : Text × Json → Except Failure (List Row)
  | (key, bucket) => ofBucket name (some (.str key)) bucket

end

/-- The rows of the root of a result. -/
def ofRoot : Json → Except Failure (List Row)
  | .obj node => gather [] (childrenOf node)
  | _ => .error .noMember

end Rows

/-- The rows of a result, each after the columns given; nothing at all has no rows. -/
def rows (result : Json) (front : Row) : Except Failure (List Row) :=
  if result.truthy then (·.map (front ++ ·)) <$> Rows.ofRoot result else .ok []

/-- A row as an object: a repeated column keeps its first place and its last value. -/
def Row.toMembers (row : Row) : Members :=
  Members.update [] row

/-- The values of a row, with or without the numbers of documents. -/
def Row.values (row : Row) (withHits : Bool) : List Json :=
  (row.filter fun column => withHits || !(".hits" : Text).isSuffixOf column.1).map (·.2)

end LogQuery.Aggregation
