import LogQuery.Json.Access

/-!
What the mappings of indices tell of fields. The properties of objects are listed under dotted
names, and so are the further forms of a field. Of several indices with one field the first counts.
-/

namespace LogQuery.Index.Mapping

/-- Note something under a name, unless there is something already. -/
def note (known : Members) (name : Text) (about : Json) : Members :=
  if known.has name then known else known.set name about

/-- What is noted of a field. -/
def about (type : Json) (index : Text) : Json :=
  .obj [("type", type), ("index", .str index)]

/-- Note the further forms of a field. -/
def noteForms (index field : Text) (known : Members) : Members → Except Failure Members
  | [] => .ok known
  | (name, form) :: forms => do
    let type ← form.memberOr "type" .null
    noteForms index field (note known (field ++ "." ++ name) (about type index)) forms

def noteField (index field : Text) (known property : Members) : Except Failure Members := do
  let type := (property.get? "type").getD (.str "object")
  let forms ← ((property.get? "fields").getD (.obj [])).asMembers
  noteForms index field (note known field (about type index)) forms

/-- The property is a list of documents, which is a field itself. -/
def isNested (property : Members) : Bool :=
  (property.getD "type").isText "nested"

/-- The failure on a property that is no object. -/
def noProperty (property : Json) : Failure :=
  match property.holds "properties" with
  | .ok true | .error _ => .wrongType
  | .ok false => .noMember

mutual

/-- Note the fields among some properties; `front` stands before their names. -/
def walk (index front : Text) (known : Members) : Json → Except Failure Members
  | .obj properties => walkAll index front known properties
  | _ => .error .noMember

/-- Note the fields of a list of properties. -/
def walkAll (index front : Text) (known : Members) :
    List (Text × Json) → Except Failure Members
  | [] => .ok known
  | property :: properties => do
    let known ← walkOne index front known property
    walkAll index front known properties

/-- Note the fields of one property. -/
def walkOne (index front : Text) (known : Members) : Text × Json → Except Failure Members
  | (name, .obj property) =>
    match walkInner index (front ++ name ++ ".") known property with
    | none => noteField index (front ++ name) known property
    | some walked => do
      let known ← walked
      if isNested property then noteField index (front ++ name) known property else return known
  | (_, property) => .error (noProperty property)

/-- Note the fields within a property, if it has properties itself. -/
def walkInner (index front : Text) (known : Members) :
    List (Text × Json) → Option (Except Failure Members)
  | [] => none
  | member :: members =>
    match walkMember index front known member with
    | some walked => some walked
    | none => walkInner index front known members

/-- Note the fields within a property, if this member of it holds its properties. -/
def walkMember (index front : Text) (known : Members) :
    Text × Json → Option (Except Failure Members)
  | (key, value) => if key == "properties" then some (walk index front known value) else none

end

def noteIndex (known : Members) (index : Text × Json) : Except Failure Members := do
  let mappings ← index.2.memberOr "mappings" (.obj [])
  walk index.1 "" known (← mappings.memberOr "properties" (.obj []))

def noteIndices (known : Members) : Members → Except Failure Members
  | [] => .ok known
  | index :: indices => do noteIndices (← noteIndex known index) indices

/-- The fields of all indices of an answer. -/
def fieldsMeta (answer : Json) : Except Failure Members := do
  noteIndices [] (← answer.asMembers)

end LogQuery.Index.Mapping
