import LogQuery.Number.Numeral

/-!
JSON documents. Objects keep their members in the order they were given, and integers and
floating-point numbers are different values.
-/

namespace LogQuery

inductive Json where
  | null
  | bool (b : Bool)
  | int (n : Int)
  | float (x : Float)
  | str (s : Text)
  | arr (items : List Json)
  | obj (members : List (Text × Json))
deriving Inhabited

/-- The members of an object in order. -/
abbrev Members := List (Text × Json)

namespace Members

def get? (members : Members) (key : Text) : Option Json :=
  members.lookup key

/-- The value under a key, `null` if there is none. -/
def getD (members : Members) (key : Text) : Json :=
  (members.get? key).getD .null

/-- Whether there is a value under a key. -/
def has (members : Members) (key : Text) : Bool :=
  (members.get? key).isSome

/-- Put a value under a key: a known key keeps its place, a new one comes last. -/
def set (members : Members) (key : Text) (value : Json) : Members :=
  match members with
  | [] => [(key, value)]
  | (k, v) :: rest => if k = key then (k, value) :: rest else (k, v) :: set rest key value

def erase (members : Members) (key : Text) : Members :=
  members.filter (·.1 != key)

/-- Put every member of the second list into the first, in order. -/
def update (members more : Members) : Members :=
  more.foldl (fun ms m => ms.set m.1 m.2) members

/-- The members for which a value other than `null` is given. -/
def present (members : Members) : Members :=
  members.filter fun m => match m.2 with
    | .null => false
    | _ => true

theorem get?_nil (key : Text) : get? [] key = none := rfl

theorem get?_cons (k : Text) (v : Json) (rest : Members) (key : Text) :
    get? ((k, v) :: rest) key = if key = k then some v else get? rest key := by
  rw [get?, List.lookup_cons]
  by_cases h : key = k
  · simp [h]
  · have h' : (key == k) = false := by simpa using h
    rw [h', if_neg h]
    rfl

theorem get?_set_self (members : Members) (key : Text) (value : Json) :
    (members.set key value).get? key = some value := by
  induction members with
  | nil => simp [set, get?_cons]
  | cons m rest ih =>
    obtain ⟨k, v⟩ := m
    by_cases h : k = key
    · simp [set, h, get?_cons]
    · simp [set, h, get?_cons, ih, Ne.symm h]

theorem get?_set_of_ne {members : Members} {key other : Text} {value : Json}
    (h : other ≠ key) : (members.set key value).get? other = members.get? other := by
  induction members with
  | nil => simp [set, get?_cons, get?_nil, h]
  | cons m rest ih =>
    obtain ⟨k, v⟩ := m
    by_cases hk : k = key
    · subst hk
      simp [set, get?_cons, h]
    · simp [set, hk, get?_cons, ih]

end Members

namespace Json

/-- What counts as given: all but `null`, `false`, zero and what is empty. -/
def truthy : Json → Bool
  | .null => false
  | .bool b => b
  | .int n => n != 0
  | .float x => x != 0
  | .str s => s != ""
  | .arr items => !items.isEmpty
  | .obj members => !members.isEmpty

/-- The value if it counts as given, else the other one. -/
def orElse (value other : Json) : Json :=
  if value.truthy then value else other

def isNull : Json → Bool
  | .null => true
  | _ => false

/-- Whether the value is neither a list nor an object. -/
def isScalar : Json → Bool
  | .arr _ | .obj _ => false
  | _ => true

/-- The value as a number; `true` and `false` count as one and zero. -/
def numeral? : Json → Option Numeral
  | .bool b => some (.int (if b then 1 else 0))
  | .int n => some (.int n)
  | .float x => some (.float x)
  | _ => none

def ofNumeral : Numeral → Json
  | .int n => .int n
  | .float x => .float x

def isText (value : Json) (s : Text) : Bool :=
  match value with
  | .str t => t == s
  | _ => false

def texts (ss : List Text) : Json :=
  .arr (ss.map .str)

end Json

end LogQuery
