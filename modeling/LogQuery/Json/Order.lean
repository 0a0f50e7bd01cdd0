import LogQuery.Json.Access

/-!
Order of documents. Numbers, texts and lists have an order of their own; two lists are ordered by
the first items that differ. Documents of different kinds have no order.
-/

namespace LogQuery.Json

/-- Both are numbers, and they denote the same one or none at all. -/
def sameNumeral (a b : Json) : Bool :=
  match a.numeral?, b.numeral? with
  | some m, some n => m.same n
  | _, _ => false

mutual

/-- Both are the same document, or the same key. Numbers count by what they denote, and the order of
an object's members does not matter. -/
def same : Json → Json → Bool
  | .null, other => other.isNull
  | .bool b, other => sameNumeral (.bool b) other
  | .int n, other => sameNumeral (.int n) other
  | .float x, other => sameNumeral (.float x) other
  | .str s, other => other.isText s
  | .arr items, .arr others => sameItems items others
  | .arr _, _ => false
  | .obj members, .obj others =>
    members.length == others.length && sameMembers members others
  | .obj _, _ => false

/-- Both lists have the same items in order. -/
def sameItems : List Json → List Json → Bool
  | [], [] => true
  | v :: vs, w :: ws => same v w && sameItems vs ws
  | _, _ => false

/-- Each member stands among the others. -/
def sameMembers : List (Text × Json) → Members → Bool
  | [], _ => true
  | m :: ms, others => sameMember m others && sameMembers ms others

def sameMember : Text × Json → Members → Bool
  | (key, value), others =>
    match Members.get? others key with
    | some other => same value other
    | none => false

end

mutual

/-- The first comes before the second. -/
def less : Json → Json → Except Failure Bool
  | .str s, .str t => .ok (decide (s < t))
  | .arr items, .arr others => lessItems items others
  | a, b => do return (← a.asNumeral).lt (← b.asNumeral)

/-- The first list comes before the second: it lacks items that the second has, or the first items
that differ are in this order. -/
def lessItems : List Json → List Json → Except Failure Bool
  | _, [] => .ok false
  | [], _ :: _ => .ok true
  | v :: vs, w :: ws => if same v w then lessItems vs ws else less v w

end

/-- Put a value under a key: a known key keeps its place, a new one comes last. -/
def setEntry (key value : Json) : List (Json × Json) → List (Json × Json)
  | [] => [(key, value)]
  | entry :: entries =>
    if entry.1.same key then (entry.1, value) :: entries
    else entry :: setEntry key value entries

/-- Entries with each key once. -/
def distinctEntries (entries : List (Json × Json)) : List (Json × Json) :=
  entries.foldl (fun done e => setEntry e.1 e.2 done) []

theorem less_int (m n : Int) : less (.int m) (.int n) = .ok (decide (m < n)) := by
  simp [less, asNumeral, numeral?, Numeral.lt, Numeral.position?, Numeral.Position.lt, bind,
    Except.bind, pure, Except.pure]

/-- A value brought between two bounds: the value itself unless it lies outside. -/
def clamp (value least most : Json) : Except Failure Json := do
  let upper := if ← most.less value then most else value
  return if ← least.less upper then upper else least

end LogQuery.Json
