import LogQuery.Failure

/-!
Taking documents apart where their kind is not known beforehand. A value of the wrong kind is a
failure, and which one depends on what was asked of it.
-/

namespace LogQuery.Json

/-- The value under a key of what should be an object. -/
def member? (value : Json) (key : Text) : Except Failure (Option Json) :=
  match value with
  | .obj members => .ok (Members.get? members key)
  | _ => .error .noMember

/-- The value under a key of what should be an object, or another one if there is none. -/
def memberOr (value : Json) (key : Text) (other : Json) : Except Failure Json := do
  return (← value.member? key).getD other

/-- The members of what should be an object. -/
def asMembers (value : Json) : Except Failure Members :=
  match value with
  | .obj members => .ok members
  | _ => .error .noMember

/-- The parts of a value in order: items, code points or keys. -/
def parts : Json → Except Failure (List Json)
  | .arr items => .ok items
  | .str s => .ok (s.map fun c => .str [c])
  | .obj members => .ok (members.map fun m => .str m.1)
  | _ => .error .wrongType

/-- Whether a text is a key of an object, an item of a list or a piece of a text. -/
def holds (value : Json) (key : Text) : Except Failure Bool :=
  match value with
  | .obj members => .ok (Members.has members key)
  | .arr items => .ok (items.any (·.isText key))
  | .str s => .ok (Text.occursIn key s)
  | _ => .error .wrongType

def asText (value : Json) : Except Failure Text :=
  match value with
  | .str s => .ok s
  | _ => .error .noMember

def readInteger (s : Text) : Except Failure Int :=
  match Integer.read s with
  | .ok n => .ok n
  | .error .malformed => .error (.noInteger s)
  | .error (.tooLong digits) => .error (.tooManyDigits digits)

/-- The integer that a value stands for: a text is read and a fraction is cut off. -/
def asInteger : Json → Except Failure Int
  | .bool b => .ok (if b then 1 else 0)
  | .int n => .ok n
  | .float x =>
    match Binary64.view x with
    | .finite p => .ok p.truncate
    | .infinite _ => .error .overflow
    | .nan => .error .noNumber
  | .str s => readInteger s
  | _ => .error .wrongType

def asNumeral (value : Json) : Except Failure Numeral :=
  match value.numeral? with
  | some n => .ok n
  | none => .error .wrongType

/-- The number one above the one that a value should be. -/
def succ (value : Json) : Except Failure Json := do
  match ← value.asNumeral with
  | .int n => return .int (n + 1)
  | .float x => return .float (x + 1)

theorem succ_int (n : Int) : (int n).succ = .ok (.int (n + 1)) := rfl

/-- The two parts that a value should have. -/
def asPair (value : Json) : Except Failure (Json × Json) := do
  match ← value.parts with
  | [a, b] => return (a, b)
  | [] => .error (.tooFewParts 0)
  | [_] => .error (.tooFewParts 1)
  | _ => .error .tooManyParts

/-- The key that a value becomes: a list or an object cannot be one. -/
def asKey : Json → Except Failure Text
  | .str s => .ok s
  | .null => .ok "null"
  | .bool b => .ok (if b then "true" else "false")
  | .int n => .ok (Integer.text n)
  | .float x =>
    match Binary64.view x with
    | .finite _ => .ok (Decimal.text x)
    | .infinite negative => .ok (if negative then "-Infinity" else "Infinity")
    | .nan => .ok "NaN"
  | .arr _ | .obj _ => .error .wrongType

/-- A member from one entry of a list of pairs, given its position. -/
def entry (position : Nat) (value : Json) : Except Failure (Json × Json) := do
  match ← value.parts with
  | [key, held] =>
    let _ ← key.asKey
    return (key, held)
  | other => .error (.notAPair position other.length)

/-- The entries of a list of pairs from a position on. -/
def entriesFrom : Nat → List Json → Except Failure (List (Json × Json))
  | _, [] => .ok []
  | position, value :: values => do
    let first ← entry position value
    let rest ← entriesFrom (position + 1) values
    return first :: rest

/-- The keys and values of an object, or of a list of pairs. -/
def entries : Json → Except Failure (List (Json × Json))
  | .obj members => .ok (members.map fun m => (.str m.1, m.2))
  | value => do entriesFrom 0 (← value.parts)

end LogQuery.Json
