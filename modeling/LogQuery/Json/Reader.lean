import LogQuery.Json.Basic

/-!
Strict reading of JSON. Beyond the standard, the three names of the values that are not finite
numbers are read, and of two members with one key the last value counts, at the place of the first.
Lists and objects are read up to a depth; the one that lies deeper ends the reading where it opens.
-/

namespace LogQuery.Json

/-- Why a text is no document. -/
inductive ReadError where
  | malformed
  /-- It holds an integer of more digits than are read. -/
  | tooLong (digits : Nat)
  /-- Its lists and objects lie deeper in one another than is read. -/
  | tooNested
deriving DecidableEq, Repr

/-- How many lists and objects may lie in one another. -/
def maxNesting : Nat := 985

/-- The blanks between the parts of a document. -/
def isSpace (c : CodePoint) : Bool :=
  c == ' ' || c == '\t' || c == '\n' || c == '\r'

def skip (cs : Text) : Text :=
  cs.dropWhile isSpace

/-- The code unit that four hexadecimal digits stand for. -/
def codeUnit? (a b c d : CodePoint) : Option Nat := do
  let a ← Text.hexValue? a
  let b ← Text.hexValue? b
  let c ← Text.hexValue? c
  let d ← Text.hexValue? d
  return ((a * 16 + b) * 16 + c) * 16 + d

/-- The text so far with the first half of a pair that found no second one. -/
def settle (high : Option Nat) (done : Text) : Text :=
  match high with
  | some h => .ofNat h :: done
  | none => done

/-- The text so far with a code unit, and the first half of a pair that waits for its second. -/
def addUnit (high : Option Nat) (n : Nat) (done : Text) : Text × Option Nat :=
  if CodePoint.isHigh n then (settle high done, some n)
  else if CodePoint.isLow n then
    match high with
    | some h => (CodePoint.join h n :: done, none)
    | none => (CodePoint.ofNat n :: done, none)
  else (CodePoint.ofNat n :: settle high done, none)

/-- What a backslash and the code point after it stand for. -/
def escape? : CodePoint → Option CodePoint
  | .char '"' => some '"'
  | .char '\\' => some '\\'
  | .char '/' => some '/'
  | .char 'b' => some '\x08'
  | .char 'f' => some '\x0c'
  | .char 'n' => some '\n'
  | .char 'r' => some '\r'
  | .char 't' => some '\t'
  | _ => none

/-- Read a text after its opening quote; `done` is what was read, in reverse, and `high` the first
half of a pair that waits for its second. -/
def readText (done : Text) (high : Option Nat) :
    Text → Except ReadError (Text × Text)
  | [] => .error .malformed
  | .char '"' :: cs => .ok ((settle high done).reverse, cs)
  | .char '\\' :: .char 'u' :: a :: b :: c :: d :: cs =>
    match codeUnit? a b c d with
    | none => .error .malformed
    | some n =>
      let (done, high) := addUnit high n done
      readText done high cs
  | .char '\\' :: e :: cs =>
    match escape? e with
    | some c => readText (c :: settle high done) none cs
    | none => .error .malformed
  | c :: cs =>
    if c == '\\' || decide (c.toNat < 0x20) then .error .malformed
    else readText (c :: settle high done) none cs

/-- Split off the digits at the front. -/
def digits (cs : Text) : Text × Text :=
  (cs.takeWhile CodePoint.isDigit, cs.dropWhile CodePoint.isDigit)

/-- The fraction of a number: a point and at least one digit. -/
def readFraction (cs : Text) : Option Text × Text :=
  match cs with
  | .char '.' :: rest =>
    match digits rest with
    | ([], _) => (none, cs)
    | (ds, rest) => (some ds, rest)
  | _ => (none, cs)

/-- The exponent of a number: a letter, perhaps a sign, and at least one digit. -/
def readExponent (cs : Text) : Option Int × Text :=
  match cs with
  | e :: rest =>
    if e == 'e' || e == 'E' then
      let (negative, rest) : Bool × Text :=
        match rest with
        | .char '-' :: rest => (true, rest)
        | .char '+' :: rest => (false, rest)
        | _ => (false, rest)
      match digits rest with
      | ([], _) => (none, cs)
      | (ds, rest) =>
        let n : Int := Integer.ofDigits ds
        (some (if negative then -n else n), rest)
    else (none, cs)
  | [] => (none, [])

/-- The integer part of a number: a zero alone, or digits that start with another one. -/
def readWhole (cs : Text) : Option (Text × Text) :=
  match cs with
  | .char '0' :: rest => some (['0'], rest)
  | _ =>
    match digits cs with
    | ([], _) => none
    | parts => some parts

/-- Read a number after its sign. -/
def readNumber (negative : Bool) (cs : Text) : Except ReadError (Json × Text) :=
  match readWhole cs with
  | none => .error .malformed
  | some (whole, rest) =>
    let (fraction, rest) := readFraction rest
    let (exponent, rest) := readExponent rest
    if fraction.isNone && exponent.isNone then
      if Integer.maxDigits < whole.length then .error (.tooLong whole.length)
      else
        let n : Int := Integer.ofDigits whole
        .ok (.int (if negative then -n else n), rest)
    else
      let places := fraction.getD []
      .ok (.float (Decimal.toFloat negative (Integer.ofDigits (whole ++ places))
        (exponent.getD 0 - places.length)), rest)

def dropWord? (word : Text) (cs : Text) : Option Text :=
  if word.isPrefixOf cs then some (cs.drop word.length) else none

/-- The words that are values of their own. -/
def words : List (Text × Json) :=
  [("null", .null), ("true", .bool true), ("false", .bool false), ("NaN", .float Binary64.nan),
    ("Infinity", .float Binary64.infinity), ("-Infinity", .float (-Binary64.infinity))]

/-- Read one of the words. -/
def readWord? (cs : Text) : Option (Json × Text) :=
  words.findSome? fun (word, value) => (dropWord? word cs).map fun rest => (value, rest)

mutual

/-- Read a value that starts here. The fuel bounds the steps still to be made, at most two for a
character, and `room` how many lists and objects may still open within those that are open. -/
def readValue : Nat → Nat → Text → Except ReadError (Json × Text)
  | 0, _, _ => .error .malformed
  | fuel + 1, room, cs =>
    match readWord? cs with
    | some done => .ok done
    | none =>
      match cs with
      | .char '"' :: rest => do
        let (s, rest) ← readText [] none rest
        return (.str s, rest)
      | .char '\x7b' :: rest =>
        match room, skip rest with
        | 0, _ => .error .tooNested
        | _ + 1, .char '\x7d' :: rest => .ok (.obj [], rest)
        | room + 1, rest => readMembers fuel room [] rest
      | .char '[' :: rest =>
        match room, skip rest with
        | 0, _ => .error .tooNested
        | _ + 1, .char ']' :: rest => .ok (.arr [], rest)
        | room + 1, rest => readItems fuel room [] rest
      | .char '-' :: rest => readNumber true rest
      | _ => readNumber false cs

/-- Read the items of a list from the next one on; `done` is in reverse. -/
def readItems : Nat → Nat → List Json → Text → Except ReadError (Json × Text)
  | 0, _, _, _ => .error .malformed
  | fuel + 1, room, done, cs => do
    let (value, rest) ← readValue fuel room cs
    match skip rest with
    | .char ']' :: rest => return (.arr (value :: done).reverse, rest)
    | .char ',' :: rest => readItems fuel room (value :: done) (skip rest)
    | _ => .error .malformed

/-- Read the members of an object from the next one on. -/
def readMembers : Nat → Nat → Members → Text → Except ReadError (Json × Text)
  | 0, _, _, _ => .error .malformed
  | fuel + 1, room, done, cs =>
    match cs with
    | .char '"' :: rest => do
      let (key, rest) ← readText [] none rest
      match skip rest with
      | .char ':' :: rest =>
        let (value, rest) ← readValue fuel room (skip rest)
        match skip rest with
        | .char '\x7d' :: rest => return (.obj (done.set key value), rest)
        | .char ',' :: rest => readMembers fuel room (done.set key value) (skip rest)
        | _ => .error .malformed
      | _ => .error .malformed
    | _ => .error .malformed

end

/-- Read a whole text as one document. -/
def read (cs : Text) : Except ReadError Json := do
  let (value, rest) ← readValue (2 * cs.length + 2) maxNesting (skip cs)
  if (skip rest).isEmpty then return value else .error .malformed

end LogQuery.Json
