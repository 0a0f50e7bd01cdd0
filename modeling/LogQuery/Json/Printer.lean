import LogQuery.Json.Basic
import LogQuery.Text.Quoted

/-!
Writing of JSON in ASCII, which has two escapes for a character above the first plane. Numbers that
are not finite are written as an object with the one key `$float`.
-/

namespace LogQuery.Json

/-- A code unit as an escape. -/
def unitEscape (n : Nat) : Text :=
  '\\' :: 'u' :: Text.hexText 4 n

def printOne (c : CodePoint) : Text :=
  if c == '"' || c == '\\' then ['\\', c]
  else if decide (0x20 ≤ c.toNat) && decide (c.toNat < 0x7F) then [c]
  else c.units.flatMap unitEscape

def printText (s : Text) : Text :=
  "\"" ++ s.flatMap printOne ++ "\""

def printFloat (x : Float) : Text :=
  match Binary64.view x with
  | .finite _ => Decimal.text x
  | _ => "\x7b\"$float\": " ++ printText (Decimal.text x) ++ "\x7d"

mutual

/-- The document on one line. -/
def print : Json → Text
  | .null => "null"
  | .bool b => if b then "true" else "false"
  | .int n => Integer.text n
  | .float x => printFloat x
  | .str s => printText s
  | .arr items => "[" ++ Text.join ", " (printItems items) ++ "]"
  | .obj members => "\x7b" ++ Text.join ", " (printMembers members) ++ "\x7d"

def printItems : List Json → List Text
  | [] => []
  | v :: vs => print v :: printItems vs

def printMembers : List (Text × Json) → List Text
  | [] => []
  | m :: ms => printMember m :: printMembers ms

def printMember : Text × Json → Text
  | (key, value) => printText key ++ ": " ++ print value

end

end LogQuery.Json
