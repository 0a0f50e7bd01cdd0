import LogQuery.Json.Basic
import LogQuery.Text.Quoted

/-!
Documents as error messages and sort keys show them: texts between quotes, `None`, `True` and
`False`, and commas followed by a space.
-/

namespace LogQuery.Json

mutual

/-- A document with its texts between quotes. -/
def display : Json → Text
  | .null => "None"
  | .bool b => if b then "True" else "False"
  | .int n => Integer.text n
  | .float x => Decimal.text x
  | .str s => Text.quoted s
  | .arr items => "[" ++ Text.join ", " (displayItems items) ++ "]"
  | .obj members => "\x7b" ++ Text.join ", " (displayMembers members) ++ "\x7d"

def displayItems : List Json → List Text
  | [] => []
  | v :: vs => display v :: displayItems vs

def displayMembers : List (Text × Json) → List Text
  | [] => []
  | m :: ms => displayMember m :: displayMembers ms

def displayMember : Text × Json → Text
  | (key, value) => Text.quoted key ++ ": " ++ display value

end

/-- A document as plain text: a text stands for itself. -/
def plain : Json → Text
  | .str s => s
  | v => v.display

def kindName : Json → Text
  | .null => "NoneType"
  | .bool _ => "bool"
  | .int _ => "int"
  | .float _ => "float"
  | .str _ => "str"
  | .arr _ => "list"
  | .obj _ => "dict"

end LogQuery.Json
