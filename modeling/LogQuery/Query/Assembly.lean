import LogQuery.Query.Edit
import LogQuery.Token.FreeText
import LogQuery.Token.Piece
import LogQuery.Token.Settings

/-!
Assembly of a request from the pieces of its tokens. Conditions go to the section of the context, or
to `must_not` after a piece that negates; the last nested query counts; the free text becomes one
condition. A dangling word counts only if free text comes next.
-/

namespace LogQuery.Query

/-- A request while its pieces are read. -/
structure Assembly where
  conditions : List Json := []
  negated : List Json := []
  nested : Option Scoped := none
  fragments : List Json := []
  /-- Dangling pieces that wait for free text. -/
  dangling : List Json := []
  /-- The piece before negates. -/
  negates : Bool := false

namespace Assembly

/-- Take in a piece, but for what it says of the one after it. -/
def place (a : Assembly) (p : Piece) : Assembly :=
  if p.dangles then { a with dangling := a.dangling ++ [p.text] }
  else
    match p.nested?, p.condition?, p.text with
    | some nested, _, _ => { a with nested := some nested, dangling := [] }
    | none, some condition, _ =>
      if a.negates then
        { a with negated := a.negated ++ asConditions condition, dangling := [] }
      else { a with conditions := a.conditions ++ asConditions condition, dangling := [] }
    | none, none, .null => a
    | none, none, text =>
      { a with fragments := a.fragments ++ a.dangling ++ [text], dangling := [] }

def add (a : Assembly) (p : Piece) : Assembly :=
  { a.place p with negates := p.negates }

/-- The condition of the free text, if there is any. -/
def textConditions (a : Assembly) (join : Join) : Except Failure (List Json) := do
  match ← FreeText.assembleValues join a.fragments with
  | [] => return []
  | pieces => return [Clause.queryString (.str (← FreeText.written pieces))]

/-- The request of conditions that go to the section of a context. -/
def inContext (a : Assembly) (s : Token.Settings) (conditions : List Json) : Query :=
  let bare : Query :=
    { mustNot := .arr a.negated
      nested := (a.nested.map (·.query)).getD .null
      nestedPath := (a.nested.map (·.path)).getD .null
      fieldsMeta := s.fieldsMeta }
  match s.context with
  | .query => { bare with must := .arr conditions }
  | .filter => { bare with filter := .arr conditions }

/-- The request of all the pieces taken in. -/
def finish (a : Assembly) (s : Token.Settings) : Except Failure Query := do
  return a.inContext s (a.conditions ++ (← a.textConditions s.join))

end Assembly

def ofPieces (s : Token.Settings) (pieces : List Piece) : Except Failure Query :=
  (pieces.foldl Assembly.add {}).finish s

end LogQuery.Query
