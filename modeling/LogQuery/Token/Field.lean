import LogQuery.Clause
import LogQuery.Text.Case

/-!
Tokens that match one field. A token has a field before its first colon and a value after it; an
operator before the field chooses the matcher. A field that is analyzed as text is matched by its
words, unless the operator asks for something else than the exact value.
-/

namespace LogQuery.Token

/-- The field and the value of a token, if it has both. -/
def fieldAndValue? (token : Text) : Option (Text × Text) :=
  match Text.partition ':' token with
  | ([], _) | (_, []) => none
  | parts => some parts

namespace Field

/-- The matcher that an operator chooses. -/
def matcher? (operator : CodePoint) : Option Text :=
  match operator with
  | .char '=' => some "term"
  | .char '*' => some "wildcard"
  | .char '/' => some "regexp"
  | .char '~' => some "fuzzy"
  | .char '+' => some "match_phrase"
  | _ => none

/-- The field is analyzed as text. -/
def isText (fieldsMeta : Json) (field : Text) : Except Failure Bool := do
  match ← fieldsMeta.member? field with
  | some about =>
    if about.truthy then return (← about.memberOr "type" .null).isText "text" else return false
  | none => return false

def unquote (cs : Text) : Text :=
  if decide (1 < cs.length) && cs.head? == some '"' && cs.getLast? == some '"' then
    (cs.drop 1).dropLast
  else cs

/-- The matcher of a token: the one that its operator chooses, but matching by words instead of an
exact match on a field that is text. -/
def chooseMatcher (fieldsMeta : Json) (operator : Option Text) (field : Text) :
    Except Failure (Option Text) := do
  if operator.getD "term" == "term" then
    if ← isText fieldsMeta field then return some "match"
  return operator

/-- The condition that a token stands for. -/
def condition? (fieldsMeta : Json) (token : Text) : Except Failure (Option Json) := do
  match Text.splitFirst (· == ':') token with
  | (c :: cs, some value) =>
    let operator := matcher? c
    let field := if operator.isSome then cs else c :: cs
    match ← chooseMatcher fieldsMeta operator field with
    | some matcher =>
      if field.isEmpty || value.isEmpty then return none
      else return some (Clause.onField matcher field (.str (unquote value)))
    | none => return none
  | _ => return none

end Field

namespace Underscored

/-- The character stands between a field and its value. -/
def isDivider (c : CodePoint) : Bool :=
  c == ':' || c == '='

/-- The condition of a field and the text its values start with. -/
def startCondition? (cs : Text) : Option Json :=
  match Text.splitFirst isDivider cs with
  | (c :: field, some (d :: value)) =>
    some (Clause.onField "prefix" (c :: field) (.str (d :: value)))
  | _ => none

/-- The condition that a token with the name of a query before its first colon stands for. -/
def condition? (token : Text) : Option Json :=
  match Text.splitFirst (· == ':') token with
  | (key, some value) =>
    if Text.lower key == "_prefix_" then startCondition? value else none
  | _ => none

end Underscored

end LogQuery.Token
