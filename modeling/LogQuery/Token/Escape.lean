import LogQuery.Text.Basic

/-!
Escaping of free text. A space, a slash or a parenthesis gets a backslash, unless one stands before
it already.
-/

namespace LogQuery.Token.Escape

/-- The character has a meaning in the syntax of free text. -/
def isSpecial (c : CodePoint) : Bool :=
  c == ' ' || c == '/' || c == '(' || c == ')'

/-- Escape a text, given whether a backslash stands before it. -/
def escapeFrom (afterBackslash : Bool) : Text → Text
  | [] => []
  | c :: cs =>
    if isSpecial c && !afterBackslash then '\\' :: c :: escapeFrom false cs
    else c :: escapeFrom (c == '\\') cs

/-- The text with its special characters escaped. -/
def escape (text : Text) : Text :=
  escapeFrom false text

/-- The escaped text, if escaping changes it. -/
def text? (token : Text) : Option Text :=
  let escaped := escape token
  if escaped == token then none else some escaped

end LogQuery.Token.Escape
