import LogQuery.Json.Access

/-!
Free text put together from its pieces. A joining word stands between any two terms; the words that
cannot start or end the text are left out there.
-/

namespace LogQuery

/-- The word between two terms. -/
inductive Join where
  | and
  | or
deriving DecidableEq, Repr

def Join.word : Join → Text
  | .and => "AND"
  | .or => "OR"

namespace FreeText

def isJoin (piece : Json) : Bool :=
  piece.isText "AND" || piece.isText "OR"

/-- The piece joins two terms or negates one. -/
def isOperator (piece : Json) : Bool :=
  isJoin piece || piece.isText "NOT"

/-- Without the joins at the front and the operators at the end. -/
def trim (pieces : List Json) : List Json :=
  ((pieces.reverse.dropWhile isOperator).reverse).dropWhile isJoin

/-- Put the joining word between two pieces unless the first is an operator or the second a join. -/
def weave (join : Join) : List Json → List Json
  | [] => []
  | [piece] => [piece]
  | left :: right :: rest =>
    if isOperator left || isJoin right then left :: weave join (right :: rest)
    else left :: .str join.word :: weave join (right :: rest)

/-- The pieces of a well-formed free text. -/
def assemble (join : Join) (pieces : List Json) : List Json :=
  weave join (trim pieces)

/-- The pieces of a well-formed free text, if each can be told from the words: a list or an object
cannot. -/
def assembleValues (join : Join) (pieces : List Json) : Except Failure (List Json) :=
  if pieces.all (·.isScalar) then .ok (assemble join pieces) else .error .wrongType

/-- The text of a piece, which must be one. -/
def textOf : Json → Except Failure Text
  | .str text => .ok text
  | _ => .error .wrongType

/-- The text of some pieces, with spaces between them. -/
def written (pieces : List Json) : Except Failure Text := do
  return Text.join " " (← pieces.mapM textOf)

end FreeText

end LogQuery
