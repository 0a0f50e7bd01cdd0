import LogQuery.Token.AddressBlock
import LogQuery.Token.Escape
import LogQuery.Token.FileReference
import LogQuery.Token.Nested
import LogQuery.Token.Piece
import LogQuery.Token.Ranges
import LogQuery.Token.Word

/-!
Recognizers of tokens. A recognizer either declines a token or claims it and turns it into pieces,
which bear its name.
-/

namespace LogQuery.Token

/-- The recognizers that are always at hand. -/
inductive Stock where
  | fileExpansion
  | text
  | ranges
  | underscored
  | ip
  | bareWords
  | nested
  | autoEscape
deriving DecidableEq, Repr

namespace Stock

def name : Stock → Text
  | fileExpansion => "FileExpansion"
  | text => "Text"
  | ranges => "Ranges"
  | underscored => "Underscored"
  | ip => "IP"
  | bareWords => "BareWords"
  | nested => "Nested"
  | autoEscape => "AutoEscape"

/-- The name that a recognizer's options stand under. -/
def optionKey (s : Stock) : Text :=
  Text.lower s.name

/-- The place of a recognizer: one with a lower number is tried first. -/
def priority : Stock → Int
  | fileExpansion => 5
  | text => 10
  | ranges => 20
  | underscored => 20
  | ip => 25
  | bareWords => 30
  | nested => 50
  | autoEscape => 75

def all : List Stock :=
  [fileExpansion, text, ranges, underscored, ip, bareWords, nested, autoEscape]

def named? (name : Text) : Option Stock :=
  all.find? fun s => s.name == name

end Stock

/-- How a recognizer goes about a token. -/
inductive Rule where
  | stock (s : Stock)
  /-- A table of tokens with their pieces, or with the failure that making the pieces ends in. A
  token that is not in the table is declined. -/
  | table (entries : List (Text × Except Failure (List Piece)))
  /-- No rule at all: trying it fails. -/
  | unspecified

structure Recognizer where
  name : Text
  /-- One with a lower number is tried first. -/
  priority : Json
  rule : Rule
  /-- The depth of the compilation that it belongs to; queries nested in its tokens lie one deeper. -/
  depth : Json

namespace Recognizer

/-- What a recognizer needs to know beside the token. -/
structure Surroundings where
  folder : Folder
  fieldsMeta : Json
  /-- Compiles the tokens of a nested query, one deeper than the given depth. Without a compilation
  around it there is none, and tokens for nested documents are declined. -/
  within : Option (Json → List Text → Outcome Json)

/-- A single piece, if there is a condition. -/
def conditionPiece (condition : Option Json) : Option (List Piece) :=
  condition.map fun c => [Piece.ofCondition c]

/-- The pieces that one of the stock recognizers makes of a token. -/
def expandStock (around : Surroundings) (depth : Json) (s : Stock) (token : Text) :
    Outcome (Option (List Piece)) :=
  match s with
  | .fileExpansion => conditionPiece <$> FileReference.condition? around.folder token
  | .text => .of (conditionPiece <$> Field.condition? around.fieldsMeta token)
  | .ranges => .of (conditionPiece <$> Ranges.condition? token)
  | .underscored => .done (conditionPiece (Underscored.condition? token))
  | .ip => .done (conditionPiece (AddressBlock.condition? token))
  | .bareWords => .done ((Word.piece? token).map ([·]))
  | .nested =>
    match around.within, Nested.split? token with
    | some within, some (path, inner) => do
      let query ← within depth inner
      return some [Piece.ofNested path query]
    | _, _ => .done none
  | .autoEscape => .done ((Escape.text? token).map fun text => [Piece.ofText text])

/-- The pieces that a recognizer makes of a token, without its name. -/
def expand (around : Surroundings) (r : Recognizer) (token : Text) :
    Outcome (Option (List Piece)) :=
  match r.rule with
  | .stock s => expandStock around r.depth s token
  | .table entries => .of ((entries.lookup token).mapM id)
  | .unspecified => .fail .notImplemented

/-- The pieces that a recognizer makes of a token, if it claims it. -/
def claim (around : Surroundings) (r : Recognizer) (token : Text) :
    Outcome (Option (List Piece)) := do
  match ← r.expand around token with
  | none => return none
  | some pieces => return some (pieces.map fun p => { p with claimedBy? := some r.name })

/-- What comes of a token that is no text, if the recognizer does not decline it. On its own, with no
compilation around it, the recognizer of nested documents declines everything. -/
def failureOn (r : Recognizer) (onItsOwn : Bool) (token : Json) : Option Failure :=
  match r.rule with
  | .stock .text | .stock .autoEscape => some .wrongType
  | .stock .nested => if onItsOwn then none else some .noMember
  | .stock _ => some .noMember
  | .table _ =>
    match token with
    | .arr _ | .obj _ => some .wrongType
    | _ => none
  | .unspecified => some .notImplemented

def display (r : Recognizer) : Text :=
  "<" ++ r.name ++ " priority=" ++ r.priority.plain ++ ">"

end Recognizer

/-- The pieces that the first recognizer to claim a token makes of it; the token itself if none
does. -/
def claimFirst (around : Recognizer.Surroundings) (token : Text) :
    List Recognizer → Outcome (List Piece)
  | [] => .done [Piece.ofText token]
  | r :: rs => do
    match ← r.claim around token with
    | some pieces => return pieces
    | none => claimFirst around token rs

/-- What comes of a token that is no text: the failure of the first recognizer that does not decline
it, or the token itself. -/
def passThrough (token : Json) (rs : List Recognizer) : Except Failure (List Piece) :=
  match rs.findSome? (·.failureOn false token) with
  | some failure => .error failure
  | none => .ok [{ text := token }]

end LogQuery.Token
