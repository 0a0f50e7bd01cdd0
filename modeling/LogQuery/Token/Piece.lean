import LogQuery.Json.Basic

/-!
Pieces that a token is turned into: free text, a condition, or a query on nested documents.
-/

namespace LogQuery

/-- A query on the documents nested under a path. -/
structure Scoped where
  path : Json
  query : Json

/-- One piece of a token. -/
structure Piece where
  /-- Free text, `null` if there is none. -/
  text : Json := .null
  condition? : Option Json := none
  nested? : Option Scoped := none
  /-- Negates the condition after it. -/
  negates : Bool := false
  /-- Counts only if free text comes next. -/
  dangles : Bool := false
  /-- The name of the recognizer that claimed the token. -/
  claimedBy? : Option Text := none

namespace Piece

def ofText (text : Text) : Piece :=
  { text := .str text }

def ofCondition (condition : Json) : Piece :=
  { condition? := some condition }

def ofNested (path : Text) (query : Json) : Piece :=
  { nested? := some ⟨.str path, query⟩ }

/-- What a piece counts as. -/
inductive Kind where
  | text
  | condition
  | nested
deriving DecidableEq, Repr

/-- A nested query comes before a condition, and that before free text. -/
def kind (p : Piece) : Kind :=
  if p.nested?.isSome then .nested else if p.condition?.isSome then .condition else .text

end Piece

end LogQuery
