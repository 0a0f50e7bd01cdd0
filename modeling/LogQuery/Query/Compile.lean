import LogQuery.Query.Assembly

/-!
Compilation of tokens to a request. The first recognizer to claim a token turns it into pieces.
A token for nested documents holds tokens that are compiled one level deeper. The settings bound how
deep, and beyond any settings there is a bound of its own.
-/

namespace LogQuery.Query

open Token

/-- The pieces of a token, given how tokens of nested queries are compiled. -/
def piecesWith (folder : Folder) (within : Json → List Text → Outcome Json) (s : Settings)
    (token : Text) : Outcome (List Piece) := do
  claimFirst ⟨folder, s.fieldsMeta, some within⟩ token (← .of s.chain)

/-- The request of some tokens, given how tokens of nested queries are compiled. -/
def compileWith (folder : Folder) (within : Json → List Text → Outcome Json) (s : Settings)
    (tokens : List Text) : Outcome Query := do
  let pieces ← Outcome.collect (piecesWith folder within s) tokens
  .of (ofPieces s pieces.flatten)

/-- How many nested queries may lie in one another, whatever the settings allow. -/
def maxLevels : Nat := 164

/-- The query of tokens nested in a compilation at a depth; `levels` more queries may lie in one
another. -/
def compileWithin (folder : Folder) : Nat → Settings → Json → List Text → Outcome Json
  | 0, s, depth, _ => do
    let _ ← .of (s.deeper depth)
    .fail .tooNested
  | levels + 1, s, depth, tokens => do
    let inner := s.inner (← .of (s.deeper depth))
    let q ← compileWith folder (compileWithin folder levels inner.inUse) inner tokens
    .of q.render

/-- How the tokens of nested queries are compiled. -/
def within (folder : Folder) (s : Settings) : Json → List Text → Outcome Json :=
  compileWithin folder maxLevels s.inUse

def pieces (folder : Folder) (s : Settings) (token : Text) : Outcome (List Piece) :=
  piecesWith folder (within folder s) s token

def compile (folder : Folder) (s : Settings) (tokens : List Text) : Outcome Query :=
  compileWith folder (within folder s) s tokens

/-- The pieces of a token that may be no text. -/
def piecesOfValue (folder : Folder) (s : Settings) : Json → Outcome (List Piece)
  | .str text => pieces folder s text
  | token => do .of (passThrough token (← .of s.chain))

/-- The request of some tokens that may be no texts. -/
def compileValues (folder : Folder) (s : Settings) (tokens : List Json) : Outcome Query := do
  let pieces ← Outcome.collect (piecesOfValue folder s) tokens
  .of (ofPieces s pieces.flatten)

/-- On texts the two ways of compiling agree. -/
theorem compileValues_texts (folder : Folder) (s : Settings) (tokens : List Text) :
    compileValues folder s (tokens.map .str) = compile folder s tokens := by
  have hc : ∀ (f : Json → Outcome (List Piece)) (ts : List Text),
      Outcome.collect f (ts.map .str) = Outcome.collect (fun t => f (.str t)) ts := by
    intro f ts
    induction ts with
    | nil => rfl
    | cons t ts ih => simp only [List.map_cons, Outcome.collect, ih]
  unfold compileValues compile compileWith
  rw [hc]
  rfl

end LogQuery.Query
