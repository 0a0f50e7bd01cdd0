import LogQuery.Json.Access

/-!
Patterns that name indices: letters, digits and a few signs of ASCII, with commas between several
patterns.
-/

namespace LogQuery.Index

/-- The signs of a pattern beside letters and digits. -/
def patternSigns : Text :=
  ['-', '_', '.', '*', ',']

def isPatternChar (c : CodePoint) : Bool :=
  c.isAlphanum || patternSigns.contains c

/-- What is wrong with a text as a pattern, if anything. -/
def patternFault? (cs : Text) : Option Failure :=
  if cs.isEmpty then some .emptyPattern
  else if cs.head? == some '_' then some .hiddenPattern
  else
    match cs.filter (!isPatternChar ·) with
    | [] => none
    | found => some (.patternCharacters found)

def checkPattern (value : Json) : Except Failure Unit :=
  if value.truthy then do
    match patternFault? (← value.asText) with
    | some failure => .error failure
    | none => return ()
  else .error .emptyPattern

end LogQuery.Index
