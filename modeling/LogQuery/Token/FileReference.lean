import LogQuery.Clause
import LogQuery.File.Values
import LogQuery.Token.Field

/-!
Tokens that match a field against the values of a file. The value of a token names the file; a
selector between brackets may follow it, and a tilde or a star before it makes the values patterns.
-/

namespace LogQuery.Token.FileReference

/-- How the values of a file are matched. -/
inductive Matching where
  | exact
  | wildcard
  | regexp
deriving DecidableEq, Repr

structure Reference where
  field : Text
  matching : Matching
  file : Text
  /-- The last part of the file's name. -/
  extension : Text
  selector : Option Text
deriving DecidableEq, Repr

/-- The extension after a point and the selector after it, which end the text. -/
def ending? (cs : Text) : Option (Text × Option Text) :=
  let extension := cs.takeWhile Text.isWord
  if extension.length = 3 ∨ extension.length = 4 then
    match cs.dropWhile Text.isWord with
    | [] | [.char '\n'] => some (extension, none)
    | .char '[' :: rest =>
      match Text.splitFirst (· == ']') rest with
      | (c :: selector, some []) | (c :: selector, some [.char '\n']) =>
        some (extension, some (c :: selector))
      | _ => none
    | _ => none
  else none

/-- The name of the file up to its last point that an ending follows, and that ending. -/
def nameParts? : Text → Option (Text × Text × Option Text)
  | [] => none
  | c :: cs =>
    if c == '\n' then none
    else
      match nameParts? cs with
      | some (stem, ending) => some (c :: stem, ending)
      | none => if c == '.' then (ending? cs).map fun ending => ([], ending) else none

/-- How the first character of a file's name makes its values match, and the rest of the name. -/
def splitMatching (name : Text) : Matching × Text :=
  match name with
  | .char '~' :: rest => (.regexp, rest)
  | .char '*' :: rest => (.wildcard, rest)
  | _ => (.exact, name)

/-- What a token refers to, if it has the form. -/
def reference? (token : Text) : Option Reference := do
  let (field, value) ← fieldAndValue? token
  let (stem, extension, selector) ← nameParts? value
  let (matching, name) := splitMatching (stem ++ "." ++ extension)
  return ⟨field, matching, name, extension, selector⟩

/-- The condition that a field has one of some values. -/
def Reference.condition (r : Reference) (values : List Json) : Json :=
  match r.matching with
  | .exact => Clause.terms r.field values
  | .wildcard => Clause.anyOf "wildcard" r.field values
  | .regexp => Clause.anyOf "regexp" r.field values

/-- The condition that a token stands for; none unless it refers to a file that gives values. -/
def condition? (folder : Folder) (token : Text) : Outcome (Option Json) :=
  match reference? token with
  | none => .done none
  | some r =>
    match ValueFile.Format.named? r.extension, folder.file? r.file with
    | some format, some file => do
      match ← ValueFile.read format r.file file r.selector with
      | none | some [] => return none
      | some values => return some (r.condition values)
    | _, _ => .done none

end LogQuery.Token.FileReference
