import LogQuery.File.Csv
import LogQuery.File.Folder
import LogQuery.Json.Order
import LogQuery.Json.Reader
import LogQuery.Outcome
import LogQuery.Text.Case
import LogQuery.Text.Lines
import LogQuery.Text.Order

/-!
The values that a file holds: a column of a text or of comma-separated records, or what stands at a
key path of a JSON document on each line. A value counts once, however often it occurs.
-/

namespace LogQuery.ValueFile

inductive Format where
  /-- Lines of columns that a tab or a NUL separates. -/
  | columns
  | csv
  | jsonLines
deriving DecidableEq, Repr

/-- The form that the last part of a file name stands for. -/
def Format.named? (extension : Text) : Option Format :=
  let extension := Text.lower extension
  if extension == "txt" || extension == "dat" then some .columns
  else if extension == "csv" then some .csv
  else if extension == "json" then some .jsonLines
  else none

/-! ## Columns -/

/-- A line that holds no record: blanks only, or a comment. -/
def isPassedOver (line : Text) : Bool :=
  line.all Text.isBlank || line.head? == some '#'

/-- A character between two columns. -/
def isColumnEnd (c : CodePoint) : Bool :=
  c == '\t' || c == '\x00'

/-- The records of a text: its lines, split into columns. -/
def textRecords (cs : Text) : List (List Text) :=
  ((Text.lines cs).filter (!isPassedOver ·)).map (Text.splitWhere isColumnEnd)

/-- The column at an index; a negative index counts from the end. -/
def column? (record : List Text) (index : Int) : Option Text :=
  match index with
  | .ofNat i => record[i]?
  | .negSucc i => record.reverse[i]?

/-- The value of a record: its column, unless there is none or it is empty. -/
def value? (index : Int) (record : List Text) : Option Json :=
  match column? record index with
  | some (c :: cs) => some (.str (c :: cs))
  | _ => none

/-- The column that a selector asks for, the last one if there is none. -/
def columnIndex (file : Text) (selector : Option Text) : Except Failure Int :=
  match selector with
  | none => .ok (-1)
  | some text =>
    match Integer.read text with
    | .ok index => .ok index
    | .error _ => .error (.badColumn file text)

/-! ## JSON lines -/

/-- The value at a key path. -/
def atPath? (document : Json) : List Text → Option Json
  | [] => some document
  | key :: path =>
    match document with
    | .obj members => (Members.get? members key).bind fun value => atPath? value path
    | _ => none

/-- The value counts: it is neither `null` nor a list nor an object. -/
def counts (value : Json) : Bool :=
  value.isScalar && !value.isNull

/-- The values that a document gives: those of a list one by one, otherwise the one at the path. -/
def valuesAt (document : Json) (path : List Text) : List Json :=
  match atPath? document path with
  | none => []
  | some (.arr items) => items.filter counts
  | some value => [value].filter counts

/-- The values of one line. A malformed line gives none and a warning. -/
def lineValues (file : Text) (path : List Text) (number : Nat) (line : Text) :
    Outcome (List Json) :=
  if line.all Text.isBlank then .done []
  else
    match Json.read line with
    | .ok document => .done (valuesAt document path)
    | .error .malformed => do
      .warn ⟨file, number⟩
      return []
    | .error (.tooLong digits) => .fail (.tooManyDigits digits)
    | .error .tooNested => .fail .tooNested

/-- The values of the lines from a number on. -/
def linesValues (file : Text) (path : List Text) :
    Nat → List Text → Outcome (List Json)
  | _, [] => .done []
  | number, line :: lines => do
    let values ← lineValues file path number line
    let more ← linesValues file path (number + 1) lines
    return values ++ more

/-! ## Sets of values -/

/-- Without the values that stand further in front, too; `seen` is what stands in front. -/
def distinctFrom (seen : List Json) : List Json → List Json
  | [] => []
  | v :: vs => if seen.any v.same then distinctFrom seen vs else v :: distinctFrom (v :: seen) vs

/-- Each value once, in the order of their texts. -/
def settle (values : List Json) : List Json :=
  Text.sortBy (fun a b => Text.before a.plain b.plain) (distinctFrom [] values)

/-! ## Files -/

/-- The characters of a whole text; a file that is none fails. -/
def wholeText (contents : Text.Utf8.Decoded) : Outcome Text :=
  if contents.isWhole then .done contents.characters else .fail .undecodable

/-- What was seen of a file, up to where its last line may still go on: a carriage return at the end
ends no line, since a line feed might belong to it. -/
def withoutOpenReturn (cs : Text) : Text :=
  if cs.getLast? == some '\r' then cs.dropLast else cs

/-- The complete lines of what was seen of a file. -/
def completeLines (cs : Text) : List Text :=
  (Text.splitLines (Text.foldLineEnds (withoutOpenReturn cs))).1

/-- The records of a file. A field that is too long fails; so does a file that is no text, but only
after the complete lines that were seen before its fault. -/
def csvRecords (contents : Text.Utf8.Decoded) : Outcome (List (List Text)) :=
  if contents.isWhole then
    let records := Csv.records contents.characters
    if records.all Csv.isReadable then .done records else .fail .fieldTooLong
  else
    let seen := (withoutOpenReturn contents.characters).reverse
    let records := Csv.records (seen.dropWhile fun c => (Csv.lineEnd? c).isNone).reverse
    if records.all Csv.isReadable then .fail .undecodable else .fail .fieldTooLong

/-- The values of a file of JSON lines. A file that is no text fails only after the complete lines
that were seen before its fault. -/
def jsonLinesValues (file : Text) (path : List Text) (contents : Text.Utf8.Decoded) :
    Outcome (List Json) :=
  if contents.isWhole then linesValues file path 1 (Text.lines contents.characters)
  else do
    let _ ← linesValues file path 1 (completeLines contents.characters)
    .fail .undecodable

/-- The values of a file, in the order of their texts; nothing if it cannot be read. -/
def read (format : Format) (name : Text) (file : File) (selector : Option Text) :
    Outcome (Option (List Json)) :=
  match format with
  | .columns => do
    let index ← .of (columnIndex name selector)
    match file.decode? with
    | none => return none
    | some contents =>
      let cs ← wholeText contents
      return some (settle ((textRecords cs).filterMap (value? index)))
  | .csv => do
    let index ← .of (columnIndex name selector)
    match file.decode? with
    | none => return none
    | some contents =>
      return some (settle ((← csvRecords contents).filterMap (value? index)))
  | .jsonLines =>
    match selector with
    | none => .fail (.missingKeyPath name)
    | some path => do
      match file.decode? with
      | none => return none
      | some contents =>
        let values ← jsonLinesValues name (Text.splitOn '.' path) contents
        if values.isEmpty then .fail (.noValues name path) else return some (settle values)

end LogQuery.ValueFile
