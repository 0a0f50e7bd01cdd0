import LogQuery.Text.Basic

/-!
Records of comma-separated values. A field may stand between double quotes and then hold commas,
line ends and doubled quotes; a quote elsewhere stands for itself. A line feed, a carriage return or
the pair of them ends a record, and an empty line is a record without fields.
-/

namespace LogQuery.Csv

/-- Where in a record a character stands. -/
inductive Place where
  | recordStart
  /-- After a carriage return that ended a record. -/
  | afterReturn
  | fieldStart
  | inField
  | inQuotes
  /-- After a quote that ends the field unless another one follows. -/
  | afterQuote
deriving DecidableEq, Repr

/-- What a character does to the record. -/
inductive Action where
  /-- It belongs to the field. -/
  | keep (next : Place)
  /-- It belongs to nothing. -/
  | skip (next : Place)
  /-- It ends the field. -/
  | endField
  /-- It ends the field and the record. -/
  | endRecord (next : Place)
  /-- It ends a record without fields. -/
  | blank (next : Place)

/-- The place after a character that ends a record, if it is one. -/
def lineEnd? (c : CodePoint) : Option Place :=
  if c == '\n' then some .recordStart
  else if c == '\r' then some .afterReturn
  else none

/-- The action of a character at the start of a field. -/
def openField (c : CodePoint) : Action :=
  if c == '"' then .skip .inQuotes
  else if c == ',' then .endField
  else .keep .inField

/-- The action of a character in its place. -/
def action (place : Place) (c : CodePoint) : Action :=
  match place with
  | .recordStart => (lineEnd? c).elim (openField c) .blank
  | .afterReturn =>
    if c == '\n' then .skip .recordStart else (lineEnd? c).elim (openField c) .blank
  | .fieldStart => (lineEnd? c).elim (openField c) .endRecord
  | .inField =>
    if c == ',' then .endField else (lineEnd? c).elim (.keep .inField) .endRecord
  | .inQuotes => if c == '"' then .skip .afterQuote else .keep .inQuotes
  | .afterQuote =>
    if c == '"' then .keep .inQuotes
    else if c == ',' then .endField
    else (lineEnd? c).elim (.keep .inField) .endRecord

/-- Read the records from a place on; the open field and the open record are in reverse. -/
def recordsFrom (place : Place) (field : Text) (record : List Text) :
    Text → List (List Text)
  | [] =>
    match place with
    | .recordStart | .afterReturn => []
    | _ => [(field.reverse :: record).reverse]
  | c :: cs =>
    match action place c with
    | .keep next => recordsFrom next (c :: field) record cs
    | .skip next => recordsFrom next field record cs
    | .endField => recordsFrom .fieldStart [] (field.reverse :: record) cs
    | .endRecord next => (field.reverse :: record).reverse :: recordsFrom next [] [] cs
    | .blank next => [] :: recordsFrom next [] [] cs

def records (cs : Text) : List (List Text) :=
  recordsFrom .recordStart [] [] cs

/-- The most characters of a field that is read. -/
def maxFieldLength : Nat := 131072

/-- Every field of a record is short enough to be read. -/
def isReadable (record : List Text) : Bool :=
  record.all fun field => decide (field.length ≤ maxFieldLength)

end LogQuery.Csv
