import LogQuery.Aggregation.Catalogue
import LogQuery.Json.Access
import LogQuery.Number.Decimal

/-!
The compact grammar of aggregations. A text holds definitions with `+` between them, each of the form
`[alias=]field` or `[alias=]type:field[:parameters]`. Parameters are either `key=value` pairs or, for
some types, a single value without a key.
-/

namespace LogQuery.Aggregation

/-- A named aggregation. -/
structure Definition where
  name : Text
  method : Method
  field : Text
  params : Members

/-- The body of a request for the aggregation: its type, its field and its parameters. -/
def Definition.body (d : Definition) : Json :=
  .obj [(d.method.name, .obj (Members.update [("field", .str d.field)] d.params))]

namespace Definition

/-- The number of buckets of an aggregation given by a field alone. -/
def defaultSize : Int := 20

/-- The percentiles that are computed if none are given. -/
def defaultPercents : List Int := [25, 50, 75, 90]

/-- The calendar interval if none is given. -/
def defaultInterval : Text := "1h"

/-! ## Values of parameters -/

/-- A minus sign at the front, and the rest. -/
def splitSign (cs : Text) : Bool × Text :=
  match cs with
  | .char '-' :: rest => (true, rest)
  | _ => (false, cs)

/-- The text has the form of an integer. -/
def looksInteger (cs : Text) : Bool :=
  let body := (splitSign (Text.dropFinalNewline cs)).2
  !body.isEmpty && body.all Text.isDecimal

/-- The digits before and after the point of a text in the form of a decimal. -/
def decimalParts? (cs : Text) : Option (Bool × Text × Text) :=
  let (negative, body) := splitSign (Text.dropFinalNewline cs)
  match Text.splitFirst (· == '.') body with
  | (whole, some places) =>
    if whole.all Text.isDecimal && places.all Text.isDecimal && !(whole.isEmpty && places.isEmpty) then
      some (negative, whole, places)
    else none
  | (_, none) => none

/-- A text in the form of an integer or a decimal becomes that number; any other stays. -/
def coerce (cs : Text) : Except Failure Json :=
  if looksInteger cs then (Json.readInteger cs).map .int
  else
    match decimalParts? cs with
    | some (negative, whole, places) =>
      .ok (.float (Decimal.toFloat negative (Integer.ofDigits (whole ++ places))
        (-(places.length : Int))))
    | none => .ok (.str cs)

/-- The pieces between commas that are not empty, as values. -/
def coerceList (cs : Text) : Except Failure (List Json) :=
  ((Text.splitOn ',' cs).filter (!·.isEmpty)).mapM coerce

/-! ## Parameters with keys -/

/-- Somewhere a word character stands before an equals sign. -/
def hasKeys : Text → Bool
  | c :: d :: cs => (Text.isWord c && d == '=') || hasKeys (d :: cs)
  | _ => false

/-- A word and an equals sign stand at the front. -/
def startsWithKey (cs : Text) : Bool :=
  match cs.dropWhile Text.isWord with
  | .char '=' :: _ => (cs.head?.map Text.isWord).getD false
  | _ => false

/-- The pieces between the commas that a key follows. -/
def splitPairs : Text → List Text
  | [] => [[]]
  | c :: cs =>
    if c == ',' && startsWithKey cs then [] :: splitPairs cs
    else
      match splitPairs cs with
      | [] => [[c]]
      | piece :: pieces => (c :: piece) :: pieces

/-- The value of a parameter: with commas a list. -/
def paramValue (cs : Text) : Except Failure Json :=
  if cs.contains ',' then (coerceList cs).map .arr else coerce cs

/-- Add the parameters of the pieces; one without a key or without a value is passed over. -/
def addPairs (params : Members) : List Text → Except Failure Members
  | [] => .ok params
  | pair :: pairs => do
    let (key, value) := Text.partition '=' pair
    if key.isEmpty || value.isEmpty then addPairs params pairs
    else addPairs (params.set key (← paramValue value)) pairs

def keyedParams (cs : Text) : Except Failure Members :=
  addPairs [] (splitPairs cs)

/-! ## Parameters without a key -/

/-- A whole number under a key; anything else is no parameter. -/
def wholeNumber (key : Text) (cs : Text) : Except Failure Members :=
  if !cs.isEmpty && cs.all Text.isDigit then do
    return [(key, .int (← Json.readInteger cs))]
  else .ok []

/-- A positive interval; anything else is no parameter. -/
def interval (cs : Text) : Except Failure Members := do
  match (← coerce cs).numeral? with
  | some n => return if (Numeral.int 0).lt n then [("interval", .ofNumeral n)] else []
  | none => return []

def percents (cs : Text) : Except Failure Members := do
  match ← coerceList cs with
  | [] => return [("percents", .arr (defaultPercents.map .int))]
  | values => return [("percents", .arr values)]

/-- The parameters that a type makes of a text without keys, which is empty if there is none. -/
def bareParams (method : Method) (cs : Text) : Except Failure Members :=
  match method with
  | .terms | .significantTerms => wholeNumber "size" cs
  | .rareTerms => wholeNumber "max_doc_count" cs
  | .geohashGrid => wholeNumber "precision" cs
  | .histogram => if cs.isEmpty then .ok [] else interval cs
  | .dateHistogram =>
    .ok [("calendar_interval", .str (if cs.isEmpty then defaultInterval else cs))]
  | .percentiles => percents cs
  | _ => .ok []

/-! ## Definitions -/

/-- The alias at the front, if there is one, and the rest. -/
def splitAlias (cs : Text) : Option Text × Text :=
  if startsWithKey cs then
    (some (cs.takeWhile Text.isWord), (cs.dropWhile Text.isWord).drop 1)
  else (none, cs)

/-- The text up to the second colon as a type or field, a field, and what follows. -/
def segments (cs : Text) : Text × Option (Text × Text) :=
  match Text.splitFirst (· == ':') cs with
  | (first, none) => (first, none)
  | (first, some rest) => (first, some (Text.partition ':' rest))

def readParams (method : Method) (cs : Text) : Except Failure Members :=
  if hasKeys cs then keyedParams cs else bareParams method cs

/-- The name of a definition without an alias: bare for a field's terms, else with the type. -/
def defaultName (method : Method) (field : Text) : Text :=
  if method = .terms then field else method.name ++ "." ++ field

/-- Read one definition. A first segment that names no type is the field of a terms aggregation. -/
def read (cs : Text) : Except Failure Definition := do
  let (label, body) := splitAlias cs
  match segments body with
  | (field, none) =>
    return ⟨label.getD field, .terms, field, [("size", .int defaultSize)]⟩
  | (first, some (second, third)) =>
    let (method, field, params) :=
      match Method.named? first with
      | some method => (method, second, third)
      | none => (Method.terms, first, second)
    return ⟨label.getD (defaultName method field), method, field, ← readParams method params⟩

def readAll (text : Text) : Except Failure (List Definition) :=
  ((Text.splitOn '+' text).filter (!·.isEmpty)).mapM read

end Definition

end LogQuery.Aggregation
