import LogQuery.Json.Display

/-!
What can go wrong, as causes. Each cause that is shown to the caller has one wording, in
`Failure.message`.
-/

namespace LogQuery

/-- A side of a range. -/
inductive Side where
  | lower
  | upper
deriving DecidableEq, Repr

def Side.name : Side → Text
  | .lower => "lower"
  | .upper => "upper"

/-- Why an operation gave no result. -/
inductive Failure where
  /-- A value of an unsuitable kind. -/
  | wrongType
  /-- A value was asked for something its kind does not offer. -/
  | noMember
  /-- A part of a request was asked for something its kind does not offer, given the name of that. -/
  | noOperation (held : Json) (name : Text)
  /-- A recognizer without a rule was tried. -/
  | notImplemented
  /-- A number or an instant is out of range. -/
  | overflow
  | undecodable
  | noInteger (given : Text)
  /-- An integer has more digits than are read. -/
  | tooManyDigits (digits : Nat)
  /-- A number that is none was to become an integer. -/
  | noNumber
  /-- Two parts were expected and fewer were given. -/
  | tooFewParts (given : Nat)
  /-- Two parts were expected and more were given. -/
  | tooManyParts
  /-- An entry of a list of pairs has another length. -/
  | notAPair (position length : Nat)
  /-- The context is neither `query` nor `filter`. -/
  | unknownContext (given : Json)
  /-- The joining operator is neither `AND` nor `OR`. -/
  | unknownJoin (given : Json)
  | emptyPattern
  /-- The index pattern starts with an underscore. -/
  | hiddenPattern
  /-- The index pattern holds characters that it must not. -/
  | patternCharacters (found : Text)
  /-- The matcher takes no single field. -/
  | unsupportedMatcher (given : Json)
  /-- The sort direction is neither `asc` nor `desc`. -/
  | unknownDirection (given : Text)
  | noAggregations
  | noScroll
  /-- A group-by level names no aggregation. -/
  | levelWithoutAggregation (level : Json)
  | unknownIndexType (given : Json)
  /-- Two operators on one side of a range. -/
  | rangeConflict (side : Side) (token : Text)
  /-- The column selector of a value file is no integer. -/
  | badColumn (file selector : Text)
  /-- A file of JSON lines was given without a key path. -/
  | missingKeyPath (file : Text)
  /-- No line of a file of JSON lines has a value at the key path. -/
  | noValues (file path : Text)
  /-- Nested queries lie deeper than allowed. -/
  | tooDeep (limit : Json)
  /-- A document or a token is nested deeper than anything is read. -/
  | tooNested
  /-- A field of comma-separated values has more characters than are read. -/
  | fieldTooLong
  | searchFailed (reason : Text)
  | scrollFailed (reason : Text)
  | aggregationFailed (reason : Text)
  | mappingFailed (reason : Text)

namespace Failure

/-- The most characters of a text that is no integer, with its quotes, that are shown. -/
def shownLength : Nat := 200

/-- The wording of a cause, if it has one. -/
def message? : Failure → Option Text
  | .wrongType | .noMember | .notImplemented | .overflow | .undecodable | .tooNested
  | .fieldTooLong => none
  | .noOperation held name =>
    some ("'" ++ held.kindName ++ "' object has no attribute '" ++ name ++ "'")
  | .noInteger given =>
    some ("invalid literal for int() with base 10: " ++ Text.quotedFront shownLength given)
  | .tooManyDigits n =>
    some ("Exceeds the limit (" ++ Integer.text Integer.maxDigits ++
      " digits) for integer string conversion: value has " ++ Integer.text n ++
      " digits; use sys.set_int_max_str_digits() to increase the limit")
  | .noNumber => some "cannot convert float NaN to integer"
  | .tooFewParts n =>
    some ("not enough values to unpack (expected 2, got " ++ Integer.text n ++ ")")
  | .tooManyParts => some "too many values to unpack (expected 2)"
  | .notAPair position length =>
    some ("dictionary update sequence element #" ++ Integer.text position ++ " has length " ++
      Integer.text length ++ "; 2 is required")
  | .unknownContext given =>
    some ("context must be one of ('query', 'filter'), got: " ++ given.display)
  | .unknownJoin given =>
    some ("default_join must be one of ('AND', 'OR'), got: " ++ given.display)
  | .emptyPattern => some "Index pattern cannot be empty"
  | .hiddenPattern => some "Index pattern cannot start with underscore"
  | .patternCharacters found =>
    some ("Invalid characters in index pattern: " ++
      (Json.texts (found.map ([·]))).display)
  | .unsupportedMatcher given => some ("Unsupported field query type: " ++ given.plain)
  | .unknownDirection given => some (Text.quoted given ++ " is not a valid SortOrder")
  | .noAggregations => some "Query has no aggregations"
  | .noScroll => some "Query has no open scroll context"
  | .levelWithoutAggregation level =>
    some ("Group-by level without an aggregation: " ++ level.plain)
  | .unknownIndexType given => some ("Unknown index type: " ++ given.plain)
  | .rangeConflict side token =>
    some ("attempted to set more than one " ++ side.name ++ "-bound operator in range: " ++ token)
  | .badColumn file selector =>
    some ("Column selector for " ++ file ++ " must be an integer, got: " ++ selector)
  | .missingKeyPath file =>
    some ("For newline delimited JSON, please specify the key, ie <field>:" ++ file ++
      "[key.path.i.want]")
  | .noValues file path => some ("Retrieved no values from " ++ file ++ " at key path " ++ path)
  | .tooDeep limit => some ("Nested queries deeper than " ++ limit.plain ++ " levels")
  | .searchFailed reason => some ("Elasticsearch search failed: " ++ reason)
  | .scrollFailed reason => some ("Elasticsearch scroll failed: " ++ reason)
  | .aggregationFailed reason => some ("Elasticsearch aggregation failed: " ++ reason)
  | .mappingFailed reason => some ("Failed to get index mappings: " ++ reason)

/-- The wording of a cause, empty if it has none. -/
def message (failure : Failure) : Text :=
  failure.message?.getD ""

end Failure

end LogQuery
