import LogQuery.Net.Address
import LogQuery.Text.Case

/-!
Tokens for nested documents: a path and a colon before tokens of their own, which may stand between
double quotes. What looks like a hardware address, a web address or an internet address is no such
token.
-/

namespace LogQuery.Token.Nested

/-- Names that are no paths. -/
def reservedPaths : List Text :=
  ["_prefix_", "_exists_", "_missing_"]

/-- Cut at the first colon, without a double quote after it. -/
def splitPath? (cs : Text) : Option (Text × Text) :=
  match Text.splitFirst (· == ':') cs with
  | (path, some (.char '"' :: rest)) => some (path, rest)
  | (path, some rest) => some (path, rest)
  | (_, none) => none

/-- A character that a field name goes on with. -/
def isFieldChar (c : CodePoint) : Bool :=
  Text.isWord c || c == '.'

/-- A field, a colon and a value stand at the front. -/
def isFieldValue (cs : Text) : Bool :=
  match cs with
  | c :: rest =>
    (c.isAlpha || c == '_') &&
      match rest.dropWhile isFieldChar with
      | .char ':' :: d :: _ => d != '\n'
      | _ => false
  | [] => false

def dropPair? (cs : Text) : Option Text :=
  match cs with
  | a :: b :: rest => if Text.isHex a && Text.isHex b then some rest else none
  | _ => none

def dropFurtherPair? (cs : Text) : Option Text :=
  match cs with
  | .char ':' :: rest => dropPair? rest
  | _ => none

/-- Three pairs of hexadecimal digits with colons between them stand at the front. -/
def startsLikeHardware (cs : Text) : Bool :=
  (((dropPair? cs).bind dropFurtherPair?).bind dropFurtherPair?).isSome

/-- A word, a colon and two slashes stand at the front. -/
def startsLikeWeb (cs : Text) : Bool :=
  match cs.dropWhile Text.isWord with
  | .char ':' :: .char '/' :: .char '/' :: _ => !(cs.takeWhile Text.isWord).isEmpty
  | _ => false

/-- The text is an internet address, perhaps between double quotes. -/
def isInternetAddress (cs : Text) : Bool :=
  Net.Address.isAddress (Text.strip (· == '"') cs)

def dropClosingQuote (cs : Text) : Text :=
  if cs.getLast? == some '"' then cs.dropLast else cs

/-- Drop a double quote at the end of the last text. -/
def closeQuote : List Text → List Text
  | [] => []
  | [last] => [dropClosingQuote last]
  | cs :: rest => cs :: closeQuote rest

/-- The path of a token and the tokens under it, if it is one for nested documents. -/
def split? (token : Text) : Option (Text × List Text) :=
  match Text.words token with
  | [] => none
  | first :: rest =>
    match splitPath? first with
    | none => none
    | some (path, front) =>
      if path.isEmpty || reservedPaths.contains (Text.lower path) then none
      else if !isFieldValue front then none
      else if startsLikeHardware token || startsLikeHardware front then none
      else if startsLikeWeb token || startsLikeWeb front then none
      else if isInternetAddress front then none
      else
        some (path, (closeQuote (front :: rest)).filter (!·.isEmpty))

end LogQuery.Token.Nested
