import LogQuery.Token.FreeText
import LogQuery.Token.Recognizer
import LogQuery.Json.Order
import LogQuery.Text.Order

/-!
Settings of a compilation of tokens, and the chain of recognizers that they make: the stock ones
with their options and any further ones, in the order of their priorities and names.
-/

namespace LogQuery

/-- Where conditions go. -/
inductive Context where
  | query
  | filter
deriving DecidableEq, Repr

namespace Context

def name : Context → Text
  | query => "query"
  | filter => "filter"

/-- The name of the section that conditions go to. -/
def sectionName : Context → Text
  | query => "must"
  | filter => "filter"

def read (given : Json) : Except Failure Context :=
  if given.isText "query" then .ok query
  else if given.isText "filter" then .ok filter
  else .error (.unknownContext given)

end Context

/-- Read a joining word, in whatever case it is given. -/
def Join.read (given : Json) : Except Failure Join := do
  let word ← if given.truthy then Text.upper <$> given.asText else pure ""
  if word == "AND" then return .and
  else if word == "OR" then return .or
  else .error (.unknownJoin given)

namespace Token

/-- A recognizer beside the stock ones. -/
structure Extra where
  name : Text
  priority : Json
  rule : Rule

structure Settings where
  context : Context
  join : Join
  /-- What is known of the fields of the documents. -/
  fieldsMeta : Json
  options : Json
  extras : List Extra
  /-- How deep this compilation is nested. -/
  depth : Json
  /-- How deep a compilation may be nested. -/
  maxDepth : Json
  /-- The depth of the compilation that the further recognizers belong to, if they were in use
  before; otherwise they belong to this one. -/
  extrasDepth : Option Json := none

/-! ## Options -/

/-- The option under a name; of several the last one counts. -/
def option? (options : List (Json × Json)) (name : Text) : Option Json :=
  (options.reverse.find? (·.1.isText name)).map (·.2)

/-- The option has a name, and one that is not taken. -/
def isUsable (option : Json × Json) : Bool :=
  match option.1 with
  | .str name => name != "qs" && name != "self"
  | _ => false

/-- The priority among the options of a recognizer. -/
def readPriority (options : List (Json × Json)) (default : Json) : Except Failure Json :=
  if options.all isUsable then
    match option? options "priority" with
    | some given => Json.int <$> given.asInteger
    | none => .ok default
  else .error .wrongType

/-- The priority that options give a stock recognizer, unless they disable it. -/
def stockPriority? (options : Json) (s : Stock) : Except Failure (Option Json) := do
  let entries ← (← options.memberOr s.optionKey (.obj [])).entries
  if ((option? entries "enabled").map Json.truthy).getD true then
    return some (← readPriority (entries.filter fun e => !e.1.isText "enabled")
      (.int s.priority))
  else return none

/-! ## The chain -/

namespace Settings

/-- A stock recognizer as the options have it. -/
def loadStock (s : Settings) (stock : Stock) : Except Failure (Option Recognizer) := do
  match ← stockPriority? s.options stock with
  | some priority => return some ⟨stock.name, priority, .stock stock, s.depth⟩
  | none => return none

def loadExtra (s : Settings) (extra : Extra) : Recognizer :=
  ⟨extra.name, extra.priority, extra.rule, s.extrasDepth.getD s.depth⟩

/-- A recognizer is tried before another; priorities that cannot be compared fail. -/
def triedBefore (a b : Recognizer) : Except Failure Bool :=
  if a.priority.same b.priority then .ok (Text.before a.name b.name)
  else a.priority.less b.priority

/-- The recognizers in the order in which they are tried. -/
def chain (s : Settings) : Except Failure (List Recognizer) := do
  let stock ← Stock.all.mapM s.loadStock
  Text.sortByHalving triedBefore (stock.filterMap id ++ s.extras.map s.loadExtra)

/-- The depth of a compilation nested in one at a depth, unless that is too deep. -/
def deeper (s : Settings) (depth : Json) : Except Failure Json := do
  let depth ← depth.succ
  if ← s.maxDepth.less depth then .error (.tooDeep s.maxDepth) else return depth

/-- The settings of a compilation at a depth. -/
def inner (s : Settings) (depth : Json) : Settings :=
  { s with depth }

/-- The settings once the further recognizers are in use. -/
def inUse (s : Settings) : Settings :=
  { s with extrasDepth := some (s.extrasDepth.getD s.depth) }

end Settings

end Token

end LogQuery
