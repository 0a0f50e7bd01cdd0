import LogQuery.Config
import LogQuery.Step

/-!
The cluster as a partner that answers calls. Its answers to each kind of call are given beforehand,
one after the other; when none is left the answer is empty. Every call is recorded before it is
answered.
-/

namespace LogQuery.Cluster

inductive Method where
  | search
  | scroll
  | clearScroll
  | count
  | getMapping
deriving DecidableEq, Repr

namespace Method

def name : Method → Text
  | search => "search"
  | scroll => "scroll"
  | clearScroll => "clear_scroll"
  | count => "count"
  | getMapping => "get_mapping"

def all : List Method :=
  [search, scroll, clearScroll, count, getMapping]

end Method

/-- An answer to a call: a document, or a refusal with its reason. -/
inductive Reply where
  | answer (document : Json)
  | refusal (reason : Text)

structure Call where
  method : Method
  arguments : Members

/-- The answers still to be given, and the calls so far. -/
structure State where
  replies : Method → List Reply
  calls : List Call

/-- The first answer to a kind of call, and the ones after it. -/
def nextReply : List Reply → Reply × List Reply
  | [] => (.answer (.obj []), [])
  | reply :: replies => (reply, replies)

def send (method : Method) (arguments : Members) (s : State) : Reply × State :=
  let (reply, rest) := nextReply (s.replies method)
  (reply,
    { replies := fun m => if m = method then rest else s.replies m
      calls := s.calls ++ [⟨method, arguments⟩] })

/-- The document that a call gives, or the failure that a refusal is. -/
def request (method : Method) (arguments : Members) (refused : Text → Failure) :
    Step State Json :=
  fun s =>
    match send method arguments s with
    | (.answer document, s) => (.ok document, s)
    | (.refusal reason, s) => (.error (refused reason), s)

theorem calls_send (method : Method) (arguments : Members) (s : State) :
    (send method arguments s).2.calls = s.calls ++ [⟨method, arguments⟩] := rfl

end LogQuery.Cluster
