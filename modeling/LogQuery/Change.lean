import LogQuery.Failure

/-!
Changes that may stop half way. What was reached until then is kept beside the failure.
-/

namespace LogQuery

/-- What a change reached, and the failure that stopped it, if one did. -/
structure Change (α : Type) where
  reached : α
  failure : Option Failure

/-- What was reached, if nothing stopped the change. -/
def Change.result {α : Type} (change : Change α) : Except Failure α :=
  match change.failure with
  | some failure => .error failure
  | none => .ok change.reached

end LogQuery
