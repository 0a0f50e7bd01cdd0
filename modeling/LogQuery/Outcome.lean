import LogQuery.Failure

/-!
Outcomes of a compilation step: a result or a failure, and the warnings given on the way. A failure
keeps the warnings given before it. Outcomes form a lawful monad, so that steps can be regrouped.
-/

namespace LogQuery

/-- A line of a value file that is not well formed. -/
structure Warning where
  file : Text
  /-- Counted from one. -/
  line : Nat
deriving DecidableEq, Repr

def Warning.message (w : Warning) : Text :=
  "Invalid JSON in " ++ w.file ++ ", line " ++ Integer.text w.line

/-- A result or a failure, and the warnings given on the way. -/
structure Outcome (α : Type) where
  result : Except Failure α
  warnings : List Warning

namespace Outcome

variable {α β : Type}

def done (a : α) : Outcome α :=
  ⟨.ok a, []⟩

def fail (failure : Failure) : Outcome α :=
  ⟨.error failure, []⟩

def warn (w : Warning) : Outcome Unit :=
  ⟨.ok (), [w]⟩

/-- A result or a failure, without a warning. -/
def of (result : Except Failure α) : Outcome α :=
  ⟨result, []⟩

/-- Go on with a result; a failure stays, and so do the warnings. -/
def andThen (x : Outcome α) (f : α → Outcome β) : Outcome β :=
  match x.result with
  | .ok a => ⟨(f a).result, x.warnings ++ (f a).warnings⟩
  | .error failure => ⟨.error failure, x.warnings⟩

instance : Monad Outcome where
  pure := done
  bind := andThen

theorem bind_def (x : Outcome α) (f : α → Outcome β) : x >>= f = x.andThen f := rfl

theorem pure_def (a : α) : (pure a : Outcome α) = done a := rfl

@[simp]
theorem done_andThen (a : α) (f : α → Outcome β) : (done a).andThen f = f a := by
  simp [done, andThen]

@[simp]
theorem fail_andThen (failure : Failure) (f : α → Outcome β) :
    (fail failure).andThen f = fail failure := rfl

theorem andThen_done (x : Outcome α) : x.andThen done = x := by
  obtain ⟨result, warnings⟩ := x
  cases result <;> simp [andThen, done]

theorem andThen_assoc {γ : Type} (x : Outcome α) (f : α → Outcome β) (g : β → Outcome γ) :
    (x.andThen f).andThen g = x.andThen fun a => (f a).andThen g := by
  obtain ⟨result, warnings⟩ := x
  cases result with
  | error failure => rfl
  | ok a => cases h : (f a).result <;> simp [andThen, h]

instance : LawfulMonad Outcome :=
  LawfulMonad.mk'
    Outcome
    andThen_done
    done_andThen
    andThen_assoc

/-- The results of a list of steps taken in order. -/
def collect (f : α → Outcome β) : List α → Outcome (List β)
  | [] => done []
  | a :: as => do
    let b ← f a
    let bs ← collect f as
    return b :: bs

end Outcome

end LogQuery
