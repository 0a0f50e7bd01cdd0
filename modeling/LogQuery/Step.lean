import LogQuery.Failure

/-!
Steps that change a state and may fail. A failure keeps the changes made before it.
-/

namespace LogQuery

/-- A step on a state `σ` with a result or a failure. -/
def Step (σ α : Type) : Type :=
  σ → Except Failure α × σ

namespace Step

variable {σ τ α β γ : Type}

def run (x : Step σ α) (s : σ) : Except Failure α × σ :=
  x s

def done (a : α) : Step σ α :=
  fun s => (.ok a, s)

/-- Go on with a result; a failure ends the step. -/
def andThen (x : Step σ α) (f : α → Step σ β) : Step σ β :=
  fun s =>
    match x s with
    | (.ok a, t) => f a t
    | (.error failure, t) => (.error failure, t)

instance : Monad (Step σ) where
  pure := done
  bind := andThen

def fail (failure : Failure) : Step σ α :=
  fun s => (.error failure, s)

/-- A result or a failure without a change. -/
def of (result : Except Failure α) : Step σ α :=
  fun s => (result, s)

def state : Step σ σ :=
  fun s => (.ok s, s)

def change (f : σ → σ) : Step σ Unit :=
  fun s => (.ok (), f s)

/-- A step on a part of the state. -/
def onPart (part : σ → τ) (replace : σ → τ → σ) (x : Step τ α) : Step σ α :=
  fun s => ((x (part s)).1, replace s (x (part s)).2)

theorem run_pure (a : α) (s : σ) : (pure a : Step σ α).run s = (.ok a, s) := rfl

theorem run_bind (x : Step σ α) (f : α → Step σ β) (s : σ) :
    (x >>= f).run s =
      match x.run s with
      | (.ok a, t) => (f a).run t
      | (.error failure, t) => (.error failure, t) := rfl

theorem run_bind_of_ok {x : Step σ α} {f : α → Step σ β} {s t : σ} {a : α}
    (h : x.run s = (.ok a, t)) : (x >>= f).run s = (f a).run t := by
  rw [run_bind, h]

theorem run_bind_of_error {x : Step σ α} {f : α → Step σ β} {s t : σ} {failure : Failure}
    (h : x.run s = (.error failure, t)) : (x >>= f).run s = (.error failure, t) := by
  rw [run_bind, h]

theorem andThen_assoc (x : Step σ α) (f : α → Step σ β) (g : β → Step σ γ) :
    (x.andThen f).andThen g = x.andThen fun a => (f a).andThen g := by
  funext s
  unfold andThen
  cases h : x s with
  | mk result t => cases result <;> rfl

theorem andThen_done (x : Step σ α) : x.andThen done = x := by
  funext s
  unfold andThen
  cases h : x s with
  | mk result t => cases result <;> rfl

instance : LawfulMonad (Step σ) :=
  LawfulMonad.mk' (Step σ) andThen_done (fun _ _ => rfl) andThen_assoc

end Step

end LogQuery
