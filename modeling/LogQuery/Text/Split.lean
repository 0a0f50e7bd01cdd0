import LogQuery.Text.Class

/-!
Cutting texts: at every separator, at the first one, at blanks, and at the ends.
-/

namespace LogQuery.Text

/-- The pieces between the separators; always one more than there are separators. -/
def splitWhere {α : Type} (sep : α → Bool) : List α → List (List α)
  | [] => [[]]
  | c :: cs =>
    if sep c then [] :: splitWhere sep cs
    else
      match splitWhere sep cs with
      | [] => [[c]]
      | piece :: pieces => (c :: piece) :: pieces

/-- The pieces between the occurrences of one code point. -/
def splitOn (sep : CodePoint) (cs : Text) : List Text :=
  splitWhere (· == sep) cs

/-- What stands before the first separator, and what stands after it if there is one. -/
def splitFirst (sep : CodePoint → Bool) : Text → Text × Option Text
  | [] => ([], none)
  | c :: cs =>
    if sep c then ([], some cs)
    else
      let (before, after) := splitFirst sep cs
      (c :: before, after)

/-- Cut at the first occurrence of `sep`; the rest is empty if there is none. -/
def partition (sep : CodePoint) (cs : Text) : Text × Text :=
  let (before, after) := splitFirst (· == sep) cs
  (before, after.getD [])

/-- The longest runs without a blank. -/
def words (cs : Text) : List Text :=
  (splitWhere isBlank cs).filter (!·.isEmpty)

/-- Drop the code points of a class from both ends. -/
def strip (drop : CodePoint → Bool) (cs : Text) : Text :=
  ((cs.dropWhile drop).reverse.dropWhile drop).reverse

/-- Drop the code points of a class from the end. -/
def stripEnd (drop : CodePoint → Bool) (cs : Text) : Text :=
  (cs.reverse.dropWhile drop).reverse

/-- The text without one final line feed: a closing anchor looks past it. -/
def dropFinalNewline (cs : Text) : Text :=
  match cs.getLast? with
  | some (.char '\n') => cs.dropLast
  | _ => cs

/-- Whether the first text is a piece of the second. -/
def occursIn (piece : Text) : Text → Bool
  | [] => piece.isEmpty
  | c :: cs => piece.isPrefixOf (c :: cs) || occursIn piece cs

def join (sep : Text) (pieces : List Text) : Text :=
  sep.intercalate pieces

/-- Every occurrence of `old` becomes the text `new`. -/
def replace (old : CodePoint) (new : Text) (cs : Text) : Text :=
  cs.flatMap fun c => if c == old then new else [c]

theorem splitWhere_ne_nil {α : Type} (sep : α → Bool) (cs : List α) : splitWhere sep cs ≠ [] := by
  cases cs with
  | nil => simp [splitWhere]
  | cons c cs =>
    simp only [splitWhere]
    split
    · simp
    · split <;> simp

/-- Nothing but the separators is lost. -/
theorem flatten_splitWhere {α : Type} (sep : α → Bool) (cs : List α) :
    (splitWhere sep cs).flatten = cs.filter (!sep ·) := by
  induction cs with
  | nil => rfl
  | cons c cs ih =>
    by_cases h : sep c
    · simp [splitWhere, h, ih]
    · cases hs : splitWhere sep cs with
      | nil => exact absurd hs (splitWhere_ne_nil sep cs)
      | cons piece pieces =>
        rw [hs] at ih
        simp [splitWhere, h, hs, ← ih]

/-- The first piece and the rest, with the separator between them, give the text back. -/
theorem splitFirst_some {sep : CodePoint → Bool} {cs before after : Text}
    (h : splitFirst sep cs = (before, some after)) :
    ∃ c, sep c = true ∧ cs = before ++ c :: after := by
  induction cs generalizing before with
  | nil => simp [splitFirst] at h
  | cons c cs ih =>
    by_cases hc : sep c
    · simp [splitFirst, hc] at h
      exact ⟨c, hc, by simp [← h.1, ← h.2]⟩
    · cases hs : splitFirst sep cs with
      | mk left right =>
        simp only [splitFirst, hc, hs] at h
        obtain ⟨rfl, rfl⟩ := Prod.mk.inj h
        obtain ⟨d, hd, hcs⟩ := ih hs
        exact ⟨d, hd, by rw [hcs]; rfl⟩

end LogQuery.Text
