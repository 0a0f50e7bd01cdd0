import LogQuery.Proofs.Text.Split
import LogQuery.Text.Lines
import Mathlib.Data.List.TakeWhile

/-! Lines, and columns within them. A text is made of just one list of lines, and a list of just one
list of pieces with a separator between any two. -/

namespace LogQuery.Text

variable {α : Type} {sep : α → Bool} {cs front rest line : Text} {lines' : List Text}

/-! ## Pieces -/

/-- A list as pieces without a separator, with one separator between any two. -/
inductive IsCut (sep : α → Bool) : List α → List (List α) → Prop
  | last {piece : List α} (h : ∀ a ∈ piece, sep a = false) : IsCut sep piece [piece]
  | more {piece rest : List α} {pieces : List (List α)} {a : α}
      (hPiece : ∀ b ∈ piece, sep b = false) (hSep : sep a = true) (hRest : IsCut sep rest pieces) :
      IsCut sep (piece ++ a :: rest) (piece :: pieces)

theorem IsCut.cons_of_not {a : α} {as : List α} {piece : List α} {pieces : List (List α)}
    (ha : sep a = false) (h : IsCut sep as (piece :: pieces)) :
    IsCut sep (a :: as) ((a :: piece) :: pieces) := by
  cases h with
  | last h => exact .last (List.forall_mem_cons.mpr ⟨ha, h⟩)
  | more hPiece hSep hRest => exact .more (List.forall_mem_cons.mpr ⟨ha, hPiece⟩) hSep hRest

theorem isCut_splitWhere (sep : α → Bool) (as : List α) : IsCut sep as (splitWhere sep as) := by
  induction as with
  | nil => exact .last (List.forall_mem_nil _)
  | cons a as ih =>
      rw [splitWhere]
      cases hSep : sep a with
      | true =>
          have hEmpty : ∀ b ∈ ([] : List α), sep b = false := List.forall_mem_nil _
          exact .more hEmpty hSep ih
      | false =>
          obtain ⟨piece, pieces, hPieces⟩ := List.exists_cons_of_ne_nil (splitWhere_ne_nil sep as)
          rw [hPieces] at ih ⊢
          exact ih.cons_of_not hSep

theorem splitWhere_eq_iff {as : List α} {pieces : List (List α)} :
    splitWhere sep as = pieces ↔ IsCut sep as pieces := by
  constructor
  · rintro rfl
    exact isCut_splitWhere sep as
  · intro h
    induction h with
    | last h => exact splitWhere_of_forall h
    | more hPiece hSep _ ih => rw [splitWhere_append_cons hPiece hSep, ih]

/-! ## Lines -/

/-- A code point that ends a line, or half of a pair that does. -/
def isLineEnd (c : CodePoint) : Bool :=
  c == '\n' || c == '\r'

/-- A text as lines. A line feed, a carriage return or the pair of them stands behind each; behind
the last one there may be nothing, if it is not empty. -/
inductive HasLines : Text → List Text → Prop
  | empty : HasLines [] []
  | unended {line : Text} (hSome : line ≠ []) (hLine : ∀ c ∈ line, isLineEnd c = false) :
      HasLines line [line]
  | feed {line cs : Text} {lines : List Text} (hLine : ∀ c ∈ line, isLineEnd c = false)
      (h : HasLines cs lines) : HasLines (line ++ .char '\n' :: cs) (line :: lines)
  | carriage {line cs : Text} {lines : List Text} (hLine : ∀ c ∈ line, isLineEnd c = false)
      (hAlone : cs.head? ≠ some (.char '\n')) (h : HasLines cs lines) :
      HasLines (line ++ .char '\r' :: cs) (line :: lines)
  | pair {line cs : Text} {lines : List Text} (hLine : ∀ c ∈ line, isLineEnd c = false)
      (h : HasLines cs lines) :
      HasLines (line ++ .char '\r' :: .char '\n' :: cs) (line :: lines)

theorem foldLineEnds_append (h : ∀ c ∈ front, isLineEnd c = false) (rest : Text) :
    foldLineEnds (front ++ rest) = front ++ foldLineEnds rest := by
  induction front with
  | nil => rfl
  | cons c front ih =>
      obtain ⟨hFirst, hFront⟩ := List.forall_mem_cons.mp h
      have hReturn : c ≠ .char '\r' := ne_of_class (p := fun c => !isLineEnd c)
        (by simp [hFirst]) rfl
      rw [List.cons_append, foldLineEnds, ih hFront, List.cons_append]
      · intro _ hPair _
        exact hReturn hPair
      · exact hReturn

theorem foldLineEnds_carriage (h : rest.head? ≠ some (.char '\n')) :
    foldLineEnds (.char '\r' :: rest) = .char '\n' :: foldLineEnds rest := by
  rw [foldLineEnds]
  rintro cs rfl
  exact h rfl

theorem splitLines_append (h : ∀ c ∈ front, isLineEnd c = false) (rest : Text) :
    splitLines (front ++ .char '\n' :: rest) =
      (front :: (splitLines rest).1, (splitLines rest).2) := by
  induction front with
  | nil => rfl
  | cons c front ih =>
      obtain ⟨hFirst, hFront⟩ := List.forall_mem_cons.mp h
      have hFeed : (c == .char '\n') = false := by
        rw [isLineEnd, Bool.or_eq_false_iff] at hFirst
        exact hFirst.1
      rw [List.cons_append, splitLines, ih hFront]
      simp [hFeed]

theorem splitLines_of_forall (h : ∀ c ∈ front, isLineEnd c = false) :
    splitLines front = ([], front) := by
  induction front with
  | nil => rfl
  | cons c front ih =>
      obtain ⟨hFirst, hFront⟩ := List.forall_mem_cons.mp h
      have hFeed : (c == .char '\n') = false := by
        rw [isLineEnd, Bool.or_eq_false_iff] at hFirst
        exact hFirst.1
      rw [splitLines, ih hFront]
      simp [hFeed]

/-- A line that ends, in front of other lines. -/
theorem lines_of_foldLineEnds (hLine : ∀ c ∈ line, isLineEnd c = false)
    (h : foldLineEnds cs = line ++ .char '\n' :: foldLineEnds rest) :
    lines cs = line :: lines rest := by
  rw [lines, lines, h, splitLines_append hLine]
  dsimp only
  split <;> rfl

theorem HasLines.lines_eq (h : HasLines cs lines') : lines cs = lines' := by
  induction h with
  | empty => rfl
  | @unended line hSome hLine =>
      have hFold := foldLineEnds_append hLine []
      rw [List.append_nil, foldLineEnds, List.append_nil] at hFold
      rw [lines, hFold, splitLines_of_forall hLine]
      simp [hSome]
  | feed hLine _ ih =>
      rw [lines_of_foldLineEnds hLine (foldLineEnds_append hLine _), ih]
  | carriage hLine hAlone _ ih =>
      refine (lines_of_foldLineEnds hLine ?_).trans (congrArg _ ih)
      rw [foldLineEnds_append hLine, foldLineEnds_carriage hAlone]
  | pair hLine _ ih =>
      refine (lines_of_foldLineEnds hLine ?_).trans (congrArg _ ih)
      rw [foldLineEnds_append hLine, foldLineEnds]

theorem exists_hasLines (cs : Text) : ∃ lines, HasLines cs lines := by
  induction hLength : cs.length using Nat.strongRecOn generalizing cs with
  | _ length ih =>
      -- The first line is all in front of the first line end.
      obtain ⟨line, rest, rfl, hLine, hRest⟩ : ∃ line rest, cs = line ++ rest ∧
          (∀ c ∈ line, isLineEnd c = false) ∧ ∀ c ∈ rest.head?, isLineEnd c = true := by
        refine ⟨cs.takeWhile (!isLineEnd ·), cs.dropWhile (!isLineEnd ·),
          List.takeWhile_append_dropWhile.symm, ?_, ?_⟩
        · intro c hc
          simpa using List.mem_takeWhile_imp hc
        · intro c hc
          have hHead := List.head?_dropWhile_not (!isLineEnd ·) cs
          rw [Option.mem_def.mp hc] at hHead
          simpa using hHead
      have hSmaller : ∀ later, later.length < rest.length → ∃ lines, HasLines later lines := by
        intro later hLater
        refine ih later.length ?_ later rfl
        rw [← hLength, List.length_append]
        omega
      match rest, hRest, hSmaller with
      | [], _, _ =>
          rw [List.append_nil]
          by_cases hSome : line = []
          · exact ⟨[], hSome ▸ .empty⟩
          · exact ⟨[line], .unended hSome hLine⟩
      | c :: rest, hRest, hSmaller =>
          have hEnd := hRest c rfl
          rw [isLineEnd, Bool.or_eq_true_iff, beq_iff_eq, beq_iff_eq] at hEnd
          rcases hEnd with rfl | rfl
          · obtain ⟨lines, h⟩ := hSmaller rest (Nat.lt_succ_self _)
            exact ⟨line :: lines, .feed hLine h⟩
          · by_cases hPair : rest.head? = some (.char '\n')
            · obtain ⟨rest, rfl⟩ := List.head?_eq_some_iff.mp hPair
              obtain ⟨lines, h⟩ := hSmaller rest (by simp only [List.length_cons]; omega)
              exact ⟨line :: lines, .pair hLine h⟩
            · obtain ⟨lines, h⟩ := hSmaller rest (Nat.lt_succ_self _)
              exact ⟨line :: lines, .carriage hLine hPair h⟩

/-- The lines of a text are those that it is made of. -/
theorem lines_eq_iff : lines cs = lines' ↔ HasLines cs lines' := by
  constructor
  · rintro rfl
    obtain ⟨lines', h⟩ := exists_hasLines cs
    rwa [h.lines_eq]
  · exact HasLines.lines_eq

end LogQuery.Text
