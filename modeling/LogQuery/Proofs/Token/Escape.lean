import LogQuery.Token.Recognizer
import Mathlib.Algebra.Ring.Parity
import Mathlib.Data.List.Induction

/-! Escaping of free text. A backslash is put right before every special character that has none
before it, and nowhere else. Without the backslashes that were put in, the text is as it was, and
there is nothing to escape in it a second time.

For a reader of free text a character is escaped if an odd number of backslashes stands before it,
since two in a row stand for one. A special character with an even number of them before it is left
alone and is then not escaped. -/

namespace LogQuery.Token.Escape

open Recognizer

variable {around : Surroundings} {depth : Json} {token text : Text} {after : Bool} {c : CodePoint}

/-! ## Marks -/

/-- A code point of an escaped text, and whether it was put in. -/
structure Mark where
  point : CodePoint
  isNew : Bool

/-- The text with what was put in. -/
def written (marks : List Mark) : Text :=
  marks.map Mark.point

/-- The text without what was put in. -/
def kept (marks : List Mark) : Text :=
  (marks.filter (!·.isNew)).map Mark.point

/-- The marks are those of the text with its escapes. What was put in is a backslash each time, and
stands right before a code point of the text. There is one before a code point exactly if that is
special and no backslash stands before it in the text. -/
structure IsEscaping (text : Text) (marks : List Mark) : Prop where
  kept_eq : kept marks = text
  isNew : ∀ front m rest, marks = front ++ m :: rest → m.isNew = true →
    m.point = .char '\\' ∧ ∃ next, rest.head? = some next ∧ next.isNew = false
  isOld : ∀ front m rest, marks = front ++ m :: rest → m.isNew = false →
    ((∃ mark, front.getLast? = some mark ∧ mark.isNew = true) ↔
      isSpecial m.point = true ∧ (kept front).getLast? ≠ some (.char '\\'))

/-- What is put in before a code point, given whether a backslash stands before it. -/
def marksBefore (after : Bool) (c : CodePoint) : List Mark :=
  if isSpecial c && !after then [⟨.char '\\', true⟩] else []

/-- The marks of a text with its escapes, given whether a backslash stands before it. -/
def marksFrom (after : Bool) : Text → List Mark
  | [] => []
  | c :: cs => marksBefore after c ++ ⟨c, false⟩ :: marksFrom (c == .char '\\') cs

/-- A backslash stands last in a text, or before it if there is nothing in it. -/
def endsInBackslash (after : Bool) (text : Text) : Bool :=
  (text.getLast?.map (· == .char '\\')).getD after

theorem ne_backslash_of_isSpecial (h : isSpecial c = true) : c ≠ .char '\\' := by
  rintro rfl
  exact absurd h (by decide)

theorem written_append (marks others : List Mark) :
    written (marks ++ others) = written marks ++ written others :=
  List.map_append

theorem kept_append (marks others : List Mark) :
    kept (marks ++ others) = kept marks ++ kept others := by
  rw [kept, List.filter_append, List.map_append]
  rfl

theorem marksBefore_cases (after : Bool) (c : CodePoint) :
    marksBefore after c = [] ∨ marksBefore after c = [⟨.char '\\', true⟩] := by
  unfold marksBefore
  split
  · exact .inr rfl
  · exact .inl rfl

theorem kept_marksBefore (after : Bool) (c : CodePoint) : kept (marksBefore after c) = [] := by
  rcases marksBefore_cases after c with h | h <;> rw [h] <;> rfl

theorem endsInBackslash_cons (after : Bool) (c : CodePoint) (text : Text) :
    endsInBackslash after (c :: text) = endsInBackslash (c == .char '\\') text := by
  cases text with
  | nil => rfl
  | cons d text =>
      rw [endsInBackslash, endsInBackslash, List.getLast?_cons_cons]
      simp [List.getLast?_cons]

theorem endsInBackslash_eq_true_iff {front : Text} :
    endsInBackslash false front = true ↔ front.getLast? = some (.char '\\') := by
  rw [endsInBackslash]
  cases front.getLast? <;> simp

/-- The marks are written as the escaped text. -/
theorem written_marksFrom (after : Bool) (text : Text) :
    written (marksFrom after text) = escapeFrom after text := by
  induction text generalizing after with
  | nil => rfl
  | cons c text ih =>
      rw [marksFrom, written_append, escapeFrom, marksBefore]
      split
      · rename_i hEscape
        have hSpecial : isSpecial c = true := (Bool.and_eq_true_iff.mp hEscape).1
        rw [beq_eq_false_iff_ne.mpr (ne_backslash_of_isSpecial hSpecial), ← ih]
        rfl
      · rw [← ih]
        rfl

theorem kept_marksFrom (after : Bool) (text : Text) : kept (marksFrom after text) = text := by
  induction text generalizing after with
  | nil => rfl
  | cons c text ih =>
      have hTail : kept (⟨c, false⟩ :: marksFrom (c == .char '\\') text) =
          c :: kept (marksFrom (c == .char '\\') text) := rfl
      rw [marksFrom, kept_append, kept_marksBefore, hTail, ih, List.nil_append]

theorem marksFrom_append (after : Bool) (front rest : Text) :
    marksFrom after (front ++ rest) =
      marksFrom after front ++ marksFrom (endsInBackslash after front) rest := by
  induction front generalizing after with
  | nil => rfl
  | cons c front ih =>
      rw [List.cons_append, marksFrom, ih, endsInBackslash_cons, marksFrom, List.append_assoc,
        List.cons_append]

/-- Before a code point stand the escaped text before it and what is put in for the code point. -/
theorem exists_escapeFrom_append_cons (after : Bool) (front : Text) (c : CodePoint) (rest : Text) :
    ∃ behind, escapeFrom after (front ++ c :: rest) = escapeFrom after front ++
      written (marksBefore (endsInBackslash after front) c) ++ c :: behind := by
  refine ⟨escapeFrom (c == .char '\\') rest, ?_⟩
  rw [← written_marksFrom, marksFrom_append, marksFrom, written_append, written_append,
    written_marksFrom, List.append_assoc, ← written_marksFrom (c == .char '\\')]
  rfl

/-- Where one of the marks of a text comes from: it was put in before a code point, or it is one,
after the marks of what comes before it. -/
inductive Origin (after : Bool) (text : Text) (front rest : List Mark) : Mark → Prop
  | escape {c : CodePoint} (hNext : rest.head? = some ⟨c, false⟩) :
      Origin after text front rest ⟨.char '\\', true⟩
  | point (before : Text) {behind : Text} {c : CodePoint} (hText : text = before ++ c :: behind)
      (hFront : front = marksFrom after before ++ marksBefore (endsInBackslash after before) c) :
      Origin after text front rest ⟨c, false⟩

theorem origin_of_marksFrom_eq {front rest : List Mark} {m : Mark}
    (h : marksFrom after text = front ++ m :: rest) : Origin after text front rest m := by
  induction text generalizing after front with
  | nil => simp [marksFrom] at h
  | cons c text ih =>
      have hOld : ∀ front', ⟨c, false⟩ :: marksFrom (c == .char '\\') text = front' ++ m :: rest →
          Origin after (c :: text) (marksBefore after c ++ front') rest m := by
        intro front' hTail
        rcases List.cons_eq_append_iff.mp hTail with ⟨rfl, hHere⟩ | ⟨front'', rfl, hLater⟩
        · obtain ⟨rfl, -⟩ := List.cons.inj hHere
          exact .point [] rfl (List.append_nil _)
        · cases ih hLater with
          | escape hNext => exact .escape hNext
          | @point before behind d hText hFront =>
              refine .point (c :: before) (by rw [hText, List.cons_append]) ?_
              rw [hFront, endsInBackslash_cons, marksFrom, List.append_assoc, List.cons_append]
      rw [marksFrom] at h
      rcases marksBefore_cases after c with hNone | hEscape
      · rw [hNone, List.nil_append] at h
        have hOrigin := hOld front h
        rwa [hNone, List.nil_append] at hOrigin
      · rw [hEscape] at h
        rcases List.cons_eq_append_iff.mp h with ⟨rfl, hHere⟩ | ⟨front', rfl, hLater⟩
        · obtain ⟨rfl, rfl⟩ := List.cons.inj hHere
          exact .escape rfl
        · have hOrigin := hOld front' hLater
          rwa [hEscape] at hOrigin

/-- Nothing is put in at the end. -/
theorem isNew_of_getLast? {m : Mark} (h : (marksFrom after text).getLast? = some m) :
    m.isNew = false := by
  obtain ⟨front, hMarks⟩ := List.getLast?_eq_some_iff.mp h
  cases origin_of_marksFrom_eq hMarks with
  | escape hNext => cases hNext
  | point => rfl

theorem isEscaping_marksFrom (text : Text) : IsEscaping text (marksFrom false text) where
  kept_eq := kept_marksFrom false text
  isNew front m rest h hNew := by
    cases origin_of_marksFrom_eq h with
    | escape hNext => exact ⟨rfl, _, hNext, rfl⟩
    | point => cases hNew
  isOld front m rest h hOld := by
    cases origin_of_marksFrom_eq h with
    | escape => cases hOld
    | @point before behind c hText hFront =>
        rw [hFront, kept_append, kept_marksFrom, kept_marksBefore, List.append_nil, ne_eq,
          ← endsInBackslash_eq_true_iff, Bool.not_eq_true, marksBefore]
        split
        · rename_i hEscape
          rw [Bool.and_eq_true, Bool.not_eq_true'] at hEscape
          exact iff_of_true ⟨⟨.char '\\', true⟩, List.getLast?_concat, rfl⟩ hEscape
        · rename_i hNone
          rw [Bool.and_eq_true, Bool.not_eq_true'] at hNone
          refine iff_of_false ?_ hNone
          rintro ⟨mark, hLast, hNew⟩
          rw [List.append_nil] at hLast
          rw [isNew_of_getLast? hLast] at hNew
          cases hNew

/-- A special character in an escaped text is one of the text, after what comes before it, escaped,
and the backslash that is put in before it. -/
theorem exists_of_escapeFrom_eq {front rest : Text} (hSpecial : isSpecial c = true)
    (h : escapeFrom after text = front ++ c :: rest) :
    ∃ before behind, text = before ++ c :: behind ∧
      front = escapeFrom after before ++ written (marksBefore (endsInBackslash after before) c) := by
  rw [← written_marksFrom, written] at h
  obtain ⟨front, tail, hMarks, rfl, hTail⟩ := List.map_eq_append_iff.mp h
  obtain ⟨m, rest, rfl, rfl, rfl⟩ := List.map_eq_cons_iff.mp hTail
  cases origin_of_marksFrom_eq hMarks with
  | escape => exact absurd rfl (ne_backslash_of_isSpecial hSpecial)
  | @point before behind d hText hFront =>
      refine ⟨before, behind, hText, ?_⟩
      rw [hFront, ← written_marksFrom, ← written_append]
      rfl

/-! ## Backslashes before a character -/

/-- How many backslashes stand last in a text. -/
def backslashes (text : Text) : Nat :=
  (text.reverse.takeWhile (· == .char '\\')).length

theorem backslashes_concat (text : Text) (c : CodePoint) :
    backslashes (text ++ [c]) = if c = .char '\\' then backslashes text + 1 else 0 := by
  rw [backslashes, List.reverse_append]
  by_cases h : c = .char '\\' <;> simp [h, backslashes]

theorem getLast?_eq_backslash_iff {front : Text} :
    front.getLast? = some (.char '\\') ↔ backslashes front ≠ 0 := by
  induction front using List.reverseRecOn with
  | nil => exact iff_of_false (by simp) fun h => h rfl
  | append_singleton front c _ =>
      rw [backslashes_concat, List.getLast?_concat, Option.some_inj]
      split <;> simp [*]

/-- A run of backslashes stays as it is. -/
theorem backslashes_escapeFrom (after : Bool) (front : Text) :
    backslashes (escapeFrom after front) = backslashes front := by
  induction front using List.reverseRecOn with
  | nil => rfl
  | append_singleton front c ih =>
      have hLast : written (marksFrom (endsInBackslash after front) [c]) =
          written (marksBefore (endsInBackslash after front) c) ++ [c] := written_append _ _
      rw [← written_marksFrom, marksFrom_append, written_append, written_marksFrom, hLast,
        ← List.append_assoc, backslashes_concat, backslashes_concat]
      split
      · rename_i hBackslash
        have hNone : marksBefore (endsInBackslash after front) c = [] := by
          rw [hBackslash]
          rfl
        rw [hNone, ← ih, written, List.map_nil, List.append_nil]
      · rfl

/-- Before a special character one backslash is put in if there was none, and the others stay. -/
theorem backslashes_before (front : Text) (h : isSpecial c = true) :
    backslashes (escapeFrom false front ++
        written (marksBefore (endsInBackslash false front) c)) =
      if backslashes front = 0 then 1 else backslashes front := by
  have hEnds : endsInBackslash false front = true ↔ backslashes front ≠ 0 :=
    endsInBackslash_eq_true_iff.trans getLast?_eq_backslash_iff
  rw [marksBefore, h, Bool.true_and]
  by_cases hNone : backslashes front = 0
  · have hFalse : endsInBackslash false front = false := by
      rw [Bool.eq_false_iff]
      exact fun hTrue => hEnds.mp hTrue hNone
    have hPut : written [⟨.char '\\', true⟩] = [.char '\\'] := rfl
    rw [hFalse, Bool.not_false, if_pos rfl, hPut, backslashes_concat, if_pos rfl,
      backslashes_escapeFrom, if_pos hNone, hNone]
  · rw [hEnds.mpr hNone, Bool.not_true, if_neg Bool.false_ne_true, written, List.map_nil,
      List.append_nil, backslashes_escapeFrom, if_neg hNone]

/-! ## Escaping once -/

/-- A backslash stands right before every special character of the text. -/
def HasEscapes (text : Text) : Prop :=
  ∀ front c rest, text = front ++ c :: rest → isSpecial c = true →
    front.getLast? = some (.char '\\')

theorem hasEscapes_escape (text : Text) : HasEscapes (escape text) := by
  intro front c rest h hSpecial
  obtain ⟨before, behind, -, rfl⟩ := exists_of_escapeFrom_eq hSpecial h
  rw [getLast?_eq_backslash_iff, backslashes_before before hSpecial]
  split <;> simp [*]

theorem escapeFrom_eq_self_of_forall (h : ∀ front c rest, text = front ++ c :: rest →
    isSpecial c = true → endsInBackslash after front = true) : escapeFrom after text = text := by
  induction text generalizing after with
  | nil => rfl
  | cons c text ih =>
      have hRest : escapeFrom (c == .char '\\') text = text := by
        refine ih fun front d rest hText hSpecial => ?_
        rw [← endsInBackslash_cons after]
        exact h (c :: front) d rest (by rw [hText, List.cons_append]) hSpecial
      rw [escapeFrom, hRest, if_neg]
      rw [Bool.and_eq_true, Bool.not_eq_true', not_and, Bool.not_eq_false]
      exact h [] c text rfl

/-- Escaping again changes nothing. -/
theorem HasEscapes.escape_eq (h : HasEscapes text) : escape text = text :=
  escapeFrom_eq_self_of_forall fun front c rest hText hSpecial =>
    endsInBackslash_eq_true_iff.mpr (h front c rest hText hSpecial)

/-- Take each backslash away from what it stands before. -/
def unescape : Text → Text
  | .char '\\' :: c :: cs => c :: unescape cs
  | c :: cs => c :: unescape cs
  | [] => []

theorem unescape_escape (h : .char '\\' ∉ text) : unescape (escape text) = text := by
  rw [escape]
  induction text with
  | nil => rfl
  | cons c text ih =>
      rw [List.mem_cons, not_or] at h
      obtain ⟨hFirst, hRest⟩ := h
      rw [escapeFrom, beq_eq_false_iff_ne.mpr (Ne.symm hFirst)]
      split
      · rw [unescape, ih hRest]
      · rw [unescape, ih hRest]
        intro d cs hBackslash
        exact absurd hBackslash.symm hFirst

theorem text?_eq (token : Text) :
    text? token = if escape token = token then none else some (escape token) := by
  simp only [text?, beq_iff_eq]

/-- The recognizer that escapes puts a backslash right before every special character that has none
before it, and nowhere else: it claims a token exactly if this changes it. In the text that results
every special character has a backslash before it, the token is what is left of it without those
that were put in, and where there was none before also what comes of reading the escapes; the
recognizer declines that text. -/
theorem exists_escaping (around : Surroundings) (depth : Json) (token : Text) :
    ∃ marks, IsEscaping token marks ∧ HasEscapes (written marks) ∧
      (.char '\\' ∉ token → unescape (written marks) = token) ∧
      expandStock around depth .autoEscape token =
        .done (if written marks = token then none else some [Piece.ofText (written marks)]) ∧
      expandStock around depth .autoEscape (written marks) = .done none := by
  have hWritten : written (marksFrom false token) = escape token := written_marksFrom false token
  have hEscapes := hasEscapes_escape token
  refine ⟨marksFrom false token, isEscaping_marksFrom token, ?_⟩
  rw [hWritten]
  refine ⟨hEscapes, unescape_escape, ?_, ?_⟩
  · rw [expandStock, text?_eq]
    split <;> rfl
  · rw [expandStock, text?_eq, if_pos hEscapes.escape_eq]
    rfl

/-! ## Escaped characters -/

/-- Every special character of the text has an odd number of backslashes before it. -/
def IsSafe (text : Text) : Prop :=
  ∀ front c rest, text = front ++ c :: rest → isSpecial c = true → Odd (backslashes front)

/-- What the recognizer that escapes leaves of a token for free text: the escaped text if it claims
the token, and the token itself if it declines. -/
inductive Leaves (around : Surroundings) (depth : Json) (token : Text) : Text → Prop
  | claimed {text : Text}
      (h : expandStock around depth .autoEscape token = .done (some [Piece.ofText text])) :
      Leaves around depth token text
  | declined (h : expandStock around depth .autoEscape token = .done none) :
      Leaves around depth token token

theorem leaves_escape (around : Surroundings) (depth : Json) (token : Text) :
    Leaves around depth token (escape token) := by
  by_cases h : escape token = token
  · rw [h]
    refine .declined ?_
    rw [expandStock, text?_eq, if_pos h]
    rfl
  · refine .claimed ?_
    rw [expandStock, text?_eq, if_neg h]
    rfl

/-- What is left of a token for free text is safe exactly if no special character of the token has
a positive even number of backslashes before it. -/
theorem exists_leaves_isSafe_iff (around : Surroundings) (depth : Json) (token : Text) :
    ∃ text, Leaves around depth token text ∧
      (IsSafe text ↔ ∀ front c rest, token = front ++ c :: rest → isSpecial c = true →
        backslashes front = 0 ∨ Odd (backslashes front)) := by
  refine ⟨escape token, leaves_escape around depth token, ?_⟩
  constructor
  · intro hSafe front c rest hToken hSpecial
    obtain ⟨behind, hEscape⟩ := exists_escapeFrom_append_cons false front c rest
    rw [← hToken] at hEscape
    have hOdd := hSafe _ c behind hEscape hSpecial
    rw [backslashes_before front hSpecial] at hOdd
    split at hOdd
    · exact .inl ‹_›
    · exact .inr hOdd
  · intro hToken front c rest hEscape hSpecial
    obtain ⟨before, behind, hSplit, rfl⟩ := exists_of_escapeFrom_eq hSpecial hEscape
    rw [backslashes_before before hSpecial]
    split
    · exact odd_one
    · exact (hToken before c behind hSplit hSpecial).resolve_left ‹_›

/-- Two backslashes stand for one, and the slash after them is left as it is. -/
theorem not_isSafe_slash :
    Leaves ⟨.empty, .obj [], none⟩ (.int 0) "a\\\\/b" "a\\\\/b" ∧ ¬IsSafe "a\\\\/b" := by
  refine ⟨.declined rfl, fun hSafe => ?_⟩
  have hOdd : Odd (backslashes "a\\\\") := hSafe "a\\\\" (.char '/') "b" rfl rfl
  exact absurd hOdd (by decide)

end LogQuery.Token.Escape
