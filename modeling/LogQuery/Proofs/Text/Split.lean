import LogQuery.Text.Split

/-! Cutting texts that were put together. Pieces without a separator, with separators between them,
are the pieces again, and the pieces of a text, put together again, are the text. Blanks separate
words; that there is none in a class of code points can be told from the blanks one by one. -/

namespace LogQuery.Text

variable {α : Type}

/-- A code point that a class holds is not one that it does not hold. -/
theorem ne_of_class {p : CodePoint → Bool} {c d : CodePoint} (hc : p c = true) (hd : p d = false) :
    c ≠ d := by
  rintro rfl
  rw [hc] at hd
  cases hd

theorem beq_eq_false_of_not_mem {sep : CodePoint} {cs : Text} (h : sep ∉ cs) :
    ∀ c ∈ cs, (c == sep) = false := by
  intro c hc
  rw [beq_eq_false_iff_ne]
  rintro rfl
  exact h hc

/-- What is replaced by a text without it is gone. -/
theorem notMem_replace {old : CodePoint} {new : Text} (h : old ∉ new) (cs : Text) :
    old ∉ replace old new cs := by
  intro hMem
  obtain ⟨c, -, hc⟩ := List.mem_flatMap.mp hMem
  split at hc
  · exact h hc
  · rename_i hOther
    rw [List.mem_singleton.mp hc] at hOther
    simp at hOther

theorem splitWhere_append_cons {sep : α → Bool} {front : List α} {c : α}
    (hFront : ∀ d ∈ front, sep d = false) (hSep : sep c = true) (rest : List α) :
    splitWhere sep (front ++ c :: rest) = front :: splitWhere sep rest := by
  induction front with
  | nil => rw [List.nil_append, splitWhere, if_pos hSep]
  | cons d front ih =>
      obtain ⟨hFirst, hFront⟩ := List.forall_mem_cons.mp hFront
      rw [List.cons_append, splitWhere, hFirst, ih hFront]
      rfl

theorem splitWhere_of_forall {sep : α → Bool} {cs : List α} (h : ∀ d ∈ cs, sep d = false) :
    splitWhere sep cs = [cs] := by
  induction cs with
  | nil => rfl
  | cons d cs ih =>
      obtain ⟨hFirst, hRest⟩ := List.forall_mem_cons.mp h
      rw [splitWhere, hFirst, ih hRest]
      rfl

theorem splitWhere_eq_singleton {sep : α → Bool} {cs piece : List α}
    (h : splitWhere sep cs = [piece]) : cs = piece := by
  induction cs generalizing piece with
  | nil => exact (List.cons.inj h).1
  | cons c cs ih =>
      rw [splitWhere] at h
      split at h
      · exact absurd (List.cons.inj h).2 (splitWhere_ne_nil sep cs)
      · obtain ⟨first, rest, hPieces⟩ := List.exists_cons_of_ne_nil (splitWhere_ne_nil sep cs)
        rw [hPieces] at h
        obtain ⟨rfl, rfl⟩ := List.cons.inj h
        rw [ih hPieces]

/-- Two pieces have one separator between them. -/
theorem splitWhere_eq_pair {sep : α → Bool} {cs left right : List α}
    (h : splitWhere sep cs = [left, right]) : ∃ c, sep c = true ∧ cs = left ++ c :: right := by
  induction cs generalizing left with
  | nil => cases (List.cons.inj h).2
  | cons c cs ih =>
      rw [splitWhere] at h
      split at h
      · rename_i hSep
        obtain ⟨rfl, hRest⟩ := List.cons.inj h
        exact ⟨c, hSep, by rw [splitWhere_eq_singleton hRest, List.nil_append]⟩
      · obtain ⟨first, rest, hPieces⟩ := List.exists_cons_of_ne_nil (splitWhere_ne_nil sep cs)
        rw [hPieces] at h
        obtain ⟨rfl, rfl⟩ := List.cons.inj h
        obtain ⟨d, hSep, rfl⟩ := ih hPieces
        exact ⟨d, hSep, rfl⟩

/-- Without a separator there is nothing to cut. -/
theorem splitFirst_of_forall {sep : CodePoint → Bool} {cs : Text}
    (h : ∀ d ∈ cs, sep d = false) : splitFirst sep cs = (cs, none) := by
  induction cs with
  | nil => rfl
  | cons d cs ih =>
      obtain ⟨hFirst, hRest⟩ := List.forall_mem_cons.mp h
      rw [splitFirst, hFirst, ih hRest]
      rfl

/-- There is no separator before the first one. -/
theorem forall_of_splitFirst {sep : CodePoint → Bool} {cs before : Text} {after : Option Text}
    (h : splitFirst sep cs = (before, after)) : ∀ d ∈ before, sep d = false := by
  induction cs generalizing before with
  | nil =>
      cases h
      exact fun d hd => absurd hd List.not_mem_nil
  | cons c cs ih =>
      rw [splitFirst] at h
      split at h
      · cases h
        exact fun d hd => absurd hd List.not_mem_nil
      · rename_i hSep
        cases h
        exact List.forall_mem_cons.mpr ⟨Bool.eq_false_iff.mpr hSep, ih rfl⟩

theorem splitFirst_append_cons {sep : CodePoint → Bool} {front : Text} {c : CodePoint}
    (hFront : ∀ d ∈ front, sep d = false) (hSep : sep c = true) (rest : Text) :
    splitFirst sep (front ++ c :: rest) = (front, some rest) := by
  induction front with
  | nil => rw [List.nil_append, splitFirst, if_pos hSep]
  | cons d front ih =>
      obtain ⟨hFirst, hFront⟩ := List.forall_mem_cons.mp hFront
      rw [List.cons_append, splitFirst, hFirst, ih hFront]
      rfl

theorem splitFirst_eq_some_iff {sep : CodePoint} {cs front back : Text} :
    splitFirst (· == sep) cs = (front, some back) ↔ sep ∉ front ∧ cs = front ++ sep :: back := by
  constructor
  · intro h
    obtain ⟨c, hSep, rfl⟩ := splitFirst_some h
    obtain rfl : c = sep := beq_iff_eq.mp hSep
    refine ⟨fun hMem => ?_, rfl⟩
    exact absurd (forall_of_splitFirst h c hMem) (by simp)
  · rintro ⟨hFront, rfl⟩
    exact splitFirst_append_cons (beq_eq_false_of_not_mem hFront) (beq_self_eq_true sep) back

theorem splitFirst_eq_none_iff {sep : CodePoint} {cs front : Text} :
    splitFirst (· == sep) cs = (front, none) ↔ sep ∉ cs ∧ cs = front := by
  by_cases hSep : sep ∈ cs
  · obtain ⟨before, after, rfl, hBefore⟩ := List.eq_append_cons_of_mem hSep
    rw [splitFirst_eq_some_iff.mpr ⟨hBefore, rfl⟩]
    simp
  · rw [splitFirst_of_forall (beq_eq_false_of_not_mem hSep)]
    simp [hSep]

theorem join_cons_cons (sep first second : Text) (rest : List Text) :
    join sep (first :: second :: rest) = first ++ sep ++ join sep (second :: rest) := by
  simp [join, List.intercalate]

theorem join_singleton (sep piece : Text) : join sep [piece] = piece := by
  simp [join, List.intercalate]

/-- A separator stands between two pieces. -/
theorem join_sep_cons_cons (sep : CodePoint) (first second : Text) (rest : List Text) :
    join [sep] (first :: second :: rest) = first ++ sep :: join [sep] (second :: rest) := by
  rw [join_cons_cons, List.append_assoc, List.singleton_append]

theorem join_space_cons_cons (first second : Text) (rest : List Text) :
    join " " (first :: second :: rest) = first ++ .char ' ' :: join " " (second :: rest) :=
  join_sep_cons_cons (.char ' ') first second rest

/-- Only no piece, and a single one that is empty, leave nothing. -/
theorem join_eq_nil_iff {sep : CodePoint} {pieces : List Text} :
    join [sep] pieces = [] ↔ pieces = [] ∨ pieces = [[]] := by
  match pieces with
  | [] => exact iff_of_true rfl (.inl rfl)
  | [piece] => simp [join_singleton]
  | first :: second :: rest => simp [join_sep_cons_cons]

theorem mem_join {sep c : CodePoint} {pieces : List Text} (h : c ∈ join [sep] pieces) :
    c = sep ∨ ∃ piece ∈ pieces, c ∈ piece := by
  induction pieces with
  | nil => cases h
  | cons first rest ih =>
      cases rest with
      | nil =>
          rw [join_singleton] at h
          exact .inr ⟨first, List.mem_singleton_self first, h⟩
      | cons second rest =>
          rw [join_sep_cons_cons, List.mem_append, List.mem_cons] at h
          rcases h with h | rfl | h
          · exact .inr ⟨first, List.mem_cons_self, h⟩
          · exact .inl rfl
          · refine (ih h).imp_right ?_
            rintro ⟨piece, hPiece, hc⟩
            exact ⟨piece, List.mem_cons_of_mem first hPiece, hc⟩

theorem mem_join_space {pieces : List Text} {c : CodePoint} (h : c ∈ join " " pieces) :
    c = .char ' ' ∨ ∃ piece ∈ pieces, c ∈ piece :=
  @mem_join (.char ' ') c pieces h

/-- Pieces without the separator are the pieces between its occurrences. -/
theorem splitOn_join {sep : CodePoint} {pieces : List Text} (hSome : pieces ≠ [])
    (h : ∀ piece ∈ pieces, sep ∉ piece) : splitOn sep (join [sep] pieces) = pieces := by
  have hFree : ∀ piece ∈ pieces, ∀ c ∈ piece, (c == sep) = false :=
    fun piece hPiece => beq_eq_false_of_not_mem (h piece hPiece)
  clear h
  induction pieces with
  | nil => exact absurd rfl hSome
  | cons first rest ih =>
      obtain ⟨hFirst, hRest⟩ := List.forall_mem_cons.mp hFree
      cases rest with
      | nil => rw [join_singleton, splitOn, splitWhere_of_forall hFirst]
      | cons second rest =>
          have hPieces := ih (List.cons_ne_nil second rest) hRest
          rw [splitOn] at hPieces
          rw [join_sep_cons_cons, splitOn, splitWhere_append_cons hFirst (beq_self_eq_true sep),
            hPieces]

theorem mem_of_mem_splitWhere {sep : α → Bool} {cs piece : List α} {c : α}
    (hPiece : piece ∈ splitWhere sep cs) (h : c ∈ piece) : c ∈ cs := by
  have hFlatten : c ∈ (splitWhere sep cs).flatten := List.mem_flatten.mpr ⟨piece, hPiece, h⟩
  rw [flatten_splitWhere] at hFlatten
  exact (List.mem_filter.mp hFlatten).1

/-- No piece has the separator in it. -/
theorem notMem_of_mem_splitOn {sep : CodePoint} {cs piece : Text} (h : piece ∈ splitOn sep cs) :
    sep ∉ piece := by
  intro hMem
  have hFlatten : sep ∈ (splitWhere (· == sep) cs).flatten := List.mem_flatten.mpr ⟨piece, h, hMem⟩
  rw [flatten_splitWhere] at hFlatten
  simpa using (List.mem_filter.mp hFlatten).2

theorem join_append_cons (sep front first : Text) (rest : List Text) :
    join sep ((front ++ first) :: rest) = front ++ join sep (first :: rest) := by
  cases rest with
  | nil => rw [join_singleton, join_singleton]
  | cons second rest => simp only [join_cons_cons, List.append_assoc]

theorem join_append {sep : Text} {front rest : List Text} (hFront : front ≠ [])
    (hRest : rest ≠ []) : join sep (front ++ rest) = join sep front ++ sep ++ join sep rest := by
  obtain ⟨second, rest, rfl⟩ := List.exists_cons_of_ne_nil hRest
  induction front with
  | nil => exact absurd rfl hFront
  | cons first front ih =>
      cases front with
      | nil => rw [List.singleton_append, join_cons_cons, join_singleton]
      | cons next front =>
          have hFurther := ih (List.cons_ne_nil next front)
          rw [List.cons_append] at hFurther
          rw [List.cons_append, List.cons_append, join_cons_cons, hFurther, join_cons_cons]
          simp only [List.append_assoc]

/-- The pieces of a text, put together again, are the text. -/
theorem join_splitOn (sep : CodePoint) (cs : Text) : join [sep] (splitOn sep cs) = cs := by
  induction cs with
  | nil => rfl
  | cons c cs ih =>
      obtain ⟨first, rest, hPieces⟩ :=
        List.exists_cons_of_ne_nil (splitWhere_ne_nil (· == sep) cs)
      rw [splitOn, hPieces] at ih
      rw [splitOn, splitWhere, hPieces]
      by_cases hSep : c = sep
      · rw [if_pos (beq_iff_eq.mpr hSep), join_sep_cons_cons, ih, hSep]
        rfl
      · rw [if_neg (by simpa using hSep)]
        have hFront := join_append_cons [sep] [c] first rest
        rw [ih] at hFront
        exact hFront

theorem mem_splitOn (sep : CodePoint) {c : CodePoint} {cs : Text} (h : c ∈ cs) :
    c = sep ∨ ∃ piece ∈ splitOn sep cs, c ∈ piece :=
  mem_join ((join_splitOn sep cs).symm ▸ h)

theorem dropWhile_append_cons {p : α → Bool} {front : List α} {c : α}
    (hFront : ∀ d ∈ front, p d = true) (hStop : p c = false) (rest : List α) :
    (front ++ c :: rest).dropWhile p = c :: rest := by
  rw [List.dropWhile_append_of_pos hFront, List.dropWhile_cons_of_neg]
  simpa using hStop

/-- What is dropped from the ends may as well be put there first. -/
theorem strip_append_singleton {drop : CodePoint → Bool} {c : CodePoint} (h : drop c = true)
    (cs : Text) : strip drop (cs ++ [c]) = strip drop cs := by
  rw [strip, strip, List.dropWhile_append]
  cases hRest : cs.dropWhile drop with
  | nil => simp [h]
  | cons d rest => simp [h]

/-- Where nothing is to be dropped, the ends stay. -/
theorem strip_of_forall {drop : CodePoint → Bool} {cs : Text} (h : ∀ c ∈ cs, drop c = false) :
    strip drop cs = cs := by
  have hFront : ∀ ds : Text, (∀ c ∈ ds, drop c = false) → ds.dropWhile drop = ds := by
    intro ds hds
    cases ds with
    | nil => rfl
    | cons d ds => exact List.dropWhile_cons_of_neg (by simp [hds d List.mem_cons_self])
  rw [strip, hFront cs h, hFront _ (by simpa using h), List.reverse_reverse]

/-! ## Line feeds at the end -/

theorem dropFinalNewline_cases (cs : Text) :
    cs = dropFinalNewline cs ∨ cs = dropFinalNewline cs ++ [.char '\n'] := by
  unfold dropFinalNewline
  split
  · rename_i hLast
    obtain ⟨body, rfl⟩ := List.getLast?_eq_some_iff.mp hLast
    exact .inr (by rw [List.dropLast_concat])
  · exact .inl rfl

theorem dropFinalNewline_of_notMem {cs : Text} (h : .char '\n' ∉ cs) : dropFinalNewline cs = cs := by
  unfold dropFinalNewline
  split
  · rename_i hLast
    exact absurd (List.mem_of_getLast? hLast) h
  · rfl

theorem dropFinalNewline_append (cs : Text) : dropFinalNewline (cs ++ [.char '\n']) = cs := by
  simp [dropFinalNewline]

/-- Of a line, with a line feed after it or without one, the line is left. -/
theorem dropFinalNewline_of_line {body cs : Text} (hBody : .char '\n' ∉ body)
    (h : cs = body ∨ cs = body ++ [.char '\n']) : dropFinalNewline cs = body := by
  rcases h with rfl | rfl
  · exact dropFinalNewline_of_notMem hBody
  · exact dropFinalNewline_append body

/-! ## Words -/

/-- The numbers of all blanks. -/
def blankNumbers : List Nat :=
  [32, 9, 10, 11, 12, 13, 28, 29, 30, 31] ++ wideBlanks

theorem toNat_mem_blankNumbers {c : CodePoint} (h : isBlank c = true) :
    c.toNat ∈ blankNumbers := by
  simp only [isBlank, Bool.or_eq_true, Bool.and_eq_true, decide_eq_true_eq, beq_iff_eq,
    List.contains_iff_mem] at h
  rcases h with ((rfl | h) | h) | h
  · decide
  · refine List.mem_append_left _ ?_
    simp only [List.mem_cons, List.not_mem_nil, or_false]
    omega
  · refine List.mem_append_left _ ?_
    simp only [List.mem_cons, List.not_mem_nil, or_false]
    omega
  · exact List.mem_append_right _ h

/-- A class that holds none of the blanks. -/
theorem not_isBlank_of_class {p : CodePoint → Bool}
    (hNone : ∀ n ∈ blankNumbers, p (.ofNat n) = false) {c : CodePoint} (h : p c = true) :
    isBlank c = false := by
  rw [Bool.eq_false_iff]
  intro hBlank
  have hClass := hNone c.toNat (toNat_mem_blankNumbers hBlank)
  rw [CodePoint.ofNat_toNat, h] at hClass
  cases hClass

/-- The text can be a word: it is not empty, and there is no blank in it. -/
def IsWord (cs : Text) : Prop :=
  cs ≠ [] ∧ ∀ c ∈ cs, isBlank c = false

/-- Words with spaces between them are the words of the text. -/
theorem words_join {ws : List Text} (h : ∀ w ∈ ws, IsWord w) : words (join " " ws) = ws := by
  induction ws with
  | nil => rfl
  | cons w ws ih =>
      obtain ⟨⟨hSome, hFree⟩, hRest⟩ := List.forall_mem_cons.mp h
      cases ws with
      | nil =>
          rw [join_singleton, words, splitWhere_of_forall hFree]
          simp [hSome]
      | cons second rest =>
          have hSpace : isBlank ' ' = true := rfl
          have hWords : words (join " " (w :: second :: rest)) =
              w :: words (join " " (second :: rest)) := by
            rw [join_space_cons_cons, words, splitWhere_append_cons hFree hSpace,
              List.filter_cons_of_pos]
            · rfl
            · simpa using hSome
          rw [hWords, ih hRest]

end LogQuery.Text
