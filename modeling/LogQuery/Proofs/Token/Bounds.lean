import LogQuery.Proofs.Token.Quoted

/-! Bounds between quotes. The recognizer of bounds cuts the value of a token at every comma, so
that a comma within the quotes starts a part of its own, and a comparison after it bounds the path.
Which tokens that happens to can be told from each of them alone. -/

namespace LogQuery.Token.Ranges

/-- A comparison starts the text, and no comma ends its part right there. -/
def startsBound : Text → Bool
  | [] => false
  | c :: rest => (c == '<' || c == '>') && rest.head? != some (.char ',')

/-- Somewhere after a comma a bound starts. -/
def boundsFurther : Text → Bool
  | [] => false
  | c :: rest => (c == ',' && startsBound rest) || boundsFurther rest

/-- A comparison and a value make up the part. -/
def isBound : Text → Bool
  | c :: _ :: _ => c == '<' || c == '>'
  | _ => false

theorem value?_of_line {cs : Text} (h : .char '\n' ∉ cs) (hSome : cs ≠ []) :
    value? cs = some cs := by
  rw [value?, Text.dropFinalNewline_of_notMem h, if_neg]
  simp [hSome, h]

theorem isSome_boundBy? (part : Text) (c : Comparison) :
    (boundBy? part c).isSome =
      (c.sign.isPrefixOf part && (value? (part.drop c.sign.length)).isSome) := by
  unfold boundBy?
  cases c.sign.isPrefixOf part <;> simp

/-- The part of a line is a bound exactly if a comparison starts it and something follows. -/
theorem isSome_bound? {part : Text} (h : .char '\n' ∉ part) :
    (bound? part).isSome = isBound part := by
  have hAny : (bound? part).isSome = Comparison.all.any fun c => (boundBy? part c).isSome := by
    rw [bound?, List.isSome_findSome?]
  simp only [hAny, Comparison.all, List.any_cons, List.any_nil, isSome_boundBy?, Comparison.sign]
  rcases part with _ | ⟨c, _ | ⟨d, rest⟩⟩
  · rfl
  · simp [value?, isBound, Text.dropFinalNewline]
  · have hValue : value? (d :: rest) = some (d :: rest) :=
      value?_of_line (fun hMem => h (List.mem_cons_of_mem c hMem)) (List.cons_ne_nil d rest)
    simp only [List.isPrefixOf, isBound, List.length_cons, List.length_nil, List.drop_succ_cons,
      List.drop_zero, hValue, Option.isSome_some, Bool.and_true, Bool.or_false]
    by_cases hLess : c = .char '<'
    · simp [hLess]
    · by_cases hMore : c = .char '>'
      · simp [hMore]
      · simp [beq_eq_false_iff_ne.mpr (Ne.symm hLess), beq_eq_false_iff_ne.mpr (Ne.symm hMore),
          hLess, hMore]

/-- The parts between commas of a text with a double quote after it. -/
theorem exists_parts (cs : Text) :
    ∃ first others, Text.splitOn ',' (cs ++ [.char '"']) = first :: others ∧
      first.isEmpty = (cs.head? == some (.char ',')) ∧ isBound first = startsBound cs ∧
      others.any isBound = boundsFurther cs := by
  induction cs with
  | nil => exact ⟨_, [], rfl, rfl, rfl, rfl⟩
  | cons c cs ih =>
      obtain ⟨first, others, hParts, hEmpty, hFirst, hOthers⟩ := ih
      rw [Text.splitOn] at hParts
      by_cases hComma : c = .char ','
      · subst hComma
        refine ⟨[], first :: others, ?_, rfl, rfl, ?_⟩
        · simp [Text.splitOn, Text.splitWhere, hParts]
        · simp [boundsFurther, hFirst, hOthers]
      · refine ⟨c :: first, others, ?_, ?_, ?_, ?_⟩
        · simp [Text.splitOn, Text.splitWhere, hParts, hComma]
        · simp [hComma]
        · have hHead : (cs.head? != some (.char ',')) = !first.isEmpty := by rw [hEmpty]; rfl
          rw [startsBound, hHead]
          cases first <;> simp [isBound]
        · simp [boundsFurther, hComma, hOthers]

theorem startsBound_append_space (cs rest : Text) :
    startsBound (cs ++ .char ' ' :: rest) = startsBound cs := by
  match cs with
  | [] => rfl
  | [c] => rfl
  | c :: d :: cs => rfl

theorem boundsFurther_append_space (cs rest : Text) :
    boundsFurther (cs ++ .char ' ' :: rest) = (boundsFurther cs || boundsFurther rest) := by
  induction cs with
  | nil => rfl
  | cons c cs ih =>
      rw [List.cons_append, boundsFurther, startsBound_append_space, ih, boundsFurther,
        Bool.or_assoc]

/-- A token between quotes bounds its path exactly if one of the tokens in it has a bound after a
comma. -/
theorem boundsFurther_join (tokens : List Text) :
    boundsFurther (Text.join " " tokens) = tokens.any boundsFurther := by
  induction tokens with
  | nil => rfl
  | cons first rest ih =>
      cases rest with
      | nil => simp [Text.join_singleton]
      | cons second rest =>
          rw [Text.join_space_cons_cons, boundsFurther_append_space, ih]
          rfl

/-! ## Conditions -/

/-- Bounds that do not conflict are all taken. -/
theorem addBounds_cases (token : Text) (done bounds : List Bound) :
    (∃ side, addBounds token done bounds = .error (.rangeConflict side token)) ∨
      addBounds token done bounds = .ok (done ++ bounds) := by
  induction bounds generalizing done with
  | nil => exact .inr (by rw [addBounds, List.append_nil])
  | cons b bounds ih =>
      rw [addBounds]
      split
      · exact .inl ⟨_, rfl⟩
      · simpa using ih (done ++ [b])

variable {path : Text} {tokens : List Text}

/-- Among the parts of a value between quotes is a bound exactly if one of the tokens in it has one
after a comma. -/
theorem filterMap_bound?_eq_nil_iff (h : ∀ t ∈ tokens, Text.IsWord t) :
    (Text.splitOn ',' (.char '"' :: (Text.join " " tokens ++ [.char '"']))).filterMap bound? = [] ↔
      tokens.any boundsFurther = false := by
  have hLine : ∀ part ∈ Text.splitOn ',' (.char '"' :: (Text.join " " tokens ++ [.char '"'])),
      .char '\n' ∉ part := by
    intro part hPart hBreak
    have hMem := Text.mem_of_mem_splitWhere hPart hBreak
    simp only [List.mem_cons, List.mem_append, List.not_mem_nil, or_false] at hMem
    rcases hMem with hMem | hMem | hMem
    · exact absurd hMem (by decide)
    · rcases Text.mem_join_space hMem with hMem | ⟨t, ht, hMem⟩
      · exact absurd hMem (by decide)
      · exact absurd ((h t ht).2 _ hMem) (by decide)
    · exact absurd hMem (by decide)
  obtain ⟨first, others, hParts, -, -, hOthers⟩ := exists_parts (Text.join " " tokens)
  have hAll : Text.splitOn ',' (.char '"' :: (Text.join " " tokens ++ [.char '"'])) =
      (.char '"' :: first) :: others := by
    rw [Text.splitOn] at hParts
    simp [Text.splitOn, Text.splitWhere, hParts]
  have hQuote : isBound (.char '"' :: first) = false := by
    cases first <;> rfl
  have hBound : ∀ part ∈ Text.splitOn ',' (.char '"' :: (Text.join " " tokens ++ [.char '"'])),
      bound? part = none ↔ isBound part = false := by
    intro part hPart
    rw [← isSome_bound? (hLine part hPart), Option.isSome_eq_false_iff, Option.isNone_iff_eq_none]
  rw [← boundsFurther_join, ← hOthers, List.filterMap_eq_nil_iff, List.any_eq_false, hAll]
  rw [hAll] at hBound
  obtain ⟨hFirst, hRest⟩ := List.forall_mem_cons.mp hBound
  rw [List.forall_mem_cons, hFirst, and_iff_right hQuote]
  exact forall₂_congr fun part hPart => by rw [hRest part hPart, Bool.not_eq_true]

/-- What a token between quotes bounds: nothing if no token in it has a bound after a comma, and its
path otherwise, if the bounds do not conflict. -/
theorem condition?_quoted (hPath : path ≠ []) (hChars : ∀ c ∈ path, Nested.isFieldChar c = true)
    (h : ∀ t ∈ tokens, Text.IsWord t) :
    (tokens.any boundsFurther = false → condition? (quoted path tokens) = .ok none) ∧
      (tokens.any boundsFurther = true →
        (∃ side, condition? (quoted path tokens) =
          .error (.rangeConflict side (quoted path tokens))) ∨
        ∃ bounds, condition? (quoted path tokens) = .ok (some (Clause.range path bounds))) := by
  have hNil := filterMap_bound?_eq_nil_iff h
  rw [condition?, fieldAndValue?_quoted hPath (colon_notMem_of_chars hChars)]
  dsimp only
  constructor
  · intro hNone
    rw [hNil.mpr hNone]
    rfl
  · intro hSome
    rcases addBounds_cases (quoted path tokens) [] ((Text.splitOn ','
      (.char '"' :: (Text.join " " tokens ++ [.char '"']))).filterMap bound?) with
      ⟨side, hError⟩ | hAll
    · rw [hError]
      exact .inl ⟨side, rfl⟩
    · rw [hAll, List.nil_append]
      cases hBounds : (Text.splitOn ','
          (.char '"' :: (Text.join " " tokens ++ [.char '"']))).filterMap bound? with
      | nil => exact absurd (hNil.mp hBounds) (by simp [hSome])
      | cons b bounds => exact .inr ⟨_, rfl⟩

end LogQuery.Token.Ranges
