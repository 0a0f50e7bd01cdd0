import LogQuery.Proofs.Token.Paths

/-! Tokens that hold tokens of their own between double quotes, after a path and a colon. What such
a token is split into are the tokens that were put together; and of the other recognizers only that
of bounds looks between the quotes. -/

namespace LogQuery.Token

/-- Tokens with spaces between them, between double quotes under a path. -/
def quoted (path : Text) (tokens : List Text) : Text :=
  path ++ .char ':' :: .char '"' :: (Text.join " " tokens ++ [.char '"'])

variable {path : Text} {tokens : List Text}

theorem fieldAndValue?_quoted (hPath : path ≠ []) (h : .char ':' ∉ path) (tokens : List Text) :
    fieldAndValue? (quoted path tokens) =
      some (path, .char '"' :: (Text.join " " tokens ++ [.char '"'])) :=
  fieldAndValue?_path hPath h (List.cons_ne_nil _ _)

/-! ## Splitting -/

namespace Nested

/-- The text starts a nested query: it is a field with a value, and it does not look like an address
of a kind. -/
def opens (cs : Text) : Bool :=
  isFieldValue cs && !startsLikeHardware cs && !startsLikeWeb cs && !isInternetAddress cs

theorem isFieldValue_of_opens {cs : Text} (h : opens cs = true) : isFieldValue cs = true := by
  simp only [opens, Bool.and_eq_true] at h
  exact h.1.1.1

/-- The text is a word with a value after a colon. -/
def HasValue (cs : Text) : Prop :=
  ∃ word value, cs = word ++ .char ':' :: value ∧ word ≠ [] ∧
    (∀ c ∈ word, isFieldChar c = true) ∧ value ≠ []

theorem isFieldChar_of_isAlpha {c : CodePoint} (h : c.isAlpha = true) : isFieldChar c = true := by
  cases c with
  | half place => cases h
  | char c =>
      have hCases : (c.isUpper || c.isLower) = true := h
      have hSmall : (CodePoint.char c).toNat < 128 := by
        rcases Bool.or_eq_true_iff.mp hCases with hUpper | hLower
        · have hBounds : 'A'.val ≤ c.val ∧ c.val ≤ 'Z'.val := of_decide_eq_true hUpper
          exact Nat.lt_of_le_of_lt hBounds.2 (by decide)
        · have hBounds : (decide ('a'.val ≤ c.val) && decide (c.val ≤ 'z'.val)) = true := hLower
          have hLast : c.val ≤ 'z'.val := of_decide_eq_true (Bool.and_eq_true_iff.mp hBounds).2
          exact Nat.lt_of_le_of_lt hLast (by decide)
      have hLetter : (CodePoint.char c).isAlphanum = true := by
        rw [CodePoint.isAlphanum, CodePoint.isChar, Char.isAlphanum, Bool.or_eq_true]
        exact .inl h
      rw [isFieldChar, Text.isWord, if_pos hSmall, hLetter]
      rfl

theorem hasValue_of_isFieldValue {cs : Text} (h : isFieldValue cs = true) : HasValue cs := by
  unfold isFieldValue at h
  split at h
  · rename_i c rest
    rw [Bool.and_eq_true, Bool.or_eq_true, beq_iff_eq] at h
    obtain ⟨hFirst, hRest⟩ := h
    have hChar : isFieldChar c = true := by
      rcases hFirst with hLetter | rfl
      · exact isFieldChar_of_isAlpha hLetter
      · decide
    split at hRest
    · rename_i d value hDrop
      refine ⟨c :: rest.takeWhile isFieldChar, d :: value, ?_, List.cons_ne_nil _ _,
        List.forall_mem_cons.mpr ⟨hChar, List.all_eq_true.mp List.all_takeWhile⟩,
        List.cons_ne_nil _ _⟩
      rw [List.cons_append, ← hDrop, List.takeWhile_append_dropWhile]
    · cases hRest
  · cases h

theorem HasValue.isFieldChar_head {cs : Text} (h : HasValue cs) {c : CodePoint}
    (hc : cs.head? = some c) : isFieldChar c = true := by
  obtain ⟨word, value, rfl, hWord, hChars, -⟩ := h
  obtain ⟨d, word, rfl⟩ := List.exists_cons_of_ne_nil hWord
  cases hc
  exact hChars c List.mem_cons_self

theorem isFieldValue_append {cs : Text} (h : HasValue cs) (end_ : Text) :
    isFieldValue (cs ++ end_) = isFieldValue cs := by
  obtain ⟨word, value, rfl, hWord, hChars, hValue⟩ := h
  obtain ⟨c, word, rfl⟩ := List.exists_cons_of_ne_nil hWord
  obtain ⟨d, value, rfl⟩ := List.exists_cons_of_ne_nil hValue
  have hRest := (List.forall_mem_cons.mp hChars).2
  have hStop : isFieldChar (.char ':') = false := by decide
  simp [isFieldValue, Text.dropWhile_append_cons hRest hStop]

theorem dropPair?_append_quote (cs : Text) :
    dropPair? (cs ++ [.char '"']) = (dropPair? cs).map (· ++ [.char '"']) := by
  have hQuote : Text.isHex (.char '"') = false := by decide
  match cs with
  | [] => rfl
  | [a] => simp [dropPair?, hQuote]
  | a :: b :: rest =>
      simp only [dropPair?, List.cons_append]
      split <;> rfl

theorem dropFurtherPair?_append_quote (cs : Text) :
    dropFurtherPair? (cs ++ [.char '"']) = (dropFurtherPair? cs).map (· ++ [.char '"']) := by
  match cs with
  | [] => rfl
  | c :: rest =>
      by_cases hColon : c = .char ':'
      · subst hColon
        exact dropPair?_append_quote rest
      · simp [dropFurtherPair?, hColon]

theorem startsLikeHardware_append_quote (cs : Text) :
    startsLikeHardware (cs ++ [.char '"']) = startsLikeHardware cs := by
  have hFurther : ∀ cs? : Option Text,
      (cs?.map (· ++ [.char '"'])).bind dropFurtherPair? =
        (cs?.bind dropFurtherPair?).map (· ++ [.char '"']) := by
    intro cs?
    cases cs? with
    | none => rfl
    | some cs => exact dropFurtherPair?_append_quote cs
  rw [startsLikeHardware, startsLikeHardware, dropPair?_append_quote, hFurther, hFurther,
    Option.isSome_map]

theorem startsLikeWeb_append_quote (cs : Text) :
    startsLikeWeb (cs ++ [.char '"']) = startsLikeWeb cs := by
  have hQuote : Text.isWord (.char '"') = false := by decide
  have hTake : List.takeWhile Text.isWord (cs ++ [.char '"']) = cs.takeWhile Text.isWord := by
    rw [List.takeWhile_append]
    split
    · rename_i hAll
      rw [List.takeWhile_cons_of_neg (by simp [hQuote]), List.append_nil]
      exact ((List.takeWhile_prefix _).eq_of_length hAll).symm
    · rfl
  rw [startsLikeWeb, startsLikeWeb, hTake, List.dropWhile_append]
  match cs.dropWhile Text.isWord with
  | [] => simp [hQuote]
  | [c] => simp
  | [c, d] => simp
  | c :: d :: e :: rest =>
      simp only [List.isEmpty_cons, List.cons_append]
      split <;> split <;> simp_all

theorem isInternetAddress_append_quote (cs : Text) :
    isInternetAddress (cs ++ [.char '"']) = isInternetAddress cs := by
  rw [isInternetAddress, isInternetAddress, Text.strip_append_singleton rfl]

theorem opens_append_quote {cs : Text} (h : HasValue cs) :
    opens (cs ++ [.char '"']) = opens cs := by
  rw [opens, opens, isFieldValue_append h, startsLikeHardware_append_quote,
    startsLikeWeb_append_quote, isInternetAddress_append_quote]

/-- Nothing with a quote right after the first colon looks like a hardware address. -/
theorem startsLikeHardware_append_quoted (h : .char ':' ∉ path) (rest : Text) :
    startsLikeHardware (path ++ .char ':' :: .char '"' :: rest) = false := by
  have hColon : Text.isHex (.char ':') = false := by decide
  have hQuote : dropPair? (.char '"' :: rest) = none := by
    have hHex : Text.isHex (.char '"') = false := by decide
    cases rest <;> simp [dropPair?, hHex]
  match path with
  | [] => simp [startsLikeHardware, dropPair?, hColon]
  | [a] => simp [startsLikeHardware, dropPair?, hColon]
  | [a, b] =>
      simp only [startsLikeHardware, dropPair?.eq_1, List.cons_append, List.nil_append]
      split
      · simp only [Option.bind_some, dropFurtherPair?, hQuote]
        rfl
      · rfl
  | a :: b :: c :: path =>
      have hOther : c ≠ .char ':' := fun hSame => h (by simp [hSame])
      simp only [startsLikeHardware, dropPair?, List.cons_append]
      split <;> simp [dropFurtherPair?, hOther]

/-- Nothing without a slash right after the first colon looks like a web address. -/
theorem startsLikeWeb_path (h : .char ':' ∉ path) {rest : Text}
    (hStart : rest.head? ≠ some (.char '/')) :
    startsLikeWeb (path ++ .char ':' :: rest) = false := by
  have hColon : Text.isWord (.char ':') = false := by decide
  rw [startsLikeWeb, List.dropWhile_append]
  cases hRest : path.dropWhile Text.isWord with
  | nil =>
      cases rest with
      | nil => simp [hColon]
      | cons c rest =>
          have hOther : c ≠ .char '/' := fun hSame => hStart (by rw [hSame]; rfl)
          simp [hColon, hOther]
  | cons c others =>
      have hMem : c ∈ path := (List.dropWhile_sublist _).subset (hRest ▸ List.mem_cons_self)
      have hOther : c ≠ .char ':' := fun hSame => h (hSame ▸ hMem)
      simp [hOther]

end Nested

/-- The tokens with a double quote after the last one. -/
def closed : List Text → List Text
  | [] => []
  | [last] => [last ++ [.char '"']]
  | first :: second :: rest => first :: closed (second :: rest)

theorem closed_cons (first : Text) (rest : List Text) :
    ∃ front others, closed (first :: rest) = front :: others ∧
      (front = first ∨ front = first ++ [.char '"']) := by
  cases rest with
  | nil => exact ⟨_, _, rfl, .inr rfl⟩
  | cons second rest => exact ⟨_, _, rfl, .inl rfl⟩

theorem join_closed (first : Text) (rest : List Text) :
    Text.join " " (closed (first :: rest)) = Text.join " " (first :: rest) ++ [.char '"'] := by
  induction rest generalizing first with
  | nil => rw [closed, Text.join_singleton, Text.join_singleton]
  | cons second rest ih =>
      obtain ⟨front, others, hClosed, -⟩ := closed_cons second rest
      have hJoin := ih second
      rw [hClosed] at hJoin
      rw [closed, hClosed, Text.join_cons_cons, hJoin, Text.join_cons_cons,
        List.append_assoc _ _ [_]]

theorem closeQuote_closed (tokens : List Text) : Nested.closeQuote (closed tokens) = tokens := by
  induction tokens with
  | nil => rfl
  | cons first rest ih =>
      cases rest with
      | nil => simp [closed, Nested.closeQuote, Nested.dropClosingQuote]
      | cons second rest =>
          obtain ⟨front, others, hClosed, -⟩ := closed_cons second rest
          rw [hClosed] at ih
          rw [closed, hClosed, Nested.closeQuote, ih]
          exact fun h => by cases h

theorem isWord_closed (h : ∀ t ∈ tokens, Text.IsWord t) : ∀ t ∈ closed tokens, Text.IsWord t := by
  have hQuote : ∀ t, Text.IsWord t → Text.IsWord (t ++ [.char '"']) := by
    rintro t ⟨-, hFree⟩
    refine ⟨by simp, fun c hc => ?_⟩
    rcases List.mem_append.mp hc with hc | hc
    · exact hFree c hc
    · rw [List.mem_singleton.mp hc]
      decide
  induction tokens with
  | nil => exact h
  | cons first rest ih =>
      obtain ⟨hFirst, hRest⟩ := List.forall_mem_cons.mp h
      cases rest with
      | nil => simpa [closed] using hQuote first hFirst
      | cons second rest => exact List.forall_mem_cons.mpr ⟨hFirst, ih hRest⟩

/-- The words of a token between quotes are the tokens in it, but for what stands around them. -/
theorem words_quoted (hChars : ∀ c ∈ path, Text.isBlank c = false) {first : Text}
    {rest : List Text} (h : ∀ t ∈ first :: rest, Text.IsWord t) :
    ∃ front others, closed (first :: rest) = front :: others ∧
      (front = first ∨ front = first ++ [.char '"']) ∧
      Text.words (quoted path (first :: rest)) =
        (path ++ .char ':' :: .char '"' :: front) :: others := by
  obtain ⟨front, others, hClosed, hFront⟩ := closed_cons first rest
  refine ⟨front, others, hClosed, hFront, ?_⟩
  have hWords := isWord_closed h
  rw [hClosed] at hWords
  obtain ⟨hFirst, hOthers⟩ := List.forall_mem_cons.mp hWords
  have hJoin : quoted path (first :: rest) =
      Text.join " " ((path ++ .char ':' :: .char '"' :: front) :: others) := by
    have hInner := join_closed first rest
    rw [hClosed] at hInner
    have hAppend : ∀ cs : Text, path ++ .char ':' :: .char '"' :: cs =
        (path ++ [.char ':', .char '"']) ++ cs := by
      simp
    rw [quoted, ← hInner, hAppend front, Text.join_append_cons, ← hAppend]
  rw [hJoin]
  refine Text.words_join (List.forall_mem_cons.mpr ⟨⟨by simp, fun c hc => ?_⟩, hOthers⟩)
  rcases List.mem_append.mp hc with hc | hc
  · exact hChars c hc
  · rcases List.mem_cons.mp hc with rfl | hc
    · decide
    · rcases List.mem_cons.mp hc with rfl | hc
      · decide
      · exact hFirst.2 c hc

/-- A token between quotes is split into its path and the tokens that were put together, if the
first of them starts a nested query. -/
theorem split?_quoted {first : Text} {rest : List Text} (hPath : Nested.IsScope path)
    (h : ∀ t ∈ first :: rest, Text.IsWord t) (hValue : Nested.HasValue first) :
    Nested.split? (quoted path (first :: rest)) =
      if Nested.opens first then some (path, first :: rest) else none := by
  obtain ⟨front, others, hClosed, hFront, hWords⟩ := words_quoted hPath.chars h
  have hOpens : Nested.opens front = Nested.opens first := by
    rcases hFront with rfl | rfl
    · rfl
    · exact Nested.opens_append_quote hValue
  have hSplit := Nested.splitPath?_quote hPath.colon front
  have hTokens : (Nested.closeQuote (front :: others)).filter (!·.isEmpty) = first :: rest := by
    rw [← hClosed, closeQuote_closed, List.filter_eq_self]
    intro t ht
    simpa using (h t ht).1
  rw [Nested.split?_of_path hWords hSplit hPath.nonempty hPath.free, hTokens, ← hOpens, quoted,
    Nested.startsLikeHardware_append_quoted hPath.colon,
    Nested.startsLikeWeb_path hPath.colon (by simp), Nested.opens, Bool.false_or, Bool.false_or]

/-- Without the quotes a single token is split in the same way, if it does not end in a quote itself
and the whole does not look like a hardware address. -/
theorem split?_bare {first : Text} (hPath : Nested.IsScope path) (hFirst : Text.IsWord first)
    (hOpens : Nested.opens first = true) (hEnd : first.getLast? ≠ some (.char '"'))
    (hHardware : Nested.startsLikeHardware (path ++ .char ':' :: first) = false) :
    Nested.split? (path ++ .char ':' :: first) = some (path, [first]) := by
  have hStart : ∀ {c : CodePoint}, Nested.isFieldChar c = false → first.head? ≠ some c := by
    intro c hc hHead
    have hValue := Nested.hasValue_of_isFieldValue (Nested.isFieldValue_of_opens hOpens)
    rw [hValue.isFieldChar_head hHead] at hc
    cases hc
  have hSplit : Nested.splitPath? (path ++ .char ':' :: first) = some (path, first) :=
    Nested.splitPath?_path hPath.colon (hStart (by decide))
  have hTokens : (Nested.closeQuote [first]).filter (!·.isEmpty) = [first] := by
    have hSome : first.isEmpty = false := List.isEmpty_eq_false_iff.mpr hFirst.1
    simp [Nested.closeQuote, Nested.dropClosingQuote, hEnd, hSome]
  rw [Nested.split?_of_path (words_path hPath.chars hFirst.2) hSplit hPath.nonempty hPath.free,
    hTokens, hHardware, Nested.startsLikeWeb_path hPath.colon (hStart (by decide)),
    Bool.false_or, Bool.false_or, ← Nested.opens, hOpens, if_pos rfl]

/-! ## Blocks of addresses -/

theorem AddressBlock.fullAddress?_of_quote (rest : Text) :
    AddressBlock.fullAddress? (.char '"' :: rest) = none := by
  have hDotted : AddressBlock.isDotted (Text.splitOn '.' (.char '"' :: rest)) = false := by
    have hQuote : Text.isDecimal (.char '"') = false := by decide
    have hPoint : ((.char '"' : CodePoint) == .char '.') = false := by decide
    obtain ⟨group, groups, hGroups⟩ :=
      List.exists_cons_of_ne_nil (Text.splitWhere_ne_nil (· == .char '.') rest)
    simp [Text.splitOn, Text.splitWhere, hPoint, hGroups, AddressBlock.isDotted,
      AddressBlock.isShortGroup, hQuote]
  have hColons : AddressBlock.isColonForm (.char '"' :: rest) = false := by
    have hQuote : Text.isHex (.char '"') = false := by decide
    simp [AddressBlock.isColonForm, hQuote]
  simp [AddressBlock.fullAddress?, hDotted, hColons]

theorem AddressBlock.block?_of_quote (rest : Text) :
    AddressBlock.block? (.char '"' :: rest) = none := by
  have hPartition : (Text.partition '/' (.char '"' :: rest)).1 =
      .char '"' :: (Text.splitFirst (· == '/') rest).1 := rfl
  rw [AddressBlock.block?]
  simp only [hPartition, AddressBlock.fullAddress?_of_quote]
  rfl

theorem AddressBlock.condition?_quoted (h : Nested.IsScope path) (tokens : List Text) :
    AddressBlock.condition? (quoted path tokens) = none := by
  rw [AddressBlock.condition?, fieldAndValue?_quoted h.nonempty h.colon]
  simp only [Option.bind_eq_bind, Option.bind_some, AddressBlock.block?_of_quote]
  rfl

end LogQuery.Token
