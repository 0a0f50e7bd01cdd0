import LogQuery.Proofs.Token.BlockBounds

/-! Tokens with the form of a block of addresses of the longer family: groups of hexadecimal digits
with colons between them, a slash and a number of bits. Whether there is such a block is another
matter; if not, such a token may still be split as one for nested documents, since its first group
and colon look like a field. -/

namespace LogQuery.Token

/-- A text of hexadecimal digits and at least one colon before a slash, and decimal digits after. -/
structure IsBlockShape (body bits : Text) : Prop where
  chars : ∀ c ∈ body, Text.isHex c = true ∨ c = .char ':'
  colon : .char ':' ∈ body
  nonempty : bits ≠ []
  digits : ∀ c ∈ bits, Text.isDecimal c = true

variable {fieldsMeta : Json} {path body bits value : Text} {c : CodePoint}

/-! ## The characters of a block -/

/-- The characters that there are in a value of the form. -/
def isBlockChar (c : CodePoint) : Bool :=
  Text.isHex c || Text.isDecimal c || c == ':' || c == '/'

theorem not_isBlank_of_isBlockChar (h : isBlockChar c = true) : Text.isBlank c = false :=
  Text.not_isBlank_of_class (by decide +kernel) h

namespace IsBlockShape

theorem isBlockChar_body (h : IsBlockShape body bits) (hc : c ∈ body) : isBlockChar c = true := by
  rcases h.chars c hc with hHex | rfl
  · simp [isBlockChar, hHex]
  · decide

theorem isBlockChar_value (h : IsBlockShape body bits) (hc : c ∈ blockValue body bits) :
    isBlockChar c = true := by
  rcases List.mem_append.mp hc with hc | hc
  · exact h.isBlockChar_body hc
  · rcases List.mem_cons.mp hc with rfl | hc
    · decide
    · simp [isBlockChar, h.digits c hc]

theorem not_mem_value (h : IsBlockShape body bits) (hc : isBlockChar c = false) :
    c ∉ blockValue body bits :=
  fun hMem => Text.ne_of_class (h.isBlockChar_value hMem) hc rfl

theorem slash_not_mem_body (h : IsBlockShape body bits) : .char '/' ∉ body := by
  intro hMem
  rcases h.chars _ hMem with hHex | hColon
  · exact absurd hHex (by decide)
  · exact absurd hColon (by decide)

theorem slash_not_mem_bits (h : IsBlockShape body bits) : .char '/' ∉ bits :=
  fun hMem => absurd (h.digits _ hMem) (by decide)

theorem value_ne_nil (body bits : Text) : blockValue body bits ≠ [] := by
  simp [blockValue]

end IsBlockShape

/-! ## Bounds and blocks -/

theorem Ranges.condition?_block (hPath : path ≠ [])
    (hChars : ∀ c ∈ path, Nested.isFieldChar c = true) (h : IsBlockShape body bits) :
    Ranges.condition? (blockToken path body bits) = .ok none := by
  refine Ranges.condition?_path hPath (colon_notMem_of_chars hChars)
    (IsBlockShape.value_ne_nil body bits) (h.not_mem_value (by decide)) fun c hc => ?_
  have hBlock := h.isBlockChar_value (List.mem_of_head? hc)
  exact ⟨Text.ne_of_class hBlock (by decide), Text.ne_of_class hBlock (by decide)⟩

theorem IsBlockShape.isForm (h : IsBlockShape body bits) : AddressBlock.IsForm body body :=
  .colons h.chars

theorem AddressBlock.condition?_block (hPath : path ≠ [])
    (hChars : ∀ c ∈ path, Nested.isFieldChar c = true) (h : IsBlockShape body bits) :
    AddressBlock.condition? (blockToken path body bits) =
      (Net.Block.read? body bits).map fun block =>
        Clause.range path [("gte", .str block.first.text), ("lte", .str block.last.text)] :=
  condition?_form hPath (colon_notMem_of_chars hChars) h.isForm

/-! ## Nested documents -/

namespace Nested

/-- Nothing with a single slash in it looks like a web address. -/
theorem startsLikeWeb_of_count {cs : Text} (h : cs.count (.char '/') = 1) :
    startsLikeWeb cs = false := by
  have hRest : (cs.dropWhile Text.isWord).count (.char '/') ≤ 1 :=
    h ▸ (List.dropWhile_sublist _).count_le _
  unfold startsLikeWeb
  split
  · rename_i hTwo
    rw [hTwo] at hRest
    simp at hRest
  · rfl

theorem count_slash_value (h : IsBlockShape body bits) :
    (blockValue body bits).count (.char '/') = 1 := by
  rw [blockValue, List.count_append, List.count_cons_self,
    List.count_eq_zero_of_not_mem h.slash_not_mem_body,
    List.count_eq_zero_of_not_mem h.slash_not_mem_bits]

theorem count_slash_token (hChars : ∀ c ∈ path, isFieldChar c = true)
    (h : IsBlockShape body bits) : (blockToken path body bits).count (.char '/') = 1 := by
  have hPath : .char '/' ∉ path := fun hMem => absurd (hChars _ hMem) (by decide)
  rw [blockToken, List.count_append, List.count_eq_zero_of_not_mem hPath, List.count_cons_of_ne
    (by decide), count_slash_value h]

/-- No internet address has a slash in it. -/
theorem isInternetAddress_block (h : IsBlockShape body bits) :
    isInternetAddress (blockValue body bits) = false := by
  have hStrip : Text.strip (· == '"') (blockValue body bits) = blockValue body bits :=
    Text.strip_of_forall (Text.beq_eq_false_of_not_mem (h.not_mem_value (by decide)))
  have hSlash : (blockValue body bits).contains (.char '/') = true := by
    simp [blockValue]
  rw [isInternetAddress, hStrip, Net.Address.isAddress, if_pos hSlash]

theorem isFieldChar_of_isHex {c : CodePoint} (h : Text.isHex c = true) :
    Nested.isFieldChar c = true := by
  have hAscii : ∀ n < 128, Text.isHex (.ofNat n) = true → Nested.isFieldChar (.ofNat n) = true := by
    decide
  have hNumber := hAscii c.toNat (Text.toNat_lt_of_isHex h)
  rw [CodePoint.ofNat_toNat] at hNumber
  exact hNumber h

/-- The first group looks like a field exactly if it starts with a letter. -/
theorem isFieldValue_block (h : IsBlockShape body bits) :
    isFieldValue (blockValue body bits) = body.head?.any CodePoint.isAlpha := by
  -- the group before the first colon stands where a field would
  obtain ⟨group, rest, rfl, hGroup⟩ := List.eq_append_cons_of_mem h.colon
  cases group with
  | nil => rfl
  | cons c group =>
      have hHex : ∀ d ∈ c :: group, Text.isHex d = true := by
        intro d hd
        rcases h.chars d (List.mem_append_left _ hd) with hHex | rfl
        · exact hHex
        · exact absurd hd hGroup
      have hFirst : c ≠ .char '_' := Text.ne_of_class (hHex c List.mem_cons_self) (by decide)
      obtain ⟨d, after, hAfter⟩ := List.exists_cons_of_ne_nil (IsBlockShape.value_ne_nil rest bits)
      have hValue : blockValue (c :: group ++ .char ':' :: rest) bits =
          c :: (group ++ .char ':' :: d :: after) := by
        simp [← hAfter, blockValue]
      have hLine : d ≠ .char '\n' :=
        Text.ne_of_class (h.isBlockChar_value (hValue ▸ by simp)) (by decide)
      have hDrop : (group ++ .char ':' :: d :: after).dropWhile isFieldChar =
          .char ':' :: d :: after :=
        Text.dropWhile_append_cons
          (fun e he => isFieldChar_of_isHex (hHex e (List.mem_cons_of_mem c he))) (by decide) _
      rw [hValue, isFieldValue, hDrop]
      simp [beq_eq_false_iff_ne.mpr hFirst, hLine]

end Nested

/-- There is no blank in such a token. -/
theorem words_blockToken (hChars : ∀ c ∈ path, Nested.isFieldChar c = true)
    (h : IsBlockShape body bits) :
    Text.words (blockToken path body bits) = [blockToken path body bits] :=
  words_path (fun c hc => not_isBlank_of_isFieldChar (hChars c hc))
    fun _ hc => not_isBlank_of_isBlockChar (h.isBlockChar_value hc)

/-- The token is split as one for nested documents: its value starts with a letter, and neither the
token nor the value looks like a hardware address. -/
def opensBlock (path body bits : Text) : Bool :=
  body.head?.any CodePoint.isAlpha && !Nested.startsLikeHardware (blockToken path body bits) &&
    !Nested.startsLikeHardware (blockValue body bits)

theorem Nested.split?_block (hPath : path ≠ [])
    (hChars : ∀ c ∈ path, Nested.isFieldChar c = true)
    (hFree : Nested.reservedPaths.contains (Text.lower path) = false)
    (h : IsBlockShape body bits) :
    Nested.split? (blockToken path body bits) =
      if opensBlock path body bits then some (path, [blockValue body bits]) else none := by
  have hSplit : splitPath? (blockToken path body bits) = some (path, blockValue body bits) :=
    splitPath?_path (colon_notMem_of_chars hChars) fun hQuote =>
      h.not_mem_value (by decide) (List.mem_of_head? hQuote)
  have hClose : (closeQuote [blockValue body bits]).filter (!·.isEmpty) =
      [blockValue body bits] := by
    have hLast : (blockValue body bits).getLast? ≠ some (.char '"') := fun hLast =>
      h.not_mem_value (by decide) (List.mem_of_getLast? hLast)
    simp [closeQuote, dropClosingQuote, hLast, IsBlockShape.value_ne_nil]
  rw [split?_of_path (words_blockToken hChars h) hSplit hPath hFree, hClose, isFieldValue_block h,
    startsLikeWeb_of_count (count_slash_token hChars h),
    startsLikeWeb_of_count (count_slash_value h), isInternetAddress_block h, opensBlock]
  simp [Bool.and_assoc]

end LogQuery.Token
