import LogQuery.Proofs.Text.Split
import LogQuery.Token.Recognizer

/-! Tokens with a path before their first colon: a field of which it is not known that it is
analyzed as text. Whatever stands after the colon, the recognizers of fields, of prefixes and of
joining words decline such a token. -/

namespace LogQuery.Token

/-- What can stand before the colon: a field of which it is not known that it is analyzed as text.
-/
structure IsPath (fieldsMeta : Json) (path : Text) : Prop where
  nonempty : path ≠ []
  chars : ∀ c ∈ path, Nested.isFieldChar c = true
  free : Nested.reservedPaths.contains (Text.lower path) = false
  notText : Field.isText fieldsMeta path = .ok false

/-- What a nested query can be scoped to. -/
structure Nested.IsScope (path : Text) : Prop where
  nonempty : path ≠ []
  colon : .char ':' ∉ path
  chars : ∀ c ∈ path, Text.isBlank c = false
  free : reservedPaths.contains (Text.lower path) = false

/-- A field without an operator before it, of which it is not known that it is analyzed as text. -/
structure IsPlain (fieldsMeta : Json) (field : Text) : Prop where
  scope : Nested.IsScope field
  operator : ∀ c ∈ field.head?, Field.matcher? c = none
  notText : Field.isText fieldsMeta field = .ok false

variable {fieldsMeta : Json} {path value : Text}

theorem ne_colon_of_isFieldChar {c : CodePoint} (h : Nested.isFieldChar c = true) :
    c ≠ .char ':' :=
  Text.ne_of_class h (by decide)

theorem colon_notMem_of_chars (h : ∀ c ∈ path, Nested.isFieldChar c = true) : .char ':' ∉ path :=
  fun hMem => ne_colon_of_isFieldChar (h _ hMem) rfl

/-- No field has a blank in it. -/
theorem not_isBlank_of_isFieldChar {c : CodePoint} (h : Nested.isFieldChar c = true) :
    Text.isBlank c = false :=
  Text.not_isBlank_of_class (by decide +kernel) h

theorem Field.matcher?_of_isFieldChar {c : CodePoint} (h : Nested.isFieldChar c = true) :
    Field.matcher? c = none := by
  unfold Field.matcher?
  split <;> first | exact absurd h (by decide) | rfl

theorem IsPath.scope (h : IsPath fieldsMeta path) : Nested.IsScope path where
  nonempty := h.nonempty
  colon := colon_notMem_of_chars h.chars
  chars c hc := not_isBlank_of_isFieldChar (h.chars c hc)
  free := h.free

theorem IsPath.plain (h : IsPath fieldsMeta path) : IsPlain fieldsMeta path where
  scope := h.scope
  operator c hc := Field.matcher?_of_isFieldChar (h.chars c (List.mem_of_head? hc))
  notText := h.notText

/-- A path ends at the first colon after it. -/
theorem splitFirst_path (h : .char ':' ∉ path) (rest : Text) :
    Text.splitFirst (· == ':') (path ++ .char ':' :: rest) = (path, some rest) :=
  Text.splitFirst_append_cons (Text.beq_eq_false_of_not_mem h) rfl rest

theorem fieldAndValue?_path (hPath : path ≠ []) (h : .char ':' ∉ path) (hValue : value ≠ []) :
    fieldAndValue? (path ++ .char ':' :: value) = some (path, value) := by
  have hParts : Text.partition ':' (path ++ .char ':' :: value) = (path, value) := by
    rw [Text.partition, splitFirst_path h]
    rfl
  obtain ⟨c, path, rfl⟩ := List.exists_cons_of_ne_nil hPath
  obtain ⟨d, value, rfl⟩ := List.exists_cons_of_ne_nil hValue
  rw [fieldAndValue?, hParts]

/-- A token has a field and a value exactly if a colon stands between two texts that are not empty,
the first of them without a colon. -/
theorem fieldAndValue?_eq_some_iff {token : Text} :
    fieldAndValue? token = some (path, value) ↔
      token = path ++ .char ':' :: value ∧ path ≠ [] ∧ .char ':' ∉ path ∧ value ≠ [] := by
  constructor
  · intro h
    cases hSplit : Text.splitFirst (· == ':') token with
    | mk before after =>
        have hParts : Text.partition ':' token = (before, after.getD []) := by
          rw [Text.partition, hSplit]
        have hColon : .char ':' ∉ before := fun hMem =>
          absurd (Text.forall_of_splitFirst hSplit _ hMem) (by decide)
        rw [fieldAndValue?, hParts] at h
        split at h
        · cases h
        · cases h
        · rename_i hPath hValue
          cases h
          cases after with
          | none => exact absurd rfl (hValue path)
          | some rest =>
              obtain ⟨c, hSep, rfl⟩ := Text.splitFirst_some hSplit
              refine ⟨?_, fun hNil => hPath rest ?_, hColon, fun hNil => hValue path ?_⟩
              · rw [beq_iff_eq.mp hSep]
                rfl
              · rw [hNil]
                rfl
              · rw [hNil]
  · rintro ⟨rfl, hPath, hColon, hValue⟩
    exact fieldAndValue?_path hPath hColon hValue

/-- Without a blank in it, a token is a single word. -/
theorem words_path (h : ∀ c ∈ path, Text.isBlank c = false)
    (hValue : ∀ c ∈ value, Text.isBlank c = false) :
    Text.words (path ++ .char ':' :: value) = [path ++ .char ':' :: value] := by
  have hWord : ∀ w ∈ [path ++ .char ':' :: value], Text.IsWord w := by
    rw [List.forall_mem_singleton]
    refine ⟨by simp, fun c hc => ?_⟩
    rcases List.mem_append.mp hc with hc | hc
    · exact h c hc
    · rcases List.mem_cons.mp hc with rfl | hc
      · decide
      · exact hValue c hc
  have hWords := Text.words_join hWord
  rwa [Text.join_singleton] at hWords

/-! ## Splitting -/

theorem Nested.splitPath?_path (h : .char ':' ∉ path) (hQuote : value.head? ≠ some (.char '"')) :
    splitPath? (path ++ .char ':' :: value) = some (path, value) := by
  rw [splitPath?, splitFirst_path h]
  split
  · rename_i hStart
    cases hStart
    exact absurd rfl hQuote
  · rename_i hStart
    cases hStart
    rfl
  · rename_i hStart
    cases hStart

theorem Nested.splitPath?_quote (h : .char ':' ∉ path) (rest : Text) :
    splitPath? (path ++ .char ':' :: .char '"' :: rest) = some (path, rest) := by
  rw [splitPath?, splitFirst_path h]
  rfl

/-- A token with a path before its first colon is split exactly if what follows looks like a field
with a value, and neither that nor the token like an address of a kind. -/
theorem Nested.split?_of_path {token first front : Text} {rest : List Text}
    (hWords : Text.words token = first :: rest) (hSplit : splitPath? first = some (path, front))
    (hPath : path ≠ []) (hFree : reservedPaths.contains (Text.lower path) = false) :
    split? token =
      if isFieldValue front && !(startsLikeHardware token || startsLikeHardware front) &&
          !(startsLikeWeb token || startsLikeWeb front) && !isInternetAddress front then
        some (path, (closeQuote (front :: rest)).filter (!·.isEmpty))
      else none := by
  rw [split?, hWords]
  simp only [hSplit, hFree, List.isEmpty_eq_false_iff.mpr hPath, Bool.or_self, Bool.false_eq_true,
    ↓reduceIte]
  cases isFieldValue front <;> cases startsLikeHardware token || startsLikeHardware front <;>
    cases startsLikeWeb token || startsLikeWeb front <;> cases isInternetAddress front <;> rfl

/-! ## Recognizers that decline them -/

theorem Field.condition?_path (h : IsPlain fieldsMeta path) (rest : Text) :
    Field.condition? fieldsMeta (path ++ .char ':' :: rest) = .ok none := by
  obtain ⟨c, path, rfl⟩ := List.exists_cons_of_ne_nil h.scope.nonempty
  have hMatcher := h.operator c rfl
  have hChoose : Field.chooseMatcher fieldsMeta none (c :: path) = .ok none := by
    rw [Field.chooseMatcher, h.notText]
    rfl
  rw [Field.condition?, splitFirst_path h.scope.colon]
  simp only [hMatcher, Option.isSome_none, Bool.false_eq_true, ↓reduceIte, hChoose]
  rfl

theorem Underscored.condition?_path (h : Nested.IsScope path) (rest : Text) :
    Underscored.condition? (path ++ .char ':' :: rest) = none := by
  have hName : (Text.lower path == "_prefix_") = false := by
    rw [beq_eq_false_iff_ne]
    intro hSame
    exact absurd (hSame ▸ h.free) (by decide)
  rw [Underscored.condition?, splitFirst_path h.colon]
  simp only [hName]
  rfl

/-- What no comparison starts is no bound. -/
theorem Ranges.bound?_eq_none {part : Text}
    (h : ∀ c ∈ part.head?, c ≠ .char '<' ∧ c ≠ .char '>') : Ranges.bound? part = none := by
  have hSign : ∀ comparison : Comparison, comparison.sign.isPrefixOf part = false := by
    intro comparison
    cases part with
    | nil => cases comparison <;> rfl
    | cons c part =>
        obtain ⟨hLess, hMore⟩ := h c rfl
        cases comparison <;>
          simp [Comparison.sign, List.isPrefixOf, Ne.symm hLess, Ne.symm hMore]
  rw [Ranges.bound?, List.findSome?_eq_none_iff]
  intro comparison _
  rw [Ranges.boundBy?, hSign]
  rfl

/-- A value of a single part that no comparison starts is not bounded. -/
theorem Ranges.condition?_path (hPath : path ≠ []) (h : .char ':' ∉ path) (hValue : value ≠ [])
    (hComma : .char ',' ∉ value)
    (hStart : ∀ c ∈ value.head?, c ≠ .char '<' ∧ c ≠ .char '>') :
    Ranges.condition? (path ++ .char ':' :: value) = .ok none := by
  have hParts : Text.splitOn ',' value = [value] :=
    Text.splitWhere_of_forall (Text.beq_eq_false_of_not_mem hComma)
  rw [Ranges.condition?, fieldAndValue?_path hPath h hValue]
  simp only [hParts, List.filterMap_cons_none (Ranges.bound?_eq_none hStart)]
  rfl

/-- A value without a slash is no block of addresses: there are no bits after the address. -/
theorem AddressBlock.condition?_path (hPath : path ≠ []) (h : .char ':' ∉ path)
    (hValue : value ≠ []) (hSlash : .char '/' ∉ value) :
    AddressBlock.condition? (path ++ .char ':' :: value) = none := by
  have hParts : Text.partition '/' value = (value, []) := by
    rw [Text.partition, Text.splitFirst_of_forall (Text.beq_eq_false_of_not_mem hSlash)]
    rfl
  have hBits : ∀ full : Text, Net.Block.read? full [] = none := by
    intro full
    rw [Net.Block.read?]
    cases Net.Address.read? full <;> rfl
  rw [AddressBlock.condition?, fieldAndValue?_path hPath h hValue]
  simp only [Option.bind_eq_bind, Option.bind_some, AddressBlock.block?, hParts, hBits]
  cases AddressBlock.fullAddress? value <;> rfl

theorem Word.piece?_of_colon {token : Text} (h : .char ':' ∈ token) : Word.piece? token = none := by
  have hColon : .char ':' ∈ Text.lower token := Text.mem_lower (by decide) (by decide) h
  have hOther : ∀ word : Text, .char ':' ∉ word → (Text.lower token == word) = false := by
    intro word hWord
    rw [beq_eq_false_iff_ne]
    rintro rfl
    exact hWord hColon
  simp only [Word.piece?, hOther "and" (by decide), hOther "or" (by decide),
    hOther "not" (by decide)]
  rfl

end LogQuery.Token
