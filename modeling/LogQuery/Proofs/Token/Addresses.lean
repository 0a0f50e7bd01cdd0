import LogQuery.Proofs.Net.Address
import LogQuery.Proofs.Token.Quoted

/-! Addresses after a field name, with or without quotes around them. The recognizer of nested
documents looks for addresses itself, and there is nothing in them that the one of bounds, that of
blocks or that of escapes looks for. -/

namespace LogQuery.Token

/-- A character of field names: of a word, a point, an at sign or a hyphen. -/
def isNameChar (c : CodePoint) : Bool :=
  Nested.isFieldChar c || c == '@' || c == '-'

/-- A field name that stands for no query of its own, of which it is not known that it is analyzed
as text. -/
structure IsFieldName (fieldsMeta : Json) (field : Text) : Prop where
  nonempty : field ≠ []
  chars : ∀ c ∈ field, isNameChar c = true
  free : Nested.reservedPaths.contains (Text.lower field) = false
  notText : Field.isText fieldsMeta field = .ok false

/-- Two hexadecimal digits. -/
def IsHexPair (cs : Text) : Prop :=
  cs.length = 2 ∧ ∀ c ∈ cs, Text.isHex c = true

/-- The text of an internet address without a zone, or at least three pairs of hexadecimal digits
with colons between them, as hardware addresses are written. -/
inductive IsAddress : Text → Prop
  | internet {address : Text} (h : (Net.Address.read? address).isSome = true) : IsAddress address
  | hardware {pairs : List Text} (hLength : 3 ≤ pairs.length)
      (hPairs : ∀ pair ∈ pairs, IsHexPair pair) : IsAddress (Text.join ":" pairs)

variable {fieldsMeta : Json} {field address value : Text} {c : CodePoint}

/-! ## Field names -/

theorem colon_notMem_of_isNameChar (h : ∀ c ∈ field, isNameChar c = true) : .char ':' ∉ field :=
  fun hMem => absurd (h _ hMem) (by decide)

theorem Field.matcher?_of_isNameChar (h : isNameChar c = true) : Field.matcher? c = none := by
  unfold Field.matcher?
  split <;> first | exact absurd h (by decide) | rfl

theorem IsFieldName.plain (h : IsFieldName fieldsMeta field) : IsPlain fieldsMeta field where
  scope.nonempty := h.nonempty
  scope.colon := colon_notMem_of_isNameChar h.chars
  scope.chars c hc := Text.not_isBlank_of_class (by decide +kernel) (h.chars c hc)
  scope.free := h.free
  operator c hc := Field.matcher?_of_isNameChar (h.chars c (List.mem_of_head? hc))
  notText := h.notText

/-! ## What is in an address -/

namespace Nested

theorem dropPair?_append {pair : Text} (h : IsHexPair pair) (rest : Text) :
    dropPair? (pair ++ rest) = some rest := by
  obtain ⟨hLength, hHex⟩ := h
  match pair, hLength with
  | [a, b], _ =>
      have hFirst := hHex a (by simp)
      have hSecond := hHex b (by simp)
      simp [dropPair?, hFirst, hSecond]

theorem startsLikeHardware_join {pairs : List Text} (hLength : 3 ≤ pairs.length)
    (hPairs : ∀ pair ∈ pairs, IsHexPair pair) :
    startsLikeHardware (Text.join ":" pairs) = true := by
  match pairs with
  | first :: second :: third :: rest =>
      have hStep : ∀ (a b : Text) (others : List Text), Text.join ":" (a :: b :: others) =
          a ++ .char ':' :: Text.join ":" (b :: others) :=
        Text.join_sep_cons_cons (.char ':')
      have hLast : Text.join ":" (third :: rest) = third ++ Text.join ":" ([] :: rest) := by
        rw [← Text.join_append_cons, List.append_nil]
      simp only [List.forall_mem_cons] at hPairs
      rw [hStep, hStep, hLast, startsLikeHardware, dropPair?_append hPairs.1, Option.bind_some,
        dropFurtherPair?, dropPair?_append hPairs.2.1, Option.bind_some, dropFurtherPair?,
        dropPair?_append hPairs.2.2.1]
      rfl

theorem isInternetAddress_of_read? (h : (Net.Address.read? address).isSome = true) :
    isInternetAddress address = true := by
  have hStrip : Text.strip (· == '"') address = address :=
    Text.strip_of_forall (Text.beq_eq_false_of_not_mem fun hMem =>
      absurd (Net.Address.isAddressChar_of_read? h _ hMem) (by decide))
  rw [isInternetAddress, hStrip, Net.Address.isAddress_of_read? h]

end Nested

namespace IsAddress

theorem isAddressChar (h : IsAddress address) (hc : c ∈ address) :
    Net.Address.isAddressChar c = true := by
  cases h with
  | internet h => exact Net.Address.isAddressChar_of_read? h c hc
  | hardware hLength hPairs =>
      rcases @Text.mem_join (.char ':') c _ hc with rfl | ⟨pair, hPair, hMem⟩
      · decide
      · exact Net.Address.isAddressChar_of_isHex ((hPairs pair hPair).2 c hMem)

theorem ne_nil (h : IsAddress address) : address ≠ [] := by
  cases h with
  | internet h => exact Net.Address.ne_nil_of_read? h
  | hardware hLength hPairs =>
      intro hNil
      have hStarts := Nested.startsLikeHardware_join hLength hPairs
      rw [hNil] at hStarts
      cases hStarts

/-- An address starts no nested query. -/
theorem looksLikeAddress (h : IsAddress address) :
    (Nested.startsLikeHardware address || Nested.isInternetAddress address) = true := by
  cases h with
  | internet h => rw [Nested.isInternetAddress_of_read? h, Bool.or_true]
  | hardware hLength hPairs =>
      rw [Nested.startsLikeHardware_join hLength hPairs, Bool.true_or]

end IsAddress

/-! ## Values with addresses -/

/-- An address as a value, with or without quotes around it. -/
def addressValues (address : Text) : List Text :=
  [address, .char '"' :: (address ++ [.char '"'])]

/-- The characters that there are in such a value. -/
def isAddressValueChar (c : CodePoint) : Bool :=
  Net.Address.isAddressChar c || c == '"'

namespace IsAddress

theorem isAddressValueChar (h : IsAddress address) (hValue : value ∈ addressValues address)
    (hc : c ∈ value) : isAddressValueChar c = true := by
  have hAddress : ∀ c ∈ address, Token.isAddressValueChar c = true := fun c hc => by
    simp [Token.isAddressValueChar, h.isAddressChar hc]
  simp only [addressValues, List.mem_cons, List.not_mem_nil, or_false] at hValue
  rcases hValue with rfl | rfl
  · exact hAddress c hc
  · simp only [List.mem_cons, List.mem_append, List.not_mem_nil, or_false] at hc
    rcases hc with rfl | hc | rfl
    · decide
    · exact hAddress c hc
    · decide

theorem not_mem_value (h : IsAddress address) (hValue : value ∈ addressValues address)
    (hc : Token.isAddressValueChar c = false) : c ∉ value :=
  fun hMem => Text.ne_of_class (h.isAddressValueChar hValue hMem) hc rfl

theorem value_ne_nil (h : IsAddress address) (hValue : value ∈ addressValues address) :
    value ≠ [] := by
  simp only [addressValues, List.mem_cons, List.not_mem_nil, or_false] at hValue
  rcases hValue with rfl | rfl
  · exact h.ne_nil
  · exact List.cons_ne_nil _ _

end IsAddress

/-! ## Recognizers that decline them -/

/-- Quotes around an address do not hide that it looks like one. -/
theorem Nested.split?_address (hField : IsScope field) (h : IsAddress address)
    (hValue : value ∈ addressValues address) :
    split? (field ++ .char ':' :: value) = none := by
  have hBlank : ∀ c ∈ value, Text.isBlank c = false := fun c hc =>
    Text.not_isBlank_of_class (by decide +kernel) (h.isAddressValueChar hValue hc)
  have hWords := words_path hField.chars hBlank
  have hSplit : ∃ front, splitPath? (field ++ .char ':' :: value) = some (field, front) ∧
      (startsLikeHardware front || isInternetAddress front) = true := by
    simp only [addressValues, List.mem_cons, List.not_mem_nil, or_false] at hValue
    rcases hValue with rfl | rfl
    · refine ⟨value, splitPath?_path hField.colon fun hQuote => ?_, h.looksLikeAddress⟩
      exact absurd (h.isAddressChar (List.mem_of_head? hQuote)) (by decide)
    · refine ⟨address ++ [.char '"'], splitPath?_quote hField.colon _, ?_⟩
      rw [startsLikeHardware_append_quote, isInternetAddress_append_quote, h.looksLikeAddress]
  obtain ⟨front, hFront, hCloses⟩ := hSplit
  rw [split?_of_path hWords hFront hField.nonempty hField.free]
  rw [Bool.or_eq_true] at hCloses
  rcases hCloses with hHardware | hInternet
  · simp [hHardware]
  · simp [hInternet]

theorem Ranges.condition?_address (hPath : field ≠ []) (hColon : .char ':' ∉ field)
    (h : IsAddress address) (hValue : value ∈ addressValues address) :
    condition? (field ++ .char ':' :: value) = .ok none := by
  refine condition?_path hPath hColon (h.value_ne_nil hValue) (h.not_mem_value hValue (by decide))
    fun c hc => ?_
  have hChar := h.isAddressValueChar hValue (List.mem_of_head? hc)
  exact ⟨Text.ne_of_class hChar (by decide), Text.ne_of_class hChar (by decide)⟩

theorem AddressBlock.condition?_address (hPath : field ≠ []) (hColon : .char ':' ∉ field)
    (h : IsAddress address) (hValue : value ∈ addressValues address) :
    condition? (field ++ .char ':' :: value) = none :=
  condition?_path hPath hColon (h.value_ne_nil hValue) (h.not_mem_value hValue (by decide))

/-- Nothing has to be escaped in a field name with an address. -/
theorem Escape.isSpecial_address (hChars : ∀ c ∈ field, isNameChar c = true)
    (h : IsAddress address) (hValue : value ∈ addressValues address) :
    ∀ c ∈ field ++ .char ':' :: value, isSpecial c = false := by
  have hMarks : ∀ c, isSpecial c = true →
      isNameChar c = false ∧ c ≠ .char ':' ∧ isAddressValueChar c = false := by
    intro c hSpecial
    simp only [isSpecial, Bool.or_eq_true, beq_iff_eq] at hSpecial
    rcases hSpecial with ((rfl | rfl) | rfl) | rfl <;> decide
  intro c hc
  rw [Bool.eq_false_iff]
  intro hSpecial
  obtain ⟨hName, hColon, hAddress⟩ := hMarks c hSpecial
  rcases List.mem_append.mp hc with hc | hc
  · exact Text.ne_of_class (hChars c hc) hName rfl
  · rcases List.mem_cons.mp hc with rfl | hc
    · exact hColon rfl
    · exact h.not_mem_value hValue hAddress hc

end LogQuery.Token
