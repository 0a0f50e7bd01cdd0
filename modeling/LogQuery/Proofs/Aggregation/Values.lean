import LogQuery.Aggregation.Definition
import LogQuery.Proofs.Number.Integer
import LogQuery.Proofs.Result

/-! What the texts of parameters stand for. A text in the form of an integer or of a decimal stands
for that number, and any other for itself; which form it has is said by a grammar here, and reading
it agrees with the grammar. -/

namespace LogQuery.Aggregation.Definition

variable {cs body digits whole places : Text} {negative : Bool} {value : Json}

/-- The text is a line that says `body`: a line feed may end it. -/
def IsLine (body cs : Text) : Prop :=
  cs = body ∨ cs = body ++ [.char '\n']

/-- The text is an integer: decimal digits, perhaps after a minus sign. -/
structure IsInteger (cs : Text) (negative : Bool) (digits : Text) : Prop where
  decimal : ∀ c ∈ digits, Text.isDecimal c = true
  nonempty : digits ≠ []
  line : IsLine (Integer.sign negative ++ digits) cs

/-- The text is a decimal: a point with digits before it or after it, perhaps after a minus sign. -/
structure IsDecimal (cs : Text) (negative : Bool) (whole places : Text) : Prop where
  decimal : ∀ c ∈ whole ++ places, Text.isDecimal c = true
  nonempty : whole ++ places ≠ []
  line : IsLine (Integer.sign negative ++ (whole ++ .char '.' :: places)) cs

/-- The value that a text stands for. -/
inductive StandsFor (cs : Text) : Json → Prop
  | integer {negative : Bool} {digits : Text} (h : IsInteger cs negative digits) :
      StandsFor cs (.int (Integer.signed negative (Integer.ofDigits digits)))
  | decimal {negative : Bool} {whole places : Text} (h : IsDecimal cs negative whole places) :
      StandsFor cs (.float (Decimal.toFloat negative (Integer.ofDigits (whole ++ places))
        (-(places.length : Int))))
  | text (hInteger : ∀ negative digits, ¬IsInteger cs negative digits)
      (hDecimal : ∀ negative whole places, ¬IsDecimal cs negative whole places) :
      StandsFor cs (.str cs)

/-- The text has no more digits than an integer that can be read, if it is one. -/
def FitsInteger (cs : Text) : Prop :=
  ∀ negative digits, IsInteger cs negative digits → digits.length ≤ Integer.maxDigits

theorem IsInteger.length_le (h : IsInteger cs negative digits) : digits.length ≤ cs.length := by
  rcases h.line with hLine | hLine
  · rw [hLine, List.length_append]
    omega
  · rw [hLine, List.length_append, List.length_append]
    omega

theorem fitsInteger_of_length (h : cs.length ≤ Integer.maxDigits) : FitsInteger cs :=
  fun _ _ hInteger => Nat.le_trans hInteger.length_le h

theorem exists_standsFor (cs : Text) : ∃ value, StandsFor cs value := by
  by_cases hInteger : ∃ negative digits, IsInteger cs negative digits
  · obtain ⟨negative, digits, h⟩ := hInteger
    exact ⟨_, .integer h⟩
  · by_cases hDecimal : ∃ negative whole places, IsDecimal cs negative whole places
    · obtain ⟨negative, whole, places, h⟩ := hDecimal
      exact ⟨_, .decimal h⟩
    · push Not at hInteger hDecimal
      exact ⟨_, .text hInteger hDecimal⟩

/-! ## Lines and signs -/

theorem isLine_dropFinalNewline (cs : Text) : IsLine (Text.dropFinalNewline cs) cs :=
  Text.dropFinalNewline_cases cs

theorem IsLine.dropFinalNewline (h : IsLine body cs) (hBody : .char '\n' ∉ body) :
    Text.dropFinalNewline cs = body :=
  Text.dropFinalNewline_of_line hBody h

theorem sign_append_splitSign (cs : Text) :
    Integer.sign (splitSign cs).1 ++ (splitSign cs).2 = cs := by
  unfold splitSign
  split <;> rfl

theorem splitSign_sign (negative : Bool) (h : body.head? ≠ some (.char '-')) :
    splitSign (Integer.sign negative ++ body) = (negative, body) := by
  cases negative with
  | true => rfl
  | false =>
      show splitSign body = (false, body)
      unfold splitSign
      split
      · exact absurd rfl h
      · rfl

theorem notMem_sign (negative : Bool) {c : CodePoint} (h : c ≠ .char '-') :
    c ∉ Integer.sign negative := by
  cases negative <;> simp [Integer.sign, h]

/-! ## Integers -/

theorem IsInteger.dropFinalNewline (h : IsInteger cs negative digits) :
    Text.dropFinalNewline cs = Integer.sign negative ++ digits := by
  apply h.line.dropFinalNewline
  intro hMem
  rcases List.mem_append.mp hMem with hSign | hDigit
  · exact notMem_sign negative (by decide) hSign
  · exact absurd (h.decimal _ hDigit) (by decide)

theorem IsInteger.splitSign (h : IsInteger cs negative digits) :
    splitSign (Text.dropFinalNewline cs) = (negative, digits) := by
  rw [h.dropFinalNewline]
  apply splitSign_sign
  intro hHead
  exact absurd (h.decimal _ (List.mem_of_head? hHead)) (by decide)

theorem looksInteger_iff : looksInteger cs = true ↔ ∃ negative digits, IsInteger cs negative digits := by
  constructor
  · intro h
    simp only [looksInteger, Bool.and_eq_true, Bool.not_eq_true', List.isEmpty_eq_false_iff,
      List.all_eq_true] at h
    have hLine := isLine_dropFinalNewline cs
    rw [← sign_append_splitSign (Text.dropFinalNewline cs)] at hLine
    exact ⟨_, _, h.2, h.1, hLine⟩
  · rintro ⟨negative, digits, h⟩
    have hAll : digits.all Text.isDecimal = true := List.all_eq_true.mpr h.decimal
    simp [looksInteger, h.splitSign, h.nonempty, hAll]

/-- An integer is read as the number that its digits denote, unless they are too many. -/
theorem IsInteger.read_eq (h : IsInteger cs negative digits) :
    Integer.read cs =
      if digits.length ≤ Integer.maxDigits then
        .ok (Integer.signed negative (Integer.ofDigits digits))
      else .error (.tooLong digits.length) := by
  rcases h.line with hLine | hLine
  · rw [hLine, ← List.append_nil (Integer.sign negative ++ digits)]
    exact Integer.read_digits negative h.decimal h.nonempty (by simp)
  · rw [hLine]
    exact Integer.read_digits negative h.decimal h.nonempty (by decide)

theorem readInteger_eq_ok_iff {n : Int} : Json.readInteger cs = .ok n ↔ Integer.read cs = .ok n := by
  unfold Json.readInteger
  split <;> rename_i hRead <;> simp [hRead]

theorem IsInteger.readInteger_eq_ok_iff {n : Int} (h : IsInteger cs negative digits) :
    Json.readInteger cs = .ok n ↔ digits.length ≤ Integer.maxDigits ∧
      Integer.signed negative (Integer.ofDigits digits) = n := by
  rw [Definition.readInteger_eq_ok_iff, h.read_eq]
  split <;> rename_i hLength <;> simp [hLength]

/-! ## Decimals -/

theorem IsDecimal.ne_point (h : IsDecimal cs negative whole places) :
    ∀ c ∈ whole, (c == .char '.') = false := by
  intro c hc
  rw [beq_eq_false_iff_ne]
  exact Text.ne_of_isDecimal (h.decimal c (List.mem_append_left places hc)) (by decide)

theorem IsDecimal.dropFinalNewline (h : IsDecimal cs negative whole places) :
    Text.dropFinalNewline cs = Integer.sign negative ++ (whole ++ .char '.' :: places) := by
  apply h.line.dropFinalNewline
  intro hMem
  have hNewline : Text.isDecimal (.char '\n') = false := by decide
  simp only [List.mem_append, List.mem_cons] at hMem
  rcases hMem with hSign | hWhole | hPoint | hPlace
  · exact notMem_sign negative (by decide) hSign
  · exact Text.ne_of_isDecimal (h.decimal _ (List.mem_append_left places hWhole)) hNewline rfl
  · exact absurd hPoint (by decide)
  · exact Text.ne_of_isDecimal (h.decimal _ (List.mem_append_right whole hPlace)) hNewline rfl

theorem IsDecimal.splitSign (h : IsDecimal cs negative whole places) :
    splitSign (Text.dropFinalNewline cs) = (negative, whole ++ .char '.' :: places) := by
  rw [h.dropFinalNewline]
  apply splitSign_sign
  cases whole with
  | nil => simp
  | cons d whole =>
      have hFirst : d ≠ .char '-' := Text.ne_of_isDecimal (h.decimal d (by simp)) (by decide)
      simpa using hFirst

theorem decimalParts?_eq_some_iff :
    decimalParts? cs = some (negative, whole, places) ↔ IsDecimal cs negative whole places := by
  constructor
  · intro h
    unfold decimalParts? at h
    have hSign := sign_append_splitSign (Text.dropFinalNewline cs)
    rcases hSplit : Definition.splitSign (Text.dropFinalNewline cs) with ⟨minus, body⟩
    rw [hSplit] at h hSign
    rcases hPoint : Text.splitFirst (· == .char '.') body with ⟨front, _ | back⟩
    · simp [hPoint] at h
    · simp only [hPoint] at h
      split at h
      · rename_i hDigits
        obtain ⟨rfl, rfl, rfl⟩ : minus = negative ∧ front = whole ∧ back = places := by
          simpa using h
        obtain ⟨c, hc, rfl⟩ := Text.splitFirst_some hPoint
        rw [beq_iff_eq.mp hc] at hSign
        simp only [Bool.and_eq_true, Bool.not_eq_true', Bool.and_eq_false_iff,
          List.isEmpty_eq_false_iff, List.all_eq_true] at hDigits
        obtain ⟨⟨hFront, hBack⟩, hSome⟩ := hDigits
        refine ⟨?_, by simpa [-not_and, Classical.not_and_iff_not_or_not] using hSome, ?_⟩
        · intro d hd
          exact (List.mem_append.mp hd).elim (hFront d) (hBack d)
        · rw [hSign]
          exact isLine_dropFinalNewline cs
      · cases h
  · intro h
    have hPoint : Text.splitFirst (· == .char '.') (whole ++ .char '.' :: places) =
        (whole, some places) := Text.splitFirst_append_cons h.ne_point rfl places
    have hWhole : whole.all Text.isDecimal = true :=
      List.all_eq_true.mpr fun c hc => h.decimal c (List.mem_append_left places hc)
    have hPlaces : places.all Text.isDecimal = true :=
      List.all_eq_true.mpr fun c hc => h.decimal c (List.mem_append_right whole hc)
    have hSome : (whole.isEmpty && places.isEmpty) = false := by
      simpa using h.nonempty
    simp only [decimalParts?, h.splitSign, hPoint, hWhole, hPlaces, hSome, Bool.not_false,
      Bool.and_self, ↓reduceIte]

theorem IsDecimal.not_looksInteger (h : IsDecimal cs negative whole places) :
    looksInteger cs = false := by
  have hPoint : Text.isDecimal (.char '.') = false := by decide
  simp [looksInteger, h.splitSign, hPoint]

/-! ## Values -/

/-- A text becomes the value that it stands for, unless that is an integer of too many digits. -/
theorem coerce_eq_ok_iff_fits : coerce cs = .ok value ↔ FitsInteger cs ∧ StandsFor cs value := by
  constructor
  · intro h
    rw [coerce] at h
    split at h
    · rename_i hLooks
      obtain ⟨negative, digits, hInteger⟩ := looksInteger_iff.mp hLooks
      obtain ⟨n, hRead, rfl⟩ := map_eq_ok_iff.mp h
      obtain ⟨-, rfl⟩ := hInteger.readInteger_eq_ok_iff.mp hRead
      exact ⟨fun _ _ hOther => (hOther.readInteger_eq_ok_iff.mp hRead).1, .integer hInteger⟩
    · rename_i hLooks
      have hNone : ∀ negative digits, ¬IsInteger cs negative digits :=
        fun negative digits hInteger => hLooks (looksInteger_iff.mpr ⟨negative, digits, hInteger⟩)
      refine ⟨fun negative digits hInteger => absurd hInteger (hNone negative digits), ?_⟩
      split at h
      · rename_i hParts
        cases h
        exact .decimal (decimalParts?_eq_some_iff.mp hParts)
      · rename_i hParts
        cases h
        refine .text hNone fun negative whole places hDecimal => ?_
        rw [decimalParts?_eq_some_iff.mpr hDecimal] at hParts
        cases hParts
  · rintro ⟨hFits, h⟩
    cases h with
    | @integer negative digits h =>
        have hRead := h.readInteger_eq_ok_iff.mpr ⟨hFits negative digits h, rfl⟩
        rw [coerce, if_pos (looksInteger_iff.mpr ⟨negative, digits, h⟩), hRead]
        rfl
    | decimal h =>
        rw [coerce, h.not_looksInteger, decimalParts?_eq_some_iff.mpr h]
        rfl
    | text hInteger hDecimal =>
        have hNone : ¬looksInteger cs = true := by
          rw [looksInteger_iff]
          rintro ⟨negative, digits, h⟩
          exact hInteger negative digits h
        have hParts : decimalParts? cs = none := by
          rw [Option.eq_none_iff_forall_ne_some]
          rintro ⟨negative, whole, places⟩ h
          exact hDecimal negative whole places (decimalParts?_eq_some_iff.mp h)
        rw [coerce, if_neg hNone, hParts]

theorem coerce_of_standsFor (hFits : FitsInteger cs) (h : StandsFor cs value) :
    coerce cs = .ok value :=
  coerce_eq_ok_iff_fits.mpr ⟨hFits, h⟩

theorem coerce_eq_ok_iff (hFits : FitsInteger cs) : coerce cs = .ok value ↔ StandsFor cs value := by
  rw [coerce_eq_ok_iff_fits, and_iff_right hFits]

theorem mapM_coerce_eq_ok_iff {texts : List Text} {values : List Json} :
    texts.mapM coerce = .ok values ↔
      (∀ text ∈ texts, FitsInteger text) ∧ List.Forall₂ StandsFor texts values := by
  rw [mapM_eq_ok_iff]
  simp only [coerce_eq_ok_iff_fits]
  exact List.forall₂_and_left texts values

theorem mapM_coerce_of_standsFor {texts : List Text} {values : List Json}
    (hFits : ∀ text ∈ texts, FitsInteger text) (h : List.Forall₂ StandsFor texts values) :
    texts.mapM coerce = .ok values :=
  mapM_coerce_eq_ok_iff.mpr ⟨hFits, h⟩

end LogQuery.Aggregation.Definition
