import LogQuery.Number.Integer
import LogQuery.Proofs.Text.Split
import Mathlib.Data.List.TakeWhile

/-! Reading integers that are written as digits. Digits of any script, perhaps after a minus sign and
with blanks around them, are read as the number that they denote, unless there are too many. Digits
without a place in decimal notation, such as superscripts, are not read at all. -/

namespace LogQuery

namespace Text

variable {c d : CodePoint}

theorem ne_of_isDecimal (hc : isDecimal c = true) (hd : isDecimal d = false) : c ≠ d :=
  ne_of_class hc hd

theorem isDigit_of_isDecimal (h : isDecimal c = true) : isDigit c = true := by
  rw [isDigit, h, Bool.true_or]

theorem not_isBlank_of_isDigit (h : isDigit c = true) : isBlank c = false :=
  not_isBlank_of_class (by decide +kernel) h

end Text

namespace Integer

variable {cs ds tail : Text} {c : CodePoint}

/-- A number with a sign. -/
def signed (negative : Bool) (n : Nat) : Int :=
  if negative then -n else n

/-- A minus sign, if there is one. -/
def sign (negative : Bool) : Text :=
  if negative then ['-'] else []

theorem not_isPadding_of_isDigit (h : Text.isDigit c = true) : isPadding c = false := by
  rw [isPadding, Text.not_isBlank_of_isDigit h]
  rfl

theorem not_isDigitOrBar_of_isPadding (h : isPadding c = true) : isDigitOrBar c = false := by
  rw [Bool.eq_false_iff]
  intro hDigit
  rcases Bool.or_eq_true_iff.mp hDigit with hDecimal | hBar
  · rw [not_isPadding_of_isDigit (Text.isDigit_of_isDecimal hDecimal)] at h
    cases h
  · rw [beq_iff_eq.mp hBar] at h
    exact absurd h (by decide)

theorem barsSeparate_of_isDecimal (h : ∀ c ∈ ds, Text.isDecimal c = true) :
    barsSeparate ds = true := by
  induction ds with
  | nil => rfl
  | cons d ds ih =>
      obtain ⟨hFirst, hRest⟩ := List.forall_mem_cons.mp h
      have hBar : d ≠ .char '_' := Text.ne_of_isDecimal hFirst (by decide)
      rw [barsSeparate]
      · exact ih hRest
      · exact fun hOnly _ => hBar hOnly
      · exact fun _ hOther _ => hBar hOther

theorem readUnsigned_digits (hDigits : ∀ c ∈ ds, Text.isDecimal c = true) (hSome : ds ≠ [])
    (hTail : ∀ c ∈ tail, isPadding c = true) :
    readUnsigned (ds ++ tail) =
      if ds.length ≤ maxDigits then .ok (ofDigits ds) else .error (.tooLong ds.length) := by
  have hBody : ∀ c ∈ ds, isDigitOrBar c = true := by
    intro c hc
    rw [isDigitOrBar, hDigits c hc, Bool.true_or]
  have hStop : tail.takeWhile isDigitOrBar = [] ∧ tail.dropWhile isDigitOrBar = tail := by
    cases tail with
    | nil => exact ⟨rfl, rfl⟩
    | cons c tail =>
        have hEnd := not_isDigitOrBar_of_isPadding (hTail c List.mem_cons_self)
        simp [hEnd]
  have hFilter : ds.filter Text.isDecimal = ds := List.filter_eq_self.mpr hDigits
  obtain ⟨d, rest, rfl⟩ := List.exists_cons_of_ne_nil hSome
  have hFirst : d ≠ .char '_' :=
    Text.ne_of_isDecimal (hDigits d List.mem_cons_self) (by decide)
  have hPadding : tail.all isPadding = true := List.all_eq_true.mpr hTail
  rw [readUnsigned, List.takeWhile_append_of_pos hBody, List.dropWhile_append_of_pos hBody,
    hStop.1, hStop.2, List.append_nil, hFilter]
  by_cases hLength : (d :: rest).length ≤ maxDigits
  · rw [if_pos hLength]
    simpa [hFirst, barsSeparate_of_isDecimal hDigits, hPadding] using hLength
  · rw [if_neg hLength]
    simpa [hFirst, barsSeparate_of_isDecimal hDigits, hPadding] using hLength

/-- A digit without a place in decimal notation ends an integer, and is no blank that may stand after
it. -/
theorem exists_readUnsigned_eq_error (hDigits : ∀ c ∈ cs, Text.isDigit c = true) (hMem : c ∈ cs)
    (hPlace : Text.isDecimal c = false) : ∃ e, readUnsigned cs = .error e := by
  have hBar : c ≠ .char '_' := Text.ne_of_class (hDigits c hMem) (by decide)
  have hEnd : isDigitOrBar c = false := by
    rw [isDigitOrBar, hPlace, Bool.false_or]
    simpa using hBar
  have hRest : (cs.dropWhile isDigitOrBar).all isPadding = false := by
    cases hCons : cs.dropWhile isDigitOrBar with
    | nil =>
        rw [List.dropWhile_eq_nil_iff.mp hCons c hMem] at hEnd
        cases hEnd
    | cons d rest =>
        have hFirst : d ∈ cs := (List.dropWhile_suffix isDigitOrBar).mem (hCons ▸ List.mem_cons_self)
        rw [List.all_cons, not_isPadding_of_isDigit (hDigits d hFirst), Bool.false_and]
  unfold readUnsigned
  simp only [hRest, Bool.false_eq_true, ↓reduceIte]
  split
  · exact ⟨_, rfl⟩
  · split <;> exact ⟨_, rfl⟩

/-- What starts with a digit is read without a sign, and a minus sign before it counts. -/
theorem read_sign (negative : Bool) (h : Text.isDigit c = true) (rest : Text) :
    read (sign negative ++ c :: rest) = (readUnsigned (c :: rest)).map (signed negative) := by
  cases negative with
  | true => rfl
  | false =>
      have hPlus : c ≠ .char '+' := Text.ne_of_class h (by decide)
      have hMinus : c ≠ .char '-' := Text.ne_of_class h (by decide)
      have hStart : (c :: rest).dropWhile isPadding = c :: rest := by
        simp [not_isPadding_of_isDigit h]
      rw [sign, if_neg Bool.false_ne_true, List.nil_append, read, hStart]
      split
      · rename_i hCons
        exact absurd (List.cons.inj hCons).1 hPlus
      · rename_i hCons
        exact absurd (List.cons.inj hCons).1 hMinus
      · rfl

/-- Digits after a sign are read as the number that they denote, with that sign, unless there are too
many. -/
theorem read_digits (negative : Bool) (hDigits : ∀ c ∈ ds, Text.isDecimal c = true)
    (hSome : ds ≠ []) (hTail : ∀ c ∈ tail, isPadding c = true) :
    read (sign negative ++ ds ++ tail) =
      if ds.length ≤ maxDigits then .ok (signed negative (ofDigits ds))
      else .error (.tooLong ds.length) := by
  have hRead := readUnsigned_digits hDigits hSome hTail
  obtain ⟨d, rest, rfl⟩ := List.exists_cons_of_ne_nil hSome
  have hFirst := Text.isDigit_of_isDecimal (hDigits d List.mem_cons_self)
  rw [List.append_assoc, List.cons_append, read_sign negative hFirst, ← List.cons_append, hRead]
  split <;> rfl

end Integer

end LogQuery
