import LogQuery.Time.Lifetime
import LogQuery.Proofs.Text.Split
import LogQuery.Proofs.Time.IsoText
import Mathlib.Data.List.TakeWhile

/-! Lifetimes of scroll contexts. What is taken for one is a number with a unit that the cluster knows,
perhaps before a line feed, and the number may be written in the digits of any script. So there are
texts that look like a lifetime and are none. -/

namespace LogQuery.Time.Lifetime

variable {cs number unit : Text}

/-- The units of time that the cluster knows. -/
def clusterUnits : List Text :=
  ["nanos", "micros", "ms", "s", "m", "h", "d"]

/-- The text is a lifetime as the cluster reads it: a number in the digits of ASCII and a unit, with
nothing before or after them. -/
def IsExact (cs : Text) : Prop :=
  ∃ number unit, cs = number ++ unit ∧ number ≠ [] ∧ (∀ c ∈ number, c.isDigit = true) ∧
    unit ∈ clusterUnits

/-- A number in the digits of any script, and a unit. -/
structure IsAmount (number unit : Text) : Prop where
  nonempty : number ≠ []
  decimal : ∀ c ∈ number, Text.isDecimal c = true
  known : unit ∈ clusterUnits

/-- The text looks like a lifetime and is none: a line feed stands after it, or a digit is none of
ASCII. -/
def IsLookalike (cs : Text) : Prop :=
  ∃ number unit, IsAmount number unit ∧
    (cs = number ++ unit ++ [.char '\n'] ∨
      cs = number ++ unit ∧ ∃ c ∈ number, c.isDigit = false)

/-! ## Numbers and units -/

theorem isDecimal_of_isDigit {c : CodePoint} (h : c.isDigit = true) : Text.isDecimal c = true := by
  cases c with
  | half place => cases h
  | char c => rw [Text.isDecimal, digitValue?_of_isDigit h, Option.isSome_some]

theorem not_isDecimal_of_mem_unit (h : unit ∈ clusterUnits) :
    ∀ c ∈ unit, Text.isDecimal c = false := by
  revert unit
  decide

theorem newline_notMem_unit (h : unit ∈ clusterUnits) : .char '\n' ∉ unit := by
  revert unit
  decide

theorem IsAmount.newline_notMem (h : IsAmount number unit) : .char '\n' ∉ number ++ unit := by
  intro hMem
  rcases List.mem_append.mp hMem with hNumber | hUnit
  · exact absurd (h.decimal _ hNumber) (by decide)
  · exact newline_notMem_unit h.known hUnit

theorem IsAmount.takeWhile_append (h : IsAmount number unit) :
    (number ++ unit).takeWhile Text.isDecimal = number := by
  rw [List.takeWhile_append_of_pos h.decimal]
  cases unit with
  | nil => exact List.append_nil number
  | cons c unit =>
      have hStop := not_isDecimal_of_mem_unit h.known c List.mem_cons_self
      rw [List.takeWhile_cons_of_neg (by simp [hStop]), List.append_nil]

/-- The number ends where the unit begins. -/
theorem IsAmount.dropWhile_append (h : IsAmount number unit) :
    (number ++ unit).dropWhile Text.isDecimal = unit := by
  have hSplit := List.takeWhile_append_dropWhile (p := Text.isDecimal) (l := number ++ unit)
  rw [h.takeWhile_append] at hSplit
  exact List.append_cancel_left hSplit

/-- A lifetime is an amount in the digits of ASCII. -/
theorem IsExact.exists_amount (h : IsExact cs) :
    ∃ number unit, IsAmount number unit ∧ cs = number ++ unit ∧ ∀ c ∈ number, c.isDigit = true := by
  obtain ⟨number, unit, hText, hSome, hDigits, hUnit⟩ := h
  have hAmount : IsAmount number unit :=
    ⟨hSome, fun c hc => isDecimal_of_isDigit (hDigits c hc), hUnit⟩
  exact ⟨number, unit, hAmount, hText, hDigits⟩

/-- A text has only one number before its unit, so none is a lifetime and looks like one as well. -/
theorem IsExact.not_isLookalike (h : IsExact cs) : ¬IsLookalike cs := by
  obtain ⟨number, unit, hAmount, rfl, hDigits⟩ := h.exists_amount
  intro hLooks
  obtain ⟨front, back, hOther, hEnded | ⟨hSame, c, hMem, hDigit⟩⟩ := hLooks
  · apply hAmount.newline_notMem
    rw [hEnded]
    exact List.mem_append_right _ (List.mem_singleton_self _)
  · have hNumber := hAmount.takeWhile_append
    rw [hSame, hOther.takeWhile_append] at hNumber
    subst hNumber
    rw [hDigits c hMem] at hDigit
    cases hDigit

/-! ## What is taken for a lifetime -/

theorem isLifetime_iff_exists :
    isLifetime cs = true ↔
      ∃ number unit, IsAmount number unit ∧
        (cs = number ++ unit ∨ cs = number ++ unit ++ [.char '\n']) := by
  constructor
  · intro h
    simp only [isLifetime, Bool.and_eq_true, Bool.not_eq_true', List.isEmpty_eq_false_iff,
      List.any_eq_true, beq_iff_eq, exists_eq_right] at h
    have hAmount : IsAmount ((Text.dropFinalNewline cs).takeWhile Text.isDecimal)
        ((Text.dropFinalNewline cs).dropWhile Text.isDecimal) :=
      ⟨h.1, fun _ hc => List.mem_takeWhile_imp hc, h.2⟩
    refine ⟨_, _, hAmount, ?_⟩
    rw [List.takeWhile_append_dropWhile]
    exact Text.dropFinalNewline_cases cs
  · intro h
    obtain ⟨number, unit, hAmount, hText⟩ := h
    have hBody := Text.dropFinalNewline_of_line hAmount.newline_notMem hText
    have hKnown : unit ∈ lifetimeUnits := hAmount.known
    simp [isLifetime, hBody, hAmount.takeWhile_append, hAmount.dropWhile_append, hAmount.nonempty,
      hKnown]

/-- What is taken for a lifetime is one, or looks like one. -/
theorem isLifetime_iff : isLifetime cs = true ↔ IsExact cs ∨ IsLookalike cs := by
  rw [isLifetime_iff_exists]
  constructor
  · intro h
    obtain ⟨number, unit, hAmount, hBare | hEnded⟩ := h
    · by_cases hDigits : ∀ c ∈ number, c.isDigit = true
      · exact .inl ⟨number, unit, hBare, hAmount.nonempty, hDigits, hAmount.known⟩
      · simp only [not_forall, Bool.not_eq_true] at hDigits
        obtain ⟨c, hMem, hOther⟩ := hDigits
        exact .inr ⟨number, unit, hAmount, .inr ⟨hBare, c, hMem, hOther⟩⟩
    · exact .inr ⟨number, unit, hAmount, .inl hEnded⟩
  · intro h
    rcases h with hExact | ⟨number, unit, hAmount, hEnded | ⟨hBare, -⟩⟩
    · obtain ⟨number, unit, hAmount, hBare, -⟩ := hExact.exists_amount
      exact ⟨number, unit, hAmount, .inl hBare⟩
    · exact ⟨number, unit, hAmount, .inr hEnded⟩
    · exact ⟨number, unit, hAmount, .inl hBare⟩

theorem isExact_defaultLifetime : IsExact defaultLifetime :=
  ⟨"1", "m", rfl, by decide, by decide, by decide⟩

end LogQuery.Time.Lifetime
