import LogQuery.Proofs.Aggregation.Nodes
import LogQuery.Proofs.Aggregation.Written

/-! Any text as definitions. A grammar says what each piece between plus signs stands for, whatever it
is: a type that is none is the field of a terms aggregation, and what is no number is no parameter
where a number is asked for. A text is read as the grammar says, unless an integer in it has too many
digits, or a whole number has digits without a place in decimal notation. -/

namespace LogQuery.Aggregation.Definition

variable {cs given piece body field key : Text} {params final : Members} {value : Json} {m : Method}
  {label? given? : Option Text} {d : Definition}

/-! ## Parameters with keys -/

/-- The pieces between the commas that are not empty. -/
def commaItems (cs : Text) : List Text :=
  (Text.splitOn ',' cs).filter (!·.isEmpty)

/-- What a text after a key stands for: with commas a list. -/
inductive HasValue (cs : Text) : Json → Prop
  | single {value : Json} (hComma : .char ',' ∉ cs) (h : StandsFor cs value) : HasValue cs value
  | list {values : List Json} (hComma : .char ',' ∈ cs)
      (h : List.Forall₂ StandsFor (commaItems cs) values) : HasValue cs (.arr values)

/-- What a piece adds to parameters: a value under a key, in the place of the one that is there. A
piece without a key or without a value adds nothing. -/
inductive AddsPair (params : Members) (pair : Text) : Members → Prop
  | skip (hNone : (Text.partition '=' pair).1 = [] ∨ (Text.partition '=' pair).2 = []) :
      AddsPair params pair params
  | put {value : Json} (hKey : (Text.partition '=' pair).1 ≠ [])
      (hSome : (Text.partition '=' pair).2 ≠ []) (hValue : HasValue (Text.partition '=' pair).2 value) :
      AddsPair params pair (params.set (Text.partition '=' pair).1 value)

/-- What some pieces add to parameters, one after the other. -/
inductive Adds : Members → List Text → Members → Prop
  | nil (params : Members) : Adds params [] params
  | cons {params next final : Members} {pair : Text} {pairs : List Text}
      (hFirst : AddsPair params pair next) (hRest : Adds next pairs final) :
      Adds params (pair :: pairs) final

/-- The items of the value in a piece, if it has a key. -/
def pairItems (pair : Text) : List Text :=
  if (Text.partition '=' pair).1 = [] then [] else commaItems (Text.partition '=' pair).2

theorem commaItems_of_notMem (hSome : cs ≠ []) (hComma : .char ',' ∉ cs) : commaItems cs = [cs] := by
  have hSplit : Text.splitOn (.char ',') cs = [cs] :=
    Text.splitWhere_of_forall (Text.beq_eq_false_of_not_mem hComma)
  rw [commaItems, hSplit, List.filter_cons_of_pos (by simpa using hSome), List.filter_nil]

theorem coerceList_eq_ok_iff {values : List Json} :
    coerceList cs = .ok values ↔
      (∀ item ∈ commaItems cs, FitsInteger item) ∧ List.Forall₂ StandsFor (commaItems cs) values :=
  mapM_coerce_eq_ok_iff

theorem paramValue_eq_ok_iff (hSome : cs ≠ []) :
    paramValue cs = .ok value ↔ (∀ item ∈ commaItems cs, FitsInteger item) ∧ HasValue cs value := by
  by_cases hComma : .char ',' ∈ cs
  · have hList : paramValue cs = (coerceList cs).map .arr := by simp [paramValue, hComma]
    rw [hList]
    constructor
    · intro h
      obtain ⟨values, hValues, rfl⟩ := map_eq_ok_iff.mp h
      obtain ⟨hFits, hStands⟩ := coerceList_eq_ok_iff.mp hValues
      exact ⟨hFits, .list hComma hStands⟩
    · rintro ⟨hFits, hValue⟩
      cases hValue with
      | single hNone h => exact absurd hComma hNone
      | list _ h =>
          rw [coerceList_eq_ok_iff.mpr ⟨hFits, h⟩]
          rfl
  · have hSingle : paramValue cs = coerce cs := by simp [paramValue, hComma]
    rw [hSingle, coerce_eq_ok_iff_fits, commaItems_of_notMem hSome hComma, List.forall_mem_singleton]
    refine and_congr_right fun _ => ⟨.single hComma, fun hValue => ?_⟩
    cases hValue with
    | single _ h => exact h
    | list hSome h => exact absurd hSome hComma

theorem addPairs_cons_eq_ok_iff {pair : Text} {pairs : List Text} :
    addPairs params (pair :: pairs) = .ok final ↔ (∀ item ∈ pairItems pair, FitsInteger item) ∧
      ∃ next, AddsPair params pair next ∧ addPairs next pairs = .ok final := by
  by_cases hNone : (Text.partition '=' pair).1 = [] ∨ (Text.partition '=' pair).2 = []
  · have hStep : addPairs params (pair :: pairs) = addPairs params pairs := by
      rw [addPairs]
      exact if_pos (by simpa [Text.partition] using hNone)
    have hItems : pairItems pair = [] := by
      rcases hNone with hKey | hValue
      · rw [pairItems, if_pos hKey]
      · rw [pairItems, hValue]
        exact ite_self _
    rw [hStep, hItems]
    constructor
    · exact fun h => ⟨by simp, params, .skip hNone, h⟩
    · rintro ⟨-, next, hAdds, h⟩
      cases hAdds with
      | skip _ => exact h
      | put hKey hSome hValue => exact absurd hNone (not_or.mpr ⟨hKey, hSome⟩)
  · obtain ⟨hKey, hSome⟩ := not_or.mp hNone
    have hStep : addPairs params (pair :: pairs) = paramValue (Text.partition '=' pair).2 >>=
        fun value => addPairs (params.set (Text.partition '=' pair).1 value) pairs := by
      rw [addPairs]
      exact if_neg (by simpa [Text.partition] using hNone)
    rw [hStep, bind_eq_ok_iff, pairItems, if_neg hKey]
    simp only [paramValue_eq_ok_iff hSome]
    constructor
    · rintro ⟨value, ⟨hFits, hValue⟩, h⟩
      exact ⟨hFits, _, .put hKey hSome hValue, h⟩
    · rintro ⟨hFits, next, hAdds, h⟩
      cases hAdds with
      | skip hNone => exact absurd hNone (not_or.mpr ⟨hKey, hSome⟩)
      | put _ _ hValue => exact ⟨_, ⟨hFits, hValue⟩, h⟩

theorem addPairs_eq_ok_iff {pairs : List Text} :
    addPairs params pairs = .ok final ↔
      (∀ pair ∈ pairs, ∀ item ∈ pairItems pair, FitsInteger item) ∧ Adds params pairs final := by
  induction pairs generalizing params with
  | nil =>
      constructor
      · intro h
        cases h
        exact ⟨by simp, .nil _⟩
      · rintro ⟨-, h⟩
        cases h
        rfl
  | cons pair pairs ih =>
      rw [addPairs_cons_eq_ok_iff, List.forall_mem_cons]
      simp only [ih]
      constructor
      · rintro ⟨hFirst, next, hAdds, hRest, hFinal⟩
        exact ⟨⟨hFirst, hRest⟩, .cons hAdds hFinal⟩
      · rintro ⟨⟨hFirst, hRest⟩, hAll⟩
        cases hAll with
        | cons hAdds hFinal => exact ⟨hFirst, _, hAdds, hRest, hFinal⟩

theorem exists_hasValue (cs : Text) : ∃ value, HasValue cs value := by
  by_cases hComma : .char ',' ∈ cs
  · obtain ⟨values, hValues⟩ := exists_forall₂ exists_standsFor (commaItems cs)
    exact ⟨.arr values, .list hComma hValues⟩
  · obtain ⟨value, hValue⟩ := exists_standsFor cs
    exact ⟨value, .single hComma hValue⟩

theorem exists_adds (params : Members) (pairs : List Text) : ∃ final, Adds params pairs final := by
  induction pairs generalizing params with
  | nil => exact ⟨params, .nil params⟩
  | cons pair pairs ih =>
      by_cases hNone : (Text.partition '=' pair).1 = [] ∨ (Text.partition '=' pair).2 = []
      · obtain ⟨final, hRest⟩ := ih params
        exact ⟨final, .cons (.skip hNone) hRest⟩
      · obtain ⟨hKey, hSome⟩ := not_or.mp hNone
        obtain ⟨value, hValue⟩ := exists_hasValue (Text.partition '=' pair).2
        obtain ⟨final, hRest⟩ := ih (params.set (Text.partition '=' pair).1 value)
        exact ⟨final, .cons (.put hKey hSome hValue) hRest⟩

/-! ## Parameters without a key -/

/-- Digits can be read as an integer: all have a place in decimal notation, and they are not too
many. -/
structure FitsWhole (cs : Text) : Prop where
  decimal : ∀ c ∈ cs, Text.isDecimal c = true
  length : cs.length ≤ Integer.maxDigits

/-- A whole number is a parameter under a key, and anything else is none. -/
inductive HasWhole (key cs : Text) : Members → Prop
  | number (hSome : cs ≠ []) (hDecimal : ∀ c ∈ cs, Text.isDecimal c = true) :
      HasWhole key cs [(key, .int (Integer.ofDigits cs))]
  | other (hOther : cs = [] ∨ ∃ c ∈ cs, Text.isDecimal c = false) : HasWhole key cs []

/-- A positive number is an interval, and anything else is none. -/
inductive HasInterval (cs : Text) : Members → Prop
  | positive {value : Json} {n : Numeral} (h : StandsFor cs value) (hNumber : value.numeral? = some n)
      (hPositive : (Numeral.int 0).lt n = true) : HasInterval cs [("interval", .ofNumeral n)]
  | other {value : Json} (h : StandsFor cs value)
      (hOther : ∀ n, value.numeral? = some n → (Numeral.int 0).lt n = false) : HasInterval cs []

/-- The key of the whole number that a type takes without one. -/
def wholeKey? : Method → Option Text
  | .terms | .significantTerms => some "size"
  | .rareTerms => some "max_doc_count"
  | .geohashGrid => some "precision"
  | _ => none

/-- The percents that are computed for a list of values, or those that are by default. -/
def percentsOf (values : List Json) : Members :=
  [("percents", .arr (if values.isEmpty then defaultPercents.map .int else values))]

/-- What a type makes of a text without keys. The types that are not named here take no parameter but
with a key. -/
inductive MakesBare : Method → Text → Members → Prop
  | whole {m : Method} {key given : Text} {params : Members} (hKey : wholeKey? m = some key)
      (h : HasWhole key given params) : MakesBare m given params
  | interval {given : Text} {params : Members} (h : HasInterval given params) :
      MakesBare .histogram given params
  | calendar (given : Text) : MakesBare .dateHistogram given
      [("calendar_interval", .str (if given = [] then defaultInterval else given))]
  | percents {given : Text} {values : List Json}
      (h : List.Forall₂ StandsFor (commaItems given) values) :
      MakesBare .percentiles given (percentsOf values)
  | nothing {m : Method} (given : Text) (hKey : wholeKey? m = none) (hInterval : m ≠ .histogram)
      (hCalendar : m ≠ .dateHistogram) (hPercents : m ≠ .percentiles) : MakesBare m given []

theorem readInteger_eq_ok_iff_of_isDigit {n : Int} (hSome : cs ≠ [])
    (hDigits : ∀ c ∈ cs, Text.isDigit c = true) :
    Json.readInteger cs = .ok n ↔ FitsWhole cs ∧ (Integer.ofDigits cs : Int) = n := by
  by_cases hDecimal : ∀ c ∈ cs, Text.isDecimal c = true
  · have hInteger : IsInteger cs false cs := ⟨hDecimal, hSome, .inl rfl⟩
    rw [hInteger.readInteger_eq_ok_iff]
    exact and_congr_left fun _ => ⟨fun hLength => ⟨hDecimal, hLength⟩, fun hFits => hFits.length⟩
  · refine iff_of_false (fun hRead => ?_) fun hFits => hDecimal hFits.1.decimal
    push Not at hDecimal
    obtain ⟨c, hc, hPlace⟩ := hDecimal
    obtain ⟨e, hError⟩ := Integer.exists_readUnsigned_eq_error hDigits hc (Bool.eq_false_iff.mpr hPlace)
    obtain ⟨first, rest, rfl⟩ := List.exists_cons_of_ne_nil hSome
    have hSign := Integer.read_sign false (hDigits first List.mem_cons_self) rest
    rw [hError] at hSign
    cases hSign.symm.trans (readInteger_eq_ok_iff.mp hRead)

theorem wholeNumber_eq_ok_iff :
    wholeNumber key cs = .ok params ↔
      ((∀ c ∈ cs, Text.isDigit c = true) → FitsWhole cs) ∧ HasWhole key cs params := by
  by_cases hDigits : cs ≠ [] ∧ ∀ c ∈ cs, Text.isDigit c = true
  · obtain ⟨hSome, hAll⟩ := hDigits
    have hStep : wholeNumber key cs = Json.readInteger cs >>= fun n => return [(key, .int n)] := by
      rw [wholeNumber]
      exact if_pos (by simpa [hSome] using hAll)
    rw [hStep, bind_eq_ok_iff]
    simp only [readInteger_eq_ok_iff_of_isDigit hSome hAll, pure_eq_ok_iff]
    constructor
    · rintro ⟨_, ⟨hFits, rfl⟩, rfl⟩
      exact ⟨fun _ => hFits, .number hSome hFits.decimal⟩
    · rintro ⟨hFits, hWhole⟩
      cases hWhole with
      | number _ _ => exact ⟨_, ⟨hFits hAll, rfl⟩, rfl⟩
      | other hOther =>
          rcases hOther with hNone | ⟨c, hc, hPlace⟩
          · exact absurd hNone hSome
          · rw [(hFits hAll).decimal c hc] at hPlace
            cases hPlace
  · have hStep : wholeNumber key cs = .ok [] := by
      rw [wholeNumber]
      exact if_neg (by simpa using hDigits)
    rw [hStep]
    constructor
    · intro h
      cases h
      by_cases hNone : cs = []
      · subst hNone
        exact ⟨fun _ => ⟨by simp, Nat.zero_le _⟩, .other (.inl rfl)⟩
      · have hSome : ∃ c ∈ cs, Text.isDigit c = false := by simpa [hNone] using hDigits
        obtain ⟨c, hc, hDigit⟩ := hSome
        have hPlace : Text.isDecimal c = false := by
          rw [Bool.eq_false_iff]
          intro hDecimal
          rw [Text.isDigit_of_isDecimal hDecimal] at hDigit
          cases hDigit
        refine ⟨fun hAll => ?_, .other (.inr ⟨c, hc, hPlace⟩)⟩
        rw [hAll c hc] at hDigit
        cases hDigit
    · rintro ⟨-, hWhole⟩
      cases hWhole with
      | number hSome hDecimal =>
          exact absurd ⟨hSome, fun c hc => Text.isDigit_of_isDecimal (hDecimal c hc)⟩ hDigits
      | other _ => rfl

theorem interval_eq_ok_iff :
    interval cs = .ok params ↔ FitsInteger cs ∧ HasInterval cs params := by
  simp only [interval, bind_eq_ok_iff, coerce_eq_ok_iff_fits]
  constructor
  · rintro ⟨value, ⟨hFits, hStands⟩, h⟩
    refine ⟨hFits, ?_⟩
    split at h
    · rename_i n hNumber
      rw [pure_eq_ok_iff] at h
      split at h <;> subst h
      · rename_i hPositive
        exact .positive hStands hNumber hPositive
      · rename_i hNot
        refine .other hStands fun n' hSame => ?_
        cases hNumber.symm.trans hSame
        exact Bool.eq_false_iff.mpr hNot
    · rename_i hNumber
      cases h
      refine .other hStands fun n hSame => ?_
      cases hNumber.symm.trans hSame
  · rintro ⟨hFits, hInterval⟩
    cases hInterval with
    | positive hStands hNumber hPositive =>
        exact ⟨_, ⟨hFits, hStands⟩, by simp [hNumber, hPositive, pure, Except.pure]⟩
    | @other value hStands hOther =>
        refine ⟨value, ⟨hFits, hStands⟩, ?_⟩
        cases hNumber : value.numeral? with
        | none => rfl
        | some n => simp [hOther n hNumber, pure, Except.pure]

theorem percents_eq_ok_iff :
    percents cs = .ok params ↔ (∀ item ∈ commaItems cs, FitsInteger item) ∧
      ∃ values, List.Forall₂ StandsFor (commaItems cs) values ∧ percentsOf values = params := by
  simp only [percents, bind_eq_ok_iff, coerceList_eq_ok_iff]
  constructor
  · rintro ⟨values, ⟨hFits, hStands⟩, h⟩
    refine ⟨hFits, values, hStands, ?_⟩
    cases values <;> cases h <;> rfl
  · rintro ⟨hFits, values, hStands, rfl⟩
    refine ⟨values, ⟨hFits, hStands⟩, ?_⟩
    cases values <;> rfl

/-- The texts in parameters without keys that are read as integers if they look so. -/
def bareTexts : Method → Text → List Text
  | .histogram, given => [given]
  | .percentiles, given => commaItems given
  | _, _ => []

theorem bareParams_of_wholeKey (hKey : wholeKey? m = some key) (given : Text) :
    bareParams m given = wholeNumber key given ∧ bareTexts m given = [] ∧
      ∀ params, MakesBare m given params ↔ HasWhole key given params := by
  refine ⟨by cases m <;> cases hKey <;> rfl, by cases m <;> cases hKey <;> rfl, fun params => ?_⟩
  constructor
  · intro h
    cases h with
    | whole hSame h =>
        cases hKey.symm.trans hSame
        exact h
    | interval h => cases hKey
    | calendar => cases hKey
    | percents h => cases hKey
    | nothing _ hNone => cases hKey.symm.trans hNone
  · exact .whole hKey

theorem makesBare_histogram_iff : MakesBare .histogram given params ↔ HasInterval given params := by
  refine ⟨fun h => ?_, .interval⟩
  cases h with
  | whole hKey _ => cases hKey
  | interval h => exact h
  | nothing _ _ hOther => exact absurd rfl hOther

theorem makesBare_percentiles_iff : MakesBare .percentiles given params ↔
    ∃ values, List.Forall₂ StandsFor (commaItems given) values ∧ percentsOf values = params := by
  constructor
  · intro h
    cases h with
    | whole hKey _ => cases hKey
    | percents h => exact ⟨_, h, rfl⟩
    | nothing _ _ _ _ hOther => exact absurd rfl hOther
  · rintro ⟨values, h, rfl⟩
    exact .percents h

theorem bareParams_dateHistogram_eq_ok_iff :
    bareParams .dateHistogram given = .ok params ↔ MakesBare .dateHistogram given params := by
  have hParams : bareParams .dateHistogram given = .ok
      [("calendar_interval", .str (if given = [] then defaultInterval else given))] := by
    cases given <;> rfl
  rw [hParams]
  constructor
  · intro h
    cases h
    exact .calendar given
  · intro h
    cases h with
    | whole hKey _ => cases hKey
    | calendar => rfl
    | nothing _ _ _ hOther => exact absurd rfl hOther

theorem bareParams_of_nothing (hKey : wholeKey? m = none) (hInterval : m ≠ .histogram)
    (hCalendar : m ≠ .dateHistogram) (hPercents : m ≠ .percentiles) :
    bareTexts m given = [] ∧ (bareParams m given = .ok params ↔ MakesBare m given params) := by
  have hParams : bareParams m given = .ok [] := by
    cases m <;> simp_all [bareParams, wholeKey?]
  refine ⟨by cases m <;> simp_all [bareTexts], ?_⟩
  rw [hParams]
  constructor
  · intro h
    cases h
    exact .nothing given hKey hInterval hCalendar hPercents
  · intro h
    cases h with
    | whole hSame _ => cases hKey.symm.trans hSame
    | interval _ => exact absurd rfl hInterval
    | calendar => exact absurd rfl hCalendar
    | percents _ => exact absurd rfl hPercents
    | nothing => rfl

theorem bareParams_eq_ok_iff :
    bareParams m given = .ok params ↔
      ((∀ cs ∈ bareTexts m given, FitsInteger cs) ∧ ((wholeKey? m).isSome = true →
        (∀ c ∈ given, Text.isDigit c = true) → FitsWhole given)) ∧ MakesBare m given params := by
  cases hKey : wholeKey? m with
  | some key =>
      obtain ⟨hParams, hTexts, hMakes⟩ := bareParams_of_wholeKey hKey given
      rw [hParams, hTexts, hMakes, wholeNumber_eq_ok_iff]
      simp
  | none =>
      have hWhole : ∀ {p : Prop}, ((none : Option Text).isSome = true → p) ↔ True := by simp
      rw [hWhole, and_true]
      by_cases hInterval : m = .histogram
      · subst hInterval
        have hParams : bareParams .histogram given = interval given := by cases given <;> rfl
        rw [hParams, makesBare_histogram_iff, interval_eq_ok_iff, bareTexts,
          List.forall_mem_singleton]
      by_cases hCalendar : m = .dateHistogram
      · subst hCalendar
        rw [bareParams_dateHistogram_eq_ok_iff]
        simp [bareTexts]
      by_cases hPercents : m = .percentiles
      · subst hPercents
        rw [makesBare_percentiles_iff]
        exact percents_eq_ok_iff
      obtain ⟨hTexts, hMakes⟩ := bareParams_of_nothing hKey hInterval hCalendar hPercents
      rw [hTexts, hMakes]
      simp

/-- The texts in parameters that are read as integers if they look so. -/
def integerTexts (m : Method) (given : Text) : List Text :=
  if hasKeys given then (splitPairs given).flatMap pairItems else bareTexts m given

/-- Every number in the parameters can be read. -/
structure IsUsable (m : Method) (given : Text) : Prop where
  integers : ∀ cs ∈ integerTexts m given, FitsInteger cs
  whole : hasKeys given = false → (wholeKey? m).isSome = true →
    (∀ c ∈ given, Text.isDigit c = true) → FitsWhole given

/-- The parameters that a type makes of a text. -/
inductive Makes (m : Method) (given : Text) : Members → Prop
  | keyed {params : Members} (hKeys : hasKeys given = true) (h : Adds [] (splitPairs given) params) :
      Makes m given params
  | bare {params : Members} (hNone : hasKeys given = false) (h : MakesBare m given params) :
      Makes m given params

theorem readParams_eq_ok_iff :
    readParams m given = .ok params ↔ IsUsable m given ∧ Makes m given params := by
  cases hKeys : hasKeys given with
  | true =>
      have hTexts : (∀ cs ∈ integerTexts m given, FitsInteger cs) ↔
          ∀ pair ∈ splitPairs given, ∀ cs ∈ pairItems pair, FitsInteger cs := by
        rw [integerTexts, if_pos hKeys, List.forall_mem_flatMap]
      rw [readParams, if_pos hKeys, keyedParams, addPairs_eq_ok_iff, ← hTexts]
      constructor
      · rintro ⟨hFits, hAdds⟩
        exact ⟨⟨hFits, fun hNone => by rw [hKeys] at hNone; cases hNone⟩, .keyed hKeys hAdds⟩
      · rintro ⟨⟨hFits, -⟩, hMakes⟩
        cases hMakes with
        | keyed _ hAdds => exact ⟨hFits, hAdds⟩
        | bare hNone _ =>
            rw [hKeys] at hNone
            cases hNone
  | false =>
      have hTexts : integerTexts m given = bareTexts m given := by
        rw [integerTexts, hKeys]
        rfl
      have hParams : readParams m given = bareParams m given := by
        rw [readParams, hKeys]
        rfl
      rw [hParams, bareParams_eq_ok_iff]
      constructor
      · rintro ⟨⟨hFits, hWhole⟩, hMakes⟩
        exact ⟨⟨hTexts ▸ hFits, fun _ => hWhole⟩, .bare hKeys hMakes⟩
      · rintro ⟨⟨hFits, hWhole⟩, hMakes⟩
        refine ⟨⟨hTexts ▸ hFits, hWhole hKeys⟩, ?_⟩
        cases hMakes with
        | keyed hSome _ =>
            rw [hKeys] at hSome
            cases hSome
        | bare _ h => exact h

theorem exists_hasWhole (key cs : Text) : ∃ params, HasWhole key cs params := by
  by_cases hNumber : cs ≠ [] ∧ ∀ c ∈ cs, Text.isDecimal c = true
  · exact ⟨_, .number hNumber.1 hNumber.2⟩
  · refine ⟨_, .other ?_⟩
    simpa [or_iff_not_imp_left] using hNumber

theorem exists_hasInterval (cs : Text) : ∃ params, HasInterval cs params := by
  obtain ⟨value, hStands⟩ := exists_standsFor cs
  by_cases hPositive : ∃ n, value.numeral? = some n ∧ (Numeral.int 0).lt n = true
  · obtain ⟨n, hNumber, hPositive⟩ := hPositive
    exact ⟨_, .positive hStands hNumber hPositive⟩
  · push Not at hPositive
    exact ⟨_, .other hStands fun n hNumber => Bool.eq_false_iff.mpr (hPositive n hNumber)⟩

theorem exists_makesBare (m : Method) (given : Text) : ∃ params, MakesBare m given params := by
  cases hKey : wholeKey? m with
  | some key =>
      obtain ⟨params, h⟩ := exists_hasWhole key given
      exact ⟨params, .whole hKey h⟩
  | none =>
      by_cases hInterval : m = .histogram
      · subst hInterval
        obtain ⟨params, h⟩ := exists_hasInterval given
        exact ⟨params, .interval h⟩
      by_cases hCalendar : m = .dateHistogram
      · subst hCalendar
        exact ⟨_, .calendar given⟩
      by_cases hPercents : m = .percentiles
      · subst hPercents
        obtain ⟨values, hValues⟩ := exists_forall₂ exists_standsFor (commaItems given)
        exact ⟨_, .percents hValues⟩
      exact ⟨_, .nothing given hKey hInterval hCalendar hPercents⟩

theorem exists_makes (m : Method) (given : Text) : ∃ params, Makes m given params := by
  cases hKeys : hasKeys given with
  | true =>
      obtain ⟨params, h⟩ := exists_adds [] (splitPairs given)
      exact ⟨params, .keyed hKeys h⟩
  | false =>
      obtain ⟨params, h⟩ := exists_makesBare m given
      exact ⟨params, .bare hKeys h⟩

/-! ## Definitions -/

/-- The alias at the front of a piece, and the rest. -/
inductive Labelled : Text → Option Text → Text → Prop
  | label {label : Text} (body : Text) (h : IsName label) :
      Labelled (label ++ .char '=' :: body) (some label) body
  | plain {body : Text} (h : ∀ label rest, IsName label → body ≠ label ++ .char '=' :: rest) :
      Labelled body none body

/-- What stands before the first colon of a text, and what after it, nothing if there is none. -/
inductive IsCut : Text → Text → Text → Prop
  | whole {front : Text} (h : .char ':' ∉ front) : IsCut front front []
  | colon {front : Text} (back : Text) (h : .char ':' ∉ front) :
      IsCut (front ++ .char ':' :: back) front back

/-- The type, the field and the text of the parameters of a definition without its alias. A field
alone has no text of parameters. A first segment that is no type is the field of a terms aggregation,
the second is the text of its parameters, and the third counts for nothing. -/
inductive HasParts : Text → Method → Text → Option Text → Prop
  | field {field : Text} (h : .char ':' ∉ field) : HasParts field .terms field none
  | typed {rest field given : Text} (m : Method) (hCut : IsCut rest field given) :
      HasParts (m.name ++ .char ':' :: rest) m field (some given)
  | untyped {field rest given more : Text} (hField : .char ':' ∉ field)
      (hUnknown : ∀ m : Method, m.name ≠ field) (hCut : IsCut rest given more) :
      HasParts (field ++ .char ':' :: rest) .terms field (some given)

/-- The definition that the grammar gives a piece. -/
inductive IsReadAs (piece : Text) (d : Definition) : Prop
  | alone {label? : Option Text} {body : Text} (hAlias : Labelled piece label? body)
      (hParts : HasParts body d.method d.field none) (hName : d.name = label?.getD d.field)
      (hParams : d.params = [(("size" : Text), Json.int defaultSize)])
  | given {label? : Option Text} {body given : Text} (hAlias : Labelled piece label? body)
      (hParts : HasParts body d.method d.field (some given))
      (hName : d.name = label?.getD (defaultName d.method d.field))
      (hParams : Makes d.method given d.params)

/-- Every number in the parameters of a piece can be read. -/
def IsReadable (piece : Text) : Prop :=
  ∀ label? body m field given, Labelled piece label? body →
    HasParts body m field (some given) → IsUsable m given

theorem startsWithKey_iff :
    startsWithKey piece = true ↔ ∃ label rest, IsName label ∧ piece = label ++ .char '=' :: rest := by
  constructor
  · intro h
    unfold startsWithKey at h
    split at h
    · rename_i rest hRest
      have hPiece := List.takeWhile_append_dropWhile (p := Text.isWord) (l := piece)
      rw [hRest] at hPiece
      refine ⟨_, rest, ⟨?_, fun c hc => List.mem_takeWhile_imp hc⟩, hPiece.symm⟩
      intro hNone
      rw [hNone, List.nil_append] at hPiece
      have hWord : Text.isWord (.char '=') = false := by decide
      rw [← hPiece] at h
      simp [hWord] at h
    · cases h
  · rintro ⟨label, rest, hName, rfl⟩
    exact Written.startsWithKey_name hName rest

theorem splitAlias_eq_iff : splitAlias piece = (label?, body) ↔ Labelled piece label? body := by
  constructor
  · intro h
    cases hKey : startsWithKey piece with
    | true =>
        obtain ⟨label, rest, hName, rfl⟩ := startsWithKey_iff.mp hKey
        rw [Written.splitAlias_name hName] at h
        cases h
        exact .label _ hName
    | false =>
        have hNone : splitAlias piece = (none, piece) := by simp [splitAlias, hKey]
        cases hNone.symm.trans h
        refine .plain fun label rest hName hPiece => ?_
        rw [startsWithKey_iff.mpr ⟨label, rest, hName, hPiece⟩] at hKey
        cases hKey
  · intro h
    cases h with
    | label body hName => exact Written.splitAlias_name hName body
    | plain hNone =>
        have hKey : ¬startsWithKey piece = true := by
          rw [startsWithKey_iff]
          rintro ⟨label, rest, hName, hPiece⟩
          exact hNone label rest hName hPiece
        rw [splitAlias, if_neg hKey]

theorem partition_colon_eq_iff {front back : Text} :
    Text.partition (.char ':') cs = (front, back) ↔ IsCut cs front back := by
  constructor
  · intro h
    rcases hSplit : Text.splitFirst (· == .char ':') cs with ⟨first, _ | rest⟩
    · obtain ⟨hColon, rfl⟩ := Text.splitFirst_eq_none_iff.mp hSplit
      rw [Text.partition, hSplit] at h
      cases h
      exact .whole hColon
    · obtain ⟨hColon, rfl⟩ := Text.splitFirst_eq_some_iff.mp hSplit
      rw [Text.partition, hSplit] at h
      cases h
      exact .colon rest hColon
  · intro h
    cases h with
    | whole hColon => rw [Text.partition, Text.splitFirst_eq_none_iff.mpr ⟨hColon, rfl⟩]; rfl
    | colon back hColon => rw [Text.partition, Text.splitFirst_eq_some_iff.mpr ⟨hColon, rfl⟩]; rfl

theorem exists_hasParts (body : Text) : ∃ m field given?, HasParts body m field given? := by
  rcases hSplit : Text.splitFirst (· == .char ':') body with ⟨first, _ | rest⟩
  · obtain ⟨hColon, rfl⟩ := Text.splitFirst_eq_none_iff.mp hSplit
    exact ⟨_, _, _, .field hColon⟩
  · obtain ⟨hColon, rfl⟩ := Text.splitFirst_eq_some_iff.mp hSplit
    have hCut := partition_colon_eq_iff.mp (rfl : Text.partition (.char ':') rest = _)
    cases hNamed : Method.named? first with
    | some m =>
        obtain rfl := Method.name_of_named? hNamed
        exact ⟨_, _, _, .typed m hCut⟩
    | none =>
        refine ⟨_, _, _, .untyped hColon (fun m hName => ?_) hCut⟩
        rw [← hName, Method.named?_name] at hNamed
        cases hNamed

theorem segments_of_field (h : .char ':' ∉ field) : segments field = (field, none) := by
  rw [segments, Text.splitFirst_eq_none_iff.mpr ⟨h, rfl⟩]

theorem segments_of_cut {first rest front back : Text} (h : .char ':' ∉ first)
    (hCut : IsCut rest front back) :
    segments (first ++ .char ':' :: rest) = (first, some (front, back)) := by
  rw [segments, Text.splitFirst_eq_some_iff.mpr ⟨h, rfl⟩, ← partition_colon_eq_iff.mpr hCut]

theorem read_of_field (hAlias : Labelled piece label? body) (hParts : HasParts body m field none) :
    Definition.read piece = .ok ⟨label?.getD field, m, field, [("size", .int defaultSize)]⟩ := by
  cases hParts with
  | field hColon =>
      simp only [Definition.read, splitAlias_eq_iff.mpr hAlias, segments_of_field hColon]
      rfl

theorem notMem_colon_name (m : Method) : .char ':' ∉ m.name := by
  cases m <;> decide

theorem read_of_given (hAlias : Labelled piece label? body)
    (hParts : HasParts body m field (some given)) :
    Definition.read piece = (readParams m given).map fun params =>
      ⟨label?.getD (defaultName m field), m, field, params⟩ := by
  cases hParts with
  | typed m hCut =>
      simp only [Definition.read, splitAlias_eq_iff.mpr hAlias,
        segments_of_cut (notMem_colon_name m) hCut, Method.named?_name]
      rfl
  | untyped hColon hUnknown hCut =>
      have hNone : Method.named? field = none := by
        rw [Option.eq_none_iff_forall_ne_some]
        exact fun m hNamed => hUnknown m (Method.name_of_named? hNamed)
      simp only [Definition.read, splitAlias_eq_iff.mpr hAlias, segments_of_cut hColon hCut, hNone]
      rfl

/-- A piece is read as the grammar says, if every number in it can be read. -/
theorem read_eq_ok_iff : Definition.read piece = .ok d ↔ IsReadable piece ∧ IsReadAs piece d := by
  have hAlias : Labelled piece (splitAlias piece).1 (splitAlias piece).2 :=
    splitAlias_eq_iff.mp rfl
  constructor
  · intro h
    constructor
    · intro label? body m field given hLabel hParts
      rw [read_of_given hLabel hParts] at h
      obtain ⟨params, hParams, -⟩ := map_eq_ok_iff.mp h
      exact (readParams_eq_ok_iff.mp hParams).1
    · obtain ⟨m, field, given?, hParts⟩ := exists_hasParts (splitAlias piece).2
      cases given? with
      | none =>
          rw [read_of_field hAlias hParts] at h
          cases h
          exact .alone hAlias hParts rfl rfl
      | some given =>
          rw [read_of_given hAlias hParts] at h
          obtain ⟨params, hParams, rfl⟩ := map_eq_ok_iff.mp h
          exact .given hAlias hParts rfl (readParams_eq_ok_iff.mp hParams).2
  · rintro ⟨hReadable, hSays⟩
    cases hSays with
    | alone hLabel hParts hName hParams =>
        rw [read_of_field hLabel hParts, ← hName, ← hParams]
    | given hLabel hParts hName hParams =>
        have hUsable := hReadable _ _ _ _ _ hLabel hParts
        rw [read_of_given hLabel hParts, ← hName, readParams_eq_ok_iff.mpr ⟨hUsable, hParams⟩]
        rfl

-- What is no number stays a text where the values of a list are computed for.
example : Definition.read "slow=percentiles:rt:50,abc" =
    .ok ⟨"slow", .percentiles, "rt", [("percents", .arr [.int 50, .str "abc"])]⟩ := rfl

theorem exists_isReadAs (piece : Text) : ∃ d, IsReadAs piece d := by
  have hAlias : Labelled piece (splitAlias piece).1 (splitAlias piece).2 :=
    splitAlias_eq_iff.mp rfl
  obtain ⟨m, field, given?, hParts⟩ := exists_hasParts (splitAlias piece).2
  cases given? with
  | none =>
      exact ⟨⟨(splitAlias piece).1.getD field, m, field, _⟩, .alone hAlias hParts rfl rfl⟩
  | some given =>
      obtain ⟨params, hParams⟩ := exists_makes m given
      exact ⟨⟨(splitAlias piece).1.getD (defaultName m field), m, field, params⟩,
        .given hAlias hParts rfl hParams⟩

/-! ## Texts -/

/-- The definitions in a text, as they stand there. -/
def pieces (text : Text) : List Text :=
  (Text.splitOn '+' text).filter (!·.isEmpty)

theorem readAll_eq_ok_iff {text : Text} {ds : List Definition} :
    readAll text = .ok ds ↔
      (∀ piece ∈ pieces text, IsReadable piece) ∧ List.Forall₂ IsReadAs (pieces text) ds := by
  have hPieces : readAll text = (pieces text).mapM Definition.read := rfl
  rw [hPieces, mapM_eq_ok_iff]
  simp only [read_eq_ok_iff]
  exact List.forall₂_and_left _ _

/-- Whatever a text is, it is read as the grammar says and expanded to the nodes of what was read,
exactly if every number in it can be read. If one cannot, then reading and expanding fail. -/
theorem readAll_reads_iff (text : Text) :
    ((∃ ds, readAll text = .ok ds ∧ expand text = .ok (nodesOf ds) ∧
        List.Forall₂ IsReadAs (pieces text) ds) ↔ ∀ piece ∈ pieces text, IsReadable piece) ∧
      ((∃ failure, readAll text = .error failure ∧ expand text = .error failure) ↔
        ¬∀ piece ∈ pieces text, IsReadable piece) := by
  have hReads : (∃ ds, readAll text = .ok ds ∧ expand text = .ok (nodesOf ds) ∧
      List.Forall₂ IsReadAs (pieces text) ds) ↔ ∀ piece ∈ pieces text, IsReadable piece := by
    constructor
    · rintro ⟨ds, hRead, -⟩
      exact (readAll_eq_ok_iff.mp hRead).1
    · intro hReadable
      obtain ⟨ds, hSays⟩ := exists_forall₂ exists_isReadAs (pieces text)
      have hRead := readAll_eq_ok_iff.mpr ⟨hReadable, hSays⟩
      exact ⟨ds, hRead, expand_eq_ok_iff.mpr ⟨ds, hRead, rfl⟩, hSays⟩
  refine ⟨hReads, ?_⟩
  rw [← hReads]
  constructor
  · rintro ⟨failure, hFails, -⟩ ⟨ds, hRead, -⟩
    cases hFails.symm.trans hRead
  · intro hNot
    cases hRead : readAll text with
    | error failure => exact ⟨failure, rfl, by rw [expand, hRead]; rfl⟩
    | ok ds =>
        have hSays := (readAll_eq_ok_iff.mp hRead).2
        exact absurd ⟨ds, hRead, expand_eq_ok_iff.mpr ⟨ds, hRead, rfl⟩, hSays⟩ hNot

/-- A superscript is a digit, but no number can be read from it. -/
theorem readAll_superscript :
    readAll "src_ip:²" = .error (.noInteger "²") ∧ expand "src_ip:²" = .error (.noInteger "²") := by
  exact ⟨rfl, rfl⟩

end LogQuery.Aggregation.Definition
