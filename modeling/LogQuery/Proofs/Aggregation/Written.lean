import LogQuery.Proofs.Aggregation.Values
import LogQuery.Proofs.Json.Members

/-! Definitions as they are written out in full: an alias, a type, a field, and parameters with keys.
Four separators stand in such a text, and commas stand both between parameters and between the items
of a list. Reading it gives back what was written, with each text as the value that it stands for. -/

namespace LogQuery.Aggregation

open Definition

/-! ## What is written -/

/-- A text that can be written as a value or an item of one: it is not empty and has no separator in
it. -/
structure IsItem (cs : Text) : Prop where
  nonempty : cs ≠ []
  noComma : .char ',' ∉ cs
  noEquals : .char '=' ∉ cs
  noPlus : .char '+' ∉ cs

/-- An alias or a key: one or more word characters. -/
structure IsName (cs : Text) : Prop where
  nonempty : cs ≠ []
  word : ∀ c ∈ cs, Text.isWord c = true

instance (cs : Text) : Decidable (IsItem cs) :=
  decidable_of_iff (cs ≠ [] ∧ .char ',' ∉ cs ∧ .char '=' ∉ cs ∧ .char '+' ∉ cs)
    ⟨fun ⟨h, hComma, hEquals, hPlus⟩ => ⟨h, hComma, hEquals, hPlus⟩,
      fun ⟨h, hComma, hEquals, hPlus⟩ => ⟨h, hComma, hEquals, hPlus⟩⟩

instance (cs : Text) : Decidable (IsName cs) :=
  decidable_of_iff (cs ≠ [] ∧ ∀ c ∈ cs, Text.isWord c = true)
    ⟨fun ⟨h, hWord⟩ => ⟨h, hWord⟩, fun ⟨h, hWord⟩ => ⟨h, hWord⟩⟩

namespace Written

/-- A value of a parameter: a text, or a list of at least two. -/
inductive Value where
  | single (item : Text)
  | list (first second : Text) (others : List Text)

namespace Value

def items : Value → List Text
  | single item => [item]
  | list first second others => first :: second :: others

/-- The items with commas between them. -/
def text (v : Value) : Text :=
  Text.join [.char ','] v.items

/-- What a value is read as: its items as what they stand for, in a list if it is one. -/
inductive Says : Value → Json → Prop
  | single {item : Text} {value : Json} (h : StandsFor item value) : Says (.single item) value
  | list {first second : Text} {others : List Text} {values : List Json}
      (h : List.Forall₂ StandsFor (first :: second :: others) values) :
      Says (.list first second others) (.arr values)

end Value

/-- A key with a value. -/
structure Parameter where
  key : Text
  value : Value
  isName_key : IsName key
  isItem : ∀ item ∈ value.items, IsItem item

namespace Parameter

def text (p : Parameter) : Text :=
  p.key ++ .char '=' :: p.value.text

def Says (p : Parameter) (m : Text × Json) : Prop :=
  m.1 = p.key ∧ p.value.Says m.2

end Parameter

end Written

/-- A definition that is written out in full. -/
structure Written where
  label : Text
  method : Method
  field : Text
  parameters : List Written.Parameter
  isName_label : IsName label
  field_nonempty : field ≠ []
  noColon_field : .char ':' ∉ field
  noPlus_field : .char '+' ∉ field
  parameters_nonempty : parameters ≠ []
  nodup_keys : (parameters.map (·.key)).Nodup

namespace Written

/-- The parameters with commas between them. -/
def parametersText (ps : List Parameter) : Text :=
  Text.join [.char ','] (ps.map Parameter.text)

/-- The alias, the type, the field and the parameters. -/
def text (w : Written) : Text :=
  w.label ++ .char '=' :: (w.method.name ++ .char ':' :: (w.field ++ .char ':' ::
    parametersText w.parameters))

/-- The texts of all values. -/
def items (w : Written) : List Text :=
  w.parameters.flatMap (·.value.items)

/-- What is written is this definition. -/
structure Says (w : Written) (d : Definition) : Prop where
  name : d.name = w.label
  method : d.method = w.method
  field : d.field = w.field
  params : List.Forall₂ Parameter.Says w.parameters d.params

/-! ## Values -/

variable {v : Value} {p : Parameter} {ps : List Parameter} {w : Written} {cs rest tail : Text}

theorem Value.text_ne_nil (h : ∀ item ∈ v.items, IsItem item) : v.text ≠ [] := by
  cases v with
  | single item =>
      rw [text, items, Text.join_singleton]
      exact (h item List.mem_cons_self).nonempty
  | list first second others =>
      rw [text, items, Text.join_sep_cons_cons]
      exact List.append_ne_nil_of_right_ne_nil _ (List.cons_ne_nil _ _)

theorem Value.notMem_text {c : CodePoint} (hComma : c ≠ .char ',') (h : ∀ item ∈ v.items, c ∉ item) :
    c ∉ v.text := by
  intro hMem
  rcases Text.mem_join hMem with hSep | ⟨item, hItem, hc⟩
  · exact hComma hSep
  · exact h item hItem hc

/-- A value is a list exactly if there is a comma in it. -/
theorem paramValue_text {value : Json} (hItems : ∀ item ∈ v.items, IsItem item)
    (hFits : ∀ item ∈ v.items, FitsInteger item) (h : v.Says value) :
    paramValue v.text = .ok value := by
  cases h with
  | @single item _ h =>
      have hText : (Value.single item).text = item := Text.join_singleton _ item
      have hNone : item.contains (.char ',') = false := by
        simpa using (hItems item List.mem_cons_self).noComma
      rw [hText, paramValue, hNone]
      exact coerce_of_standsFor (hFits item List.mem_cons_self) h
  | @list first second others values h =>
      have hComma : (Value.list first second others).text.contains (.char ',') = true := by
        simp [Value.text, Value.items, Text.join_sep_cons_cons]
      have hSplit : Text.splitOn (.char ',') (Value.list first second others).text =
          first :: second :: others :=
        Text.splitOn_join (List.cons_ne_nil _ _) fun item hItem => (hItems item hItem).noComma
      have hSome : (first :: second :: others).filter (!·.isEmpty) = first :: second :: others := by
        rw [List.filter_eq_self]
        intro item hItem
        simpa using (hItems item hItem).nonempty
      have hValues : (first :: second :: others).mapM coerce = .ok values :=
        mapM_coerce_of_standsFor hFits h
      rw [paramValue, if_pos hComma, coerceList, hSplit, hSome, hValues]
      rfl

/-! ## Keys -/

theorem notMem_of_isName {c : CodePoint} (h : IsName cs) (hc : Text.isWord c = false) : c ∉ cs := by
  intro hMem
  rw [h.word c hMem] at hc
  cases hc

theorem dropWhile_name (h : IsName cs) (rest : Text) :
    (cs ++ .char '=' :: rest).dropWhile Text.isWord = .char '=' :: rest :=
  Text.dropWhile_append_cons h.word (by decide) rest

theorem startsWithKey_name (h : IsName cs) (rest : Text) :
    startsWithKey (cs ++ .char '=' :: rest) = true := by
  rw [startsWithKey, dropWhile_name h]
  obtain ⟨c, cs, rfl⟩ := List.exists_cons_of_ne_nil h.nonempty
  simp [h.word c List.mem_cons_self]

theorem splitAlias_name (h : IsName cs) (rest : Text) :
    splitAlias (cs ++ .char '=' :: rest) = (some cs, rest) := by
  have hName : (cs ++ .char '=' :: rest).takeWhile Text.isWord = cs := by
    have hStop : Text.isWord (.char '=') = false := by decide
    rw [List.takeWhile_append_of_pos h.word, List.takeWhile_cons_of_neg (by simp [hStop]),
      List.append_nil]
  rw [splitAlias, if_pos (startsWithKey_name h rest), dropWhile_name h, hName]
  rfl

theorem hasKeys_name (h : IsName cs) (rest : Text) : hasKeys (cs ++ .char '=' :: rest) = true := by
  obtain ⟨hSome, hWord⟩ := h
  induction cs with
  | nil => exact absurd rfl hSome
  | cons c cs ih =>
      obtain ⟨hFirst, hRest⟩ := List.forall_mem_cons.mp hWord
      cases cs with
      | nil => simp [hasKeys, hFirst]
      | cons d cs =>
          have hLater := ih (List.cons_ne_nil d cs) hRest
          rw [List.cons_append] at hLater
          simp [hasKeys, hLater]

/-- No key starts a text without an equals sign, and none goes on beyond a comma. -/
theorem not_startsWithKey (hFree : .char '=' ∉ cs) (hTail : tail = [] ∨ tail.head? = some (.char ',')) :
    startsWithKey (cs ++ tail) = false := by
  have hHead : ((cs ++ tail).dropWhile Text.isWord).head? ≠ some (.char '=') := by
    induction cs with
    | nil =>
        cases tail with
        | nil => simp
        | cons c tail =>
            obtain rfl : c = .char ',' := by simpa using hTail
            have hStop : Text.isWord (.char ',') = false := by decide
            simp [hStop]
    | cons c cs ih =>
        rw [List.mem_cons, not_or] at hFree
        rw [List.cons_append, List.dropWhile_cons]
        split
        · exact ih hFree.2
        · simpa using Ne.symm hFree.1
  unfold startsWithKey
  split
  · rename_i hKey
    rw [hKey] at hHead
    exact absurd rfl hHead
  · rfl

/-! ## Parameters -/

theorem splitPairs_append {front piece : Text} {pieces : List Text}
    (hFront : ∀ a b, front = a ++ .char ',' :: b → startsWithKey (b ++ tail) = false)
    (hTail : splitPairs tail = piece :: pieces) :
    splitPairs (front ++ tail) = (front ++ piece) :: pieces := by
  induction front with
  | nil => exact hTail
  | cons c front ih =>
      have hRest : splitPairs (front ++ tail) = (front ++ piece) :: pieces := by
        apply ih
        intro a b hSplit
        exact hFront (c :: a) b (by rw [hSplit, List.cons_append])
      rw [List.cons_append, splitPairs, if_neg, hRest]
      · rfl
      · rw [Bool.and_eq_true, beq_iff_eq]
        rintro ⟨rfl, hKey⟩
        rw [hFront [] front rfl] at hKey
        cases hKey

/-- What stands after a comma in a parameter is no key: the comma is in the value, and there is no
equals sign in that. -/
theorem Parameter.not_startsWithKey (p : Parameter)
    (hTail : tail = [] ∨ tail.head? = some (.char ',')) (a b : Text)
    (hSplit : p.text = a ++ .char ',' :: b) : startsWithKey (b ++ tail) = false := by
  apply Written.not_startsWithKey _ hTail
  have hKey : .char ',' ∉ p.key := notMem_of_isName p.isName_key (by decide)
  have hValue : .char '=' ∉ p.value.text :=
    Value.notMem_text (by decide) fun item hItem => (p.isItem item hItem).noEquals
  rcases List.append_eq_append_iff.mp hSplit with ⟨c, rfl, hRest⟩ | ⟨c, hFront, hRest⟩
  · cases c with
    | nil => exact absurd (List.cons.inj hRest).1 (by decide)
    | cons d c =>
        intro hMem
        rw [(List.cons.inj hRest).2] at hValue
        exact hValue (List.mem_append_right c (List.mem_cons_of_mem _ hMem))
  · cases c with
    | nil => exact absurd (List.cons.inj hRest).1 (by decide)
    | cons d c =>
        rw [hFront, (List.cons.inj hRest).1] at hKey
        exact absurd (List.mem_append_right a List.mem_cons_self) hKey

theorem exists_parametersText (p : Parameter) (ps : List Parameter) :
    ∃ rest, parametersText (p :: ps) = p.key ++ .char '=' :: rest := by
  have hText : p.text = (p.key ++ [.char '=']) ++ p.value.text := by
    rw [Parameter.text, List.append_assoc, List.singleton_append]
  refine ⟨Text.join [.char ','] (p.value.text :: ps.map Parameter.text), ?_⟩
  rw [parametersText, List.map_cons, hText, Text.join_append_cons, List.append_assoc,
    List.singleton_append]

/-- The commas between parameters are those that a key follows. -/
theorem splitPairs_parametersText (h : ps ≠ []) :
    splitPairs (parametersText ps) = ps.map Parameter.text := by
  induction ps with
  | nil => exact absurd rfl h
  | cons p ps ih =>
      cases ps with
      | nil =>
          have hPieces := splitPairs_append (p.not_startsWithKey (.inl rfl)) (rfl : splitPairs [] = [[]])
          rw [List.append_nil] at hPieces
          rw [parametersText, List.map_singleton, Text.join_singleton, hPieces]
      | cons q ps =>
          have hKey : startsWithKey (parametersText (q :: ps)) = true := by
            obtain ⟨rest, hText⟩ := exists_parametersText q ps
            rw [hText]
            exact startsWithKey_name q.isName_key rest
          have hTail : splitPairs (.char ',' :: parametersText (q :: ps)) =
              [] :: (q :: ps).map Parameter.text := by
            rw [splitPairs, hKey, ih (List.cons_ne_nil q ps)]
            rfl
          have hText : parametersText (p :: q :: ps) =
              p.text ++ .char ',' :: parametersText (q :: ps) :=
            Text.join_sep_cons_cons (.char ',') p.text q.text (ps.map Parameter.text)
          rw [hText, splitPairs_append (p.not_startsWithKey (.inr rfl)) hTail, List.append_nil]
          rfl

theorem Parameter.partition_text (p : Parameter) :
    Text.partition (.char '=') p.text = (p.key, p.value.text) := by
  have hKey : ∀ c ∈ p.key, (c == .char '=') = false :=
    Text.beq_eq_false_of_not_mem (notMem_of_isName p.isName_key (by decide))
  rw [Text.partition, Parameter.text, Text.splitFirst_append_cons hKey rfl]
  rfl

/-- Parameters with keys of their own are added one after the other. -/
theorem addPairs_parameters {known params : Members}
    (hKeys : (known.map (·.1) ++ ps.map (·.key)).Nodup)
    (hFits : ∀ p ∈ ps, ∀ item ∈ p.value.items, FitsInteger item)
    (h : List.Forall₂ Parameter.Says ps params) :
    addPairs known (ps.map Parameter.text) = .ok (known ++ params) := by
  induction h generalizing known with
  | nil => rw [List.append_nil]; rfl
  | @cons p m ps params hFirst hRest ih =>
      obtain ⟨key, value⟩ := m
      obtain ⟨rfl, hSays⟩ := hFirst
      obtain ⟨hHere, hLater⟩ := List.forall_mem_cons.mp hFits
      have hValue := paramValue_text p.isItem hHere hSays
      have hNew : p.key ∉ known.map (·.1) := by
        rw [List.map_cons, List.nodup_append] at hKeys
        exact fun hMem => hKeys.2.2 _ hMem _ List.mem_cons_self rfl
      have hSet : known.set p.key value = known ++ [(p.key, value)] := Members.set_of_notMem hNew
      have hAdded := @ih (known ++ [(p.key, value)]) (by simpa using hKeys) hLater
      have hKeyGiven : p.key.isEmpty = false := by simpa using p.isName_key.nonempty
      have hValueGiven : p.value.text.isEmpty = false := by
        simpa using Value.text_ne_nil p.isItem
      rw [List.map_cons, addPairs, p.partition_text]
      simp only [hKeyGiven, hValueGiven, Bool.or_self, Bool.false_eq_true, ↓reduceIte, hValue]
      show addPairs (known.set p.key value) (ps.map Parameter.text) = _
      rw [hSet, hAdded, List.append_assoc, List.singleton_append]

theorem keyedParams_parameters {params : Members} (hSome : ps ≠ []) (hKeys : (ps.map (·.key)).Nodup)
    (hFits : ∀ p ∈ ps, ∀ item ∈ p.value.items, FitsInteger item)
    (h : List.Forall₂ Parameter.Says ps params) : keyedParams (parametersText ps) = .ok params := by
  rw [keyedParams, splitPairs_parametersText hSome, addPairs_parameters (by simpa using hKeys) hFits h,
    List.nil_append]

/-! ## Definitions -/

theorem segments_text (w : Written) (rest : Text) :
    segments (w.method.name ++ .char ':' :: (w.field ++ .char ':' :: rest)) =
      (w.method.name, some (w.field, rest)) := by
  have hName : ∀ c ∈ w.method.name, (c == .char ':') = false := by
    cases w.method <;> decide
  have hField : ∀ c ∈ w.field, (c == .char ':') = false :=
    Text.beq_eq_false_of_not_mem w.noColon_field
  rw [segments, Text.splitFirst_append_cons hName rfl]
  simp only [Text.partition, Text.splitFirst_append_cons hField (beq_self_eq_true (CodePoint.char ':')),
    Option.getD_some]

/-- A definition that is written out is read as what it says. -/
theorem read_text {d : Definition} (hFits : ∀ item ∈ w.items, FitsInteger item) (h : w.Says d) :
    Definition.read w.text = .ok d := by
  have hItems : ∀ p ∈ w.parameters, ∀ item ∈ p.value.items, FitsInteger item :=
    fun p hp item hItem => hFits item (List.mem_flatMap.mpr ⟨p, hp, hItem⟩)
  have hParams : readParams w.method (parametersText w.parameters) = .ok d.params := by
    obtain ⟨p, ps, hCons⟩ := List.exists_cons_of_ne_nil w.parameters_nonempty
    obtain ⟨rest, hText⟩ := exists_parametersText p ps
    have hKeys : hasKeys (parametersText w.parameters) = true := by
      rw [hCons, hText]
      exact hasKeys_name p.isName_key rest
    rw [readParams, if_pos hKeys]
    exact keyedParams_parameters w.parameters_nonempty w.nodup_keys hItems h.params
  obtain ⟨name, method, field, params⟩ := d
  obtain rfl : name = w.label := h.name
  obtain rfl : method = w.method := h.method
  obtain rfl : field = w.field := h.field
  simp only [Definition.read, text, splitAlias_name w.isName_label, segments_text,
    Method.named?_name, hParams]
  rfl

theorem exists_valueSays (v : Value) : ∃ value, v.Says value := by
  cases v with
  | single item =>
      obtain ⟨value, hValue⟩ := exists_standsFor item
      exact ⟨value, .single hValue⟩
  | list first second others =>
      obtain ⟨values, hValues⟩ := exists_forall₂ exists_standsFor (first :: second :: others)
      exact ⟨.arr values, .list hValues⟩

theorem exists_says (w : Written) : ∃ d, w.Says d := by
  choose value h using exists_valueSays
  refine ⟨⟨w.label, w.method, w.field, w.parameters.map fun p => (p.key, value p.value)⟩,
    rfl, rfl, rfl, ?_⟩
  rw [List.forall₂_map_right_iff, List.forall₂_same]
  exact fun p _ => ⟨rfl, h p.value⟩

theorem notMem_plus_text (w : Written) : .char '+' ∉ w.text := by
  have hName : .char '+' ∉ w.method.name := by
    cases w.method <;> decide
  have hLabel : .char '+' ∉ w.label := notMem_of_isName w.isName_label (by decide)
  have hParameters : .char '+' ∉ parametersText w.parameters := by
    intro hMem
    rcases Text.mem_join hMem with hSep | ⟨_, hText, hMem⟩
    · exact absurd hSep (by decide)
    · obtain ⟨p, -, rfl⟩ := List.mem_map.mp hText
      have hKey : .char '+' ∉ p.key := notMem_of_isName p.isName_key (by decide)
      have hValue : .char '+' ∉ p.value.text :=
        Value.notMem_text (by decide) fun item hItem => (p.isItem item hItem).noPlus
      simp [Parameter.text, hKey, hValue] at hMem
  simp [text, hName, hLabel, hParameters, w.noPlus_field]

theorem readAll_of_forall₂ {ws : List Written} {ds : List Definition}
    (hFits : ∀ w ∈ ws, ∀ item ∈ w.items, FitsInteger item) (h : List.Forall₂ Says ws ds) :
    Definition.readAll (Text.join [.char '+'] (ws.map text)) = .ok ds := by
  have hRead : (ws.map text).mapM Definition.read = .ok ds := by
    rw [mapM_eq_ok_iff, List.forall₂_map_left_iff]
    induction h with
    | nil => exact .nil
    | cons hFirst _ ih =>
        obtain ⟨hHere, hRest⟩ := List.forall_mem_cons.mp hFits
        exact .cons (read_text hHere hFirst) (ih hRest)
  cases ws with
  | nil => exact hRead
  | cons w ws =>
      have hSplit : Text.splitOn (.char '+') (Text.join [.char '+'] ((w :: ws).map text)) =
          (w :: ws).map text :=
        Text.splitOn_join (List.cons_ne_nil _ _)
          (List.forall_mem_map.mpr fun v _ => v.notMem_plus_text)
      have hSome : ((w :: ws).map text).filter (!·.isEmpty) = (w :: ws).map text :=
        List.filter_eq_self.mpr (List.forall_mem_map.mpr fun v _ => by simp [text])
      rw [Definition.readAll, hSplit, hSome, hRead]

/-- Definitions that are written out with plus signs between them are read as exactly what they say,
in order, unless an integer among their values has too many digits. -/
theorem readAll_written {ws : List Written} (hFits : ∀ w ∈ ws, ∀ item ∈ w.items, FitsInteger item) :
    ∃ ds, Definition.readAll (Text.join [.char '+'] (ws.map text)) = .ok ds ∧
      ∀ es, List.Forall₂ Says ws es ↔ es = ds := by
  choose definition hSays using exists_says
  have hAll : List.Forall₂ Says ws (ws.map definition) := by
    rw [List.forall₂_map_right_iff, List.forall₂_same]
    exact fun w _ => hSays w
  refine ⟨ws.map definition, readAll_of_forall₂ hFits hAll, fun es => ⟨fun h => ?_, ?_⟩⟩
  · exact Except.ok.inj ((readAll_of_forall₂ hFits h).symm.trans (readAll_of_forall₂ hFits hAll))
  · rintro rfl
    exact hAll

/-- Labels among two, and hours with a shift and a format that has a colon in it. -/
def labelsAndHours : List Written :=
  [{ label := "labels"
     method := .significantTerms
     field := "tags"
     parameters :=
      [⟨"include", .list "a" "b" [], by decide, by decide⟩, ⟨"size", .single "3", by decide, by decide⟩]
     isName_label := by decide
     field_nonempty := by decide
     noColon_field := by decide
     noPlus_field := by decide
     parameters_nonempty := by decide
     nodup_keys := by decide },
   { label := "hours"
     method := .dateHistogram
     field := "ts"
     parameters :=
      [⟨"offset", .single "-1.5", by decide, by decide⟩,
        ⟨"format", .single "hh:mm", by decide, by decide⟩]
     isName_label := by decide
     field_nonempty := by decide
     noColon_field := by decide
     noPlus_field := by decide
     parameters_nonempty := by decide
     nodup_keys := by decide }]

/-- How these two are written. -/
def labelsAndHoursText : Text :=
  "labels=significant_terms:tags:include=a,b,size=3" ++
    "+hours=date_histogram:ts:offset=-1.5,format=hh:mm"

theorem readAll_written_labels :
    (∀ w ∈ labelsAndHours, ∀ item ∈ w.items, FitsInteger item) ∧
      Text.join [.char '+'] (labelsAndHours.map text) = labelsAndHoursText ∧
      Definition.readAll labelsAndHoursText =
        .ok [⟨"labels", .significantTerms, "tags",
            [("include", .arr [.str "a", .str "b"]), ("size", .int 3)]⟩,
          ⟨"hours", .dateHistogram, "ts",
            [("offset", .float (Decimal.toFloat true 15 (-1))), ("format", .str "hh:mm")]⟩] := by
  have hFits : ∀ w ∈ labelsAndHours, ∀ item ∈ w.items, FitsInteger item := by
    have hLength : ∀ w ∈ labelsAndHours, ∀ item ∈ w.items, item.length ≤ Integer.maxDigits := by
      decide
    exact fun w hw item hItem => fitsInteger_of_length (hLength w hw item hItem)
  have hText : Text.join [.char '+'] (labelsAndHours.map text) = labelsAndHoursText := rfl
  obtain ⟨ds, hRead, hOnly⟩ := readAll_written hFits
  refine ⟨hFits, hText, ?_⟩
  rw [← hText, hRead, ← (hOnly _).mp]
  have hStands : ∀ {cs : Text} {value : Json}, cs.length ≤ Integer.maxDigits →
      coerce cs = .ok value → StandsFor cs value :=
    fun hLength h => (coerce_eq_ok_iff (fitsInteger_of_length hLength)).mp h
  refine .cons ⟨rfl, rfl, rfl, ?_⟩ (.cons ⟨rfl, rfl, rfl, ?_⟩ .nil)
  · exact .cons ⟨rfl, .list (.cons (hStands (by decide) rfl) (.cons (hStands (by decide) rfl) .nil))⟩
      (.cons ⟨rfl, .single (hStands (by decide) rfl)⟩ .nil)
  · exact .cons ⟨rfl, .single (hStands (by decide) rfl)⟩
      (.cons ⟨rfl, .single (hStands (by decide) rfl)⟩ .nil)

end Written

end LogQuery.Aggregation
