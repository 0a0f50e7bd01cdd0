import LogQuery.Proofs.File.JsonLines
import LogQuery.Proofs.File.Sets

/-! The order of the lines. A file of JSON lines stands for all values that its lines hold at the
key path, in whatever order the lines are, as long as no two different ones of them count as the
same. Of two that do, such as one and `true`, the one read first stays. -/

namespace LogQuery

namespace ValueFile

variable {document found v : Json} {path : List Text} {line : Text} {lines lines' : List Text}

/-! ## Values at a key path -/

/-- What stands at a key path of a document. -/
inductive StandsAt : Json → List Text → Json → Prop
  | here {document : Json} : StandsAt document [] document
  | member {members : Members} {key : Text} {value found : Json} {path : List Text}
      (hKey : members.get? key = some value) (h : StandsAt value path found) :
      StandsAt (.obj members) (key :: path) found

theorem atPath?_eq_some_iff :
    atPath? document path = some found ↔ StandsAt document path found := by
  constructor
  · intro h
    induction path generalizing document with
    | nil =>
        cases h
        exact .here
    | cons key path ih =>
        cases document with
        | obj members =>
            obtain ⟨value, hKey, hRest⟩ := Option.bind_eq_some_iff.mp h
            exact .member hKey (ih hRest)
        | _ => cases h
  · intro h
    induction h with
    | here => rfl
    | member hKey _ ih =>
        rw [atPath?, hKey]
        exact ih

/-- A number, a text or a truth value that stands at a key path, or in a list that does. -/
inductive IsValueAt (document : Json) (path : List Text) (v : Json) : Prop
  | single (h : StandsAt document path v) (hCounts : counts v = true)
  | item {items : List Json} (h : StandsAt document path (.arr items)) (hMem : v ∈ items)
      (hCounts : counts v = true)

theorem mem_valuesAt_iff : v ∈ valuesAt document path ↔ IsValueAt document path v := by
  unfold valuesAt
  constructor
  · intro h
    split at h
    · cases h
    · rename_i items hFound
      obtain ⟨hMem, hCounts⟩ := List.mem_filter.mp h
      exact .item (atPath?_eq_some_iff.mp hFound) hMem hCounts
    · rename_i value _ hFound
      obtain ⟨hMem, hCounts⟩ := List.mem_filter.mp h
      obtain rfl := List.mem_singleton.mp hMem
      exact .single (atPath?_eq_some_iff.mp hFound) hCounts
  · rintro (⟨h, hCounts⟩ | ⟨h, hMem, hCounts⟩)
    · rw [atPath?_eq_some_iff.mpr h]
      cases v with
      | arr items => cases hCounts
      | _ => simp [hCounts]
    · rw [atPath?_eq_some_iff.mpr h]
      exact List.mem_filter.mpr ⟨hMem, hCounts⟩

/-- A value that one of some lines holds at a key path. -/
inductive IsCollected (path lines : List Text) (v : Json) : Prop
  | intro {line : Text} {document : Json} (hMem : line ∈ lines)
      (hShown : ∃ c ∈ line, Text.isBlank c = false) (hRead : Json.read line = .ok document)
      (hValue : IsValueAt document path v)

theorem mem_flatMap_iff : v ∈ lines.flatMap (valuesOn path) ↔ IsCollected path lines v := by
  rw [List.mem_flatMap]
  constructor
  · rintro ⟨line, hMem, hv⟩
    unfold valuesOn at hv
    split at hv
    · cases hv
    · rename_i hShown
      split at hv
      · rename_i hRead
        exact ⟨hMem, by simpa using hShown, hRead, mem_valuesAt_iff.mp hv⟩
      · cases hv
  · rintro ⟨hMem, hShown, hRead, hValue⟩
    refine ⟨_, hMem, ?_⟩
    rw [valuesOn, if_neg (by simpa using hShown), hRead]
    exact mem_valuesAt_iff.mpr hValue

theorem isScalar_of_mem_flatMap : ∀ v ∈ lines.flatMap (valuesOn path), v.isScalar = true := by
  intro v hv
  have hCounts : counts v = true := by
    obtain ⟨-, -, -, ⟨-, h⟩ | ⟨-, -, h⟩⟩ := mem_flatMap_iff.mp hv <;> exact h
  rw [counts, Bool.and_eq_true_iff] at hCounts
  exact hCounts.1

theorem isCollected_eq : IsCollected path lines = (· ∈ lines.flatMap (valuesOn path)) :=
  funext fun _ => propext mem_flatMap_iff.symm

theorem isCollected_eq_of_perm (h : lines'.Perm lines) :
    IsCollected path lines' = IsCollected path lines := by
  simp only [isCollected_eq, List.mem_flatMap, h.mem_iff]

end ValueFile

namespace Token.FileReference

open Recognizer ValueFile

variable {around : Surroundings} {depth : Json} {token selected : Text} {r : Reference}
  {lines lines' : List Text}

/-- What a token gives that stands for values: the condition on them, or the failure that there are
none. -/
def Reference.resultOf (r : Reference) (selected : Text) (values : List Json) :
    Except Failure (Option (List Piece)) :=
  if values = [] then .error (.noValues r.file selected)
  else .ok (some [Piece.ofCondition (r.condition values)])

theorem Reference.resultOf_injective (r : Reference) (selected : Text) :
    Function.Injective (r.resultOf selected) := by
  intro values others h
  unfold Reference.resultOf at h
  split at h <;> split at h
  · rename_i hValues hOthers
    rw [hValues, hOthers]
  · cases h
  · cases h
  · apply r.condition_injective
    simpa [Piece.ofCondition] using h

/-- The condition on just the values that lines hold at a key path, each once and in the order of
their texts, or the failure that there are none. -/
def StandsForAll (r : Reference) (selected : Text) (lines : List Text)
    (result : Except Failure (Option (List Piece))) : Prop :=
  ∃ values : List Json, values.Nodup ∧ values.Pairwise (fun a b => a.plain ≤ b.plain) ∧
    (∀ v, v ∈ values ↔ IsCollected (Text.splitOn '.' selected) lines v) ∧
    result = r.resultOf selected values

theorem result_expand_jsonLines (h : NamesLines around.folder token r selected lines)
    (hPlain : ∀ line ∈ lines, IsPlain line) :
    (expandStock around depth .fileExpansion token).result =
      r.resultOf selected (settle (lines.flatMap (valuesOn (Text.splitOn '.' selected)))) := by
  have hNone := @settle_eq_nil_iff _ (@isScalar_of_mem_flatMap (Text.splitOn '.' selected) lines)
  rw [expand_jsonLines h hPlain, valuesOf, Reference.resultOf]
  simp only [hNone, List.isEmpty_iff]
  split
  · rfl
  · rename_i hSome
    simp only [map_eq_pure_bind, Except.bind, bind, pure, Except.pure, r.pieces?_some, hNone,
      if_neg hSome]

theorem standsForAll_expand (h : NamesLines around.folder token r selected lines)
    (hPlain : ∀ line ∈ lines, IsPlain line)
    (hApart : KeepsApart (IsCollected (Text.splitOn '.' selected) lines)) :
    StandsForAll r selected lines (expandStock around depth .fileExpansion token).result := by
  rw [isCollected_eq] at hApart
  refine ⟨_, nodup_settle isScalar_of_mem_flatMap, pairwise_settle _, fun v => ?_,
    result_expand_jsonLines h hPlain⟩
  rw [mem_settle_iff isScalar_of_mem_flatMap hApart, mem_flatMap_iff]

/-- Where all values of the lines are in the condition, reading came to no limit, and none of them
gave way to another. -/
theorem keepsApart_of_standsForAll (h : NamesLines around.folder token r selected lines)
    (hAll : StandsForAll r selected lines (expandStock around depth .fileExpansion token).result) :
    (∀ line ∈ lines, IsPlain line) ∧
      KeepsApart (IsCollected (Text.splitOn '.' selected) lines) := by
  obtain ⟨values, -, -, hMem, hResult⟩ := hAll
  have hPlain : ∀ line ∈ lines, IsPlain line := by
    -- A limit leads to a failure, but to none over the values.
    by_contra hNot
    push Not at hNot
    obtain ⟨failure, hFailure, hLimit⟩ := @expand_jsonLines_of_not_isPlain _ depth _ _ _ _ h hNot
    rw [hLimit, Reference.resultOf] at hResult
    split at hResult
    · cases hResult
      cases hFailure
    · cases hResult
  refine ⟨hPlain, ?_⟩
  rw [isCollected_eq, keepsApart_iff isScalar_of_mem_flatMap]
  rw [result_expand_jsonLines h hPlain] at hResult
  intro v hv
  rw [r.resultOf_injective selected hResult]
  exact (hMem v).mpr (mem_flatMap_iff.mp hv)

theorem result_expand_eq_of_perm (h : NamesLines around.folder token r selected lines)
    (hPlain : ∀ line ∈ lines, IsPlain line)
    (hApart : KeepsApart (IsCollected (Text.splitOn '.' selected) lines))
    (hTexts : TextsDiffer (IsCollected (Text.splitOn '.' selected) lines)) {folder' : Folder}
    (hPerm : lines'.Perm lines) (h' : NamesLines folder' token r selected lines') :
    (expandStock { around with folder := folder' } depth .fileExpansion token).result =
      (expandStock around depth .fileExpansion token).result := by
  have hThere : NamesLines { around with folder := folder' }.folder token r selected lines' := h'
  have hPlainThere : ∀ line ∈ lines', IsPlain line := fun line hMem =>
    hPlain line (hPerm.mem_iff.mp hMem)
  rw [result_expand_jsonLines h hPlain, result_expand_jsonLines hThere hPlainThere]
  refine congrArg _ (settle_congr isScalar_of_mem_flatMap ?_ ?_ fun v => ?_)
  · rwa [← isCollected_eq, isCollected_eq_of_perm hPerm]
  · rwa [← isCollected_eq, isCollected_eq_of_perm hPerm]
  · rw [mem_flatMap_iff, mem_flatMap_iff, isCollected_eq_of_perm hPerm]

/-- A token that names a file of JSON lines

* stands for all values of its lines, in whatever order these are, exactly if reading them comes to
  no limit and no two different values count as the same;
* gives the same for every order if moreover no two different values have the same text. -/
theorem expand_reordered (h : NamesLines around.folder token r selected lines) :
    ((∀ folder' lines', lines'.Perm lines → NamesLines folder' token r selected lines' →
        StandsForAll r selected lines
          (expandStock { around with folder := folder' } depth .fileExpansion token).result) ↔
      (∀ line ∈ lines, IsPlain line) ∧
        KeepsApart (IsCollected (Text.splitOn '.' selected) lines)) ∧
    ((∀ line ∈ lines, IsPlain line) → KeepsApart (IsCollected (Text.splitOn '.' selected) lines) →
      TextsDiffer (IsCollected (Text.splitOn '.' selected) lines) →
      ∀ folder' lines', lines'.Perm lines → NamesLines folder' token r selected lines' →
        (expandStock { around with folder := folder' } depth .fileExpansion token).result =
          (expandStock around depth .fileExpansion token).result) := by
  refine ⟨⟨fun hAll => ?_, ?_⟩, ?_⟩
  · exact keepsApart_of_standsForAll h (hAll around.folder lines (.refl lines) h)
  · rintro ⟨hPlain, hApart⟩ folder' lines' hPerm hThere
    have hPlainThere : ∀ line ∈ lines', IsPlain line := fun line hMem =>
      hPlain line (hPerm.mem_iff.mp hMem)
    rw [← isCollected_eq_of_perm hPerm] at hApart
    have hAll := @standsForAll_expand { around with folder := folder' } depth _ _ _ _ hThere
      hPlainThere hApart
    rwa [StandsForAll, isCollected_eq_of_perm hPerm] at hAll
  · intro hPlain hApart hTexts folder' lines' hPerm hThere
    exact result_expand_eq_of_perm h hPlain hApart hTexts hPerm hThere

/-- The events from the last one on. -/
def laterEvents : Text :=
  "nope\n\x7b\"k\": [2, null, true]\x7d\n[1]\n \t\n[1,\n\n\x7b\"k\": \"a\"\x7d"

theorem isCollected_eventLines :
    IsCollected (Text.splitOn '.' "k") eventLines = (· ∈ [.str "a", .int 2, .bool true]) := by
  have hValues : eventLines.flatMap (valuesOn (Text.splitOn '.' "k")) =
      [.str "a", .int 2, .bool true] := by cbv
  rw [isCollected_eq, hValues]

theorem expand_reordered_events :
    StandsForAll eventReference "k" eventLines
        (expandStock (eventsIn laterEvents) (.int 0) .fileExpansion "user:events.json[k]").result ∧
      (expandStock (eventsIn laterEvents) (.int 0) .fileExpansion "user:events.json[k]").result =
        (expandStock (eventsIn events) (.int 0) .fileExpansion "user:events.json[k]").result := by
  have hLater : NamesLines (eventsIn laterEvents).folder "user:events.json[k]" eventReference "k"
      eventLines.reverse := namesLines_eventsIn (by cbv)
  have hApart : KeepsApart (IsCollected (Text.splitOn '.' "k") eventLines) := by
    rw [isCollected_eventLines]
    intro a b ha hb h
    simp only [List.mem_cons, List.not_mem_nil, or_false] at ha hb
    obtain rfl | rfl | rfl := ha <;> obtain rfl | rfl | rfl := hb <;>
      first | rfl | (cbv at h; cases h)
  have hTexts : TextsDiffer (IsCollected (Text.splitOn '.' "k") eventLines) := by
    rw [isCollected_eventLines]
    intro a b ha hb h
    simp only [List.mem_cons, List.not_mem_nil, or_false] at ha hb
    obtain rfl | rfl | rfl := ha <;> obtain rfl | rfl | rfl := hb <;>
      first | rfl | (cbv at h; simp at h)
  obtain ⟨hAll, hSame⟩ := @expand_reordered (eventsIn events) (.int 0) _ _ _ _
    (namesLines_eventsIn lines_events)
  have hPerm : eventLines.reverse.Perm eventLines := List.reverse_perm eventLines
  exact ⟨hAll.mpr ⟨isPlain_eventLines, hApart⟩ _ _ hPerm hLater,
    hSame isPlain_eventLines hApart hTexts _ _ hPerm hLater⟩

def flagLines : List Text :=
  ["\x7b\"k\": 1\x7d", "\x7b\"k\": true\x7d"]

def flags : Text :=
  "\x7b\"k\": 1\x7d\n\x7b\"k\": true\x7d"

def laterFlags : Text :=
  "\x7b\"k\": true\x7d\n\x7b\"k\": 1\x7d"

/-- One and `true` count as the same: what stands on the first line stays. -/
theorem expand_reordered_flags :
    NamesLines (eventsIn flags).folder "user:events.json[k]" eventReference "k" flagLines ∧
      NamesLines (eventsIn laterFlags).folder "user:events.json[k]" eventReference "k"
        flagLines.reverse ∧
      (expandStock (eventsIn flags) (.int 0) .fileExpansion "user:events.json[k]").result =
        .ok (some [Piece.ofCondition (Clause.terms "user" [.int 1])]) ∧
      (expandStock (eventsIn laterFlags) (.int 0) .fileExpansion "user:events.json[k]").result =
        .ok (some [Piece.ofCondition (Clause.terms "user" [.bool true])]) ∧
      Clause.terms "user" [.int 1] ≠ Clause.terms "user" [.bool true] := by
  refine ⟨namesLines_eventsIn (by cbv), namesLines_eventsIn (by cbv), by cbv, by cbv, ?_⟩
  intro h
  cases Clause.terms_injective "user" h

end Token.FileReference

end LogQuery
