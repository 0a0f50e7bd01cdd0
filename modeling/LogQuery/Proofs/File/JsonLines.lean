import LogQuery.Proofs.File.Reference
import LogQuery.Proofs.Text.Lines
import Mathlib

/-! Lines that hold no document. Such a line of a file of JSON lines gives no value: the file stands
for what it would stand for without the line, and each line that is not blank is reported once. -/

namespace LogQuery

namespace ValueFile

variable {name line : Text} {path : List Text} {number : Nat} {lines : List Text}

/-! ## One line -/

/-- A line that is blank, holds a document or is malformed: reading it comes to no limit. -/
inductive IsPlain (line : Text) : Prop
  | blank (h : line.all Text.isBlank = true)
  | document {value : Json} (h : Json.read line = .ok value)
  | malformed (h : Json.read line = .error .malformed)

/-- A line that is not blank, but malformed. -/
def isMalformed (line : Text) : Bool :=
  !line.all Text.isBlank &&
    match Json.read line with
    | .error .malformed => true
    | _ => false

/-- Neither blank nor malformed. -/
def isKept (line : Text) : Bool :=
  !line.all Text.isBlank && !isMalformed line

/-- The values of a line, none where it holds no document. -/
def valuesOn (path : List Text) (line : Text) : List Json :=
  if line.all Text.isBlank then []
  else
    match Json.read line with
    | .ok value => valuesAt value path
    | .error _ => []

theorem valuesOn_of_isKept_eq_false (h : isKept line = false) : valuesOn path line = [] := by
  unfold valuesOn
  split
  · rfl
  · rename_i hBlank
    rw [isKept, eq_false_of_ne_true hBlank, isMalformed] at h
    split
    · rename_i hRead
      simp [hRead, hBlank] at h
    · rfl

theorem lineValues_of_isPlain (h : IsPlain line) :
    lineValues name path number line =
      ⟨.ok (valuesOn path line), if isMalformed line then [⟨name, number⟩] else []⟩ := by
  by_cases hBlank : line.all Text.isBlank = true
  · simp only [lineValues, valuesOn, isMalformed, hBlank]
    rfl
  · rw [lineValues, valuesOn, isMalformed, if_neg hBlank, if_neg hBlank]
    cases h with
    | blank h => exact absurd h hBlank
    | document h =>
        simp only [h, Bool.and_false]
        rfl
    | malformed h =>
        have hShown := eq_false_of_ne_true hBlank
        simp only [h, hShown]
        rfl

/-- Any other line comes to a limit, which is no fault of the values. -/
theorem lineValues_of_not_isPlain (h : ¬IsPlain line) :
    ∃ failure, failure.isOfValues = false ∧
      lineValues name path number line = .fail failure := by
  have hBlank : line.all Text.isBlank ≠ true := fun hBlank => h (.blank hBlank)
  rw [lineValues, if_neg hBlank]
  cases hRead : Json.read line with
  | ok document => exact absurd (.document hRead) h
  | error e =>
      cases e with
      | malformed => exact absurd (.malformed hRead) h
      | tooLong digits => exact ⟨.tooManyDigits digits, rfl, rfl⟩
      | tooNested => exact ⟨.tooNested, rfl, rfl⟩

/-! ## All lines -/

/-- A warning for each malformed line with its number, where the first line has a given one. -/
def faultsFrom (name : Text) (number : Nat) (lines : List Text) : List Warning :=
  ((lines.zipIdx number).filter fun numbered => isMalformed numbered.1).map
    fun numbered => ⟨name, numbered.2⟩

theorem faultsFrom_cons :
    faultsFrom name number (line :: lines) =
      (if isMalformed line then [⟨name, number⟩] else []) ++
        faultsFrom name (number + 1) lines := by
  rw [faultsFrom, List.zipIdx_cons, List.filter_cons]
  split <;> rfl

theorem faultsFrom_filter_isKept :
    faultsFrom name number (lines.filter isKept) = [] := by
  rw [faultsFrom, List.map_eq_nil_iff, List.filter_eq_nil_iff]
  rintro ⟨line, n⟩ hMem
  have hKept := (List.mem_filter.mp (List.fst_mem_of_mem_zipIdx hMem)).2
  rw [isKept, Bool.and_eq_true_iff] at hKept
  simpa using hKept.2

theorem linesValues_of_isPlain (h : ∀ line ∈ lines, IsPlain line) :
    linesValues name path number lines =
      ⟨.ok (lines.flatMap (valuesOn path)), faultsFrom name number lines⟩ := by
  induction lines generalizing number with
  | nil => rfl
  | cons line lines ih =>
      obtain ⟨hFirst, hRest⟩ := List.forall_mem_cons.mp h
      rw [linesValues, lineValues_of_isPlain hFirst, ih hRest, faultsFrom_cons]
      simp [Outcome.bind_def, Outcome.andThen, Outcome.pure_def, Outcome.done]

theorem linesValues_of_not_isPlain (h : ∃ line ∈ lines, ¬IsPlain line) :
    ∃ failure, failure.isOfValues = false ∧
      (linesValues name path number lines).result = .error failure := by
  induction lines generalizing number with
  | nil =>
      obtain ⟨line, hMem, -⟩ := h
      cases hMem
  | cons line lines ih =>
      -- The first line that is not plain ends the reading; those before it only give warnings.
      rw [linesValues]
      by_cases hFirst : IsPlain line
      · obtain ⟨other, hMem, hNot⟩ := h
        have hLater : other ∈ lines := by
          rcases List.mem_cons.mp hMem with rfl | hLater
          · exact absurd hFirst hNot
          · exact hLater
        obtain ⟨failure, hFailure, hRest⟩ := @ih (number + 1) ⟨other, hLater, hNot⟩
        refine ⟨failure, hFailure, ?_⟩
        rw [lineValues_of_isPlain hFirst, Outcome.result_bind_of_ok rfl,
          Outcome.result_bind_of_error hRest]
      · obtain ⟨failure, hFailure, hLine⟩ := @lineValues_of_not_isPlain name _ path number hFirst
        exact ⟨failure, hFailure, by rw [hLine]; rfl⟩

theorem flatMap_filter_isKept :
    (lines.filter isKept).flatMap (valuesOn path) = lines.flatMap (valuesOn path) := by
  induction lines with
  | nil => rfl
  | cons line lines ih =>
      rw [List.filter_cons, List.flatMap_cons]
      split
      · rw [List.flatMap_cons, ih]
      · rename_i hNot
        rw [valuesOn_of_isKept_eq_false (eq_false_of_ne_true hNot), ih, List.nil_append]

/-! ## Files -/

/-- The values of plain lines, or the failure that there are none. -/
def valuesOf (name path : Text) (lines : List Text) : Except Failure (Option (List Json)) :=
  let values := lines.flatMap (valuesOn (Text.splitOn '.' path))
  if values.isEmpty then .error (.noValues name path) else .ok (some (settle values))

variable {file : File} {selected cs : Text}

theorem read_jsonLines (hHolds : file.Holds cs) (hLines : Text.HasLines cs lines)
    (hPlain : ∀ line ∈ lines, IsPlain line) :
    read .jsonLines name file (some selected) =
      ⟨valuesOf name selected lines, faultsFrom name 1 lines⟩ := by
  have hDecode := File.decode?_eq_some_iff.mpr hHolds
  have hValues := @linesValues_of_isPlain name (Text.splitOn '.' selected) 1 _ hPlain
  simp only [read, hDecode, jsonLinesValues, hLines.lines_eq, if_true, hValues, valuesOf]
  simp only [Outcome.bind_def, Outcome.andThen]
  split <;> simp [Outcome.pure_def, Outcome.done, Outcome.fail]

theorem read_jsonLines_of_not_isPlain (hHolds : file.Holds cs) (hLines : Text.HasLines cs lines)
    (h : ∃ line ∈ lines, ¬IsPlain line) :
    ∃ failure, failure.isOfValues = false ∧
      (read .jsonLines name file (some selected)).result = .error failure := by
  have hDecode := File.decode?_eq_some_iff.mpr hHolds
  obtain ⟨failure, hFailure, hValues⟩ :=
    @linesValues_of_not_isPlain name (Text.splitOn '.' selected) 1 _ h
  refine ⟨failure, hFailure, ?_⟩
  simp only [read, hDecode, jsonLinesValues, hLines.lines_eq, if_true]
  exact Outcome.result_bind_of_error hValues

end ValueFile

namespace Token.FileReference

open Recognizer ValueFile

/-- A token that names a file of JSON lines in a folder and a key path in it. -/
inductive NamesLines (folder : Folder) (token : Text) (r : Reference) (selected : Text)
    (lines : List Text) : Prop
  | intro {file : File} {cs : Text} (hNames : Names folder token r .jsonLines file)
      (hSelected : r.selector = some selected) (hHolds : file.Holds cs)
      (hLines : Text.HasLines cs lines)

variable {around : Surroundings} {depth : Json} {token selected cs : Text} {r : Reference}
  {lines : List Text}

theorem expand_jsonLines (h : NamesLines around.folder token r selected lines)
    (hPlain : ∀ line ∈ lines, IsPlain line) :
    expandStock around depth .fileExpansion token =
      ⟨r.pieces? <$> valuesOf r.file selected lines, faultsFrom r.file 1 lines⟩ := by
  obtain ⟨hNames, hSelected, hHolds, hLines⟩ := h
  rw [expandStock_of_names hNames, hSelected, read_jsonLines hHolds hLines hPlain]
  cases valuesOf r.file selected lines <;>
    simp [Functor.map, Outcome.andThen, Outcome.done, Except.map]

theorem expand_jsonLines_of_not_isPlain (h : NamesLines around.folder token r selected lines)
    (hNot : ∃ line ∈ lines, ¬IsPlain line) :
    ∃ failure, failure.isOfValues = false ∧
      (expandStock around depth .fileExpansion token).result = .error failure := by
  obtain ⟨hNames, hSelected, hHolds, hLines⟩ := h
  obtain ⟨failure, hFailure, hRead⟩ :=
    @read_jsonLines_of_not_isPlain r.file _ _ selected _ hHolds hLines hNot
  refine ⟨failure, hFailure, ?_⟩
  rw [expandStock_of_names hNames, hSelected, map_eq_pure_bind, Outcome.result_bind_of_error hRead]

/-- A token that names a file of JSON lines, none of which comes to a limit of reading

* gives a warning for each malformed line, with its number, and no other;
* stands for the same, or fails in the same way, where the file lacks those lines and the blank
  ones. -/
theorem expand_malformed (h : NamesLines around.folder token r selected lines)
    (hPlain : ∀ line ∈ lines, IsPlain line) :
    (expandStock around depth .fileExpansion token).warnings = faultsFrom r.file 1 lines ∧
      ∀ folder', NamesLines folder' token r selected (lines.filter isKept) →
        expandStock { around with folder := folder' } depth .fileExpansion token =
          ⟨(expandStock around depth .fileExpansion token).result, []⟩ := by
  have hExpand := @expand_jsonLines around depth _ _ _ _ h hPlain
  refine ⟨congrArg Outcome.warnings hExpand, fun folder' hThere => ?_⟩
  have hKept : NamesLines { around with folder := folder' }.folder token r selected
      (lines.filter isKept) := hThere
  have hPlainKept : ∀ line ∈ lines.filter isKept, IsPlain line := fun line hMem =>
    hPlain line (List.mem_filter.mp hMem).1
  rw [@expand_jsonLines _ depth _ _ _ _ hKept hPlainKept, hExpand, faultsFrom_filter_isKept,
    valuesOf, valuesOf, flatMap_filter_isKept]

def events : Text :=
  "\x7b\"k\": \"a\"\x7d\n\n[1,\r\n \t\n[1]\n\x7b\"k\": [2, null, true]\x7d\rnope"

def eventLines : List Text :=
  ["\x7b\"k\": \"a\"\x7d", "", "[1,", " \t", "[1]", "\x7b\"k\": [2, null, true]\x7d", "nope"]

/-- The documents among the events. -/
def keptEvents : Text :=
  "\x7b\"k\": \"a\"\x7d\n[1]\n\x7b\"k\": [2, null, true]\x7d\n"

def eventsIn (cs : Text) : Surroundings :=
  ⟨Folder.empty.add "events.json" (.text cs), .obj [], none⟩

def eventReference : Reference :=
  ⟨"user", .exact, "events.json", "json", some "k"⟩

theorem namesLines_eventsIn (h : Text.lines cs = lines) :
    NamesLines (eventsIn cs).folder "user:events.json[k]" eventReference "k" lines :=
  ⟨⟨by decide, by decide, rfl⟩, rfl, .text cs, Text.lines_eq_iff.mp h⟩

theorem lines_events : Text.lines events = eventLines := by cbv

theorem isPlain_eventLines : ∀ line ∈ eventLines, IsPlain line := by
  have hFirst : Json.read "\x7b\"k\": \"a\"\x7d" = .ok (.obj [("k", .str "a")]) := by cbv
  have hBroken : Json.read "[1," = .error .malformed := by cbv
  have hList : Json.read "[1]" = .ok (.arr [.int 1]) := by cbv
  have hLast : Json.read "\x7b\"k\": [2, null, true]\x7d" =
      .ok (.obj [("k", .arr [.int 2, .null, .bool true])]) := by cbv
  have hNope : Json.read "nope" = .error .malformed := by cbv
  simp only [eventLines, List.forall_mem_cons]
  exact ⟨.document hFirst, .blank (by decide), .malformed hBroken, .blank (by decide),
    .document hList, .document hLast, .malformed hNope, List.forall_mem_nil _⟩

/-- Blank lines are counted, but not reported. -/
theorem expand_malformed_events :
    (expandStock (eventsIn events) (.int 0) .fileExpansion "user:events.json[k]").warnings =
        [⟨"events.json", 3⟩, ⟨"events.json", 7⟩] ∧
      expandStock (eventsIn keptEvents) (.int 0) .fileExpansion "user:events.json[k]" =
        ⟨(expandStock (eventsIn events) (.int 0) .fileExpansion "user:events.json[k]").result, []⟩ ∧
      (expandStock (eventsIn events) (.int 0) .fileExpansion "user:events.json[k]").result =
        .ok (some [Piece.ofCondition (Clause.terms "user" [.int 2, .bool true, .str "a"])]) := by
  obtain ⟨hWarnings, hSame⟩ := @expand_malformed (eventsIn events) (.int 0) _ _ _ _
    (namesLines_eventsIn lines_events) isPlain_eventLines
  have hFaults : faultsFrom "events.json" 1 eventLines =
      [⟨"events.json", 3⟩, ⟨"events.json", 7⟩] := by cbv
  have hKept : Text.lines keptEvents = eventLines.filter isKept := by cbv
  exact ⟨hWarnings.trans hFaults, hSame _ (namesLines_eventsIn hKept), by cbv⟩

end Token.FileReference

end LogQuery
