import LogQuery.Proofs.File.JsonLines
import LogQuery.Proofs.File.Records

/-! Faults of value files. A token is declined, becomes one condition or fails over the values of
a file, unless the file is no text, a field of it is too long, or a line comes to a limit of
reading. -/

namespace LogQuery

/-- A file cannot be read, or holds a text, or bytes that are none. -/
theorem File.cases (file : File) :
    file = .unreadable ∨ (∃ cs, file.Holds cs) ∨
      ∃ bytes, file = .bytes bytes ∧ ∀ cs, bytes ≠ Text.Utf8.encode cs := by
  cases file with
  | text cs => exact .inr (.inl ⟨cs, .text cs⟩)
  | bytes bytes =>
      by_cases h : ∃ cs, bytes = Text.Utf8.encode cs
      · obtain ⟨cs, rfl⟩ := h
        exact .inr (.inl ⟨_, .bytes cs⟩)
      · exact .inr (.inr ⟨bytes, rfl, not_exists.mp h⟩)
  | unreadable => exact .inl rfl

namespace ValueFile

variable {format : Format} {name : Text} {file : File} {selector : Option Text}

/-- A selector of a form: a column or none of records, a key path of JSON lines. -/
inductive Accepts : Format → Option Text → Prop
  | columns {selector : Option Text} {index : Int} (h : Selects selector index) :
      Accepts .columns selector
  | csv {selector : Option Text} {index : Int} (h : Selects selector index) :
      Accepts .csv selector
  | jsonLines {path : Text} : Accepts .jsonLines (some path)

/-- A fault of a file that an accepted selector brings to light. -/
inductive IsFaulty : Format → File → Option Text → Prop
  | noText {format : Format} {bytes : List Nat} {selector : Option Text}
      (hSelector : Accepts format selector) (h : ∀ cs, bytes ≠ Text.Utf8.encode cs) :
      IsFaulty format (.bytes bytes) selector
  | longField {file : File} {cs field : Text} {record : List Text} {selector : Option Text}
      (hSelector : Accepts .csv selector) (hHolds : file.Holds cs)
      (hRecord : record ∈ Csv.records cs) (hField : field ∈ record)
      (hLong : Csv.maxFieldLength < field.length) : IsFaulty .csv file selector
  | limit {file : File} {cs line path : Text} {lines : List Text} {e : Json.ReadError}
      (hHolds : file.Holds cs) (hLines : Text.HasLines cs lines) (hMem : line ∈ lines)
      (hShown : ∃ c ∈ line, Text.isBlank c = false) (hRead : Json.read line = .error e)
      (hLimit : e ≠ .malformed) : IsFaulty .jsonLines file (some path)

theorem not_isPlain_iff {line : Text} :
    ¬IsPlain line ↔ (∃ c ∈ line, Text.isBlank c = false) ∧
      ∃ e, Json.read line = .error e ∧ e ≠ .malformed := by
  constructor
  · intro h
    refine ⟨?_, ?_⟩
    · by_contra hBlank
      exact h (.blank (by simpa using hBlank))
    · cases hRead : Json.read line with
      | ok document => exact absurd (.document hRead) h
      | error e => exact ⟨e, rfl, fun he => h (.malformed (he ▸ hRead))⟩
  · rintro ⟨hShown, e, hRead, hLimit⟩ (hBlank | hDocument | hMalformed)
    · obtain ⟨c, hMem, hc⟩ := hShown
      rw [List.all_eq_true.mp hBlank c hMem] at hc
      cases hc
    · rw [hRead] at hDocument
      cases hDocument
    · rw [hRead] at hMalformed
      exact hLimit (Except.error.inj hMalformed)

/-! ## Selectors -/

theorem columnIndex_cases (name : Text) (selector : Option Text) :
    (∃ index, Selects selector index) ∨
      ∃ given, columnIndex name selector = .error (.badColumn name given) := by
  cases hIndex : columnIndex name selector with
  | ok index => exact .inl ⟨index, columnIndex_eq_ok_iff.mp hIndex⟩
  | error failure =>
      unfold columnIndex at hIndex
      split at hIndex
      · cases hIndex
      · split at hIndex
        · cases hIndex
        · cases hIndex
          exact .inr ⟨_, rfl⟩

theorem read_of_not_accepts (h : ¬Accepts format selector) :
    ∃ failure, failure.isOfValues = true ∧ read format name file selector = .fail failure := by
  cases format with
  | columns =>
      rcases columnIndex_cases name selector with ⟨index, hIndex⟩ | ⟨given, hIndex⟩
      · exact absurd (.columns hIndex) h
      · exact ⟨_, rfl, by rw [read, hIndex]; rfl⟩
  | csv =>
      rcases columnIndex_cases name selector with ⟨index, hIndex⟩ | ⟨given, hIndex⟩
      · exact absurd (.csv hIndex) h
      · exact ⟨_, rfl, by rw [read, hIndex]; rfl⟩
  | jsonLines =>
      cases selector with
      | none => exact ⟨_, rfl, rfl⟩
      | some path => exact absurd .jsonLines h

/-! ## Files that are no text -/

theorem read_unreadable (h : Accepts format selector) :
    read format name .unreadable selector = .done none := by
  cases h with
  | columns hIndex =>
      rw [read, columnIndex_eq_ok_iff.mpr hIndex]
      rfl
  | csv hIndex =>
      rw [read, columnIndex_eq_ok_iff.mpr hIndex]
      rfl
  | jsonLines => rfl

/-- Whatever is read before the fault, it comes to light. -/
theorem read_of_noText {bytes : List Nat} (hSelector : Accepts format selector)
    (h : ∀ cs, bytes ≠ Text.Utf8.encode cs) :
    ∃ failure, failure.isOfValues = false ∧
      (read format name (.bytes bytes) selector).result = .error failure := by
  obtain ⟨contents, hContents⟩ : ∃ contents, Text.Utf8.decode bytes = contents := ⟨_, rfl⟩
  have hDecode : File.decode? (.bytes bytes) = some contents := congrArg some hContents
  have hBroken : contents.isWhole = false := by
    rw [← hContents]
    exact eq_false_of_ne_true fun hWhole =>
      not_exists.mpr h (Text.Utf8.isWhole_decode_iff.mp hWhole)
  cases hSelector with
  | columns hIndex =>
      refine ⟨.undecodable, rfl, ?_⟩
      simp only [read, columnIndex_eq_ok_iff.mpr hIndex, hDecode, wholeText, hBroken]
      rfl
  | csv hIndex =>
      obtain ⟨failure, hFailure, hRecords⟩ : ∃ failure : Failure, failure.isOfValues = false ∧
          csvRecords contents = .fail failure := by
        rw [csvRecords, hBroken, if_neg (by decide)]
        dsimp only
        split
        · exact ⟨.undecodable, rfl, rfl⟩
        · exact ⟨.fieldTooLong, rfl, rfl⟩
      refine ⟨failure, hFailure, ?_⟩
      simp only [read, columnIndex_eq_ok_iff.mpr hIndex, hDecode, hRecords]
      rfl
  | @jsonLines path =>
      obtain ⟨failure, hFailure, hValues⟩ : ∃ failure : Failure, failure.isOfValues = false ∧
          (jsonLinesValues name (Text.splitOn '.' path) contents).result = .error failure := by
        -- The complete lines in front of the fault are read first, and one may come to a limit.
        simp only [jsonLinesValues, hBroken]
        by_cases hLimit : ∃ line ∈ completeLines contents.characters, ¬IsPlain line
        · obtain ⟨failure, hFailure, hLines⟩ :=
            @linesValues_of_not_isPlain name (Text.splitOn '.' path) 1 _ hLimit
          exact ⟨failure, hFailure, Outcome.result_bind_of_error hLines⟩
        · push Not at hLimit
          refine ⟨.undecodable, rfl, ?_⟩
          rw [linesValues_of_isPlain hLimit]
          exact Outcome.result_bind_of_ok rfl
      refine ⟨failure, hFailure, ?_⟩
      simp only [read, hDecode]
      exact Outcome.result_bind_of_error hValues

/-! ## Files that are -/

theorem isReadable_eq_false_iff {record : List Text} :
    Csv.isReadable record = false ↔ ∃ field ∈ record, Csv.maxFieldLength < field.length := by
  simp [Csv.isReadable]

theorem IsFaulty.result_read (h : IsFaulty format file selector) :
    ∃ failure, failure.isOfValues = false ∧
      (read format name file selector).result = .error failure := by
  cases h with
  | noText hSelector h => exact read_of_noText hSelector h
  | longField hSelector hHolds hRecord hField hLong =>
      obtain ⟨hIndex⟩ | ⟨hIndex⟩ := hSelector
      have hUnreadable := isReadable_eq_false_iff.mpr ⟨_, hField, hLong⟩
      have hRecords : (Csv.records _).all Csv.isReadable = false :=
        List.all_eq_false.mpr ⟨_, hRecord, by simp [hUnreadable]⟩
      refine ⟨.fieldTooLong, rfl, ?_⟩
      simp only [read, columnIndex_eq_ok_iff.mpr hIndex, File.decode?_eq_some_iff.mpr hHolds,
        csvRecords, hRecords]
      rfl
  | limit hHolds hLines hMem hShown hRead hLimit =>
      exact read_jsonLines_of_not_isPlain hHolds hLines
        ⟨_, hMem, not_isPlain_iff.mpr ⟨hShown, _, hRead, hLimit⟩⟩

/-- Without a fault, whatever goes wrong is over the values. -/
theorem isOfValues_of_not_isFaulty (h : ¬IsFaulty format file selector) {failure : Failure}
    (hRead : (read format name file selector).result = .error failure) :
    failure.isOfValues = true := by
  by_cases hSelector : Accepts format selector
  · rcases file.cases with rfl | ⟨cs, hHolds⟩ | ⟨bytes, rfl, hBytes⟩
    · rw [read_unreadable hSelector] at hRead
      cases hRead
    · cases hSelector with
      | columns hIndex =>
          obtain ⟨records, -, hDone⟩ :=
            @read_records cs _ .columns name file _ hHolds trivial hIndex
          rw [hDone] at hRead
          cases hRead
      | csv hIndex =>
          have hRecords : HoldsRecords .csv cs := by
            intro record hRecord
            by_contra hUnreadable
            obtain ⟨field, hField, hLong⟩ :=
              isReadable_eq_false_iff.mp (eq_false_of_ne_true hUnreadable)
            exact h (.longField (.csv hIndex) hHolds hRecord hField hLong)
          obtain ⟨records, -, hDone⟩ := @read_records cs _ .csv name file _ hHolds hRecords hIndex
          rw [hDone] at hRead
          cases hRead
      | @jsonLines path =>
          have hLines := Text.lines_eq_iff.mp (@rfl _ (Text.lines cs))
          have hPlain : ∀ line ∈ Text.lines cs, IsPlain line := by
            intro line hMem
            by_contra hNot
            obtain ⟨hShown, e, hLine, hLimit⟩ := not_isPlain_iff.mp hNot
            exact h (.limit hHolds hLines hMem hShown hLine hLimit)
          rw [read_jsonLines hHolds hLines hPlain] at hRead
          simp only [valuesOf] at hRead
          split at hRead
          · cases hRead
            rfl
          · cases hRead
    · exact absurd (.noText hSelector hBytes) h
  · obtain ⟨failure, hFailure, hFail⟩ := @read_of_not_accepts _ name file _ hSelector
    rw [hFail] at hRead
    cases hRead
    exact hFailure

end ValueFile

namespace Token.FileReference

open Recognizer ValueFile

variable {around : Surroundings} {depth : Json} {token : Text}

/-- A token is declined, becomes one condition, or fails over the values of a file. -/
def IsRegular : Except Failure (Option (List Piece)) → Prop
  | .ok none => True
  | .ok (some pieces) => ∃ condition, pieces = [Piece.ofCondition condition]
  | .error failure => failure.isOfValues = true

theorem Reference.isRegular_pieces? (r : Reference) (values? : Option (List Json)) :
    IsRegular (.ok (r.pieces? values?)) := by
  match values? with
  | none | some [] => exact trivial
  | some (v :: vs) => exact ⟨_, rfl⟩

theorem expandStock_of_not_names
    (h : ∀ r format file, ¬Names around.folder token r format file) :
    expandStock around depth .fileExpansion token = .done none := by
  rw [expandStock, condition?]
  cases hReference : reference? token with
  | none => rfl
  | some r =>
      dsimp only
      split
      · rename_i format file hFormat hFile
        exact absurd ⟨hReference, hFormat, hFile⟩ (h r format file)
      · rfl

/-- A token is declined, becomes one condition or fails over the values of a file exactly if it
names no file with a fault. -/
theorem expand_isRegular_iff :
    IsRegular (expandStock around depth .fileExpansion token).result ↔
      ∀ r format file, Names around.folder token r format file →
        ¬IsFaulty format file r.selector := by
  constructor
  · intro hRegular r format file hNames hFault
    obtain ⟨failure, hFailure, hRead⟩ := @hFault.result_read _ r.file _ _
    rw [expandStock_of_names hNames, map_eq_pure_bind, Outcome.result_bind_of_error hRead,
      IsRegular, hFailure] at hRegular
    cases hRegular
  · intro hSound
    by_cases hNone : ∀ r format file, ¬Names around.folder token r format file
    · rw [expandStock_of_not_names hNone]
      trivial
    · push Not at hNone
      obtain ⟨r, format, file, hNames⟩ := hNone
      rw [expandStock_of_names hNames, map_eq_pure_bind]
      cases hRead : (ValueFile.read format r.file file r.selector).result with
      | ok values? =>
          rw [Outcome.result_bind_of_ok hRead]
          exact r.isRegular_pieces? values?
      | error failure =>
          rw [Outcome.result_bind_of_error hRead]
          exact isOfValues_of_not_isFaulty (hSound r format file hNames) hRead

/-- A folder with a file that is no text. -/
def brokenIn : Surroundings :=
  ⟨Folder.empty.add "hosts.txt" (.bytes [0xFF, 0x0A]), .obj [], none⟩

/-- A file that is no text is not declined as one that cannot be read is. -/
theorem expand_not_isRegular_broken :
    (expandStock brokenIn (.int 0) .fileExpansion "host:hosts.txt").result = .error .undecodable ∧
      ¬IsRegular (expandStock brokenIn (.int 0) .fileExpansion "host:hosts.txt").result := by
  have hRun : (expandStock brokenIn (.int 0) .fileExpansion "host:hosts.txt").result =
      .error .undecodable := by cbv
  refine ⟨hRun, ?_⟩
  rw [hRun]
  exact Bool.false_ne_true

end Token.FileReference

end LogQuery
