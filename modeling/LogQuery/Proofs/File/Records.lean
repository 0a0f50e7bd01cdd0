import LogQuery.Proofs.File.Reference
import LogQuery.Proofs.File.Sets
import LogQuery.Proofs.Text.Lines
import Mathlib

/-! Columns of records. A file of records stands for the texts that one column of them holds, in
strictly ascending order. Nothing else matters: not the order of the records, nor how often each
occurs, nor how they are written. -/

namespace LogQuery

namespace ValueFile

variable {cs : Text} {record : List Text} {index : Int} {v : Text} {format : Format}

/-! ## Records -/

/-- A record of a text: the columns of a line that is neither blank nor a comment. -/
inductive IsTextRecord (cs : Text) : List Text → Prop
  | line {lines columns : List Text} {line : Text} (hLines : Text.HasLines cs lines)
      (hMem : line ∈ lines) (hShown : ∃ c ∈ line, Text.isBlank c = false)
      (hComment : line.head? ≠ some (.char '#'))
      (hColumns : Text.IsCut isColumnEnd line columns) : IsTextRecord cs columns

theorem isPassedOver_eq_false_iff {line : Text} :
    isPassedOver line = false ↔
      (∃ c ∈ line, Text.isBlank c = false) ∧ line.head? ≠ some (.char '#') := by
  simp [isPassedOver]

theorem mem_textRecords_iff : record ∈ textRecords cs ↔ IsTextRecord cs record := by
  simp only [textRecords, List.mem_map, List.mem_filter, Bool.not_eq_true',
    isPassedOver_eq_false_iff, Text.splitWhere_eq_iff]
  constructor
  · rintro ⟨line, ⟨hMem, hShown, hComment⟩, hColumns⟩
    exact .line (Text.lines_eq_iff.mp rfl) hMem hShown hComment hColumns
  · rintro ⟨hLines, hMem, hShown, hComment, hColumns⟩
    rw [← Text.lines_eq_iff] at hLines
    exact ⟨_, ⟨hLines ▸ hMem, hShown, hComment⟩, hColumns⟩

/-- A record of a file in a form. -/
def IsRecord (format : Format) (cs : Text) (record : List Text) : Prop :=
  match format with
  | .columns => IsTextRecord cs record
  | .csv => record ∈ Csv.records cs
  | .jsonLines => False

/-- The text is one of records, and all of them can be read. -/
def HoldsRecords (format : Format) (cs : Text) : Prop :=
  match format with
  | .columns => True
  | .csv => ∀ record ∈ Csv.records cs, Csv.isReadable record = true
  | .jsonLines => False

/-! ## Columns -/

/-- What stands in a column. A negative index counts back from behind the last one. -/
def IsColumn (index : Int) (record : List Text) (v : Text) : Prop :=
  ∃ i : Nat, record[i]? = some v ∧ (index = i ∨ index + record.length = i)

theorem column?_eq_some_iff : column? record index = some v ↔ IsColumn index record v := by
  cases index with
  | ofNat i =>
      constructor
      · exact fun h => ⟨i, h, .inl rfl⟩
      · rintro ⟨j, hj, hIndex⟩
        obtain ⟨hLength, -⟩ := List.getElem?_eq_some_iff.mp hj
        obtain rfl : i = j := by simp only [Int.ofNat_eq_natCast] at hIndex; omega
        exact hj
  | negSucc i =>
      constructor
      · intro h
        have hLength := (List.getElem?_eq_some_iff.mp h).1
        rw [List.length_reverse] at hLength
        refine ⟨record.length - 1 - i, ?_, .inr (by omega)⟩
        rw [← List.getElem?_reverse hLength]
        exact h
      · rintro ⟨j, hj, hIndex⟩
        have hLength := (List.getElem?_eq_some_iff.mp hj).1
        obtain rfl : j = record.length - 1 - i := by omega
        rw [column?, List.getElem?_reverse (by omega)]
        exact hj

/-- The values of records are the texts that are not empty in the column. -/
theorem exists_values (index : Int) (records : List (List Text)) :
    ∃ texts : List Text, records.filterMap (value? index) = texts.map .str ∧
      ∀ v, v ∈ texts ↔ v ≠ [] ∧ ∃ record ∈ records, IsColumn index record v := by
  refine ⟨records.filterMap fun record => (column? record index).filter (!·.isEmpty), ?_, ?_⟩
  · rw [List.map_filterMap]
    congr 1
    funext record
    rw [value?]
    match column? record index with
    | none | some [] | some (_ :: _) => rfl
  · intro v
    simp only [List.mem_filterMap, Option.filter_eq_some_iff, column?_eq_some_iff,
      Bool.not_eq_true', List.isEmpty_eq_false_iff]
    constructor
    · rintro ⟨record, hMem, hColumn, hSome⟩
      exact ⟨hSome, record, hMem, hColumn⟩
    · rintro ⟨hSome, record, hMem, hColumn⟩
      exact ⟨record, hMem, hColumn, hSome⟩

/-! ## Reading -/

/-- A selector that asks for a column. Without one it is the last column. -/
inductive Selects : Option Text → Int → Prop
  | last : Selects none (-1)
  | written {s : Text} {index : Int} (h : Integer.read s = .ok index) : Selects (some s) index

theorem columnIndex_eq_ok_iff {name : Text} {selector : Option Text} :
    columnIndex name selector = .ok index ↔ Selects selector index := by
  unfold columnIndex
  constructor
  · intro h
    split at h
    · cases h
      exact .last
    · split at h
      · rename_i hRead
        cases h
        exact .written hRead
      · cases h
  · rintro (_ | h)
    · rfl
    · simp only [h]

theorem read_records {name : Text} {file : File} {selector : Option Text} (hHolds : file.Holds cs)
    (hRecords : HoldsRecords format cs) (hSelector : Selects selector index) :
    ∃ records : List (List Text), (∀ record, record ∈ records ↔ IsRecord format cs record) ∧
      read format name file selector =
        .done (some (settle (records.filterMap (value? index)))) := by
  have hIndex := (@columnIndex_eq_ok_iff _ name _).mpr hSelector
  have hDecode := File.decode?_eq_some_iff.mpr hHolds
  cases format with
  | columns =>
      refine ⟨textRecords cs, fun record => mem_textRecords_iff, ?_⟩
      simp only [read, hIndex, hDecode, wholeText]
      rfl
  | csv =>
      refine ⟨Csv.records cs, fun record => Iff.rfl, ?_⟩
      have hReadable : (Csv.records cs).all Csv.isReadable = true :=
        List.all_eq_true.mpr hRecords
      simp only [read, hIndex, hDecode, csvRecords, hReadable]
      rfl
  | jsonLines => cases hRecords

end ValueFile

namespace Token.FileReference

open Recognizer ValueFile

variable {around : Surroundings} {depth : Json} {token cs : Text} {r : Reference}
  {format : Format} {file : File} {index : Int}

theorem exists_expand_eq (hNames : Names around.folder token r format file)
    (hHolds : file.Holds cs) (hRecords : HoldsRecords format cs)
    (hSelector : Selects r.selector index) :
    ∃ values : List Text, values.Pairwise (· < ·) ∧
      (∀ v, v ∈ values ↔ v ≠ [] ∧ ∃ record, IsRecord format cs record ∧ IsColumn index record v) ∧
      expandStock around depth .fileExpansion token =
        .done (if values = [] then none
          else some [Piece.ofCondition (r.condition (values.map .str))]) := by
  obtain ⟨records, hRecord, hRead⟩ := @read_records _ _ _ r.file file _ hHolds hRecords hSelector
  obtain ⟨texts, hTexts, hMem⟩ := exists_values index records
  obtain ⟨values, hValues, hSorted, hSame⟩ := exists_settle_texts texts
  refine ⟨values, hSorted, fun v => ?_, ?_⟩
  · simp only [hSame, hMem, hRecord]
  · have hPieces := r.pieces?_some (values.map .str)
    simp only [List.map_eq_nil_iff] at hPieces
    rw [expandStock_of_names hNames, hRead, hTexts, hValues, ← hPieces]
    rfl

/-- A token that names a file of records

* stands for the texts in the selected column that are not empty, each once and in strictly
  ascending order, and is declined exactly if there is none;
* stands for the same where another file has the same records. -/
theorem expand_records (hNames : Names around.folder token r format file) (hHolds : file.Holds cs)
    (hRecords : HoldsRecords format cs) (hSelector : Selects r.selector index) :
    ∃ values : List Text, values.Pairwise (· < ·) ∧
      (∀ v, v ∈ values ↔ v ≠ [] ∧ ∃ record, IsRecord format cs record ∧ IsColumn index record v) ∧
      expandStock around depth .fileExpansion token =
        .done (if values = [] then none
          else some [Piece.ofCondition (r.condition (values.map .str))]) ∧
      ∀ folder' file' cs', Names folder' token r format file' → file'.Holds cs' →
        HoldsRecords format cs' →
        (∀ record, IsRecord format cs' record ↔ IsRecord format cs record) →
        expandStock { around with folder := folder' } depth .fileExpansion token =
          expandStock around depth .fileExpansion token := by
  obtain ⟨values, hSorted, hMem, hExpand⟩ :=
    @exists_expand_eq around depth _ _ _ _ _ _ hNames hHolds hRecords hSelector
  refine ⟨values, hSorted, hMem, hExpand, ?_⟩
  intro folder' file' cs' hNames' hHolds' hRecords' hSame
  have hNamesThere : Names { around with folder := folder' }.folder token r format file' := hNames'
  obtain ⟨others, hOrder, hOthers, hExpandThere⟩ :=
    @exists_expand_eq _ depth _ _ _ _ _ _ hNamesThere hHolds' hRecords' hSelector
  have hEq : others = values := by
    refine hOrder.eq_of_mem_iff hSorted fun v => ?_
    simp only [hMem, hOthers, hSame]
  rw [hExpand, hExpandThere, hEq]

/-- Hosts and their addresses, written in two ways. -/
def hosts : Text :=
  "# host\taddress\r\nweb\t10.0.0.2\r \t\n\ndb\x00x\t10.0.0.1\nweb\t10.0.0.2\nlone"

def hostsAgain : Text :=
  "lone\ndb\tx\t10.0.0.1\rdb\tx\t10.0.0.1\r\nweb\x0010.0.0.2\n"

def hostsIn (cs : Text) : Surroundings :=
  ⟨Folder.empty.add "hosts.dat" (.text cs), .obj [], none⟩

theorem isRecord_hosts_iff (record : List Text) :
    IsRecord .columns hostsAgain record ↔ IsRecord .columns hosts record := by
  have hFirst : textRecords hosts =
      ([["web", "10.0.0.2"], ["db", "x", "10.0.0.1"], ["web", "10.0.0.2"], ["lone"]] :
        List (List Text)) := by decide
  have hSecond : textRecords hostsAgain =
      ([["lone"], ["db", "x", "10.0.0.1"], ["db", "x", "10.0.0.1"], ["web", "10.0.0.2"]] :
        List (List Text)) := by decide
  rw [IsRecord, IsRecord, ← mem_textRecords_iff, ← mem_textRecords_iff, hFirst, hSecond]
  simp only [List.mem_cons, List.not_mem_nil]
  grind

/-- Comments, blank lines and short records hold no value, and lines may end in any way. -/
theorem expand_records_hosts :
    expandStock (hostsIn hosts) (.int 0) .fileExpansion "host:hosts.dat[-2]" =
        .done (some [Piece.ofCondition (Clause.terms "host" [.str "web", .str "x"])]) ∧
      expandStock (hostsIn hostsAgain) (.int 0) .fileExpansion "host:hosts.dat[-2]" =
        expandStock (hostsIn hosts) (.int 0) .fileExpansion "host:hosts.dat[-2]" ∧
      ∀ v, v ∈ (["web", "x"] : List Text) ↔
        v ≠ [] ∧ ∃ record, IsRecord .columns hosts record ∧ IsColumn (-2) record v := by
  have hNames : ∀ cs, Names (hostsIn cs).folder "host:hosts.dat[-2]"
      ⟨"host", .exact, "hosts.dat", "dat", some "-2"⟩ .columns (.text cs) :=
    fun _ => ⟨by decide, by decide, rfl⟩
  have hSelector : Selects (some "-2") (-2) := .written (by decide)
  obtain ⟨values, -, hMem, hExpand, hAgain⟩ :=
    @expand_records (hostsIn hosts) (.int 0) _ _ _ _ _ _ (hNames hosts) (.text hosts) trivial
      hSelector
  have hRun : expandStock (hostsIn hosts) (.int 0) .fileExpansion "host:hosts.dat[-2]" =
      .done (some [Piece.ofCondition (Clause.terms "host" [.str "web", .str "x"])]) := by cbv
  have hValues : values = (["web", "x"] : List Text) := by
    have hSame := Except.ok.inj (congrArg Outcome.result (hExpand.symm.trans hRun))
    split at hSame
    · cases hSame
    · have hTexts : values.map Json.str = [.str "web", .str "x"] := by
        apply Clause.terms_injective "host"
        simpa [Piece.ofCondition, Reference.condition] using hSame
      have hInjective : Function.Injective Json.str := fun _ _ h => Json.str.inj h
      exact List.map_injective_iff.mpr hInjective hTexts
  subst hValues
  exact ⟨hRun, hAgain _ _ _ (hNames hostsAgain) (.text hostsAgain) trivial isRecord_hosts_iff,
    hMem⟩

end Token.FileReference

end LogQuery
