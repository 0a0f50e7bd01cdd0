import LogQuery.Proofs.Result
import LogQuery.Proofs.Text.Utf8
import LogQuery.Token.Recognizer

/-! Tokens that name a file there is. What becomes of one is decided by the values of the file. -/

namespace LogQuery

/-- A file that holds a text, as it is or as its bytes. -/
inductive File.Holds : File → Text → Prop
  | text (cs : Text) : Holds (.text cs) cs
  | bytes (cs : List Char) : Holds (.bytes (Text.Utf8.encode cs)) (cs.map .char)

theorem File.decode?_eq_some_iff {file : File} {cs : Text} :
    file.decode? = some ⟨cs, true⟩ ↔ file.Holds cs := by
  constructor
  · intro h
    cases file with
    | text s =>
        cases h
        exact .text _
    | bytes bs =>
        have hDecode := Option.some.inj h
        obtain ⟨chars, rfl⟩ := Text.Utf8.isWhole_decode_iff.mp (by rw [hDecode])
        rw [Text.Utf8.decode_encode] at hDecode
        cases hDecode
        exact .bytes chars
    | unreadable => cases h
  · rintro (_ | chars)
    · rfl
    · exact congrArg some (Text.Utf8.decode_encode chars)

/-- The failures that are about the values of a file or about what asks for them. -/
def Failure.isOfValues : Failure → Bool
  | .badColumn _ _ | .missingKeyPath _ | .noValues _ _ => true
  | _ => false

namespace Clause

theorem terms_injective (field : Text) : Function.Injective (terms field) := by
  intro values others h
  simpa [terms, onField, single] using h

theorem anyOf_injective (matcher field : Text) : Function.Injective (anyOf matcher field) := by
  intro values others h
  have hOnField : Function.Injective fun v => onField matcher field (single "value" v) := by
    intro v w h
    simpa [onField, single] using h
  apply List.map_injective_iff.mpr hOnField
  cases values <;> cases others <;>
    simp_all [anyOf, Sections.clause, single, ifGiven, Json.truthy, onField, Members.present]

end Clause

namespace Token.FileReference

open Recognizer

variable {folder : Folder} {token : Text} {r : Reference} {format : ValueFile.Format} {file : File}

/-- A token that names a file in a folder, by a name whose last part stands for a form. -/
structure Names (folder : Folder) (token : Text) (r : Reference) (format : ValueFile.Format)
    (file : File) : Prop where
  reference : reference? token = some r
  format : ValueFile.Format.named? r.extension = some format
  file : folder.file? r.file = some file

/-- Different values make different conditions. -/
theorem Reference.condition_injective (r : Reference) : Function.Injective r.condition := by
  unfold Reference.condition
  cases r.matching with
  | exact => exact Clause.terms_injective r.field
  | wildcard => exact Clause.anyOf_injective "wildcard" r.field
  | regexp => exact Clause.anyOf_injective "regexp" r.field

/-- The pieces that the values of a file become: one condition, unless there is no value. -/
def Reference.pieces? (r : Reference) : Option (List Json) → Option (List Piece)
  | none | some [] => none
  | some (v :: vs) => some [Piece.ofCondition (r.condition (v :: vs))]

theorem Reference.pieces?_some (r : Reference) (values : List Json) :
    r.pieces? (some values) =
      if values = [] then none else some [Piece.ofCondition (r.condition values)] := by
  cases values <;> rfl

theorem expandStock_of_names {around : Surroundings} {depth : Json}
    (h : Names around.folder token r format file) :
    expandStock around depth .fileExpansion token =
      r.pieces? <$> ValueFile.read format r.file file r.selector := by
  rw [expandStock, condition?, h.reference]
  dsimp only
  rw [h.format, h.file]
  simp only [map_eq_pure_bind, bind_assoc]
  congr 1
  funext values?
  match values? with
  | none | some [] | some (_ :: _) => rfl

end Token.FileReference

end LogQuery
