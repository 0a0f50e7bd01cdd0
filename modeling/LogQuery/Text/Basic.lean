import LogQuery.Text.CodePoint

/-!
Texts: lists of code points. A string literal stands for the text of its characters.
-/

namespace LogQuery

abbrev Text := List CodePoint

namespace Text

/-- The text of the characters of a string. -/
def ofString (s : String) : Text :=
  s.toList.map .char

instance : Coe String Text := ⟨ofString⟩

/-- The string of a text, with a question mark in the place of what is no character. -/
def toString (t : Text) : String :=
  String.ofList (t.map fun
    | .char c => c
    | .half _ => '?')

/-- A text of characters is the text of its string. -/
theorem ofString_ofList (cs : List Char) : ofString (String.ofList cs) = cs.map .char := by
  simp [ofString]

theorem toString_ofString (s : String) : toString (ofString s) = s := by
  simp [toString, ofString, Function.comp_def]

end Text

end LogQuery
