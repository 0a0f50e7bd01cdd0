import LogQuery.Text.Case
import LogQuery.Token.Piece

/-!
Words between conditions and free text. They are written in upper case and dangle; one of them
negates the condition after it.
-/

namespace LogQuery.Token.Word

/-- The piece that a word stands for, in whatever case it is given. -/
def piece? (token : Text) : Option Piece :=
  let word := Text.lower token
  if word == "and" then some { text := .str "AND", dangles := true }
  else if word == "or" then some { text := .str "OR", dangles := true }
  else if word == "not" then some { text := .str "NOT", dangles := true, negates := true }
  else none

end LogQuery.Token.Word
