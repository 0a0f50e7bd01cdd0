import LogQuery.Text.Basic

/-!
Lines of a text: a line feed, a carriage return, or the pair of them ends a line.
-/

namespace LogQuery.Text

/-- Every line end becomes one line feed. -/
def foldLineEnds : Text → Text
  | [] => []
  | .char '\r' :: .char '\n' :: cs => '\n' :: foldLineEnds cs
  | .char '\r' :: cs => '\n' :: foldLineEnds cs
  | c :: cs => c :: foldLineEnds cs

/-- The lines that a line feed ends, and what stands after the last one. -/
def splitLines : Text → List Text × Text
  | [] => ([], [])
  | c :: cs =>
    let (lines, open') := splitLines cs
    if c == '\n' then ([] :: lines, open')
    else
      match lines with
      | [] => ([], c :: open')
      | line :: rest => ((c :: line) :: rest, open')

/-- The lines of a text without their ends; a text that ends in a line end has no line after it. -/
def lines (cs : Text) : List Text :=
  let (closed, open') := splitLines (foldLineEnds cs)
  if open'.isEmpty then closed else closed ++ [open']

end LogQuery.Text
