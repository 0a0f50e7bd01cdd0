import LogQuery.Text.Table.Case
import LogQuery.Text.Table.Cased
import LogQuery.Text.Class

/-!
Lower and upper case of whole texts. A character may become several, and a capital sigma at the end
of a word becomes the final form of the small one.
-/

namespace LogQuery.Text

/-- The code point that a run maps `n` to, if `n` is in it. -/
def Table.CaseRun.mapped? (run : Table.CaseRun) (n : Nat) : Option Nat :=
  if run.first ≤ n ∧ n ≤ run.last ∧ (n - run.first) % run.step = 0 then
    some ((n : Int) + run.delta).toNat
  else none

/-- Map a character outside ASCII by the single-character runs, then by the special ones. -/
def mapCase (runs : List Table.CaseRun) (special : List (Nat × List Nat)) (c : Char) : Text :=
  match runs.findSome? (·.mapped? c.toNat) with
  | some n => [.ofNat n]
  | none =>
    match special.lookup c.toNat with
    | some ns => ns.map .ofNat
    | none => [c]

/-- The lower-case form of one code point, without regard to its neighbours. -/
def lowerOne : CodePoint → Text
  | .char c =>
    if c.toNat < 128 then [.char c.toLower] else mapCase Table.lowerRuns Table.lowerSpecial c
  | .half place => [.half place]

/-- The upper-case form of one code point. -/
def upperOne : CodePoint → Text
  | .char c =>
    if c.toNat < 128 then [.char c.toUpper] else mapCase Table.upperRuns Table.upperSpecial c
  | .half place => [.half place]

/-- Passed over when looking for the neighbour of a sigma. -/
def isCaseIgnorable (c : CodePoint) : Bool :=
  if c.toNat < 128 then ("\x27.:^\x60" : Text).contains c else inRanges Table.caseIgnorable c

/-- Counts as a letter beside a sigma. -/
def isCased (c : CodePoint) : Bool :=
  if c.toNat < 128 then c.isAlpha else inRanges Table.cased c

/-- The nearest character that is not passed over is cased. -/
def meetsCased (cs : Text) : Bool :=
  match cs.dropWhile isCaseIgnorable with
  | [] => false
  | c :: _ => isCased c

/-- The lower-case form of a capital sigma between two texts, the one before it in reverse order. -/
def lowerSigma (before after : Text) : CodePoint :=
  if meetsCased before && !meetsCased after then 'ς' else 'σ'

/-- Lower case, given the characters before the text in reverse order. -/
def lowerAfter (before : Text) : Text → Text
  | [] => []
  | c :: cs =>
    (if c == 'Σ' then [lowerSigma before cs] else lowerOne c) ++ lowerAfter (c :: before) cs

def lower (s : Text) : Text :=
  lowerAfter [] s

def upper (s : Text) : Text :=
  s.flatMap upperOne

theorem mem_lowerAfter {c : CodePoint} (hSigma : c ≠ 'Σ') (hOne : lowerOne c = [c]) {cs : Text}
    (h : c ∈ cs) (before : Text) : c ∈ lowerAfter before cs := by
  induction cs generalizing before with
  | nil => cases h
  | cons d cs ih =>
      rw [lowerAfter, List.mem_append]
      rcases List.mem_cons.mp h with rfl | h
      · left
        rw [if_neg (by simpa using hSigma), hOne]
        exact List.mem_singleton_self c
      · exact .inr (ih h (d :: before))

/-- What is its own lower case stays in a text. -/
theorem mem_lower {c : CodePoint} (hSigma : c ≠ 'Σ') (hOne : lowerOne c = [c]) {cs : Text}
    (h : c ∈ cs) : c ∈ lower cs :=
  mem_lowerAfter hSigma hOne h []

end LogQuery.Text
