import LogQuery.Number.Decimal

/-!
Integers and floating-point numbers side by side. The two kinds stay apart as values, but they
compare by what they denote, exactly and without rounding.
-/

namespace LogQuery

/-- A number of either kind. -/
inductive Numeral where
  | int (n : Int)
  | float (x : Float)
deriving DecidableEq

namespace Numeral

/-- A position on the extended number line; a value that is no number has none. -/
inductive Position where
  | least
  | ratio (n : Int) (d : Nat)
  | greatest

/-- Where a number lies. -/
def position? : Numeral → Option Position
  | .int n => some (.ratio n 1)
  | .float x =>
    match Binary64.view x with
    | .finite p => let (n, d) := p.ratio; some (.ratio n d)
    | .infinite negative => some (if negative then .least else .greatest)
    | .nan => none

def Position.lt : Position → Position → Bool
  | .least, .least => false
  | .least, _ => true
  | .ratio _ _, .least => false
  | .ratio n d, .ratio m e => decide (n * e < m * d)
  | .ratio _ _, .greatest => true
  | .greatest, _ => false

/-- The first denotes less than the second; false if either is no number. -/
def lt (a b : Numeral) : Bool :=
  match a.position?, b.position? with
  | some p, some q => p.lt q
  | _, _ => false

/-- Both denote the same number, or neither denotes one. -/
def same (a b : Numeral) : Bool :=
  match a.position?, b.position? with
  | some p, some q => !p.lt q && !q.lt p
  | none, none => true
  | _, _ => false

def text : Numeral → Text
  | .int n => Integer.text n
  | .float x => Decimal.text x

end LogQuery.Numeral
