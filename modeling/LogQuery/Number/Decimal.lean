import LogQuery.Number.Binary64
import LogQuery.Number.Integer

/-!
Decimals. Reading takes the nearest binary number. Writing takes the fewest digits that read back
as the same number, and of those the nearest.
-/

namespace LogQuery.Decimal

/-- Beyond this power of ten every number is infinite, and below its inverse every one is zero. -/
def maxPower : Nat := 400

/-- The number nearest to `m · 10 ^ e`, negated if `negative`. -/
def toFloat (negative : Bool) (m : Nat) (e : Int) : Float :=
  let places : Int := (Integer.digits m).length + e
  if m = 0 ∨ places < -maxPower then Binary64.ofRatio negative 0 1
  else if maxPower < places then Binary64.ofRatio negative (Nat.pow 10 maxPower) 1
  else
    match e with
    | .ofNat k => Binary64.ofRatio negative (m * Nat.pow 10 k) 1
    | .negSucc k => Binary64.ofRatio negative m (Nat.pow 10 (k + 1))

/-- The reals that round to a positive number, in units of a quarter of its last binary place. -/
structure Interval where
  lo : Nat
  mid : Nat
  hi : Nat
  /-- Whether the ends belong to it. -/
  closed : Bool

/-- The interval of `significand · 2 ^ exponent`: half a place to each side, a quarter below the
least significand of an exponent. -/
def Interval.of (p : Binary64.Parts) : Interval where
  lo := 4 * p.significand -
    if p.significand = Nat.pow 2 52 ∧ Binary64.minExponent < p.exponent then 1 else 2
  mid := 4 * p.significand
  hi := 4 * p.significand + 2
  closed := p.significand % 2 = 0

/-- Decimal digits `d` of the value `0.d · 10 ^ point`. -/
structure Digits where
  digits : Text
  point : Int

/-- The ratio `q` lies in the interval, its ends and `q` being over one denominator. -/
def Interval.contains (i : Interval) (unit q : Nat) : Bool :=
  if i.closed then decide (i.lo * unit ≤ q) && decide (q ≤ i.hi * unit)
  else decide (i.lo * unit < q) && decide (q < i.hi * unit)

/-- The neighbour of the value on the grid of step `num / den` that lies in the interval; of two the
nearer, and of two equally near the even one. The interval is in units of `unit`. -/
def nearestOnGrid? (i : Interval) (unit step : Nat) : Option Nat :=
  let below := i.mid * unit / step
  let above := below + 1
  match i.contains unit (below * step), i.contains unit (above * step) with
  | true, true =>
    let left := i.mid * unit - below * step
    let right := above * step - i.mid * unit
    some (if left < right then below else if right < left then above
      else if below % 2 = 0 then below else above)
  | true, false => some below
  | false, true => some above
  | false, false => none

/-- `10 ^ e` as a ratio. -/
def tenPower (e : Int) : Nat × Nat :=
  match e with
  | .ofNat k => (Nat.pow 10 k, 1)
  | .negSucc k => (1, Nat.pow 10 (k + 1))

/-- `2 ^ e` as a ratio. -/
def twoPower (e : Int) : Nat × Nat :=
  match e with
  | .ofNat k => (Nat.pow 2 k, 1)
  | .negSucc k => (1, Nat.pow 2 (k + 1))

/-- The first grid of `count`, `count + 1`, … significant digits that has a point in the interval. -/
def firstGrid (i : Interval) (exponent point : Int) : Nat → Nat → Nat × Int
  | 0, count => (i.mid, point - count)
  | fuel + 1, count =>
    let (tn, td) := tenPower (point - count)
    let (bn, bd) := twoPower (exponent - 2)
    match nearestOnGrid? i (bn * td) (tn * bd) with
    | some n => (n, point - count)
    | none => firstGrid i exponent point fuel (count + 1)

/-- The place of the decimal point: the value is at least `10 ^ (p - 1)` and below `10 ^ p`. -/
def pointOf (p : Binary64.Parts) : Int :=
  let (bn, bd) := twoPower p.exponent
  let n := p.significand * bn
  let guess : Int := (Integer.digits n).length - (Integer.digits bd).length
  let (tn, td) := tenPower guess
  if n * td < bd * tn then guess else guess + 1

/-- The shortest digits that read back as the value of `p`, which is not zero. -/
def shortest (p : Binary64.Parts) : Digits :=
  let point := pointOf p
  let (n, e) := firstGrid (Interval.of p) p.exponent point 17 1
  let ds := Integer.digits n
  { digits := Text.stripEnd (· == '0') ds, point := e + ds.length }

/-- How a decimal is laid out. -/
structure Style where
  /-- Values below `10 ^ (leastPower)` are written with an exponent. -/
  leastPower : Int
  /-- Values from `10 ^ mostPower` on are written with an exponent. -/
  mostPower : Int
  /-- The least number of digits of an exponent. -/
  exponentDigits : Nat

/-- Positional from `0.0001` up to below `10 ^ 16`; exponents have a sign and two digits. -/
def style : Style := ⟨-4, 16, 2⟩

/-- The exponent of a decimal in scientific form. -/
def Style.exponentText (s : Style) (e : Int) : Text :=
  let ds := Integer.digits e.natAbs
  (if e < 0 then "e-" else "e+") ++ Integer.zeros (s.exponentDigits - ds.length) ++ ds

/-- Positive digits in the layout of the style. -/
def Style.layout (s : Style) (d : Digits) : Text :=
  let n : Int := d.digits.length
  if d.point ≤ s.leastPower ∨ s.mostPower < d.point then
    match d.digits with
    | [] => []
    | [c] => c :: s.exponentText (d.point - 1)
    | c :: cs => [c, '.'] ++ cs ++ s.exponentText (d.point - 1)
  else if d.point ≤ 0 then
    "0." ++ Integer.zeros d.point.natAbs ++ d.digits
  else if n ≤ d.point then
    d.digits ++ Integer.zeros (d.point - n).toNat ++ ".0"
  else
    d.digits.take d.point.toNat ++ "." ++ d.digits.drop d.point.toNat

def text (x : Float) : Text :=
  match Binary64.view x with
  | .nan => "nan"
  | .infinite negative => if negative then "-inf" else "inf"
  | .finite p =>
    let body : Text := if p.significand = 0 then "0.0" else style.layout (shortest p)
    if p.negative then '-' :: body else body

end LogQuery.Decimal
