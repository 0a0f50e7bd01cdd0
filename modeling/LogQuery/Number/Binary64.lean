/-!
Binary floating-point numbers of 64 bits as exact ratios. A finite one is a sign and `m · 2^e`; the
nearest one to a positive ratio is found in exact arithmetic, an exact tie going to the even
significand.
-/

namespace LogQuery.Binary64

/-- Exponent of the least positive number. -/
def minExponent : Int := -1074

/-- One more than the greatest significand, which is also twice the least normal one. -/
def significandBound : Nat := Nat.pow 2 53

/-- A finite number: its value is `significand · 2 ^ exponent`, negated if `negative`. -/
structure Parts where
  negative : Bool
  significand : Nat
  exponent : Int
deriving DecidableEq, Repr

/-- What a bit pattern stands for. -/
inductive View where
  | finite (parts : Parts)
  | infinite (negative : Bool)
  | nan
deriving DecidableEq, Repr

/-- The number that the bits of `x` stand for. -/
def view (x : Float) : View :=
  let bits := x.toBits.toNat
  let negative := Nat.pow 2 63 ≤ bits
  let biased := bits / Nat.pow 2 52 % Nat.pow 2 11
  let fraction := bits % Nat.pow 2 52
  if biased = 0 then .finite ⟨negative, fraction, minExponent⟩
  else if biased = 2047 then
    if fraction = 0 then .infinite negative else .nan
  else .finite ⟨negative, fraction + Nat.pow 2 52, minExponent + (biased - 1 : Nat)⟩

/-- The bits of a magnitude `significand · 2 ^ exponent`, a significand equal to the bound carrying
into the exponent; from the greatest exponent on, the bits of infinity. -/
def magnitudeBits (significand : Nat) (exponent : Int) : Nat :=
  min ((exponent - minExponent).toNat * Nat.pow 2 52 + significand) (2047 * Nat.pow 2 52)

/-- `n / d` rounded to an integer, a tie to the even one. -/
def roundDiv (n d : Nat) : Nat :=
  let q := n / d
  let r := n % d
  if 2 * r < d then q else if d < 2 * r then q + 1 else q + q % 2

/-- `n / d` scaled by `2 ^ (-e)`, as a ratio. -/
def scale (n d : Nat) (e : Int) : Nat × Nat :=
  match e with
  | .ofNat k => (n, d * Nat.pow 2 k)
  | .negSucc k => (n * Nat.pow 2 (k + 1), d)

/-- The exponent at which `n / d` has a significand of 53 bits, but not below the least. -/
def exponentOf (n d : Nat) : Int :=
  let guess : Int := (n.log2 : Int) - d.log2 - 53
  let (a, b) := scale n d (guess + 1)
  max minExponent (if significandBound / 2 ≤ a / b then guess + 1 else guess)

/-- The number nearest to `n / d`, negated if `negative`. -/
def ofRatio (negative : Bool) (n d : Nat) : Float :=
  let magnitude :=
    if n = 0 then 0
    else
      let e := exponentOf n d
      let (a, b) := scale n d e
      magnitudeBits (roundDiv a b) e
  Float.ofBits (UInt64.ofNat (magnitude + if negative then Nat.pow 2 63 else 0))

/-- The number nearest to an integer. -/
def ofInt (n : Int) : Float :=
  ofRatio (decide (n < 0)) n.natAbs 1

/-- The integer part, cut toward zero. -/
def Parts.truncate (p : Parts) : Int :=
  let magnitude : Nat :=
    match p.exponent with
    | .ofNat k => p.significand * Nat.pow 2 k
    | .negSucc k => p.significand / Nat.pow 2 (k + 1)
  if p.negative then -magnitude else magnitude

/-- The value as a ratio of an integer and a power of two. -/
def Parts.ratio (p : Parts) : Int × Nat :=
  let sign : Int := if p.negative then -1 else 1
  match p.exponent with
  | .ofNat k => (sign * (p.significand * Nat.pow 2 k : Nat), 1)
  | .negSucc k => (sign * p.significand, Nat.pow 2 (k + 1))

def infinity : Float := Float.ofBits 0x7FF0000000000000

def nan : Float := Float.ofBits 0x7FF8000000000000

end LogQuery.Binary64
