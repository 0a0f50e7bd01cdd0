/-!
Code points. Two code units that are halves of a surrogate pair make a character above the first
plane. A half on its own is no character, but a code point that may stand in a text like any other.
-/

namespace LogQuery

inductive CodePoint where
  | char (c : Char)
  /-- A half of a surrogate pair, given its place among all halves. -/
  | half (place : Fin 2048)
deriving DecidableEq, Repr

instance : Coe Char CodePoint := ⟨.char⟩

namespace CodePoint

/-- The first of the halves. -/
def firstHalf : Nat := 0xD800

def toNat : CodePoint → Nat
  | char c => c.toNat
  | half place => firstHalf + place

/-- The code point of a number; the NUL character if there is none. -/
def ofNat (n : Nat) : CodePoint :=
  if h : firstHalf ≤ n ∧ n < firstHalf + 2048 then half ⟨n - firstHalf, by omega⟩
  else char (Char.ofNat n)

instance : LT CodePoint := ⟨fun c d => c.toNat < d.toNat⟩

instance : DecidableLT CodePoint := fun c d => inferInstanceAs (Decidable (c.toNat < d.toNat))

theorem lt_def {c d : CodePoint} : c < d ↔ c.toNat < d.toNat := Iff.rfl

/-- A number names the code point that it came from. -/
theorem ofNat_toNat (c : CodePoint) : ofNat c.toNat = c := by
  cases c with
  | char c =>
    have h : ¬(firstHalf ≤ c.toNat ∧ c.toNat < firstHalf + 2048) := by
      have hc : c.toNat.isValidChar := c.valid
      simp only [Nat.isValidChar, firstHalf] at *
      omega
    simp [ofNat, toNat, h]
  | half place =>
    have h : firstHalf ≤ firstHalf + place.val ∧ firstHalf + place.val < firstHalf + 2048 := by
      omega
    simp [ofNat, toNat, h]

/-! ## Classes of characters -/

/-- The code point is a character with a property. -/
def isChar (p : Char → Bool) : CodePoint → Bool
  | char c => p c
  | half _ => false

/-- The code point is no character. -/
def isHalf : CodePoint → Bool
  | char _ => false
  | half _ => true

def isDigit (c : CodePoint) : Bool :=
  c.isChar Char.isDigit

def isAlpha (c : CodePoint) : Bool :=
  c.isChar Char.isAlpha

/-- A letter or a decimal digit of ASCII. -/
def isAlphanum (c : CodePoint) : Bool :=
  c.isChar Char.isAlphanum

/-! ## Code units -/

def isHigh (unit : Nat) : Bool :=
  decide (0xD800 ≤ unit) && decide (unit < 0xDC00)

def isLow (unit : Nat) : Bool :=
  decide (0xDC00 ≤ unit) && decide (unit < 0xE000)

/-- The character that two halves make. -/
def join (high low : Nat) : CodePoint :=
  ofNat (0x10000 + (high - 0xD800) * 0x400 + (low - 0xDC00))

/-- The code units of a code point: two halves above the first plane, else the code point itself. -/
def units (c : CodePoint) : List Nat :=
  if c.toNat < 0x10000 then [c.toNat]
  else [0xD800 + (c.toNat - 0x10000) / 0x400, 0xDC00 + (c.toNat - 0x10000) % 0x400]

end CodePoint

end LogQuery
