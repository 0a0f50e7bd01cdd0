import LogQuery.Text.Basic
import LogQuery.Text.Table.Word
import LogQuery.Text.Table.Digit
import LogQuery.Text.Table.Unprintable

/-!
Classes of code points: word characters, decimal digits, blanks and printable characters, each over
all of Unicode. ASCII is decided by arithmetic and the rest by tables.
-/

namespace LogQuery.Text

/-- The code point lies in one of the closed ranges. -/
def inRanges (table : List (Nat × Nat)) (c : CodePoint) : Bool :=
  table.any fun range => decide (range.1 ≤ c.toNat) && decide (c.toNat ≤ range.2)

/-- Letters and numbers of every script, and the underscore. -/
def isWord (c : CodePoint) : Bool :=
  if c.toNat < 128 then c.isAlphanum || c == '_' else inRanges Table.alphanumeric c

/-- The value of a decimal digit of any script. -/
def digitValue? (c : CodePoint) : Option Nat :=
  if c.toNat < 128 then
    if c.isDigit then some (c.toNat - '0'.toNat) else none
  else
    (Table.decimalZeros.find? fun low => decide (low ≤ c.toNat) && decide (c.toNat ≤ low + 9)).map
      (c.toNat - ·)

/-- A decimal digit of any script. -/
def isDecimal (c : CodePoint) : Bool :=
  (digitValue? c).isSome

/-- A decimal digit or a digit without a place in decimal notation, such as a superscript. -/
def isDigit (c : CodePoint) : Bool :=
  isDecimal c || (decide (128 ≤ c.toNat) && inRanges Table.digitOnly c)

/-- The blanks outside ASCII. -/
def wideBlanks : List Nat :=
  [0x85, 0xA0, 0x1680, 0x2000, 0x2001, 0x2002, 0x2003, 0x2004, 0x2005, 0x2006, 0x2007, 0x2008,
    0x2009, 0x200A, 0x2028, 0x2029, 0x202F, 0x205F, 0x3000]

/-- Space, the controls from tab to carriage return and from file to unit separator, and the
blanks of other scripts. -/
def isBlank (c : CodePoint) : Bool :=
  c == ' ' || (decide (9 ≤ c.toNat) && decide (c.toNat ≤ 13)) ||
    (decide (28 ≤ c.toNat) && decide (c.toNat ≤ 31)) || wideBlanks.contains c.toNat

/-- The code point is a character with a printed form of its own; of the blanks only the space has
one. -/
def isPrintable (c : CodePoint) : Bool :=
  if c.toNat < 128 then decide (32 ≤ c.toNat) && decide (c.toNat < 127)
  else !c.isHalf && !inRanges Table.unprintable c

/-- One of the sixteen digits `0`–`9`, `a`–`f`, `A`–`F`. -/
def hexValue? (c : CodePoint) : Option Nat :=
  let n := c.toNat
  if c.isDigit then some (n - '0'.toNat)
  else if 'a'.toNat ≤ n ∧ n ≤ 'f'.toNat then some (n - 'a'.toNat + 10)
  else if 'A'.toNat ≤ n ∧ n ≤ 'F'.toNat then some (n - 'A'.toNat + 10)
  else none

def isHex (c : CodePoint) : Bool :=
  (hexValue? c).isSome

/-- Every blank of ASCII is a blank. -/
theorem isBlank_of_isWhitespace {c : Char} (h : c.isWhitespace = true) : isBlank c = true := by
  simp only [Char.isWhitespace, Bool.or_eq_true, decide_eq_true_eq] at h
  rcases h with ((h | h) | h) | h <;> subst h <;> decide

end LogQuery.Text
