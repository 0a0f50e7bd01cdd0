import LogQuery.Text.Basic

/-!
UTF-8. Reading is strict: shortest forms only, no halves of surrogate pairs, nothing above the last
code point. Bytes are read block by block. A fault is noticed when the block that shows it is read;
only the characters that end in earlier blocks have been seen by then.
-/

namespace LogQuery.Text.Utf8

/-- The bytes of a code point, given its number. -/
def encodeOne (n : Nat) : List Nat :=
  if n < 0x80 then [n]
  else if n < 0x800 then [0xC0 + n / 64, 0x80 + n % 64]
  else if n < 0x10000 then [0xE0 + n / 64 / 64, 0x80 + n / 64 % 64, 0x80 + n % 64]
  else [0xF0 + n / 64 / 64 / 64, 0x80 + n / 64 / 64 % 64, 0x80 + n / 64 % 64, 0x80 + n % 64]

def blockSize : Nat := 8192

/-- A character of which `need` bytes are still to come; `value` is what the bytes so far make, and
`lo` and `hi` bound the next one. -/
structure Pending where
  need : Nat
  value : Nat
  lo : Nat
  hi : Nat

/-- What a first byte starts: a character of its own, or a pending one. -/
def start? (b : Nat) : Option (CodePoint ⊕ Pending) :=
  if b < 0x80 then some (.inl (.ofNat b))
  else if 0xC2 ≤ b ∧ b ≤ 0xDF then some (.inr ⟨1, b - 0xC0, 0x80, 0xBF⟩)
  else if b = 0xE0 then some (.inr ⟨2, 0, 0xA0, 0xBF⟩)
  else if 0xE1 ≤ b ∧ b ≤ 0xEF then some (.inr ⟨2, b - 0xE0, 0x80, 0xBF⟩)
  else if b = 0xF0 then some (.inr ⟨3, 0, 0x90, 0xBF⟩)
  else if 0xF1 ≤ b ∧ b ≤ 0xF3 then some (.inr ⟨3, b - 0xF0, 0x80, 0xBF⟩)
  else if b = 0xF4 then some (.inr ⟨3, 4, 0x80, 0x8F⟩)
  else none

/-- What a further byte makes of a pending character. The first two bytes of half of a surrogate
pair stay pending, but no third one fits. -/
def Pending.next? (p : Pending) (b : Nat) : Option (CodePoint ⊕ Pending) :=
  if b < p.lo ∨ p.hi < b then none
  else
    let value := p.value * 64 + (b - 0x80)
    if p.need ≤ 1 then some (.inl (.ofNat value))
    else if p.need = 2 ∧ 0xD800 / 64 ≤ value ∧ value < 0xE000 / 64 then some (.inr ⟨1, value, 1, 0⟩)
    else some (.inr ⟨p.need - 1, value, 0x80, 0xBF⟩)

/-- Where reading ends. -/
inductive Ending where
  /-- After the last byte. -/
  | whole
  /-- After the last byte, which does not end a character. -/
  | truncated
  /-- At a byte that fits nowhere, given its place. -/
  | invalid (index : Nat)

/-- Read from a byte on, given its place; the characters are in reverse. -/
def readFrom (done : Text) (index : Nat) : Option Pending → List Nat → Text × Ending
  | none, [] => (done, .whole)
  | some _, [] => (done, .truncated)
  | pending, b :: bs =>
    match pending.elim (start? b) (·.next? b) with
    | none => (done, .invalid index)
    | some (.inl c) => readFrom (c :: done) (index + 1) none bs
    | some (.inr p) => readFrom done (index + 1) (some p) bs

/-- The characters of a text, or those seen before its fault is noticed. -/
structure Decoded where
  characters : Text
  isWhole : Bool

def decode (bytes : List Nat) : Decoded :=
  match readFrom [] 0 none bytes with
  | (done, .whole) => ⟨done.reverse, true⟩
  | (done, .truncated) => ⟨done.reverse, false⟩
  | (_, .invalid index) =>
    let earlier := bytes.take (index / blockSize * blockSize)
    ⟨(readFrom [] 0 none earlier).1.reverse, false⟩

end LogQuery.Text.Utf8
