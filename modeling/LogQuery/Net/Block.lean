import LogQuery.Net.Address

/-!
Blocks of addresses: an address and a number of leading bits. The block holds the addresses with
the same leading bits; its bounds have the other bits cleared and set.
-/

namespace LogQuery.Net

structure Block where
  address : Address
  /-- How many leading bits are fixed; at most the width. -/
  bits : Nat
deriving DecidableEq, Repr

namespace Block

def size (b : Block) : Nat :=
  Nat.pow 2 (b.address.family.width - b.bits)

def first (b : Block) : Address :=
  ⟨b.address.family, b.address.value / b.size * b.size⟩

def last (b : Block) : Address :=
  ⟨b.address.family, b.address.value / b.size * b.size + (b.size - 1)⟩

/-- A number of leading bits: decimal digits of ASCII, at most the width. -/
def bits? (family : Family) (cs : Text) : Option Nat :=
  if cs.isEmpty || !cs.all CodePoint.isDigit || decide (Integer.maxDigits < cs.length) then none
  else if Integer.ofDigits cs ≤ family.width then some (Integer.ofDigits cs)
  else none

/-- Read an address, a slash and a number of leading bits. -/
def read? (address bits : Text) : Option Block := do
  let address ← Address.read? address
  let bits ← bits? address.family bits
  return ⟨address, bits⟩

end Block

end LogQuery.Net
