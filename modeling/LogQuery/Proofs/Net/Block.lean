import LogQuery.Net.Block
import LogQuery.Proofs.Net.Canonical

/-! The bounds of a block of addresses. They have the same leading bits as its address and the other
bits cleared or set, and just the addresses with these leading bits lie between them. -/

namespace LogQuery.Net

/-- Two addresses of one family have the same leading bits. -/
def Address.SameLeading (bits : Nat) (a b : Address) : Prop :=
  a.family = b.family ∧ ∀ i < a.family.width, a.family.width - bits ≤ i →
    a.value.testBit i = b.value.testBit i

namespace Block

/-- Two addresses bound the block of those that have the same leading bits as a given one. In the
first the other bits are cleared and in the last they are set, there are as many addresses from one
to the other as these bits allow, and just those of the block lie between them. -/
structure Bounds (a : Address) (bits : Nat) (first last : Address) : Prop where
  firstFamily : first.family = a.family
  lastFamily : last.family = a.family
  cleared : ∀ i, first.value.testBit i =
    (decide (a.family.width - bits ≤ i) && a.value.testBit i)
  set : ∀ i, last.value.testBit i =
    (decide (i < a.family.width - bits) || a.value.testBit i)
  le : first.value ≤ a.value
  ge : a.value ≤ last.value
  count : last.value - first.value + 1 = 2 ^ (a.family.width - bits)
  between : ∀ b : Address, b.family = a.family → b.IsProper →
    (first.value ≤ b.value ∧ b.value ≤ last.value ↔ a.SameLeading bits b)

/-! ## Bits -/

theorem testBit_first (b : Block) (i : Nat) : b.first.value.testBit i =
    (decide (b.address.family.width - b.bits ≤ i) && b.address.value.testBit i) := by
  change (b.address.value / 2 ^ (b.address.family.width - b.bits) *
    2 ^ (b.address.family.width - b.bits)).testBit i = _
  generalize b.address.family.width - b.bits = k
  rw [Nat.testBit_mul_two_pow, Nat.testBit_div_two_pow]
  by_cases h : k ≤ i
  · rw [Nat.sub_add_cancel h]
  · simp [h]

theorem testBit_last (b : Block) (i : Nat) : b.last.value.testBit i =
    (decide (i < b.address.family.width - b.bits) || b.address.value.testBit i) := by
  change (b.address.value / 2 ^ (b.address.family.width - b.bits) *
    2 ^ (b.address.family.width - b.bits) +
      (2 ^ (b.address.family.width - b.bits) - 1)).testBit i = _
  generalize b.address.family.width - b.bits = k
  rw [Nat.mul_comm, Nat.testBit_two_pow_mul_add _ (Nat.sub_lt (Nat.two_pow_pos k) Nat.one_pos),
    Nat.testBit_two_pow_sub_one, Nat.testBit_div_two_pow]
  by_cases h : i < k
  · simp [h]
  · rw [if_neg h, Nat.sub_add_cancel (Nat.le_of_not_lt h)]
    simp [h]

/-- Numbers of one width have the same leading bits if they differ by what is left of a division
alone. -/
theorem div_two_pow_eq_iff {width m n : Nat} (hm : m < 2 ^ width) (hn : n < 2 ^ width) (k : Nat) :
    m / 2 ^ k = n / 2 ^ k ↔ ∀ i < width, k ≤ i → m.testBit i = n.testBit i := by
  constructor
  · intro h i _ hi
    have hBits := congrArg (Nat.testBit · (i - k)) h
    simpa only [Nat.testBit_div_two_pow, Nat.sub_add_cancel hi] using hBits
  · intro h
    refine Nat.eq_of_testBit_eq fun i => ?_
    rw [Nat.testBit_div_two_pow, Nat.testBit_div_two_pow]
    by_cases hi : i + k < width
    · exact h (i + k) hi (Nat.le_add_left k i)
    · have hPow := Nat.pow_le_pow_right (by decide : 0 < 2) (Nat.le_of_not_lt hi)
      rw [Nat.testBit_lt_two_pow (Nat.lt_of_lt_of_le hm hPow),
        Nat.testBit_lt_two_pow (Nat.lt_of_lt_of_le hn hPow)]

/-! ## Bounds -/

variable {b : Block}

theorem size_pos (b : Block) : 0 < b.size :=
  Nat.two_pow_pos _

theorem bounds (h : b.address.IsProper) : Bounds b.address b.bits b.first b.last where
  firstFamily := rfl
  lastFamily := rfl
  cleared := b.testBit_first
  set := b.testBit_last
  le := Nat.div_mul_le_self b.address.value b.size
  ge := by
    have hParts := Nat.div_add_mod' b.address.value b.size
    have hRest := Nat.mod_lt b.address.value b.size_pos
    change b.address.value ≤ b.address.value / b.size * b.size + (b.size - 1)
    omega
  count := by
    change b.address.value / b.size * b.size + (b.size - 1) -
      b.address.value / b.size * b.size + 1 = b.size
    have hPos := b.size_pos
    omega
  between c hFamily hProper := by
    have hOther : c.value < 2 ^ b.address.family.width := hFamily ▸ hProper
    have hBlock : b.first.value ≤ c.value ∧ c.value ≤ b.last.value ↔
        c.value / b.size = b.address.value / b.size := by
      rw [Nat.div_eq_iff b.size_pos, Nat.add_sub_assoc b.size_pos]
      rfl
    rw [hBlock, Address.SameLeading, ← div_two_pow_eq_iff h hOther, and_iff_right hFamily.symm]
    exact eq_comm

/-- No bound is outside the width of the family. -/
theorem isProper_last (h : b.address.IsProper) : b.last.IsProper := by
  refine Nat.lt_pow_two_of_testBit _ fun i hi => ?_
  have hWidth : b.address.family.width ≤ i := hi
  have hPow := Nat.pow_le_pow_right (by decide : 0 < 2) hWidth
  rw [testBit_last, Nat.testBit_lt_two_pow (Nat.lt_of_lt_of_le h hPow)]
  simp only [Bool.or_false, decide_eq_false_iff_not]
  omega

theorem isProper_first (h : b.address.IsProper) : b.first.IsProper :=
  Nat.lt_of_le_of_lt (bounds h).le h

end Block

end LogQuery.Net
