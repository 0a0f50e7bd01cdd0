import LogQuery.Proofs.Net.Block
import LogQuery.Proofs.Token.Paths
import LogQuery.Token.Recognizer

/-! Bounds of the blocks of addresses that tokens stand for. A token is claimed exactly if its
address, filled up with zeros if it lacks groups, can be read and has so many leading bits. The field
is then bounded by the first and the last address with these bits, in their canonical texts. -/

namespace LogQuery.Token

/-- A value with a slash between an address and a number of leading bits. -/
def blockValue (body bits : Text) : Text :=
  body ++ .char '/' :: bits

/-- A token with such a value under a path. -/
def blockToken (path body bits : Text) : Text :=
  path ++ .char ':' :: blockValue body bits

namespace AddressBlock

open Net Recognizer

variable {field written full bits : Text} {groups : List Text} {family : Family} {n : Nat}

/-! ## Forms of tokens -/

/-- One to three decimal digits, of whatever script and value. -/
structure IsShortGroup (cs : Text) : Prop where
  nonempty : cs ≠ []
  length : cs.length ≤ 3
  digits : ∀ c ∈ cs, Text.isDecimal c = true

/-- What looks like an address before a slash, and the same in full. Two to four groups of digits with
points between them are made four with zeros at the end. Hexadecimal digits and colons, in whatever
order, stay as they are. -/
inductive IsForm : Text → Text → Prop
  | points {groups : List Text} (hTwo : 2 ≤ groups.length) (hFour : groups.length ≤ 4)
      (hGroups : ∀ group ∈ groups, IsShortGroup group) :
      IsForm (Text.join [.char '.'] groups)
        (Text.join [.char '.'] (groups ++ List.replicate (4 - groups.length) ("0" : Text)))
  | colons {cs : Text} (h : ∀ c ∈ cs, Text.isHex c = true ∨ c = .char ':') : IsForm cs cs

/-- Digits of a number of leading bits: at most so many digits as are read, and a number within the
width of the family. -/
structure IsBits (family : Family) (cs : Text) (n : Nat) : Prop where
  nonempty : cs ≠ []
  length : cs.length ≤ Integer.maxDigits
  digits : ∀ c ∈ cs, c.isDigit = true
  value : Integer.ofDigits cs = n
  le : n ≤ family.width

theorem bits?_eq_some_iff : Block.bits? family bits = some n ↔ IsBits family bits n := by
  unfold Block.bits?
  constructor
  · intro h
    split at h
    · cases h
    · rename_i hForm
      split at h
      · rename_i hLe
        simp only [Bool.or_eq_true, Bool.not_eq_true', List.isEmpty_iff, decide_eq_true_eq, not_or,
          Bool.not_eq_false, List.all_eq_true] at hForm
        obtain ⟨⟨hSome, hDigits⟩, hLength⟩ := hForm
        exact ⟨hSome, Nat.le_of_not_lt hLength, hDigits, Option.some.inj h,
          Option.some.inj h ▸ hLe⟩
      · cases h
  · rintro ⟨hSome, hLength, hDigits, rfl, hLe⟩
    rw [if_neg (by simpa [hSome] using ⟨hDigits, hLength⟩), if_pos hLe]

theorem blockRead?_eq_some_iff (hOne : .char '.' ∈ full → .char ':' ∉ full) {block : Block} :
    Block.read? full bits = some block ↔
      Address.Spells full block.address ∧ IsBits block.address.family bits block.bits := by
  rw [← Address.read?_eq_some_iff hOne, ← bits?_eq_some_iff]
  simp only [Block.read?, bind, Option.bind_eq_some_iff, pure, Option.some.injEq]
  constructor
  · rintro ⟨a, ha, n, hn, rfl⟩
    exact ⟨ha, hn⟩
  · rintro ⟨ha, hn⟩
    exact ⟨block.address, ha, block.bits, hn, rfl⟩

/-! ## Reading the address -/

theorem isShortGroup_iff {cs : Text} : isShortGroup cs = true ↔ IsShortGroup cs := by
  simp only [isShortGroup, Bool.and_eq_true, Bool.not_eq_true', List.isEmpty_eq_false_iff,
    decide_eq_true_eq, List.all_eq_true]
  exact ⟨fun ⟨⟨hSome, hLength⟩, hDigits⟩ => ⟨hSome, hLength, hDigits⟩,
    fun ⟨hSome, hLength, hDigits⟩ => ⟨⟨hSome, hLength⟩, hDigits⟩⟩

theorem IsShortGroup.notMem {cs : Text} (h : IsShortGroup cs) {c : CodePoint}
    (hc : Text.isDecimal c = false) : c ∉ cs :=
  fun hMem => Text.ne_of_class (h.digits c hMem) hc rfl

theorem fullAddress?_points (hTwo : 2 ≤ groups.length) (hFour : groups.length ≤ 4)
    (hGroups : ∀ group ∈ groups, IsShortGroup group) :
    fullAddress? (Text.join [.char '.'] groups) =
      some (Text.join [.char '.'] (groups ++ List.replicate (4 - groups.length) ("0" : Text))) := by
  have hSome : groups ≠ [] := by
    rintro rfl
    cases hTwo
  have hParts : Text.splitOn '.' (Text.join [.char '.'] groups) = groups :=
    Text.splitOn_join hSome fun group hGroup => (hGroups group hGroup).notMem (by decide)
  have hDotted : isDotted groups = true := by
    simp only [isDotted, Bool.and_eq_true, decide_eq_true_eq, List.all_eq_true, isShortGroup_iff]
    exact ⟨⟨hTwo, hFour⟩, hGroups⟩
  rw [fullAddress?, hParts]
  simp only [hDotted, pad, Address.between_eq_join, if_true]

theorem fullAddress?_colons {cs : Text} (hSome : cs ≠ [])
    (h : ∀ c ∈ cs, Text.isHex c = true ∨ c = .char ':') : fullAddress? cs = some cs := by
  have hPoint : .char '.' ∉ cs := fun hMem => by
    rcases h _ hMem with hHex | hColon
    · exact absurd hHex (by decide)
    · exact absurd hColon (by decide)
  have hParts : Text.splitOn '.' cs = [cs] :=
    Text.splitWhere_of_forall (Text.beq_eq_false_of_not_mem hPoint)
  have hColons : isColonForm cs = true := by
    simpa [isColonForm, hSome] using h
  rw [fullAddress?, hParts]
  simp [isDotted, hColons]

theorem IsForm.notMem (h : IsForm written full) {c : CodePoint} (hPoint : c ≠ .char '.')
    (hColon : c ≠ .char ':') (hDecimal : Text.isDecimal c = false) (hHex : Text.isHex c = false) :
    c ∉ written := by
  intro hc
  cases h with
  | points _ _ hGroups =>
      rcases Text.mem_join hc with hc | ⟨group, hGroup, hMem⟩
      · exact hPoint hc
      · exact (hGroups group hGroup).notMem hDecimal hMem
  | colons h =>
      rcases h c hc with hChar | hChar
      · exact Text.ne_of_class hChar hHex rfl
      · exact hColon hChar

/-- No address in full mixes points and colons. -/
theorem IsForm.colon_notMem (h : IsForm written full) (hPoint : .char '.' ∈ full) :
    .char ':' ∉ full := by
  cases h with
  | points _ _ hGroups =>
      intro hc
      rcases Text.mem_join hc with hc | ⟨group, hGroup, hMem⟩
      · exact absurd hc (by decide)
      · rcases List.mem_append.mp hGroup with hGroup | hZero
        · exact (hGroups group hGroup).notMem (by decide) hMem
        · rw [(List.mem_replicate.mp hZero).2] at hMem
          exact absurd hMem (by decide)
  | colons h =>
      rcases h _ hPoint with hChar | hChar
      · exact absurd hChar (by decide)
      · exact absurd hChar (by decide)

theorem block?_form (h : IsForm written full) :
    block? (blockValue written bits) = Block.read? full bits := by
  have hSlash : .char '/' ∉ written :=
    h.notMem (by decide) (by decide) (by decide) (by decide)
  have hParts : Text.partition '/' (blockValue written bits) = (written, bits) := by
    rw [Text.partition, blockValue,
      Text.splitFirst_append_cons (Text.beq_eq_false_of_not_mem hSlash) rfl]
    rfl
  simp only [block?, hParts]
  cases h with
  | points hTwo hFour hGroups => rw [fullAddress?_points hTwo hFour hGroups]; rfl
  | colons h =>
      by_cases hSome : written = []
      · subst hSome
        rfl
      · rw [fullAddress?_colons hSome h]
        rfl

theorem condition?_form (hField : field ≠ []) (hColon : .char ':' ∉ field)
    (h : IsForm written full) :
    condition? (blockToken field written bits) =
      (Block.read? full bits).map fun block =>
        Clause.range field [("gte", .str block.first.text), ("lte", .str block.last.text)] := by
  rw [condition?, blockToken, fieldAndValue?_path hField hColon (by simp [blockValue])]
  simp only [Option.bind_eq_bind, Option.bind_some, block?_form h]
  cases Block.read? full bits <;> rfl

/-! ## Claimed blocks -/

/-- A token with a slash after what looks like an address

* is declined exactly if the address in full stands for no address or if the digits after the slash
  are no number of its leading bits;
* otherwise bounds the field by canonical texts that are read as the first and the last address with
  these leading bits. -/
theorem expand_block (around : Surroundings) (depth : Json) (hField : field ≠ [])
    (hColon : .char ':' ∉ field) (hForm : IsForm written full) :
    (expandStock around depth .ip (blockToken field written bits) = .done none ↔
        ¬∃ a n, Address.Spells full a ∧ IsBits a.family bits n) ∧
      ∀ a n, Address.Spells full a → IsBits a.family bits n → ∃ first last low high,
        expandStock around depth .ip (blockToken field written bits) =
            .done (some [Piece.ofCondition
              (Clause.range field [("gte", .str low), ("lte", .str high)])]) ∧
          Address.IsCanonical low first ∧ Address.read? low = some first ∧
          Address.IsCanonical high last ∧ Address.read? high = some last ∧
          Block.Bounds a n first last := by
  have hExpand : expandStock around depth .ip (blockToken field written bits) =
      .done (conditionPiece ((Block.read? full bits).map fun block =>
        Clause.range field [("gte", .str block.first.text), ("lte", .str block.last.text)])) := by
    rw [expandStock, condition?_form hField hColon hForm]
  have hRead := @blockRead?_eq_some_iff full bits hForm.colon_notMem
  constructor
  · rw [hExpand]
    constructor
    · rintro hNone ⟨a, n, hSpells, hBits⟩
      rw [(@hRead ⟨a, n⟩).mpr ⟨hSpells, hBits⟩] at hNone
      cases hNone
    · intro hNot
      cases hBlock : Block.read? full bits with
      | none => rfl
      | some block => exact absurd ⟨_, _, hRead.mp hBlock⟩ hNot
  · intro a n hSpells hBits
    have hProper := hSpells.isProper
    have hFirst := @Block.isProper_first ⟨a, n⟩ hProper
    have hLast := @Block.isProper_last ⟨a, n⟩ hProper
    refine ⟨Block.first ⟨a, n⟩, Block.last ⟨a, n⟩, _, _, ?_, Address.isCanonical_text hFirst,
      Address.read?_text hFirst, Address.isCanonical_text hLast, Address.read?_text hLast,
      @Block.bounds ⟨a, n⟩ hProper⟩
    rw [hExpand, (@hRead ⟨a, n⟩).mpr ⟨hSpells, hBits⟩]
    rfl

/-- A short form that is filled up, and the bounds of its block. -/
theorem expand_block_ten :
    expandStock ⟨.empty, .obj [], none⟩ (.int 0) .ip (blockToken "src_ip" "10.9" "8") =
        .done (some [Piece.ofCondition (Clause.range "src_ip"
          [("gte", .str "10.0.0.0"), ("lte", .str "10.255.255.255")])]) ∧
      Block.Bounds ⟨.v4, 10 * 2 ^ 24 + 9 * 2 ^ 16⟩ 8 ⟨.v4, 10 * 2 ^ 24⟩ ⟨.v4, 11 * 2 ^ 24 - 1⟩ := by
  have hForm : IsForm "10.9" "10.9.0.0" :=
    @IsForm.points ["10", "9"] (by decide) (by decide)
      (by simpa only [← isShortGroup_iff] using by decide)
  have hSpells : Address.Spells "10.9.0.0" ⟨.v4, 10 * 2 ^ 24 + 9 * 2 ^ 16⟩ :=
    (Address.read?_eq_some_iff (by decide)).mp (by decide)
  have hBits : IsBits .v4 "8" 8 := bits?_eq_some_iff.mp (by decide)
  have hRead : expandStock ⟨.empty, .obj [], none⟩ (.int 0) .ip (blockToken "src_ip" "10.9" "8") =
      .done (some [Piece.ofCondition (Clause.range "src_ip"
        [("gte", .str "10.0.0.0"), ("lte", .str "10.255.255.255")])]) := rfl
  have hField : ("src_ip" : Text) ≠ [] := by decide
  have hColon : .char ':' ∉ ("src_ip" : Text) := by decide
  obtain ⟨first, last, low, high, hExpand, -, hLow, -, hHigh, hBounds⟩ :=
    (expand_block ⟨.empty, .obj [], none⟩ (.int 0) hField hColon hForm).2 _ _ hSpells hBits
  cases hRead.symm.trans hExpand
  cases (by decide : Address.read? "10.0.0.0" = some ⟨.v4, 10 * 2 ^ 24⟩).symm.trans hLow
  cases (by decide : Address.read? "10.255.255.255" = some ⟨.v4, 11 * 2 ^ 24 - 1⟩).symm.trans hHigh
  exact ⟨hRead, hBounds⟩

end AddressBlock

end LogQuery.Token
