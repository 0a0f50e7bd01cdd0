import LogQuery.Proofs.Net.Address
import Mathlib.Data.List.Forall2
import Mathlib.Data.Nat.Digits.Defs

/-! How addresses are written. A text with points stands for four octets. One with colons stands for
eight groups of hexadecimal digits, and may leave out a run of zeros in one place. Of the texts that
do not mix both, just those are read, as the number whose groups they give. -/

namespace LogQuery.Net.Address

variable {cs : Text} {texts : List Text} {n : Nat} {values : List Nat}

/-! ## Octets -/

/-- One to three decimal digits without a leading zero, and the number up to 255 that they are. -/
structure IsOctet (cs : Text) (n : Nat) : Prop where
  nonempty : cs ≠ []
  length : cs.length ≤ 3
  digits : ∀ c ∈ cs, c.isDigit = true
  leading : cs.head? = some (.char '0') → cs.length = 1
  value : Integer.ofDigits cs = n
  le : n ≤ 255

theorem octet?_eq_some_iff : octet? cs = some n ↔ IsOctet cs n := by
  unfold octet?
  constructor
  · intro h
    split at h
    · cases h
    · rename_i hForm
      split at h
      · cases h
      · rename_i hLeading
        split at h
        · rename_i hLe
          simp only [Bool.or_eq_true, Bool.not_eq_true', List.isEmpty_iff, decide_eq_true_eq,
            not_or, Bool.not_eq_false, List.all_eq_true] at hForm
          obtain ⟨⟨hSome, hDigits⟩, hLength⟩ := hForm
          refine ⟨hSome, by omega, hDigits, fun hZero => ?_, Option.some.inj h,
            Option.some.inj h ▸ hLe⟩
          have hPos := List.length_pos_iff.mpr hSome
          have hOne : ¬1 < cs.length := fun hLong => hLeading (by simp [hLong, hZero])
          omega
        · cases h
  · rintro ⟨hSome, hLength, hDigits, hLeading, rfl, hLe⟩
    have hForm : ¬(cs.isEmpty || !cs.all CodePoint.isDigit || decide (3 < cs.length)) = true := by
      simpa [hSome] using ⟨hDigits, hLength⟩
    have hZero : ¬(decide (1 < cs.length) && cs.head? == some (.char '0')) = true := by
      simp only [Bool.and_eq_true, decide_eq_true_eq, beq_iff_eq, not_and]
      exact fun hLong hHead => absurd (hLeading hHead) (by omega)
    exact (if_neg hForm).trans ((if_neg hZero).trans (if_pos hLe))

/-- Four octets with points between them, and the number that they give. -/
inductive IsDotted : Text → Nat → Prop
  | octets {texts : List Text} {values : List Nat} (h : List.Forall₂ IsOctet texts values)
      (hLength : values.length = 4) :
      IsDotted (Text.join [.char '.'] texts) (ofGroups 256 values)

theorem notMem_of_isDigit {sep : CodePoint} (h : ∀ c ∈ cs, c.isDigit = true)
    (hSep : sep.isDigit = false) : sep ∉ cs :=
  fun hMem => Text.ne_of_class (h sep hMem) hSep rfl

theorem dotted?_eq_some_iff : dotted? cs = some n ↔ IsDotted cs n := by
  simp only [dotted?, bind, Option.bind_eq_some_iff, mapM_eq_some_iff, octet?_eq_some_iff]
  constructor
  · rintro ⟨values, hOctets, h⟩
    split at h
    · rename_i hLength
      cases h
      rw [← Text.join_splitOn '.' cs]
      exact .octets hOctets hLength
    · cases h
  · rintro ⟨h, hLength⟩
    rename_i texts values
    refine ⟨values, ?_, if_pos hLength⟩
    have hSome : texts ≠ [] := by
      rintro rfl
      cases h
      cases hLength
    rw [Text.splitOn_join hSome fun text hText => ?_]
    · exact h
    · obtain ⟨n, -, hOctet⟩ := exists_of_mem_forall₂ h.flip hText
      exact notMem_of_isDigit hOctet.digits (by decide)

/-! ## Groups -/

/-- The number that hexadecimal digits denote. -/
def ofHex (cs : Text) : Nat :=
  cs.foldl (fun n c => n * 16 + (Text.hexValue? c).getD 0) 0

/-- One to four hexadecimal digits, and the number that they are. -/
structure IsGroup (cs : Text) (n : Nat) : Prop where
  nonempty : cs ≠ []
  length : cs.length ≤ 4
  digits : IsHexText cs
  value : ofHex cs = n

theorem foldlM_hexValue? (h : IsHexText cs) (n : Nat) :
    cs.foldlM (fun n c => (Text.hexValue? c).map (n * 16 + ·)) n =
      some (cs.foldl (fun n c => n * 16 + (Text.hexValue? c).getD 0) n) := by
  induction cs generalizing n with
  | nil => rfl
  | cons c cs ih =>
      obtain ⟨hFirst, hRest⟩ := List.forall_mem_cons.mp h
      obtain ⟨digit, hDigit⟩ := Option.isSome_iff_exists.mp hFirst
      rw [List.foldlM_cons, hDigit, List.foldl_cons, hDigit]
      exact ih hRest (n * 16 + digit)

theorem group?_eq_some_iff : group? cs = some n ↔ IsGroup cs n := by
  unfold group?
  constructor
  · intro h
    split at h
    · cases h
    · rename_i hForm
      simp only [Bool.or_eq_true, List.isEmpty_iff, decide_eq_true_eq, not_or] at hForm
      have hHex := isHexText_of_foldlM h
      rw [foldlM_hexValue? hHex] at h
      exact ⟨hForm.1, by omega, hHex, Option.some.inj h⟩
  · rintro ⟨hSome, hLength, hHex, rfl⟩
    rw [if_neg (by simpa [hSome] using hLength), foldlM_hexValue? hHex]
    rfl

/-- Groups with colons between them, eight in all, of which one run of zeros may be left out between
two colons. -/
inductive IsColons : Text → Nat → Prop
  | full {texts : List Text} {values : List Nat} (h : List.Forall₂ IsGroup texts values)
      (hLength : values.length = 8) :
      IsColons (Text.join [.char ':'] texts) (ofGroups 65536 values)
  | gap {left right : List Text} {leftValues rightValues : List Nat} {count : Nat}
      (hLeft : List.Forall₂ IsGroup left leftValues)
      (hRight : List.Forall₂ IsGroup right rightValues) (hCount : 0 < count)
      (hLength : leftValues.length + count + rightValues.length = 8) :
      IsColons (Text.join [.char ':'] left ++ "::" ++ Text.join [.char ':'] right)
        (ofGroups 65536 (leftValues ++ List.replicate count 0 ++ rightValues))

/-! ## Pieces between colons -/

/-- A side of a gap as the pieces between colons show it. -/
def outer (side : List Text) : List Text :=
  if side = [] then [[]] else side

/-- The pieces around a gap, which is an empty piece. -/
def around (left right : List Text) : List Text :=
  outer left ++ [] :: outer right

/-- The value of the pieces between colons. -/
def ofPieces? (pieces : List Text) : Option Nat := do
  if 9 < pieces.length then none
  let first := pieces.headD []
  let last := pieces.getLastD []
  let middle := (pieces.drop 1).dropLast
  match Text.splitWhere List.isEmpty middle with
  | [_] =>
    let groups ← pieces.mapM group?
    if groups.length = 8 then some (ofGroups 65536 groups) else none
  | [left, right] =>
    let left ← besideGap? first (first :: left)
    let right ← besideGap? last (right ++ [last])
    if 7 < left.length + right.length then none
    let left ← left.mapM group?
    let right ← right.mapM group?
    let gap := List.replicate (8 - (left.length + right.length)) 0
    some (ofGroups 65536 (left ++ gap ++ right))
  | _ => none

theorem colons?_eq_bind (cs : Text) : colons? cs = (pieces? cs).bind ofPieces? := rfl

/-! ## The pieces of a gap -/

section Gap

variable {left right side kept pieces : List Text} {piece : Text}

theorem outer_ne_nil (side : List Text) : outer side ≠ [] := by
  unfold outer
  split
  · exact List.cons_ne_nil _ _
  · assumption

theorem join_outer (side : List Text) :
    Text.join [.char ':'] (outer side) = Text.join [.char ':'] side := by
  unfold outer
  split
  · rename_i hNone
    rw [hNone]
    rfl
  · rfl

/-- A gap shows as two colons. -/
theorem join_around (left right : List Text) :
    Text.join [.char ':'] (around left right) =
      Text.join [.char ':'] left ++ "::" ++ Text.join [.char ':'] right := by
  have hRight : Text.join [.char ':'] ([] :: outer right) =
      [.char ':'] ++ Text.join [.char ':'] right := by
    have hParts := @Text.join_append [.char ':'] [[]] _ (List.cons_ne_nil _ _) (outer_ne_nil right)
    rwa [Text.join_singleton, join_outer, List.nil_append] at hParts
  rw [around, Text.join_append (outer_ne_nil left) (List.cons_ne_nil _ _), join_outer, hRight]
  simp [Text.ofString]

theorem eq_outer_of_besideGap? (hPiece : piece ∈ side) (h : besideGap? piece side = some kept) :
    side = outer kept := by
  unfold besideGap? at h
  split at h
  · rename_i hEmpty
    split at h
    · rename_i hAlone
      cases h
      obtain ⟨only, rfl⟩ := List.length_eq_one_iff.mp hAlone
      rw [← List.mem_singleton.mp hPiece, List.isEmpty_iff.mp hEmpty]
      rfl
    · cases h
  · cases h
    rw [outer, if_neg (List.ne_nil_of_mem hPiece)]

theorem besideGap?_outer (hKept : ∀ text ∈ kept, text ≠ []) (hPiece : piece ∈ outer kept) :
    besideGap? piece (outer kept) = some kept := by
  by_cases hNone : kept = []
  · subst hNone
    rw [List.mem_singleton.mp hPiece]
    rfl
  · rw [outer, if_neg hNone] at hPiece ⊢
    rw [besideGap?, if_neg (by simpa using hKept piece hPiece)]

/-- The outermost pieces and what is between them. -/
theorem exists_middle (h : 2 ≤ pieces.length) :
    ∃ first middle last, pieces = first :: (middle ++ [last]) := by
  obtain ⟨first, rest, rfl⟩ := List.exists_cons_of_length_pos (by omega : 0 < pieces.length)
  have hRest : rest ≠ [] := by
    rintro rfl
    simp at h
  exact ⟨first, rest.dropLast, rest.getLast hRest, by rw [List.dropLast_concat_getLast]⟩

theorem isColons_of_ofPieces? (hLength : 3 ≤ pieces.length) (h : ofPieces? pieces = some n) :
    IsColons (Text.join [.char ':'] pieces) n := by
  obtain ⟨first, middle, last, rfl⟩ := exists_middle (by omega : 2 ≤ pieces.length)
  simp only [ofPieces?, bind] at h
  split at h
  · cases h
  · simp only [List.headD_cons, List.drop_succ_cons, List.drop_zero, List.dropLast_concat,
      List.getLastD_cons, List.getLastD_concat] at h
    split at h
    · -- no empty piece inside, and so no gap
      simp only [Option.bind_eq_some_iff, mapM_eq_some_iff, group?_eq_some_iff] at h
      obtain ⟨values, hGroups, h⟩ := h
      split at h
      · rename_i hEight
        cases h
        exact .full hGroups hEight
      · cases h
    · -- one empty piece inside, which is the gap
      rename_i left right hMiddle
      simp only [Option.bind_eq_some_iff] at h
      obtain ⟨keptLeft, hLeft, keptRight, hRight, h⟩ := h
      split at h
      · cases h
      · simp only [Option.bind_eq_some_iff, mapM_eq_some_iff, group?_eq_some_iff,
          Option.some.injEq] at h
        rename_i hCount
        obtain ⟨leftValues, hLeftGroups, rightValues, hRightGroups, rfl⟩ := h
        obtain ⟨gap, hGap, hBetween⟩ := Text.splitWhere_eq_pair hMiddle
        have hPieces : first :: (middle ++ [last]) = around keptLeft keptRight := by
          rw [around, ← eq_outer_of_besideGap? List.mem_cons_self hLeft,
            ← eq_outer_of_besideGap? (List.mem_append_right right (List.mem_singleton_self last))
              hRight, hBetween, List.isEmpty_iff.mp hGap]
          simp
        rw [hPieces, join_around]
        refine .gap hLeftGroups hRightGroups ?_ ?_
        all_goals
          rw [hLeftGroups.length_eq, hRightGroups.length_eq] at hCount
          omega
    · cases h

theorem ne_nil_of_groups {texts : List Text} (h : List.Forall₂ IsGroup texts values) :
    ∀ text ∈ texts, text ≠ [] := by
  intro text hText
  obtain ⟨n, -, hGroup⟩ := exists_of_mem_forall₂ h.flip hText
  exact hGroup.nonempty

theorem ofPieces?_groups (h : List.Forall₂ IsGroup pieces values) (hLength : values.length = 8) :
    ofPieces? pieces = some (ofGroups 65536 values) := by
  have hPieces : pieces.length = 8 := h.length_eq.trans hLength
  have hGroups : pieces.mapM group? = some values := by
    simpa only [mapM_eq_some_iff, group?_eq_some_iff] using h
  have hMiddle : Text.splitWhere List.isEmpty (pieces.drop 1).dropLast =
      [(pieces.drop 1).dropLast] := by
    refine Text.splitWhere_of_forall fun piece hPiece => ?_
    have hMem := List.mem_of_mem_drop (List.dropLast_subset _ hPiece)
    simpa using ne_nil_of_groups h piece hMem
  simp only [ofPieces?, hPieces, hMiddle, hGroups, hLength, bind, Option.bind_some]
  rfl

/-- Of the pieces on one side of a gap, none but the outermost can be empty. -/
theorem ne_nil_of_outer (hSide : ∀ text ∈ side, text ≠ []) {texts : List Text}
    (hTexts : texts.Sublist (outer side)) (hProper : texts.length < (outer side).length) :
    ∀ text ∈ texts, text ≠ [] := by
  unfold outer at hTexts hProper
  split at hTexts
  · intro text hText
    have hPos := List.length_pos_of_mem hText
    simp_all
  · exact fun text hText => hSide text (hTexts.subset hText)

theorem ofPieces?_around {leftValues rightValues : List Nat} {count : Nat}
    (hLeft : List.Forall₂ IsGroup left leftValues)
    (hRight : List.Forall₂ IsGroup right rightValues) (hCount : 0 < count)
    (hLength : leftValues.length + count + rightValues.length = 8) :
    ofPieces? (around left right) =
      some (ofGroups 65536 (leftValues ++ List.replicate count 0 ++ rightValues)) := by
  have hLeftSome := ne_nil_of_groups hLeft
  have hRightSome := ne_nil_of_groups hRight
  obtain ⟨first, front, hFirst⟩ := List.exists_cons_of_ne_nil (outer_ne_nil left)
  obtain ⟨back, last, hLast⟩ :=
    (List.eq_nil_or_concat' (outer right)).resolve_left (outer_ne_nil right)
  have hPieces : around left right = first :: ((front ++ [] :: back) ++ [last]) := by
    rw [around, hFirst, hLast]
    simp
  have hFront : ∀ text ∈ front, text ≠ [] :=
    ne_nil_of_outer hLeftSome (hFirst ▸ List.sublist_cons_self first front) (by simp [hFirst])
  have hBack : ∀ text ∈ back, text ≠ [] :=
    ne_nil_of_outer hRightSome (hLast ▸ List.sublist_append_left back [last]) (by simp [hLast])
  have hMiddle : Text.splitWhere List.isEmpty (front ++ [] :: back) = [front, back] := by
    rw [Text.splitWhere_append_cons (by simpa using hFront) rfl,
      Text.splitWhere_of_forall (by simpa using hBack)]
  have hKeptLeft : besideGap? first (first :: front) = some left := by
    rw [← hFirst]
    exact besideGap?_outer hLeftSome (hFirst ▸ List.mem_cons_self)
  have hKeptRight : besideGap? last (back ++ [last]) = some right := by
    rw [← hLast]
    exact besideGap?_outer hRightSome (hLast ▸ by simp)
  have hLeftValues : left.mapM group? = some leftValues := by
    simpa only [mapM_eq_some_iff, group?_eq_some_iff] using hLeft
  have hRightValues : right.mapM group? = some rightValues := by
    simpa only [mapM_eq_some_iff, group?_eq_some_iff] using hRight
  have hFew : ¬9 < (around left right).length := by
    have hOuter : ∀ side : List Text, (outer side).length ≤ max side.length 1 := by
      intro side
      unfold outer
      split
      · exact Nat.le_max_right _ _
      · exact Nat.le_max_left _ _
    have hLeftFew := hLeft.length_eq ▸ hOuter left
    have hRightFew := hRight.length_eq ▸ hOuter right
    rw [around, List.length_append, List.length_cons]
    omega
  have hSpare : ¬7 < left.length + right.length := by
    rw [hLeft.length_eq, hRight.length_eq]
    omega
  have hGap : 8 - (leftValues.length + rightValues.length) = count := by omega
  rw [ofPieces?, if_neg hFew, hPieces]
  simp only [List.headD_cons, List.drop_succ_cons, List.drop_zero, List.dropLast_concat,
    List.getLastD_cons, List.getLastD_concat, hMiddle, hKeptLeft, hKeptRight, bind,
    Option.bind_some, if_neg hSpare, hLeftValues, hRightValues, hGap]

end Gap

/-! ## Whole texts -/

theorem colon_notMem_of_groups (h : List.Forall₂ IsGroup texts values) :
    ∀ text ∈ texts, .char ':' ∉ text := by
  intro text hText
  obtain ⟨n, -, hGroup⟩ := exists_of_mem_forall₂ h.flip hText
  exact fun hc => absurd (hGroup.digits _ hc) (by decide)

theorem isColonChar_of_groups (h : List.Forall₂ IsGroup texts values) :
    ∀ c ∈ Text.join [.char ':'] texts, Text.isHex c = true ∨ c = .char ':' := by
  intro c hc
  refine (Text.mem_join hc).symm.imp_left ?_
  rintro ⟨text, hText, hMem⟩
  obtain ⟨n, -, hGroup⟩ := exists_of_mem_forall₂ h.flip hText
  exact hGroup.digits c hMem

theorem IsColons.chars (h : IsColons cs n) : ∀ c ∈ cs, Text.isHex c = true ∨ c = .char ':' := by
  intro c hc
  cases h with
  | full hGroups => exact isColonChar_of_groups hGroups c hc
  | gap hLeft hRight =>
      simp only [List.mem_append] at hc
      rcases hc with (hc | hc) | hc
      · exact isColonChar_of_groups hLeft c hc
      · refine .inr ?_
        revert hc
        simp [Text.ofString]
      · exact isColonChar_of_groups hRight c hc

theorem IsColons.notMem (h : IsColons cs n) {c : CodePoint} (hHex : Text.isHex c = false)
    (hColon : c ≠ .char ':') : c ∉ cs := by
  intro hc
  rcases h.chars c hc with hChar | hChar
  · exact Text.ne_of_class hChar hHex rfl
  · exact hColon hChar

theorem IsColons.colon_mem (h : IsColons cs n) : .char ':' ∈ cs := by
  cases h with
  | @full texts _ hGroups hLength =>
      match texts, hGroups.length_eq.trans hLength with
      | first :: second :: rest, _ =>
          rw [Text.join_sep_cons_cons]
          exact List.mem_append_right first List.mem_cons_self
  | gap => simp [Text.ofString]

theorem IsDotted.colon_notMem (h : IsDotted cs n) : .char ':' ∉ cs := by
  obtain ⟨hOctets, -⟩ := h
  intro hc
  rcases Text.mem_join hc with hPoint | ⟨text, hText, hMem⟩
  · exact absurd hPoint (by decide)
  · obtain ⟨n, -, hOctet⟩ := exists_of_mem_forall₂ hOctets.flip hText
    exact notMem_of_isDigit hOctet.digits (by decide) hMem

/-- Without points there is no dotted form at the end. -/
theorem pieces?_of_notMem (hPoint : .char '.' ∉ cs) :
    pieces? cs =
      if (Text.splitOn ':' cs).length < 3 then none else some (Text.splitOn ':' cs) := by
  have hLast : ((Text.splitOn ':' cs).getLastD []).contains (.char '.') = false := by
    obtain ⟨front, last, hPieces⟩ :=
      (List.eq_nil_or_concat' (Text.splitOn ':' cs)).resolve_left (Text.splitWhere_ne_nil _ cs)
    have hMem : last ∈ Text.splitOn ':' cs := by simp [hPieces]
    rw [hPieces, List.getLastD_concat]
    simpa using fun hc => hPoint (Text.mem_of_mem_splitWhere hMem hc)
  rw [pieces?]
  simp only [hLast]
  rfl

theorem colons?_of_isColons (h : IsColons cs n) : colons? cs = some n := by
  have hPieces {pieces : List Text} (hLength : 3 ≤ pieces.length)
      (hColon : ∀ piece ∈ pieces, .char ':' ∉ piece)
      (hJoin : cs = Text.join [.char ':'] pieces) : pieces? cs = some pieces := by
    have hSome : pieces ≠ [] := by
      rintro rfl
      cases hLength
    rw [pieces?_of_notMem (h.notMem (by decide) (by decide)), hJoin,
      Text.splitOn_join hSome hColon, if_neg (by omega)]
  rw [colons?_eq_bind]
  cases h with
  | @full texts values hGroups hLength =>
      have hEight := hGroups.length_eq.trans hLength
      rw [hPieces (by omega) (colon_notMem_of_groups hGroups) rfl, Option.bind_some,
        ofPieces?_groups hGroups hLength]
  | @gap left right _ _ _ hLeft hRight hCount hLength =>
      have hOuter {side : List Text} {values : List Nat} (h : List.Forall₂ IsGroup side values) :
          ∀ piece ∈ outer side, .char ':' ∉ piece := by
        unfold outer
        split
        · simp
        · exact colon_notMem_of_groups h
      have hColon : ∀ piece ∈ around left right, .char ':' ∉ piece := by
        rw [around, List.forall_mem_append, List.forall_mem_cons]
        exact ⟨hOuter hLeft, List.not_mem_nil, hOuter hRight⟩
      have hThree : 3 ≤ (around left right).length := by
        have hLeftPos := List.length_pos_iff.mpr (outer_ne_nil left)
        have hRightPos := List.length_pos_iff.mpr (outer_ne_nil right)
        rw [around, List.length_append, List.length_cons]
        omega
      rw [hPieces hThree hColon (join_around left right).symm, Option.bind_some,
        ofPieces?_around hLeft hRight hCount hLength]

theorem isColons_of_colons? (hPoint : .char '.' ∉ cs) (h : colons? cs = some n) :
    IsColons cs n := by
  rw [colons?_eq_bind, pieces?_of_notMem hPoint] at h
  split at h
  · cases h
  · rw [← Text.join_splitOn ':' cs]
    exact isColons_of_ofPieces? (by omega) h

/-! ## Reading -/

/-- How a text without a zone, and without points beside colons, stands for an address. -/
inductive Spells : Text → Address → Prop
  | dotted {cs : Text} {n : Nat} (h : IsDotted cs n) : Spells cs ⟨.v4, n⟩
  | colons {cs : Text} {n : Nat} (h : IsColons cs n) : Spells cs ⟨.v6, n⟩

theorem read?_of_spells {a : Address} (h : Spells cs a) : read? cs = some a := by
  unfold read?
  cases h with
  | dotted h => rw [dotted?_eq_some_iff.mpr h]
  | colons h =>
      have hDotted : dotted? cs = none := by
        rw [Option.eq_none_iff_forall_ne_some]
        exact fun n hn => (dotted?_eq_some_iff.mp hn).colon_notMem h.colon_mem
      rw [hDotted, colons?_of_isColons h]
      rfl

/-- Of the texts that do not mix points and colons, just those are read that spell an address. -/
theorem read?_eq_some_iff {a : Address} (hOne : .char '.' ∈ cs → .char ':' ∉ cs) :
    read? cs = some a ↔ Spells cs a := by
  refine ⟨fun h => ?_, read?_of_spells⟩
  unfold read? at h
  split at h
  · rename_i n hDotted
    cases h
    exact .dotted (dotted?_eq_some_iff.mp hDotted)
  · obtain ⟨n, hColons, rfl⟩ := Option.map_eq_some_iff.mp h
    refine .colons (isColons_of_colons? (fun hPoint => ?_) hColons)
    -- without a colon the text is a single piece
    have hPieces : pieces? cs = none := by
      rw [pieces?, Text.splitOn,
        Text.splitWhere_of_forall (Text.beq_eq_false_of_not_mem (hOne hPoint))]
      rfl
    rw [colons?_eq_bind, hPieces] at hColons
    cases hColons

/-! ## Values -/

/-- Digits in a row, the highest first, are the digits of a number. -/
theorem foldl_eq_ofDigits {α : Type} (digit : α → Nat) (size : Nat) (as : List α) :
    as.foldl (fun n a => n * size + digit a) 0 = Nat.ofDigits size (as.map digit).reverse := by
  rw [List.foldl_eq_foldr_reverse, Nat.ofDigits_eq_foldr, ← List.map_reverse, List.foldr_map]
  simp only [Nat.cast_id, Nat.add_comm, Nat.mul_comm]

theorem ofGroups_eq_ofDigits (size : Nat) (gs : List Nat) :
    ofGroups size gs = Nat.ofDigits size gs.reverse := by
  rw [ofGroups, foldl_eq_ofDigits fun g => g, List.map_id']

theorem ofHex_eq_ofDigits (cs : Text) :
    ofHex cs = Nat.ofDigits 16 (cs.map fun c => (Text.hexValue? c).getD 0).reverse :=
  foldl_eq_ofDigits _ 16 cs

theorem ofGroups_lt {size : Nat} (hSize : 1 < size) (h : ∀ g ∈ values, g < size) :
    ofGroups size values < size ^ values.length := by
  rw [ofGroups_eq_ofDigits, ← List.length_reverse]
  exact Nat.ofDigits_lt_base_pow_length hSize (by simpa using h)

theorem hexValue?_getD_lt (c : CodePoint) : (Text.hexValue? c).getD 0 < 16 := by
  cases hValue : Text.hexValue? c with
  | none => decide
  | some digit =>
      have hAll : ∀ n < 128, (Text.hexValue? (.ofNat n)).getD 0 < 16 := by decide
      have hLt := hAll c.toNat (Text.toNat_lt_of_isHex (by rw [Text.isHex, hValue]; rfl))
      rwa [CodePoint.ofNat_toNat, hValue] at hLt

theorem IsGroup.lt (h : IsGroup cs n) : n < 65536 := by
  have hDigits : ∀ digit ∈ (cs.map fun c => (Text.hexValue? c).getD 0).reverse, digit < 16 := by
    simpa using fun c (_ : c ∈ cs) => hexValue?_getD_lt c
  calc n = ofHex cs := h.value.symm
    _ < 16 ^ cs.length := by
        simpa [ofHex_eq_ofDigits] using Nat.ofDigits_lt_base_pow_length (by decide) hDigits
    _ ≤ 16 ^ 4 := Nat.pow_le_pow_right (by decide) h.length

theorem lt_of_groups (h : List.Forall₂ IsGroup texts values) : ∀ g ∈ values, g < 65536 := by
  intro g hg
  obtain ⟨text, -, hGroup⟩ := exists_of_mem_forall₂ h hg
  exact hGroup.lt

theorem lt_of_octets (h : List.Forall₂ IsOctet texts values) : ∀ g ∈ values, g < 256 := by
  intro g hg
  obtain ⟨text, -, hOctet⟩ := exists_of_mem_forall₂ h hg
  exact Nat.lt_succ_of_le hOctet.le

theorem length_of_gap {left right : List Nat} {count : Nat}
    (h : left.length + count + right.length = 8) :
    (left ++ List.replicate count 0 ++ right).length = 8 := by
  rwa [List.length_append, List.length_append, List.length_replicate]

theorem lt_of_gap {left right : List Text} {leftValues rightValues : List Nat}
    (hLeft : List.Forall₂ IsGroup left leftValues)
    (hRight : List.Forall₂ IsGroup right rightValues) (count : Nat) :
    ∀ g ∈ leftValues ++ List.replicate count 0 ++ rightValues, g < 65536 := by
  simp only [List.forall_mem_append]
  refine ⟨⟨lt_of_groups hLeft, fun g hg => ?_⟩, lt_of_groups hRight⟩
  rw [(List.mem_replicate.mp hg).2]
  decide

/-- The address is within the width of its family. -/
def IsProper (a : Address) : Prop :=
  a.value < 2 ^ a.family.width

theorem Spells.isProper {a : Address} (h : Spells cs a) : a.IsProper := by
  unfold IsProper
  cases h with
  | dotted h =>
      obtain ⟨hOctets, hLength⟩ := h
      have hLt := ofGroups_lt (by decide) (lt_of_octets hOctets)
      rwa [hLength] at hLt
  | colons h =>
      cases h with
      | full hGroups hLength =>
          have hLt := ofGroups_lt (by decide) (lt_of_groups hGroups)
          rwa [hLength] at hLt
      | @gap _ _ _ _ count hLeft hRight hCount hLength =>
          have hLt := ofGroups_lt (by decide) (lt_of_gap hLeft hRight count)
          rwa [length_of_gap hLength] at hLt

end LogQuery.Net.Address
