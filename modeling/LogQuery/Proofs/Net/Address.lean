import LogQuery.Net.Address
import LogQuery.Proofs.Result
import LogQuery.Proofs.Text.Split

/-! The characters of addresses. A text that is read as an address, of whatever family and however
it leaves out zeros, consists of hexadecimal digits, colons and points. Of the texts that name no
zone, just those that can be read count as addresses. -/

namespace LogQuery

theorem Text.isHex_of_isDigit {c : CodePoint} (h : c.isDigit = true) : isHex c = true := by
  rw [isHex, hexValue?, h]
  rfl

theorem Text.toNat_lt_of_isHex {c : CodePoint} (h : isHex c = true) : c.toNat < 128 := by
  have hDigits : c.isDigit = true → c.toNat < 128 := by
    cases c with
    | half place => intro hDigit; cases hDigit
    | char c =>
        intro hDigit
        simp only [CodePoint.isDigit, CodePoint.isChar, Char.isDigit, Bool.and_eq_true,
          decide_eq_true_eq] at hDigit
        exact Nat.lt_of_le_of_lt hDigit.2 (by decide)
  unfold isHex hexValue? at h
  simp only at h
  split at h
  · exact hDigits ‹_›
  · split at h
    · rename_i hSmall
      exact Nat.lt_of_le_of_lt hSmall.2 (by decide)
    · split at h
      · rename_i hCapital
        exact Nat.lt_of_le_of_lt hCapital.2 (by decide)
      · cases h

namespace Net.Address

variable {cs : Text}

/-- The characters that there are in an address without a zone. -/
def isAddressChar (c : CodePoint) : Bool :=
  Text.isHex c || c == ':' || c == '.'

theorem isAddressChar_of_isHex {c : CodePoint} (h : Text.isHex c = true) :
    isAddressChar c = true := by
  simp [isAddressChar, h]

theorem isSome_of_mapM {α β : Type} {f : α → Option β} {as : List α} {bs : List β}
    (h : as.mapM f = some bs) : ∀ a ∈ as, (f a).isSome = true := by
  intro a ha
  obtain ⟨b, -, hResult⟩ := exists_of_mem_forall₂ (mapM_eq_some_iff.mp h).flip ha
  exact Option.isSome_iff_exists.mpr ⟨b, hResult⟩

/-! ## Decimal groups -/

theorem isDigit_of_octet? (h : (octet? cs).isSome = true) : ∀ c ∈ cs, c.isDigit = true := by
  unfold octet? at h
  split at h
  · cases h
  · rename_i hForm
    simp only [Bool.or_eq_true, not_or] at hForm
    simpa using hForm.1.2

theorem isAddressChar_of_dotted? {value : Nat} (h : dotted? cs = some value) :
    ∀ c ∈ cs, isAddressChar c = true := by
  simp only [dotted?, bind, Option.bind_eq_some_iff] at h
  obtain ⟨octets, hOctets, -⟩ := h
  intro c hc
  rcases Text.mem_splitOn '.' hc with rfl | ⟨piece, hPiece, hMem⟩
  · decide
  · have hDigit := isDigit_of_octet? (isSome_of_mapM hOctets piece hPiece) c hMem
    exact isAddressChar_of_isHex (Text.isHex_of_isDigit hDigit)

/-! ## Hexadecimal groups -/

/-- There are no other characters than hexadecimal digits in the text. -/
def IsHexText (cs : Text) : Prop :=
  ∀ c ∈ cs, Text.isHex c = true

theorem isHexText_of_foldlM {n value : Nat}
    (h : cs.foldlM (fun n c => (Text.hexValue? c).map (n * 16 + ·)) n = some value) :
    IsHexText cs := by
  induction cs generalizing n with
  | nil => exact fun c hc => absurd hc List.not_mem_nil
  | cons c cs ih =>
      simp only [List.foldlM_cons, bind, Option.bind_eq_some_iff, Option.map_eq_some_iff] at h
      obtain ⟨_, ⟨digit, hDigit, -⟩, hRest⟩ := h
      exact List.forall_mem_cons.mpr ⟨by rw [Text.isHex, hDigit]; rfl, ih hRest⟩

theorem isHexText_of_group? (h : (group? cs).isSome = true) : IsHexText cs := by
  unfold group? at h
  split at h
  · cases h
  · obtain ⟨value, hValue⟩ := Option.isSome_iff_exists.mp h
    exact isHexText_of_foldlM hValue

theorem isHexText_of_groups {pieces : List Text} {values : List Nat}
    (h : pieces.mapM group? = some values) : ∀ piece ∈ pieces, IsHexText piece :=
  fun piece hPiece => isHexText_of_group? (isSome_of_mapM h piece hPiece)

/-- What is left out beside a gap is empty. -/
theorem isHexText_of_besideGap? {outer : Text} {side kept : List Text} {values : List Nat}
    (hOuter : outer ∈ side) (h : besideGap? outer side = some kept)
    (hKept : kept.mapM group? = some values) : ∀ piece ∈ side, IsHexText piece := by
  unfold besideGap? at h
  split at h
  · rename_i hEmpty
    split at h
    · rename_i hAlone
      obtain ⟨only, rfl⟩ := List.length_eq_one_iff.mp hAlone
      have hOnly : outer = only := List.mem_singleton.mp hOuter
      rw [List.forall_mem_singleton, ← hOnly, List.isEmpty_iff.mp hEmpty]
      exact fun c hc => absurd hc List.not_mem_nil
    · cases h
  · cases h
    exact isHexText_of_groups hKept

theorem mem_dropLast_or_eq_getLastD {α : Type} {a d : α} {as : List α} (h : a ∈ as) :
    a ∈ as.dropLast ∨ a = as.getLastD d := by
  have hLast : as.getLastD d = as.getLast (List.ne_nil_of_mem h) := by
    rw [List.getLastD_eq_getLast?, List.getLast?_eq_some_getLast, Option.getD_some]
  rw [← List.dropLast_concat_getLast (List.ne_nil_of_mem h), List.mem_append,
    List.mem_singleton] at h
  rwa [hLast]

theorem mem_outer_or_middle {α : Type} {a d : α} {as : List α} (h : a ∈ as) :
    a = as.headD d ∨ a ∈ (as.drop 1).dropLast ∨ a = as.getLastD d := by
  cases as with
  | nil => cases h
  | cons first rest =>
      rw [List.getLastD_cons]
      exact (List.mem_cons.mp h).imp_right mem_dropLast_or_eq_getLastD

/-- Cut at its empty pieces, a list still has all the others. -/
theorem mem_of_splitWhere_isEmpty {middle left right : List Text} {piece : Text} {c : CodePoint}
    (h : Text.splitWhere List.isEmpty middle = [left, right]) (hPiece : piece ∈ middle)
    (hc : c ∈ piece) : piece ∈ left ∨ piece ∈ right := by
  have hFlatten : piece ∈ (Text.splitWhere List.isEmpty middle).flatten := by
    rw [Text.flatten_splitWhere, List.mem_filter]
    exact ⟨hPiece, by simp [List.ne_nil_of_mem hc]⟩
  rw [h] at hFlatten
  simpa using hFlatten

/-- All pieces between the colons are hexadecimal, those that a gap is made of being empty. -/
theorem isHexText_of_colons? {value : Nat} {pieces : List Text} (hPieces : pieces? cs = some pieces)
    (h : colons? cs = some value) : ∀ piece ∈ pieces, IsHexText piece := by
  simp only [colons?, hPieces, bind, Option.bind_some] at h
  split at h
  · cases h
  · split at h
    · simp only [Option.bind_eq_some_iff] at h
      obtain ⟨groups, hGroups, -⟩ := h
      exact isHexText_of_groups hGroups
    · rename_i left right hMiddle
      simp only [Option.bind_eq_some_iff] at h
      obtain ⟨keptLeft, hLeft, keptRight, hRight, h⟩ := h
      split at h
      · cases h
      · simp only [Option.bind_eq_some_iff] at h
        obtain ⟨valuesLeft, hValuesLeft, valuesRight, hValuesRight, -⟩ := h
        have hBefore := isHexText_of_besideGap? List.mem_cons_self hLeft hValuesLeft
        have hAfter := isHexText_of_besideGap? (by simp) hRight hValuesRight
        intro piece hPiece
        rcases mem_outer_or_middle (d := []) hPiece with rfl | hInner | rfl
        · exact hBefore _ List.mem_cons_self
        · intro c hc
          rcases mem_of_splitWhere_isEmpty hMiddle hInner hc with hSide | hSide
          · exact hBefore _ (List.mem_cons_of_mem _ hSide) c hc
          · exact hAfter _ (List.mem_append_left _ hSide) c hc
        · exact hAfter _ (by simp)
    · cases h

theorem isAddressChar_of_colons? {value : Nat} (h : colons? cs = some value) :
    ∀ c ∈ cs, isAddressChar c = true := by
  cases hPieces : pieces? cs with
  | none =>
      rw [colons?, hPieces] at h
      cases h
  | some pieces =>
      have hHex := isHexText_of_colons? hPieces h
      have hSplit : ∀ piece ∈ Text.splitOn ':' cs, ∀ c ∈ piece, isAddressChar c = true := by
        unfold pieces? at hPieces
        simp only at hPieces
        split at hPieces
        · cases hPieces
        · split at hPieces
          · -- the last piece is a dotted form, and the others are among the pieces
            obtain ⟨n, hDotted, rfl⟩ := Option.map_eq_some_iff.mp hPieces
            have hLast := isAddressChar_of_dotted? hDotted
            intro piece hPiece c hc
            rcases mem_dropLast_or_eq_getLastD (d := []) hPiece with hFront | rfl
            · exact isAddressChar_of_isHex (hHex piece (List.mem_append_left _ hFront) c hc)
            · exact hLast c hc
          · cases hPieces
            exact fun piece hPiece c hc => isAddressChar_of_isHex (hHex piece hPiece c hc)
      intro c hc
      rcases Text.mem_splitOn ':' hc with rfl | ⟨piece, hPiece, hMem⟩
      · decide
      · exact hSplit piece hPiece c hMem

/-! ## Reading -/

theorem isAddressChar_of_read? (h : (read? cs).isSome = true) :
    ∀ c ∈ cs, isAddressChar c = true := by
  unfold read? at h
  split at h
  · exact isAddressChar_of_dotted? ‹_›
  · obtain ⟨value, hValue⟩ := Option.isSome_iff_exists.mp (Option.isSome_map.symm.trans h)
    exact isAddressChar_of_colons? hValue

theorem ne_nil_of_read? (h : (read? cs).isSome = true) : cs ≠ [] := by
  rintro rfl
  exact absurd h (by decide)

/-- Without a percent sign, a text is an address exactly if it can be read as one. -/
theorem isAddress_eq_isSome_read? (h : .char '%' ∉ cs) : isAddress cs = (read? cs).isSome := by
  have hZone : Text.splitFirst (· == '%') cs = (cs, none) :=
    Text.splitFirst_of_forall (Text.beq_eq_false_of_not_mem h)
  by_cases hSlash : .char '/' ∈ cs
  · have hNone : (read? cs).isSome = false := by
      rw [Bool.eq_false_iff]
      exact fun hRead => absurd (isAddressChar_of_read? hRead _ hSlash) (by decide)
    rw [hNone, isAddress, if_pos (by simpa using hSlash)]
  · rw [isAddress, if_neg (by simpa using hSlash), hZone, read?]
    cases dotted? cs with
    | some value => rfl
    | none => simp

theorem isAddress_of_read? (h : (read? cs).isSome = true) : isAddress cs = true := by
  have hPercent : .char '%' ∉ cs := fun hMem =>
    absurd (isAddressChar_of_read? h _ hMem) (by decide)
  rw [isAddress_eq_isSome_read? hPercent, h]

end Net.Address

end LogQuery
