import LogQuery.Proofs.Net.Spelling
import Mathlib.Data.List.TakeWhile

/-! The canonical form of addresses. Hexadecimal groups have no capitals and no leading zeros, and
of the longest runs of at least two zero groups the first is left out. The text of an address is its
canonical form, and it is read as the address again. -/

namespace LogQuery.Net.Address

variable {cs : Text} {n size count : Nat} {gs : List Nat} {a : Address}

/-! ## Canonical texts -/

/-- A hexadecimal group without capitals and without leading zeros. -/
structure IsPlainGroup (cs : Text) (n : Nat) : Prop extends IsGroup cs n where
  lower : ∀ c ∈ cs, c.isChar Char.isUpper = false
  leading : cs.head? = some (.char '0') → cs.length = 1

/-- There are so many zeros in a row after the first groups, more in a row nowhere and as many
nowhere before. -/
structure IsFirstLongestRun (left : List Nat) (count : Nat) (right : List Nat) : Prop where
  longest : ∀ k, List.replicate k 0 <:+: left ++ List.replicate count 0 ++ right → k ≤ count
  first : ∀ front back, left ++ List.replicate count 0 ++ right =
    front ++ List.replicate count 0 ++ back → left.length ≤ front.length

/-- The canonical text of an address. In the longer family it has all groups if no two zeros are in a
row, and otherwise a gap in the place of the first longest run of zeros. -/
inductive IsCanonical : Text → Address → Prop
  | dotted {cs : Text} {n : Nat} (h : IsDotted cs n) : IsCanonical cs ⟨.v4, n⟩
  | full {texts : List Text} {values : List Nat} (h : List.Forall₂ IsPlainGroup texts values)
      (hLength : values.length = 8) (hRun : ¬[0, 0] <:+: values) :
      IsCanonical (Text.join [.char ':'] texts) ⟨.v6, ofGroups 65536 values⟩
  | gap {left right : List Text} {leftValues rightValues : List Nat} {count : Nat}
      (hLeft : List.Forall₂ IsPlainGroup left leftValues)
      (hRight : List.Forall₂ IsPlainGroup right rightValues) (hCount : 2 ≤ count)
      (hLength : leftValues.length + count + rightValues.length = 8)
      (hRun : IsFirstLongestRun leftValues count rightValues) :
      IsCanonical (Text.join [.char ':'] left ++ "::" ++ Text.join [.char ':'] right)
        ⟨.v6, ofGroups 65536 (leftValues ++ List.replicate count 0 ++ rightValues)⟩

theorem isGroup_of_plain {texts : List Text} (h : List.Forall₂ IsPlainGroup texts gs) :
    List.Forall₂ IsGroup texts gs :=
  h.imp fun _ _ hGroup => hGroup.toIsGroup

theorem IsCanonical.spells (h : IsCanonical cs a) : Spells cs a := by
  cases h with
  | dotted h => exact .dotted h
  | full h hLength => exact .colons (.full (isGroup_of_plain h) hLength)
  | gap hLeft hRight hCount hLength =>
      exact .colons (.gap (isGroup_of_plain hLeft) (isGroup_of_plain hRight) (by omega) hLength)

/-! ## Groups of a number -/

@[simp]
theorem length_groups (size count n : Nat) : (groups size count n).length = count := by
  induction count generalizing n with
  | zero => rfl
  | succ count ih => rw [groups, List.length_append, ih, List.length_singleton]

theorem lt_of_mem_groups (hSize : 0 < size) {g : Nat} (h : g ∈ groups size count n) : g < size := by
  induction count generalizing n with
  | zero => cases h
  | succ count ih =>
      rw [groups, List.mem_append, List.mem_singleton] at h
      rcases h with h | rfl
      · exact ih h
      · exact Nat.mod_lt n hSize

/-- The groups of a number denote it, if there are enough of them. -/
theorem ofGroups_groups (h : n < size ^ count) : ofGroups size (groups size count n) = n := by
  induction count generalizing n with
  | zero => simpa [groups, ofGroups, eq_comm] using h
  | succ count ih =>
      have hFront := ih (Nat.div_lt_of_lt_mul (by rwa [Nat.pow_succ'] at h))
      rw [ofGroups] at hFront
      rw [groups, ofGroups, List.foldl_append, hFront]
      exact Nat.div_add_mod' n size

theorem between_eq_join (sep : CodePoint) (texts : List Text) :
    between sep texts = Text.join [sep] texts := by
  fun_induction between sep texts with
  | case1 => rfl
  | case2 text => rw [Text.join_singleton]
  | case3 text rest hRest ih =>
      obtain ⟨next, rest, rfl⟩ := List.exists_cons_of_ne_nil hRest
      rw [ih, Text.join_sep_cons_cons]

/-! ## Texts of groups -/

theorem isOctet_digits (h : n < 256) : IsOctet (Integer.digits n) n := by
  have hAll : ∀ n < 256, octet? (Integer.digits n) = some n := by decide +kernel
  exact octet?_eq_some_iff.mp (hAll n h)

theorem hexDigit_lower (h : n < 16) :
    Text.hexValue? (Text.hexDigit n) = some n ∧
      (Text.hexDigit n).isChar Char.isUpper = false := by
  revert n
  decide

theorem length_hexText (width n : Nat) : (Text.hexText width n).length = width := by
  induction width generalizing n with
  | zero => rfl
  | succ width ih => rw [Text.hexText, List.length_append, ih, List.length_singleton]

theorem exists_of_mem_hexText {width : Nat} {c : CodePoint} (h : c ∈ Text.hexText width n) :
    ∃ digit < 16, c = Text.hexDigit digit := by
  induction width generalizing n with
  | zero => cases h
  | succ width ih =>
      rw [Text.hexText, List.mem_append, List.mem_singleton] at h
      rcases h with h | rfl
      · exact ih h
      · exact ⟨n % 16, Nat.mod_lt n (by decide), rfl⟩

theorem ofHex_hexText {width : Nat} (h : n < 16 ^ width) : ofHex (Text.hexText width n) = n := by
  induction width generalizing n with
  | zero => simpa [Text.hexText, ofHex, eq_comm] using h
  | succ width ih =>
      have hFront := ih (Nat.div_lt_of_lt_mul (by rwa [Nat.pow_succ'] at h))
      have hLast := (hexDigit_lower (Nat.mod_lt n (by decide : 0 < 16))).1
      rw [ofHex] at hFront
      rw [Text.hexText, ofHex, List.foldl_append, hFront, List.foldl_cons, hLast]
      exact Nat.div_add_mod' n 16

theorem ofHex_dropWhile (cs : Text) :
    ofHex (cs.dropWhile fun c : CodePoint => c == .char '0') = ofHex cs := by
  induction cs with
  | nil => rfl
  | cons c cs ih =>
      rw [List.dropWhile_cons]
      split
      · rename_i hZero
        rw [ih, beq_iff_eq.mp hZero]
        rfl
      · rfl

theorem isPlainGroup_groupText (h : n < 65536) : IsPlainGroup (groupText n) n := by
  have hValue := ofHex_dropWhile (Text.hexText 4 n)
  rw [ofHex_hexText h] at hValue
  unfold groupText
  split
  · -- only zeros
    rename_i hNone
    rw [hNone] at hValue
    rw [← hValue]
    exact ⟨⟨by decide, by decide, by unfold IsHexText; decide, rfl⟩, by decide, fun _ => rfl⟩
  · rename_i hSome
    have hSublist := List.dropWhile_sublist (l := Text.hexText 4 n)
      fun c : CodePoint => c == .char '0'
    have hDigit {c : CodePoint} (hc : c ∈ (Text.hexText 4 n).dropWhile fun c : CodePoint =>
        c == .char '0') : Text.isHex c = true ∧ c.isChar Char.isUpper = false := by
      obtain ⟨digit, hLt, rfl⟩ := exists_of_mem_hexText (hSublist.subset hc)
      exact ⟨by rw [Text.isHex, (hexDigit_lower hLt).1]; rfl, (hexDigit_lower hLt).2⟩
    refine ⟨⟨hSome, length_hexText 4 n ▸ hSublist.length_le, fun c hc => (hDigit hc).1, hValue⟩,
      fun c hc => (hDigit hc).2, fun hZero => ?_⟩
    have hHead := List.head?_dropWhile_not (fun c : CodePoint => c == .char '0')
      (Text.hexText 4 n)
    rw [hZero] at hHead
    simp at hHead

/-! ## The longest run of zeros -/

theorem le_of_leading_zeros {k : Nat} (h : List.replicate k 0 <+: gs) :
    k ≤ (gs.takeWhile (· == 0)).length := by
  obtain ⟨rest, rfl⟩ := h
  rw [List.takeWhile_append_of_pos (by simp), List.length_append, List.length_replicate]
  exact Nat.le_add_right _ _

theorem eq_replicate_append (gs : List Nat) :
    gs = List.replicate (gs.takeWhile (· == 0)).length 0 ++ gs.dropWhile (· == 0) := by
  have hZeros : gs.takeWhile (· == 0) = List.replicate (gs.takeWhile (· == 0)).length 0 :=
    List.eq_replicate_of_mem fun g hg => by simpa using List.mem_takeWhile_imp hg
  rw [← hZeros, List.takeWhile_append_dropWhile]

/-- A run of zeros starts at the head of a list or lies in its tail. -/
theorem replicate_infix_cons {g k : Nat} (h : List.replicate k 0 <:+: g :: gs) :
    k ≤ ((g :: gs).takeWhile (· == 0)).length ∨ List.replicate k 0 <:+: gs :=
  (List.infix_cons_iff.mp h).imp_left le_of_leading_zeros

theorem isFirstLongestRun_head {g : Nat}
    (h : ∀ k, List.replicate k 0 <:+: gs → k ≤ ((g :: gs).takeWhile (· == 0)).length) :
    IsFirstLongestRun [] ((g :: gs).takeWhile (· == 0)).length ((g :: gs).dropWhile (· == 0)) where
  longest k hRun := by
    rw [List.nil_append, ← eq_replicate_append] at hRun
    exact (replicate_infix_cons hRun).elim id (h k)
  first _ _ _ := Nat.zero_le _

theorem IsFirstLongestRun.cons {left right : List Nat} {g : Nat}
    (h : IsFirstLongestRun left count right)
    (hHead : ((g :: (left ++ List.replicate count 0 ++ right)).takeWhile (· == 0)).length < count) :
    IsFirstLongestRun (g :: left) count right where
  longest k hRun := by
    rcases replicate_infix_cons hRun with hHere | hLater
    · exact Nat.le_trans hHere (Nat.le_of_lt hHead)
    · exact h.longest k hLater
  first front back hSame := by
    cases front with
    | nil => exact absurd (le_of_leading_zeros ⟨back, hSame.symm⟩) (Nat.not_le_of_lt hHead)
    | cons f front =>
        obtain ⟨-, hSame⟩ := List.cons.inj hSame
        exact Nat.succ_le_succ (h.first front back hSame)

theorem exists_longestZeros (start : Nat) (gs : List Nat) :
    ∃ left right, gs = left ++ List.replicate (longestZeros start gs).2 0 ++ right ∧
      (gs ≠ [] → (longestZeros start gs).1 = start + left.length) ∧
      IsFirstLongestRun left (longestZeros start gs).2 right := by
  induction gs generalizing start with
  | nil => exact ⟨[], [], rfl, fun hSome => absurd rfl hSome, ⟨by simp [longestZeros], by simp⟩⟩
  | cons g gs ih =>
      obtain ⟨left, right, hRest, hStart, hRun⟩ := ih (start + 1)
      rw [longestZeros]
      generalize longestZeros (start + 1) gs = later at *
      split
      · rename_i hLe
        refine ⟨[], (g :: gs).dropWhile (· == 0), eq_replicate_append (g :: gs), fun _ => rfl,
          isFirstLongestRun_head fun k hInfix => ?_⟩
        exact Nat.le_trans (hRun.longest k (hRest ▸ hInfix)) hLe
      · rename_i hLt
        have hSome : gs ≠ [] := by
          rintro rfl
          have hZeros := congrArg List.length hRest
          simp only [List.length_nil, List.length_append, List.length_replicate] at hZeros
          omega
        refine ⟨g :: left, right, congrArg (g :: ·) hRest, fun _ => ?_, hRun.cons ?_⟩
        · rw [hStart hSome, List.length_cons]
          omega
        · rw [← hRest]
          exact Nat.lt_of_not_le hLt

/-! ## The text of an address -/

theorem forall₂_map {p : Text → Nat → Prop} {f : Nat → Text} (h : ∀ g ∈ gs, p (f g) g) :
    List.Forall₂ p (gs.map f) gs := by
  rw [List.forall₂_map_left_iff, List.forall₂_same]
  exact h

theorem isCanonical_colonText (hLength : gs.length = 8) (hGroups : ∀ g ∈ gs, g < 65536) :
    IsCanonical (colonText gs) ⟨.v6, ofGroups 65536 gs⟩ := by
  have hPlain (texts : List Nat) (hTexts : ∀ g ∈ texts, g < 65536) :
      List.Forall₂ IsPlainGroup (texts.map groupText) texts :=
    forall₂_map fun g hg => isPlainGroup_groupText (hTexts g hg)
  have hSome : gs ≠ [] := by
    rintro rfl
    cases hLength
  obtain ⟨left, right, hRuns, hPlace, hRun⟩ := exists_longestZeros 0 gs
  have hStart := hPlace hSome
  clear hPlace
  rw [colonText]
  generalize longestZeros 0 gs = run at *
  obtain ⟨start, count⟩ := run
  simp only [Nat.zero_add] at hRuns hStart hRun ⊢
  simp only [between_eq_join]
  subst hRuns hStart
  split
  · rename_i hFew
    refine .full (hPlain _ hGroups) hLength fun hTwo => ?_
    have hLe := hRun.longest 2 hTwo
    omega
  · simp only [List.forall_mem_append] at hGroups
    simp only [List.length_append, List.length_replicate] at hLength
    have hLeft : (left ++ List.replicate count 0 ++ right).take left.length = left := by simp
    have hRight : (left ++ List.replicate count 0 ++ right).drop (left.length + count) = right := by
      simp
    rw [hLeft, hRight]
    exact .gap (hPlain left hGroups.1.1) (hPlain right hGroups.2) (by omega) hLength hRun

theorem isCanonical_text (h : a.IsProper) : IsCanonical a.text a := by
  obtain ⟨family, n⟩ := a
  cases family with
  | v4 =>
      have hFit : n < 256 ^ 4 := h
      have hOctets : List.Forall₂ IsOctet ((groups 256 4 n).map Integer.digits) (groups 256 4 n) :=
        forall₂_map fun g hg => isOctet_digits (lt_of_mem_groups (by decide) hg)
      have hDotted := IsDotted.octets hOctets (length_groups 256 4 n)
      rw [ofGroups_groups hFit, ← between_eq_join] at hDotted
      exact .dotted hDotted
  | v6 =>
      have hFit : n < 65536 ^ 8 := h
      have hColons := isCanonical_colonText (length_groups 65536 8 n)
        fun g hg => lt_of_mem_groups (by decide) hg
      rwa [ofGroups_groups hFit] at hColons

/-- The text of an address is read as the address. -/
theorem read?_text (h : a.IsProper) : read? a.text = some a :=
  read?_of_spells (isCanonical_text h).spells

/-! ## No other canonical text -/

/-- Digits without leading zeros, unless there is but one, are determined by the number that they
are. -/
theorem eq_digits_of_leading (digit : CodePoint → Nat) (char : Nat → CodePoint) (hSize : 1 < size)
    (hDigits : ∀ c ∈ cs, digit c < size ∧ char (digit c) = c) (hZero : char 0 = .char '0')
    (hSome : cs ≠ []) (hLeading : cs.head? = some (.char '0') → cs.length = 1)
    (hValue : Nat.ofDigits size (cs.map digit).reverse = n) :
    cs = if n = 0 then [.char '0'] else (Nat.digits size n).reverse.map char := by
  obtain ⟨c, rest, rfl⟩ := List.exists_cons_of_ne_nil hSome
  by_cases hFirst : digit c = 0
  · have hc : c = .char '0' := by rw [← (hDigits c List.mem_cons_self).2, hFirst, hZero]
    obtain rfl : rest = [] := by simpa [hc] using hLeading
    rw [hc, if_pos]
    simpa [hFirst] using hValue.symm
  · have hRow : Nat.digits size n = ((c :: rest).map digit).reverse := by
      rw [← hValue]
      refine Nat.digits_ofDigits size hSize _ (fun digit hDigit => ?_) fun _ => by
        simpa using hFirst
      obtain ⟨d, hd, rfl⟩ := List.mem_map.mp (List.mem_reverse.mp hDigit)
      exact (hDigits d hd).1
    have hPos : n ≠ 0 := by
      rintro rfl
      simp at hRow
    rw [if_neg hPos, hRow, List.reverse_reverse, List.map_map]
    exact (List.map_congr_left fun d hd => (hDigits d hd).2).trans (List.map_id _) |>.symm

theorem IsOctet.unique {ds : Text} (h : IsOctet cs n) (h' : IsOctet ds n) : cs = ds := by
  have hAll : ∀ n < 128, (CodePoint.ofNat n).isDigit = true →
      (Text.digitValue? (.ofNat n)).getD 0 < 10 ∧
        CodePoint.ofNat (48 + (Text.digitValue? (.ofNat n)).getD 0) = .ofNat n := by decide
  have hOne {cs : Text} (h : IsOctet cs n) :=
    eq_digits_of_leading _ (fun n => .ofNat (48 + n)) (by decide) (fun c hc => by
      have hDigit := h.digits c hc
      have hAscii := Text.toNat_lt_of_isHex (Text.isHex_of_isDigit hDigit)
      have hNumber := hAll c.toNat hAscii
      rw [CodePoint.ofNat_toNat] at hNumber
      exact hNumber hDigit) rfl h.nonempty h.leading
      ((foldl_eq_ofDigits (fun c => (Text.digitValue? c).getD 0) 10 cs).symm.trans h.value)
  rw [hOne h, hOne h']

theorem IsPlainGroup.unique {ds : Text} (h : IsPlainGroup cs n) (h' : IsPlainGroup ds n) :
    cs = ds := by
  have hAll : ∀ n < 128, Text.isHex (.ofNat n) = true →
      (CodePoint.ofNat n).isChar Char.isUpper = false →
        Text.hexDigit ((Text.hexValue? (.ofNat n)).getD 0) = .ofNat n := by decide
  have hOne {cs : Text} (h : IsPlainGroup cs n) :=
    eq_digits_of_leading _ Text.hexDigit (by decide) (fun c hc => by
      have hHex := h.digits c hc
      have hNumber := hAll c.toNat (Text.toNat_lt_of_isHex hHex)
      rw [CodePoint.ofNat_toNat] at hNumber
      exact ⟨hexValue?_getD_lt c, hNumber hHex (h.lower c hc)⟩) rfl h.nonempty h.leading
      ((ofHex_eq_ofDigits cs).symm.trans h.value)
  rw [hOne h, hOne h']

theorem ofGroups_injective {values others : List Nat} (hSize : 1 < size)
    (hLength : values.length = others.length) (h : ∀ g ∈ values, g < size)
    (h' : ∀ g ∈ others, g < size) (hSame : ofGroups size values = ofGroups size others) :
    values = others := by
  rw [ofGroups_eq_ofDigits, ofGroups_eq_ofDigits] at hSame
  refine List.reverse_injective ?_
  exact Nat.ofDigits_inj_of_len_eq hSize (by simpa using hLength) (by simpa using h)
    (by simpa using h') hSame

theorem IsFirstLongestRun.unique {left right left' right' : List Nat} {count' : Nat}
    (h : IsFirstLongestRun left count right) (h' : IsFirstLongestRun left' count' right')
    (hSame : left ++ List.replicate count 0 ++ right =
      left' ++ List.replicate count' 0 ++ right') :
    left = left' ∧ count = count' ∧ right = right' := by
  have hRun : List.replicate count 0 <:+: left' ++ List.replicate count' 0 ++ right' :=
    ⟨left, right, hSame⟩
  have hRun' : List.replicate count' 0 <:+: left ++ List.replicate count 0 ++ right :=
    ⟨left', right', hSame.symm⟩
  obtain rfl : count = count' := Nat.le_antisymm (h'.longest _ hRun) (h.longest _ hRun')
  have hLength : left.length = left'.length :=
    Nat.le_antisymm (h.first _ _ hSame) (h'.first _ _ hSame.symm)
  rw [List.append_assoc, List.append_assoc] at hSame
  obtain ⟨hLeft, hRest⟩ := List.append_inj hSame hLength
  exact ⟨hLeft, rfl, List.append_cancel_left hRest⟩

theorem leftUnique_octets : Relator.LeftUnique (List.Forall₂ IsOctet) :=
  Relator.LeftUnique.forall₂ fun _ _ _ h h' => h.unique h'

theorem leftUnique_plain : Relator.LeftUnique (List.Forall₂ IsPlainGroup) :=
  Relator.LeftUnique.forall₂ fun _ _ _ h h' => h.unique h'

theorem IsDotted.unique {ds : Text} (h : IsDotted cs n) (h' : IsDotted ds n) : cs = ds := by
  generalize hSame : n = m at h'
  cases h with
  | octets hOctets hLength =>
      cases h' with
      | octets hOctets' hLength' =>
          obtain rfl := ofGroups_injective (by decide) (hLength.trans hLength'.symm)
            (lt_of_octets hOctets) (lt_of_octets hOctets') hSame
          rw [leftUnique_octets hOctets hOctets']

/-- A gap is a run of at least two zeros. -/
theorem infix_of_gap (left right : List Nat) (hCount : 2 ≤ count) :
    [0, 0] <:+: left ++ List.replicate count 0 ++ right := by
  obtain ⟨further, rfl⟩ := Nat.exists_eq_add_of_le hCount
  rw [List.replicate_add]
  exact ⟨left, List.replicate further 0 ++ right, by simp [List.replicate]⟩

/-- An address has a single canonical text. -/
theorem IsCanonical.unique {ds : Text} (h : IsCanonical cs a) (h' : IsCanonical ds a) :
    cs = ds := by
  generalize hAddress : a = b at h'
  cases h with
  | dotted h =>
      cases h' with
      | dotted h' =>
          cases hAddress
          exact h.unique h'
      | full | gap => cases congrArg Address.family hAddress
  | full h hLength hRun =>
      have hLt := lt_of_groups (isGroup_of_plain h)
      cases h' with
      | dotted => cases congrArg Address.family hAddress
      | full h' hLength' =>
          obtain rfl := ofGroups_injective (by decide) (hLength.trans hLength'.symm) hLt
            (lt_of_groups (isGroup_of_plain h')) (congrArg Address.value hAddress)
          rw [leftUnique_plain h h']
      | gap hLeft hRight hCount hLength' =>
          obtain rfl := ofGroups_injective (by decide) (hLength.trans (length_of_gap hLength').symm)
            hLt (lt_of_gap (isGroup_of_plain hLeft) (isGroup_of_plain hRight) _)
            (congrArg Address.value hAddress)
          exact absurd (infix_of_gap _ _ hCount) hRun
  | @gap _ _ _ _ count hLeft hRight hCount hLength hRun =>
      have hLt := lt_of_gap (isGroup_of_plain hLeft) (isGroup_of_plain hRight) count
      cases h' with
      | dotted => cases congrArg Address.family hAddress
      | full h' hLength' hNone =>
          obtain rfl := ofGroups_injective (by decide) ((length_of_gap hLength).trans hLength'.symm)
            hLt (lt_of_groups (isGroup_of_plain h')) (congrArg Address.value hAddress)
          exact absurd (infix_of_gap _ _ hCount) hNone
      | gap hLeft' hRight' hCount' hLength' hRun' =>
          have hSame := ofGroups_injective (by decide)
            ((length_of_gap hLength).trans (length_of_gap hLength').symm) hLt
            (lt_of_gap (isGroup_of_plain hLeft') (isGroup_of_plain hRight') _)
            (congrArg Address.value hAddress)
          obtain ⟨rfl, -, rfl⟩ := hRun.unique hRun' hSame
          rw [leftUnique_plain hLeft hLeft', leftUnique_plain hRight hRight']

/-- Just the text of an address is canonical. -/
theorem isCanonical_iff (h : a.IsProper) : IsCanonical cs a ↔ cs = a.text := by
  constructor
  · exact fun hCanonical => hCanonical.unique (isCanonical_text h)
  · rintro rfl
    exact isCanonical_text h

end LogQuery.Net.Address
