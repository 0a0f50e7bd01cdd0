import LogQuery.Text.Utf8
import Mathlib.Data.List.Basic

/-! Reading UTF-8. The bytes that are read to their end are exactly those of texts of characters,
and reading them gives the text back. -/

namespace LogQuery

namespace CodePoint

theorem toNat_char_cases (c : Char) :
    c.toNat < 0xD800 ∨ 0xE000 ≤ c.toNat ∧ c.toNat < 0x110000 := by
  have hValid : c.toNat.isValidChar := c.valid
  simp only [Nat.isValidChar] at hValid
  omega

/-- A number that is no half of a pair names a character. -/
theorem exists_char {n : Nat} (h : n < 0xD800 ∨ 0xE000 ≤ n ∧ n < 0x110000) :
    ∃ c : Char, c.toNat = n ∧ ofNat n = .char c := by
  have hValid : n.isValidChar := by
    simp only [Nat.isValidChar]
    omega
  have hNumber : (Char.ofNatAux n hValid).toNat = n := rfl
  refine ⟨Char.ofNatAux n hValid, hNumber, ?_⟩
  conv_lhs => rw [← hNumber]
  exact ofNat_toNat (.char (Char.ofNatAux n hValid))

end CodePoint

namespace Text.Utf8

variable {done : Text} {index n lo hi b : Nat} {p q : Pending} {bytes tail rest : List Nat}
  {c : CodePoint}

/-- The bytes of characters. -/
def encode (cs : List Char) : List Nat :=
  cs.flatMap fun c => encodeOne c.toNat

/-! ## A single character -/

/-- Further bytes that make a character of a pending one. -/
inductive Completes : Pending → List Nat → CodePoint → Prop
  | last {p : Pending} {b : Nat} {c : CodePoint} (h : p.next? b = some (.inl c)) :
      Completes p [b] c
  | more {p q : Pending} {b : Nat} {tail : List Nat} {c : CodePoint}
      (h : p.next? b = some (.inr q)) (hTail : Completes q tail c) : Completes p (b :: tail) c

/-- Bytes that make a character. -/
inductive Makes : List Nat → CodePoint → Prop
  | single {b : Nat} {c : CodePoint} (h : start? b = some (.inl c)) : Makes [b] c
  | several {b : Nat} {p : Pending} {tail : List Nat} {c : CodePoint}
      (h : start? b = some (.inr p)) (hTail : Completes p tail c) : Makes (b :: tail) c

theorem next?_one :
    Pending.next? ⟨1, n, lo, hi⟩ b =
      if b < lo ∨ hi < b then none else some (.inl (.ofNat (n * 64 + (b - 0x80)))) := rfl

theorem next?_two :
    Pending.next? ⟨2, n, lo, hi⟩ b =
      if b < lo ∨ hi < b then none
      else if 0xD800 / 64 ≤ n * 64 + (b - 0x80) ∧ n * 64 + (b - 0x80) < 0xE000 / 64 then
        some (.inr ⟨1, n * 64 + (b - 0x80), 1, 0⟩)
      else some (.inr ⟨1, n * 64 + (b - 0x80), 0x80, 0xBF⟩) := by
  simp [Pending.next?]

theorem next?_three :
    Pending.next? ⟨3, n, lo, hi⟩ b =
      if b < lo ∨ hi < b then none else some (.inr ⟨2, n * 64 + (b - 0x80), 0x80, 0xBF⟩) := by
  simp [Pending.next?]

theorem completes_one_iff :
    Completes ⟨1, n, lo, hi⟩ tail c ↔
      ∃ b, tail = [b] ∧ (lo ≤ b ∧ b ≤ hi) ∧ .ofNat (n * 64 + (b - 0x80)) = c := by
  constructor
  · intro h
    cases h with
    | @last _ b _ h =>
        rw [next?_one] at h
        split at h
        · cases h
        · exact ⟨b, rfl, by omega, Sum.inl.inj (Option.some.inj h)⟩
    | more h =>
        rw [next?_one] at h
        split at h <;> cases h
  · rintro ⟨b, rfl, hRange, rfl⟩
    exact .last (by rw [next?_one, if_neg (by omega)])

/-- The first two bytes are not those of half of a pair. -/
theorem completes_two_iff :
    Completes ⟨2, n, lo, hi⟩ tail c ↔
      ∃ b more, tail = b :: more ∧ (lo ≤ b ∧ b ≤ hi) ∧
        ¬(0xD800 / 64 ≤ n * 64 + (b - 0x80) ∧ n * 64 + (b - 0x80) < 0xE000 / 64) ∧
        Completes ⟨1, n * 64 + (b - 0x80), 0x80, 0xBF⟩ more c := by
  constructor
  · intro h
    cases h with
    | last h =>
        rw [next?_two] at h
        split at h
        · cases h
        · split at h <;> cases h
    | @more _ q b more _ h hTail =>
        rw [next?_two] at h
        split at h
        · cases h
        · split at h
          · cases h
            obtain ⟨d, -, hRange, -⟩ := completes_one_iff.mp hTail
            omega
          · rename_i hHalf
            cases h
            exact ⟨b, more, rfl, by omega, hHalf, hTail⟩
  · rintro ⟨b, more, rfl, hRange, hHalf, hTail⟩
    exact .more (by rw [next?_two, if_neg (by omega), if_neg hHalf]) hTail

theorem completes_three_iff :
    Completes ⟨3, n, lo, hi⟩ tail c ↔
      ∃ b more, tail = b :: more ∧ (lo ≤ b ∧ b ≤ hi) ∧
        Completes ⟨2, n * 64 + (b - 0x80), 0x80, 0xBF⟩ more c := by
  constructor
  · intro h
    cases h with
    | last h =>
        rw [next?_three] at h
        split at h <;> cases h
    | @more _ q b more _ h hTail =>
        rw [next?_three] at h
        split at h
        · cases h
        · cases h
          exact ⟨b, more, rfl, by omega, hTail⟩
  · rintro ⟨b, more, rfl, hRange, hTail⟩
    exact .more (by rw [next?_three, if_neg (by omega)]) hTail

theorem encodeOne_two (h : 0x80 ≤ n ∧ n < 0x800) :
    encodeOne n = [0xC0 + n / 64, 0x80 + n % 64] := by
  rw [encodeOne, if_neg (by omega), if_pos (by omega)]

theorem encodeOne_three (h : 0x800 ≤ n ∧ n < 0x10000) :
    encodeOne n = [0xE0 + n / 64 / 64, 0x80 + n / 64 % 64, 0x80 + n % 64] := by
  rw [encodeOne, if_neg (by omega), if_neg (by omega), if_pos (by omega)]

theorem encodeOne_four (h : 0x10000 ≤ n) :
    encodeOne n =
      [0xF0 + n / 64 / 64 / 64, 0x80 + n / 64 / 64 % 64, 0x80 + n / 64 % 64, 0x80 + n % 64] := by
  rw [encodeOne, if_neg (by omega), if_neg (by omega), if_neg (by omega)]

theorem exists_char_of_eq (hNumber : n < 0xD800 ∨ 0xE000 ≤ n ∧ n < 0x110000)
    (hBytes : bytes = encodeOne n) (hc : .ofNat n = c) :
    ∃ d : Char, c = .char d ∧ bytes = encodeOne d.toNat := by
  obtain ⟨d, hd, hOf⟩ := CodePoint.exists_char hNumber
  exact ⟨d, by rw [← hc, hOf], by rw [hd, hBytes]⟩

theorem exists_char_of_two (hb : 0xC2 ≤ b ∧ b ≤ 0xDF)
    (h : Completes ⟨1, b - 0xC0, 0x80, 0xBF⟩ tail c) :
    ∃ d : Char, c = .char d ∧ b :: tail = encodeOne d.toNat := by
  obtain ⟨x, rfl, hx, hc⟩ := completes_one_iff.mp h
  refine exists_char_of_eq (by omega) ?_ hc
  rw [encodeOne_two (by omega)]
  simp only [List.cons.injEq, and_true]
  omega

/-- After the first of three bytes; a bound on the second rules out what has a shorter form. -/
theorem exists_char_of_three (hb : 0xE0 ≤ b ∧ b ≤ 0xEF) (hLow : 0x80 ≤ lo) (hHigh : hi ≤ 0xBF)
    (hShort : b = 0xE0 → 0xA0 ≤ lo) (h : Completes ⟨2, b - 0xE0, lo, hi⟩ tail c) :
    ∃ d : Char, c = .char d ∧ b :: tail = encodeOne d.toNat := by
  obtain ⟨x, _, rfl, hx, hHalf, hTail⟩ := completes_two_iff.mp h
  obtain ⟨y, rfl, hy, hc⟩ := completes_one_iff.mp hTail
  refine exists_char_of_eq (by omega) ?_ hc
  rw [encodeOne_three (by omega)]
  simp only [List.cons.injEq, and_true]
  omega

/-- After the first of four bytes; bounds on the second rule out what has a shorter form and what
lies above the last code point. -/
theorem exists_char_of_four (hb : 0xF0 ≤ b ∧ b ≤ 0xF4) (hLow : 0x80 ≤ lo) (hHigh : hi ≤ 0xBF)
    (hShort : b = 0xF0 → 0x90 ≤ lo) (hLast : b = 0xF4 → hi ≤ 0x8F)
    (h : Completes ⟨3, b - 0xF0, lo, hi⟩ tail c) :
    ∃ d : Char, c = .char d ∧ b :: tail = encodeOne d.toNat := by
  obtain ⟨x, _, rfl, hx, hRest⟩ := completes_three_iff.mp h
  obtain ⟨y, _, rfl, hy, -, hTail⟩ := completes_two_iff.mp hRest
  obtain ⟨z, rfl, hz, hc⟩ := completes_one_iff.mp hTail
  refine exists_char_of_eq (by omega) ?_ hc
  rw [encodeOne_four (by omega)]
  simp only [List.cons.injEq, and_true]
  omega

theorem exists_char_of_makes (h : Makes bytes c) :
    ∃ d : Char, c = .char d ∧ bytes = encodeOne d.toNat := by
  cases h with
  | @single b _ h =>
      unfold start? at h
      split at h
      · refine exists_char_of_eq (n := b) (by omega) ?_ (Sum.inl.inj (Option.some.inj h))
        rw [encodeOne, if_pos (by omega)]
      · grind
  | @several b p tail _ h hTail =>
      unfold start? at h
      split at h
      · cases h
      split at h
      · cases h
        exact exists_char_of_two (by omega) hTail
      split at h
      · rename_i hb
        cases h
        subst hb
        exact exists_char_of_three (by decide) (by decide) (by decide) (by decide) hTail
      split at h
      · cases h
        exact exists_char_of_three (by omega) (by decide) (by decide) (by omega) hTail
      split at h
      · rename_i hb
        cases h
        subst hb
        exact exists_char_of_four (by decide) (by decide) (by decide) (by decide) (by decide) hTail
      split at h
      · cases h
        exact exists_char_of_four (by omega) (by decide) (by decide) (by omega) (by omega) hTail
      split at h
      · rename_i hb
        cases h
        subst hb
        exact exists_char_of_four (by decide) (by decide) (by decide) (by decide) (by decide) hTail
      · cases h

/-! The last six bits of a number, and those before them, are those of its further bytes. -/

theorem completes_one (hHead : b * 64 + n % 64 = n) :
    Completes ⟨1, b, 0x80, 0xBF⟩ [0x80 + n % 64] (.ofNat n) := by
  refine completes_one_iff.mpr ⟨_, rfl, by omega, ?_⟩
  rw [Nat.add_sub_cancel_left, hHead]

theorem completes_two (hNumber : n < 0xD800 ∨ 0xE000 ≤ n) (hHead : b * 64 + n / 64 % 64 = n / 64)
    (hLow : lo ≤ 0x80 + n / 64 % 64) :
    Completes ⟨2, b, lo, 0xBF⟩ [0x80 + n / 64 % 64, 0x80 + n % 64] (.ofNat n) :=
  completes_two_iff.mpr ⟨_, _, rfl, by omega, by omega, completes_one (by omega)⟩

theorem completes_three (hNumber : 0x10000 ≤ n) (hHead : b * 64 + n / 64 / 64 % 64 = n / 64 / 64)
    (hLow : lo ≤ 0x80 + n / 64 / 64 % 64) (hHigh : 0x80 + n / 64 / 64 % 64 ≤ hi) :
    Completes ⟨3, b, lo, hi⟩ [0x80 + n / 64 / 64 % 64, 0x80 + n / 64 % 64, 0x80 + n % 64]
      (.ofNat n) := by
  refine completes_three_iff.mpr ⟨_, _, rfl, ⟨hLow, hHigh⟩, ?_⟩
  exact completes_two (.inr (by omega)) (by omega) (by omega)

theorem makes_three (hNumber : n < 0xD800 ∨ 0xE000 ≤ n) (hRange : 0x800 ≤ n ∧ n < 0x10000) :
    Makes (encodeOne n) (.ofNat n) := by
  rw [encodeOne_three hRange]
  by_cases hZero : n / 64 / 64 = 0
  · have hStart : start? (0xE0 + n / 64 / 64) = some (.inr ⟨2, 0, 0xA0, 0xBF⟩) := by
      rw [hZero]
      rfl
    exact .several hStart (completes_two hNumber (by omega) (by omega))
  · have hStart : start? (0xE0 + n / 64 / 64) =
        some (.inr ⟨2, 0xE0 + n / 64 / 64 - 0xE0, 0x80, 0xBF⟩) := by
      rw [start?, if_neg (by omega), if_neg (by omega), if_neg (by omega), if_pos (by omega)]
    exact .several hStart (completes_two hNumber (by omega) (by omega))

theorem makes_four (hRange : 0x10000 ≤ n ∧ n < 0x110000) : Makes (encodeOne n) (.ofNat n) := by
  rw [encodeOne_four hRange.1]
  have hRest {m lo hi : Nat} := @completes_three n lo hi m hRange.1
  by_cases hZero : n / 64 / 64 / 64 = 0
  · have hStart : start? (0xF0 + n / 64 / 64 / 64) = some (.inr ⟨3, 0, 0x90, 0xBF⟩) := by
      rw [hZero]
      rfl
    exact .several hStart (hRest (by omega) (by omega) (by omega))
  by_cases hFour : n / 64 / 64 / 64 = 4
  · have hStart : start? (0xF0 + n / 64 / 64 / 64) = some (.inr ⟨3, 4, 0x80, 0x8F⟩) := by
      rw [hFour]
      rfl
    exact .several hStart (hRest (by omega) (by omega) (by omega))
  · have hStart : start? (0xF0 + n / 64 / 64 / 64) =
        some (.inr ⟨3, 0xF0 + n / 64 / 64 / 64 - 0xF0, 0x80, 0xBF⟩) := by
      rw [start?, if_neg (by omega), if_neg (by omega), if_neg (by omega), if_neg (by omega),
        if_neg (by omega), if_pos (by omega)]
    exact .several hStart (hRest (by omega) (by omega) (by omega))

theorem makes_encodeOne (d : Char) : Makes (encodeOne d.toNat) (.char d) := by
  have hOf : CodePoint.ofNat d.toNat = .char d := CodePoint.ofNat_toNat (.char d)
  have hCases := CodePoint.toNat_char_cases d
  rw [← hOf]
  generalize d.toNat = n at hCases
  by_cases hOne : n < 0x80
  · rw [encodeOne, if_pos hOne]
    exact .single (by rw [start?, if_pos hOne])
  by_cases hTwo : n < 0x800
  · rw [encodeOne_two (by omega)]
    have hStart : start? (0xC0 + n / 64) = some (.inr ⟨1, 0xC0 + n / 64 - 0xC0, 0x80, 0xBF⟩) := by
      rw [start?, if_neg (by omega), if_pos (by omega)]
    exact .several hStart (completes_one (by omega))
  by_cases hThree : n < 0x10000
  · exact makes_three (by omega) (by omega)
  · exact makes_four (by omega)

/-! ## Texts -/

theorem readFrom_of_completes (h : Completes p tail c) :
    ∃ later, readFrom done index (some p) (tail ++ rest) =
      readFrom (c :: done) later none rest := by
  induction h generalizing index with
  | last h => exact ⟨index + 1, by rw [List.singleton_append, readFrom, Option.elim_some, h]⟩
  | more h _ ih =>
      obtain ⟨later, hRest⟩ := @ih (index + 1)
      refine ⟨later, ?_⟩
      rw [List.cons_append, readFrom, Option.elim_some, h]
      exact hRest

theorem readFrom_of_makes (h : Makes bytes c) :
    ∃ later, readFrom done index none (bytes ++ rest) = readFrom (c :: done) later none rest := by
  cases h with
  | single h => exact ⟨index + 1, by rw [List.singleton_append, readFrom, Option.elim_none, h]⟩
  | several h hTail =>
      obtain ⟨later, hRest⟩ := @readFrom_of_completes done (index + 1) _ _ rest _ hTail
      refine ⟨later, ?_⟩
      rw [List.cons_append, readFrom, Option.elim_none, h]
      exact hRest

theorem readFrom_encode (cs : List Char) :
    readFrom done index none (encode cs) = ((cs.map .char).reverse ++ done, .whole) := by
  induction cs generalizing done index with
  | nil => rfl
  | cons d cs ih =>
      obtain ⟨later, hRest⟩ := @readFrom_of_makes done index _ (encode cs) _ (makes_encodeOne d)
      rw [encode, List.flatMap_cons, ← encode, hRest, ih]
      simp

theorem exists_completes (h : (readFrom done index (some p) bytes).2 = .whole) :
    ∃ tail rest c later, bytes = tail ++ rest ∧ Completes p tail c ∧
      (readFrom (c :: done) later none rest).2 = .whole := by
  induction bytes generalizing p index with
  | nil => cases h
  | cons b bytes ih =>
      rw [readFrom, Option.elim_some] at h
      split at h
      · cases h
      · rename_i c hNext
        exact ⟨[b], bytes, c, _, rfl, .last hNext, h⟩
      · rename_i q hNext
        obtain ⟨tail, rest, c, later, rfl, hTail, hRest⟩ := ih h
        exact ⟨b :: tail, rest, c, later, rfl, .more hNext hTail, hRest⟩

theorem exists_makes (hSome : bytes ≠ []) (h : (readFrom done index none bytes).2 = .whole) :
    ∃ front rest c later, bytes = front ++ rest ∧ Makes front c ∧
      (readFrom (c :: done) later none rest).2 = .whole := by
  obtain ⟨b, bytes, rfl⟩ := List.exists_cons_of_ne_nil hSome
  rw [readFrom, Option.elim_none] at h
  split at h
  · cases h
  · rename_i c hStart
    exact ⟨[b], bytes, c, _, rfl, .single hStart, h⟩
  · rename_i p hStart
    obtain ⟨tail, rest, c, later, rfl, hTail, hRest⟩ := exists_completes h
    exact ⟨b :: tail, rest, c, later, rfl, .several hStart hTail, hRest⟩

/-- What is read to its end was written. -/
theorem exists_encode (h : (readFrom done index none bytes).2 = .whole) :
    ∃ cs, bytes = encode cs := by
  induction hLength : bytes.length using Nat.strongRecOn generalizing bytes done index with
  | _ length ih =>
      by_cases hSome : bytes = []
      · exact ⟨[], hSome⟩
      · obtain ⟨front, rest, c, later, rfl, hFront, hRest⟩ := exists_makes hSome h
        have hShorter : rest.length < length := by
          have hPositive : 0 < front.length := by cases hFront <;> simp
          rw [← hLength, List.length_append]
          omega
        obtain ⟨cs, rfl⟩ := ih _ hShorter hRest rfl
        obtain ⟨d, -, rfl⟩ := exists_char_of_makes hFront
        exact ⟨d :: cs, rfl⟩

theorem decode_encode (cs : List Char) : decode (encode cs) = ⟨cs.map .char, true⟩ := by
  rw [decode, readFrom_encode]
  simp

/-- Just the bytes of texts of characters are read to their end. -/
theorem isWhole_decode_iff : (decode bytes).isWhole = true ↔ ∃ cs, bytes = encode cs := by
  constructor
  · intro h
    apply @exists_encode [] 0
    unfold decode at h
    split at h
    · rename_i hRead
      rw [hRead]
    · cases h
    · cases h
  · rintro ⟨cs, rfl⟩
    rw [decode_encode]

end Text.Utf8

end LogQuery
