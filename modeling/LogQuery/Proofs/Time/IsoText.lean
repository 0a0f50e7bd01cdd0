import LogQuery.Time.IsoText
import LogQuery.Proofs.Time.Calendar
import Mathlib.Data.List.Basic
import Mathlib.Data.List.Induction

/-! Reading of ISO times. What is read lies within the calendar, and an instant is read from the text
that it is written as. -/

namespace LogQuery.Time

open IsoText

variable {width n : Nat} {ds cs rest : Text}

/-! ## Numbers -/

theorem toNat_le_of_isDigit {c : Char} (h : c.isDigit = true) : c.toNat ≤ 57 := by
  simp only [Char.isDigit, Bool.and_eq_true, decide_eq_true_eq] at h
  exact UInt32.le_iff_toNat_le.mp h.2

theorem digitValue?_of_isDigit {c : Char} (h : c.isDigit = true) :
    Text.digitValue? (.char c) = some (c.toNat - '0'.toNat) := by
  have hLt : (CodePoint.char c).toNat < 128 :=
    Nat.lt_of_le_of_lt (toNat_le_of_isDigit h) (by decide)
  have hDigit : (CodePoint.char c).isDigit = true := h
  rw [Text.digitValue?, if_pos hLt, if_pos hDigit]
  rfl

theorem ofDigits_char (cs : List Char) (h : ∀ c ∈ cs, c.isDigit = true) :
    Integer.ofDigits (cs.map .char) = Nat.ofDigitChars 10 cs 0 := by
  rw [Integer.ofDigits, List.foldl_map, Nat.ofDigitChars]
  apply List.foldl_ext
  intro sofar c hMem
  rw [digitValue?_of_isDigit (h c hMem), Option.getD_some, Nat.mul_comm]

theorem isDigit_of_mem_digits {c : CodePoint} (h : c ∈ Integer.digits n) : c.isDigit = true := by
  obtain ⟨d, hMem, rfl⟩ := List.mem_map.mp h
  exact Nat.isDigit_of_mem_toDigits (by decide) (by decide) hMem

theorem ofDigits_digits (n : Nat) : Integer.ofDigits (Integer.digits n) = n := by
  have hDigits : ∀ c ∈ Nat.toDigits 10 n, c.isDigit = true := fun c hMem =>
    Nat.isDigit_of_mem_toDigits (by decide) (by decide) hMem
  rw [Integer.digits, ofDigits_char _ hDigits, Nat.ofDigitChars_toDigits (by decide) (by decide)]

theorem ofDigits_zeros_append (k : Nat) (ds : Text) :
    Integer.ofDigits (Integer.zeros k ++ ds) = Integer.ofDigits ds := by
  induction k with
  | zero => rfl
  | succ k ih => exact ih

theorem ofDigits_padded (width n : Nat) : Integer.ofDigits (Instant.padded width n) = n := by
  rw [Instant.padded, ofDigits_zeros_append, ofDigits_digits]

theorem isDigit_of_mem_padded {c : CodePoint} (h : c ∈ Instant.padded width n) :
    c.isDigit = true := by
  rcases List.mem_append.mp h with hZero | hDigit
  · rw [List.eq_of_mem_replicate hZero]
    rfl
  · exact isDigit_of_mem_digits hDigit

theorem length_padded (hWidth : 0 < width) (h : n < 10 ^ width) :
    (Instant.padded width n).length = width := by
  have hLength : (Integer.digits n).length ≤ width := by
    rw [Integer.digits, List.length_map, Nat.length_toDigits_le_iff (by decide) hWidth]
    exact h
  rw [Instant.padded, List.length_append, Integer.zeros, List.length_replicate]
  omega

/-- A number with zeros before it is read, and what follows is left. -/
theorem number?_padded (hWidth : 0 < width) (h : n < 10 ^ width) (rest : Text) :
    number? width (Instant.padded width n ++ rest) = some (n, rest) := by
  have hLength := length_padded hWidth h
  have hDigits : (Instant.padded width n).all CodePoint.isDigit = true :=
    List.all_eq_true.mpr fun c hMem => isDigit_of_mem_padded hMem
  simp [number?, List.take_left' hLength, List.drop_left' hLength, hLength, hDigits,
    ofDigits_padded]

/-! ## What is read lies within the calendar -/

theorem digitValue?_lt {c : CodePoint} (h : c.isDigit = true) :
    (Text.digitValue? c).getD 0 < 10 := by
  cases c with
  | half place => cases h
  | char c =>
      have hDigit : c.isDigit = true := h
      have hLe := toNat_le_of_isDigit hDigit
      have hZero : '0'.toNat = 48 := rfl
      rw [digitValue?_of_isDigit hDigit, Option.getD_some]
      omega

theorem ofDigits_lt (h : ∀ c ∈ ds, c.isDigit = true) : Integer.ofDigits ds < 10 ^ ds.length := by
  induction ds using List.reverseRecOn with
  | nil => exact Nat.one_pos
  | append_singleton ds c ih =>
      have hRest := ih fun d hMem => h d (List.mem_append_left [c] hMem)
      have hLast := digitValue?_lt (h c (List.mem_append_right ds List.mem_cons_self))
      have hStep : Integer.ofDigits (ds ++ [c]) =
          Integer.ofDigits ds * 10 + (Text.digitValue? c).getD 0 := by
        rw [Integer.ofDigits, List.foldl_append]
        rfl
      rw [hStep, List.length_append, List.length_singleton, Nat.pow_succ]
      omega

theorem number?_lt (h : number? width cs = some (n, rest)) : n < 10 ^ width := by
  simp only [number?, Bool.and_eq_true, decide_eq_true_eq, List.all_eq_true] at h
  split at h
  · rename_i hDigits
    have hLt := ofDigits_lt hDigits.2
    rw [hDigits.1] at hLt
    cases h
    exact hLt
  · cases h

/-- Of the digits of a fraction six count, and zeros stand for those that are missing. -/
theorem fraction?_lt {next : CodePoint} {left : Bool} (h : fraction? next cs = some (n, left)) :
    n < microsPerSecond := by
  simp only [fraction?, Option.bind_eq_bind, Option.bind_eq_some_iff] at h
  obtain ⟨⟨digits, rest⟩, hNumber, hSome⟩ := h
  cases hSome
  have hCount : min cs.length 6 ≤ 6 := Nat.min_le_right _ _
  calc digits * 10 ^ (6 - min cs.length 6)
      < 10 ^ min cs.length 6 * 10 ^ (6 - min cs.length 6) :=
        Nat.mul_lt_mul_of_pos_right (number?_lt hNumber) (Nat.pow_pos (by decide))
    _ = 10 ^ 6 := by rw [← Nat.pow_add, Nat.add_sub_cancel' hCount]
    _ = microsPerSecond := rfl

theorem micros_lt_of_clockFrom {next : CodePoint} {done : List Nat} {colons : Bool} {more : Nat}
    {clock : Clock} {left : Bool}
    (h : clockFrom? next done colons more cs = some (clock, left)) :
    clock.micros < microsPerSecond := by
  induction more generalizing done colons cs with
  | zero =>
      simp only [clockFrom?, Option.bind_eq_bind, Option.bind_eq_some_iff] at h
      obtain ⟨⟨micros, _⟩, hFraction, hSome⟩ := h
      cases hSome
      exact fraction?_lt hFraction
  | succ more ih =>
      simp only [clockFrom?, Option.bind_eq_bind, Option.bind_eq_some_iff] at h
      obtain ⟨⟨n, rest⟩, hNumber, h⟩ := h
      have hNone : 0 < microsPerSecond := by decide
      dsimp only at h
      split at h
      · cases h
        exact hNone
      · cases h
        exact hNone
      · rename_i c rest _
        generalize (if done.isEmpty then c == CodePoint.char ':' else colons) = colons at h
        split at h
        · exact ih h
        · split at h
          · obtain ⟨⟨micros, _⟩, hFraction, hSome⟩ := Option.bind_eq_some_iff.mp h
            cases hSome
            exact fraction?_lt hFraction
          · split at h
            · cases h
            · exact ih h

theorem micros_lt_of_time {clock : Clock} {offset : Option Int}
    (h : time? cs = some (clock, offset)) : clock.micros < microsPerSecond := by
  simp only [time?, Option.bind_eq_bind, Option.bind_eq_some_iff] at h
  obtain ⟨⟨c, left⟩, hClock, h⟩ := h
  have hLt := micros_lt_of_clockFrom hClock
  dsimp only at h
  split at h
  · split at h
    · cases h
    · cases h
      exact hLt
  · obtain ⟨_, -, hSome⟩ := Option.bind_eq_some_iff.mp h
    cases hSome
    exact hLt

/-- A time of day begins within the day. -/
theorem micros_lt_of_isValid {clock : Clock} (h : clock.isValid = true)
    (hMicros : clock.micros < microsPerSecond) :
    clock.seconds * microsPerSecond + clock.micros < microsPerDay := by
  simp only [Clock.isValid, Bool.and_eq_true, decide_eq_true_eq] at h
  obtain ⟨⟨hHours, hMinutes⟩, hSeconds⟩ := h
  have hSecond : microsPerSecond = 1000000 := rfl
  have hDay : microsPerDay = 86400000000 := rfl
  rw [Clock.seconds, hSecond, hDay]
  omega

theorem Instant.exists_of_read {s : Text} {t : Instant} (h : Instant.read? s = some t) :
    ∃ (date : Date) (inDay : Nat), date.isValid = true ∧ inDay < microsPerDay ∧
      t.micros = (date.toDays * microsPerDay + inDay : Nat) := by
  unfold Instant.read? at h
  split at h
  · cases h
  · simp only [Option.bind_eq_bind, Option.bind_eq_some_iff] at h
    obtain ⟨cs, -, date, -, h⟩ := h
    have hTimed : ∃ (clock : Clock) (offset : Option Int), clock.micros < microsPerSecond ∧
        (if (date.isValid && clock.isValid && validOffset offset) = true then
          pure (⟨date.toDays * microsPerDay + clock.seconds * microsPerSecond + clock.micros,
            offset⟩ : Instant)
        else none) = some t := by
      split at h
      · obtain ⟨⟨clock, offset⟩, hTime, hSome⟩ := Option.bind_eq_some_iff.mp h
        exact ⟨clock, offset, micros_lt_of_time hTime, hSome⟩
      · exact ⟨⟨[], 0⟩, none, by decide, h⟩
    obtain ⟨clock, offset, hMicros, hSome⟩ := hTimed
    split at hSome
    · rename_i hValid
      simp only [Bool.and_eq_true] at hValid
      cases hSome
      refine ⟨date, _, hValid.1.1, micros_lt_of_isValid hValid.1.2 hMicros, ?_⟩
      push_cast
      rw [Int.add_assoc]
    · cases hSome

/-- What is read lies within the calendar. -/
theorem Instant.inRange_of_read {s : Text} {t : Instant} (h : Instant.read? s = some t) :
    t.inRange = true := by
  obtain ⟨date, inDay, hDate, hDay, hMicros⟩ := Instant.exists_of_read h
  have hLt := Date.toDays_lt hDate
  have hLast : date.toDays * microsPerDay + inDay < Date.dayCount * microsPerDay := by
    calc date.toDays * microsPerDay + inDay < (date.toDays + 1) * microsPerDay := by
          rw [Nat.succ_mul]
          omega
      _ ≤ Date.dayCount * microsPerDay := Nat.mul_le_mul_right _ hLt
  simp only [Instant.inRange, Bool.and_eq_true, decide_eq_true_eq, hMicros]
  omega

/-! ## Times of day -/

theorem fraction?_padded (next : CodePoint) (h : n < microsPerSecond) :
    fraction? next (Instant.padded 6 n) = some (n, next != ending) := by
  have hLength := length_padded (show 0 < 6 by decide) h
  have hNumber := number?_padded (show 0 < 6 by decide) h []
  rw [List.append_nil] at hNumber
  simp [fraction?, hLength, hNumber, peek]

theorem exists_padded_cons (hWidth : 0 < width) (h : n < 10 ^ width) :
    ∃ c ds, Instant.padded width n = c :: ds ∧ c.isDigit = true := by
  have hLength := length_padded hWidth h
  cases hPadded : Instant.padded width n with
  | nil =>
      rw [hPadded, List.length_nil] at hLength
      omega
  | cons c ds => exact ⟨c, ds, rfl, isDigit_of_mem_padded (hPadded ▸ List.mem_cons_self)⟩

/-- A part of a time that a colon stands after is read, and the reading goes on with the next one. -/
theorem clockFrom?_colon (next : CodePoint) (done : List Nat) (more : Nat) (h : n < 100)
    (hRest : rest ≠ []) :
    clockFrom? next done true (more + 1) (Instant.padded 2 n ++ CodePoint.char ':' :: rest) =
      clockFrom? next (done ++ [n]) true more rest := by
  obtain ⟨c, cs, rfl⟩ := List.exists_cons_of_ne_nil hRest
  have hNumber := number?_padded (show 0 < 2 by decide) h (CodePoint.char ':' :: c :: cs)
  simp [clockFrom?, hNumber]

theorem clockFrom?_last (next : CodePoint) (done : List Nat) (more : Nat) (h : n < 100) :
    clockFrom? next done true (more + 1) (Instant.padded 2 n) =
      some (⟨done ++ [n], 0⟩, next != ending) := by
  have hNumber := number?_padded (show 0 < 2 by decide) h []
  rw [List.append_nil] at hNumber
  simp [clockFrom?, hNumber]

theorem clockFrom?_point (next : CodePoint) (done : List Nat) (more : Nat) (h : n < 100)
    {micros : Nat} (hMicros : micros < microsPerSecond) :
    clockFrom? next done true (more + 1)
        (Instant.padded 2 n ++ CodePoint.char '.' :: Instant.padded 6 micros) =
      some (⟨done ++ [n], micros⟩, next != ending) := by
  have hFraction := fraction?_padded next hMicros
  obtain ⟨c, ds, hPadded, -⟩ := exists_padded_cons (show 0 < 6 by decide) hMicros
  rw [hPadded] at hFraction ⊢
  have hNumber := number?_padded (show 0 < 2 by decide) h (CodePoint.char '.' :: c :: ds)
  simp [clockFrom?, hNumber, hFraction]

/-- The seconds of a clock are read, and so are the microseconds after them if there are any. -/
theorem clockFrom?_fraction (next : CodePoint) (done : List Nat) (more : Nat) (h : n < 100)
    {micros : Nat} (hMicros : micros < microsPerSecond) :
    clockFrom? next done true (more + 1) (Instant.padded 2 n ++ Instant.fraction micros) =
      some (⟨done ++ [n], micros⟩, next != ending) := by
  unfold Instant.fraction
  split
  · rename_i hNone
    rw [hNone, List.append_nil, clockFrom?_last next done more h]
  · exact clockFrom?_point next done more h hMicros

/-- A time of day is read from the text that it is written as. -/
theorem clock?_clock (next : CodePoint) {seconds micros : Nat} (h : seconds < 24 * 3600)
    (hMicros : micros < microsPerSecond) :
    clock? next (Instant.clock seconds ++ Instant.fraction micros) =
      some (⟨[seconds / 3600, seconds / 60 % 60, seconds % 60], micros⟩, next != ending) := by
  have hHours : seconds / 3600 < 100 := by omega
  have hMinutes : seconds / 60 % 60 < 100 := by omega
  have hSeconds : seconds % 60 < 100 := by omega
  have hText : Instant.clock seconds ++ Instant.fraction micros =
      Instant.padded 2 (seconds / 3600) ++ CodePoint.char ':' ::
        (Instant.padded 2 (seconds / 60 % 60) ++ CodePoint.char ':' ::
          (Instant.padded 2 (seconds % 60) ++ Instant.fraction micros)) := by
    simp only [Instant.clock, List.append_assoc]
    rfl
  have hLast : Instant.padded 2 (seconds % 60) ++ Instant.fraction micros ≠ [] := by
    obtain ⟨c, ds, hPadded, -⟩ := exists_padded_cons (show 0 < 2 by decide) hSeconds
    simp [hPadded]
  rw [clock?, hText, clockFrom?_colon next [] 2 hHours (by simp),
    clockFrom?_colon next _ 1 hMinutes hLast, clockFrom?_fraction next _ 0 hSeconds hMicros]
  rfl

/-! ## Offsets -/

/-- An offset that is written so that it is read again: below a day, and none or at least a second. -/
def IsOffset (offset : Int) : Prop :=
  offset.natAbs < microsPerDay ∧ (offset = 0 ∨ microsPerSecond ≤ offset.natAbs)

theorem clock?_take (next : CodePoint) {seconds : Nat} (h : seconds < 24 * 3600) :
    clock? next ((Instant.clock seconds).take 5) =
      some (⟨[seconds / 3600, seconds / 60 % 60], 0⟩, next != ending) := by
  have hHours : seconds / 3600 < 100 := by omega
  have hMinutes : seconds / 60 % 60 < 100 := by omega
  have hText : Instant.clock seconds =
      (Instant.padded 2 (seconds / 3600) ++ CodePoint.char ':' ::
        Instant.padded 2 (seconds / 60 % 60)) ++ (":" ++ Instant.padded 2 (seconds % 60)) := by
    simp only [Instant.clock, List.append_assoc]
    rfl
  have hFirst := length_padded (show 0 < 2 by decide) hHours
  have hSecond := length_padded (show 0 < 2 by decide) hMinutes
  have hSome : Instant.padded 2 (seconds / 60 % 60) ≠ [] := by
    rw [← List.length_pos_iff, hSecond]
    decide
  rw [hText, List.take_left' (by simp [hFirst, hSecond]), clock?,
    clockFrom?_colon next [] 2 hHours hSome, clockFrom?_last next _ 1 hMinutes]
  rfl

/-- The text of an offset without its sign. -/
def unsignedOffset (micros : Nat) : Text :=
  let fraction := micros % microsPerSecond
  let seconds := micros / microsPerSecond
  if fraction = 0 ∧ seconds % 60 = 0 then (Instant.clock seconds).take 5
  else Instant.clock seconds ++ Instant.fraction fraction

theorem offsetText_eq (offset : Int) :
    Instant.offsetText offset =
      CodePoint.char (if offset < 0 then '-' else '+') :: unsignedOffset offset.natAbs := by
  unfold Instant.offsetText unsignedOffset
  split <;> rfl

/-- The time that an offset is written as says how far it is from universal time. -/
theorem exists_clock?_unsignedOffset {micros : Nat} (h : micros < microsPerDay) :
    ∃ clock : Clock, clock? ending (unsignedOffset micros) = some (clock, false) ∧
      clock.seconds = micros / microsPerSecond ∧ clock.micros = micros % microsPerSecond := by
  have hSeconds : micros / microsPerSecond < 24 * 3600 := by
    rw [Nat.div_lt_iff_lt_mul (by decide)]
    exact h
  have hMicros : micros % microsPerSecond < microsPerSecond := Nat.mod_lt _ (by decide)
  simp only [unsignedOffset]
  split
  · rename_i hWhole
    refine ⟨_, clock?_take ending hSeconds, ?_, hWhole.1.symm⟩
    simp only [Clock.seconds, List.getD_cons_zero, List.getD_cons_succ, List.getD_nil]
    omega
  · refine ⟨_, clock?_clock ending hSeconds hMicros, ?_, rfl⟩
    simp only [Clock.seconds, List.getD_cons_zero, List.getD_cons_succ]
    omega

theorem offset?_sign {sign : Char} (hSign : sign ≠ 'Z') {clock : Clock}
    (h : clock? ending rest = some (clock, false)) :
    offset? (CodePoint.char sign :: rest) =
      let micros : Int :=
        if clock.seconds = 0 then 0 else clock.seconds * microsPerSecond + clock.micros
      some (if CodePoint.char sign == '-' then -micros else micros) := by
  unfold offset?
  split
  · rename_i hZero
    cases hZero
    exact absurd rfl hSign
  · rename_i hSigned
    cases hSigned
    rw [h]
  · rename_i hNone
    cases hNone

theorem offset?_offsetText {offset : Int} (h : IsOffset offset) :
    offset? (Instant.offsetText offset) = some offset := by
  obtain ⟨clock, hClock, hSeconds, hMicros⟩ := exists_clock?_unsignedOffset h.1
  have hAbove : (if clock.seconds = 0 then 0
      else (clock.seconds * microsPerSecond + clock.micros : Int)) = offset.natAbs := by
    have hSecond : microsPerSecond = 1000000 := rfl
    have hOffset := h.2
    rw [hSeconds, hMicros]
    rw [hSecond] at hOffset ⊢
    split <;> omega
  rw [offsetText_eq]
  split
  · rw [offset?_sign (by decide) hClock]
    simp only [hAbove, beq_self_eq_true, if_true, Option.some.injEq]
    omega
  · rw [offset?_sign (by decide) hClock]
    have hAhead : (CodePoint.char '+' == CodePoint.char '-') = false := by decide
    simp only [hAbove, hAhead, Bool.false_eq_true, if_false, Option.some.injEq]
    omega

/-! ## The characters of a written time -/

section Characters

variable {p : CodePoint → Bool} (hDigit : ∀ c : CodePoint, c.isDigit = true → p c = true)

include hDigit

theorem all_padded (width n : Nat) : (Instant.padded width n).all p = true :=
  List.all_eq_true.mpr fun c hMem => hDigit c (isDigit_of_mem_padded hMem)

theorem all_clock (hColon : p ':' = true) (seconds : Nat) :
    (Instant.clock seconds).all p = true := by
  have hSign : List.all (":" : Text) p = true := by
    show (p ':' && true) = true
    rw [hColon, Bool.true_and]
  simp only [Instant.clock, List.all_append, all_padded hDigit, hSign, Bool.and_self]

theorem all_fraction (hPoint : p '.' = true) (micros : Nat) :
    (Instant.fraction micros).all p = true := by
  unfold Instant.fraction
  split
  · rfl
  · rw [List.all_cons, hPoint, all_padded hDigit, Bool.and_self]

theorem all_offsetText (hColon : p ':' = true) (hPoint : p '.' = true) (hPlus : p '+' = true)
    (hMinus : p '-' = true) (offset : Int) : (Instant.offsetText offset).all p = true := by
  have hClock := all_clock hDigit hColon (offset.natAbs / microsPerSecond)
  have hUnsigned : (unsignedOffset offset.natAbs).all p = true := by
    simp only [unsignedOffset]
    split
    · rw [List.all_eq_true] at hClock ⊢
      exact fun c hMem => hClock c (List.mem_of_mem_take hMem)
    · rw [List.all_append, hClock, all_fraction hDigit hPoint, Bool.and_self]
  rw [offsetText_eq, List.all_cons, hUnsigned, Bool.and_true]
  split
  · exact hMinus
  · exact hPlus

end Characters

/-- The offset of an instant, if it is known, as it is written. -/
def offsetTail (offset : Option Int) : Text :=
  match offset with
  | some offset => Instant.offsetText offset
  | none => []

theorem ne_of_isDigit {c d : CodePoint} (hc : c.isDigit = true) (hd : d.isDigit = false) :
    c ≠ d := by
  rintro rfl
  cases hc.symm.trans hd

theorem not_startsOffset_of_isDigit (c : CodePoint) (h : c.isDigit = true) :
    (!startsOffset c) = true := by
  have hPlus : c ≠ '+' := ne_of_isDigit h rfl
  have hMinus : c ≠ '-' := ne_of_isDigit h rfl
  have hZero : c ≠ 'Z' := ne_of_isDigit h rfl
  simp [startsOffset, hPlus, hMinus, hZero]

/-- The time of day ends where the offset starts. -/
theorem time?_append {front tail : Text} (hFront : front.all (!startsOffset ·) = true)
    (hTail : tail.takeWhile (!startsOffset ·) = []) :
    time? (front ++ tail) = (clock? (peek tail) front).bind fun read =>
      match tail with
      | [] => if read.2 then none else some (read.1, none)
      | _ => (offset? tail).bind fun offset => some (read.1, some offset) := by
  have hDrop : tail.dropWhile (!startsOffset ·) = tail := by
    have hSplit := List.takeWhile_append_dropWhile (p := (!startsOffset ·)) (l := tail)
    rwa [hTail] at hSplit
  have hFront := List.all_eq_true.mp hFront
  rw [time?, List.takeWhile_append_of_pos hFront, List.dropWhile_append_of_pos hFront, hTail, hDrop,
    List.append_nil]
  rfl

theorem takeWhile_offsetTail (offset : Option Int) :
    (offsetTail offset).takeWhile (!startsOffset ·) = [] := by
  cases offset with
  | none => rfl
  | some ahead =>
      rw [offsetTail, offsetText_eq]
      split <;> rfl

/-- The time after a date is read from the text that it is written as, and so is the offset. -/
theorem time?_written {seconds micros : Nat} (h : seconds < 24 * 3600)
    (hMicros : micros < microsPerSecond) {offset : Option Int}
    (hOffset : ∀ ahead, offset = some ahead → IsOffset ahead) :
    time? (Instant.clock seconds ++ Instant.fraction micros ++ offsetTail offset) =
      some (⟨[seconds / 3600, seconds / 60 % 60, seconds % 60], micros⟩, offset) := by
  have hBody : (Instant.clock seconds ++ Instant.fraction micros).all (!startsOffset ·) = true := by
    rw [List.all_append, all_clock not_startsOffset_of_isDigit rfl,
      all_fraction not_startsOffset_of_isDigit rfl, Bool.and_self]
  rw [time?_append hBody (takeWhile_offsetTail offset), clock?_clock _ h hMicros]
  cases offset with
  | none => rfl
  | some ahead =>
      have hRead := offset?_offsetText (hOffset ahead rfl)
      rw [offsetText_eq] at hRead
      simp only [offsetTail, offsetText_eq, hRead, Option.bind_some]

/-! ## Written times are read -/

/-- The text of a date. -/
def dateText (d : Date) : Text :=
  Instant.padded 4 d.year ++ CodePoint.char '-' :: (Instant.padded 2 d.month ++
    CodePoint.char '-' :: Instant.padded 2 d.day)

theorem Instant.text_eq (t : Instant) :
    t.text = dateText (Date.ofDays (t.micros.toNat / microsPerDay)) ++ CodePoint.char 'T' ::
      (clock (t.micros.toNat % microsPerDay / microsPerSecond) ++
        fraction (t.micros.toNat % microsPerDay % microsPerSecond) ++ offsetTail t.offset) := by
  simp only [Instant.text, dateText, offsetTail, List.append_assoc, List.cons_append]
  rfl

theorem length_dateText {d : Date} (h : d.isValid = true) : (dateText d).length = 10 := by
  obtain ⟨hYear, hMonth, hDay⟩ := Date.lt_of_isValid h
  simp [dateText, length_padded (show 0 < 4 by decide) hYear,
    length_padded (show 0 < 2 by decide) hMonth, length_padded (show 0 < 2 by decide) hDay]

/-- A written date shows that it has ten characters. -/
theorem dateLength_dateText {d : Date} (h : d.isValid = true) (rest : Text) :
    dateLength (dateText d ++ rest) = 10 := by
  obtain ⟨hYear, hMonth, hDay⟩ := Date.lt_of_isValid h
  obtain ⟨c, ds, hPadded, hDigit⟩ := exists_padded_cons (show 0 < 2 by decide) hMonth
  have hWeek : c ≠ 'W' := ne_of_isDigit hDigit rfl
  have hLength : (dateText d).length + rest.length ≠ 7 := by
    rw [length_dateText h]
    omega
  have hYearLength := length_padded (show 0 < 4 by decide) hYear
  have hFour : (dateText d ++ rest).drop 4 = CodePoint.char '-' :: (Instant.padded 2 d.month ++
      CodePoint.char '-' :: Instant.padded 2 d.day) ++ rest := by
    rw [dateText, List.append_assoc, List.drop_left' hYearLength]
  have hFive : (dateText d ++ rest).drop 5 = (Instant.padded 2 d.month ++
      CodePoint.char '-' :: Instant.padded 2 d.day) ++ rest := by
    rw [← List.drop_drop (i := 1) (j := 4), hFour]
    rfl
  simp [dateLength, hLength, hFour, hFive, hPadded, hWeek]

theorem date?_dateText {d : Date} (h : d.isValid = true) (rest : Text) :
    date? 10 (dateText d ++ rest) = some d := by
  obtain ⟨hYear, hMonth, hDay⟩ := Date.lt_of_isValid h
  have hRead := number?_padded (show 0 < 4 by decide) hYear
  have hReadMonth := number?_padded (show 0 < 2 by decide) hMonth
  have hReadDay := number?_padded (show 0 < 2 by decide) hDay rest
  obtain ⟨c, ds, hPadded, hDigit⟩ := exists_padded_cons (show 0 < 2 by decide) hMonth
  have hWeek : c ≠ 'W' := ne_of_isDigit hDigit rfl
  have hPeek : ∀ rest, (peek (Instant.padded 2 d.month ++ rest) == CodePoint.char 'W') = false := by
    intro rest
    rw [hPadded, beq_eq_false_iff_ne]
    exact hWeek
  have hDash : ∀ rest, (peek (CodePoint.char '-' :: rest) == CodePoint.char '-') = true :=
    fun _ => rfl
  simp only [dateText, List.append_assoc, List.cons_append, date?, hRead, Option.bind_eq_bind,
    Option.bind_some, hDash, if_true, List.drop_succ_cons, List.drop_zero, hPeek,
    Bool.false_eq_true, if_false, hReadMonth, dash?, hReadDay]
  rfl

/-! ## The whole text -/

/-- A digit, or a sign of a written time. -/
def isWritten (c : CodePoint) : Bool :=
  c.isDigit || ("-T:.+" : Text).contains c

theorem isWritten_of_isDigit (c : CodePoint) (h : c.isDigit = true) : isWritten c = true := by
  rw [isWritten, h, Bool.true_or]

/-- What a written time consists of is in ASCII. -/
theorem toNat_lt_of_isWritten {c : CodePoint} (h : isWritten c = true) : c.toNat < 128 := by
  rcases Bool.or_eq_true_iff.mp h with hDigit | hSign
  · cases c with
    | half place => cases hDigit
    | char c => exact Nat.lt_of_le_of_lt (toNat_le_of_isDigit hDigit) (by decide)
  · have hSigns : ∀ sign ∈ ("-T:.+" : Text), sign.toNat < 128 := by decide
    exact hSigns c (List.contains_iff_mem.mp hSign)

theorem not_isHalf_of_isWritten {c : CodePoint} (h : isWritten c = true) : c.isHalf = false := by
  cases c with
  | char c => rfl
  | half place =>
      have hLt := toNat_lt_of_isWritten h
      have hHalf : CodePoint.firstHalf ≤ (CodePoint.half place).toNat := Nat.le_add_right _ _
      have hFirst : CodePoint.firstHalf = 0xD800 := rfl
      omega

theorem Instant.all_isWritten_text (t : Instant) : t.text.all isWritten = true := by
  have hPadded := all_padded isWritten_of_isDigit
  have hClock := all_clock isWritten_of_isDigit rfl
  have hFraction := all_fraction isWritten_of_isDigit rfl
  have hOffset : (offsetTail t.offset).all isWritten = true := by
    cases t.offset with
    | none => rfl
    | some ahead => exact all_offsetText isWritten_of_isDigit rfl rfl rfl rfl ahead
  have hDash : isWritten (CodePoint.char '-') = true := rfl
  have hBefore : isWritten (CodePoint.char 'T') = true := rfl
  rw [Instant.text_eq, dateText]
  simp only [List.all_append, List.all_cons, hPadded, hClock, hFraction, hOffset, hDash, hBefore,
    Bool.and_self]

theorem withSeparator?_of_written (h : cs.all isWritten = true) : withSeparator? cs = some cs := by
  have hWhole : ∀ c ∈ cs, c.isHalf = false := fun c hMem =>
    not_isHalf_of_isWritten (List.all_eq_true.mp h c hMem)
  have hPlaces : separatorPlaces.find? (fun i => (cs[i]?).any (·.isHalf)) = none := by
    rw [List.find?_eq_none]
    intro i _ hAny
    obtain ⟨c, hAt, hHalf⟩ := Option.any_eq_true _ _ |>.mp hAny
    cases (hWhole c (List.mem_of_getElem? hAt)).symm.trans hHalf
  have hNone : cs.any (·.isHalf) = false := by
    rw [List.any_eq_false]
    intro c hMem
    rw [hWhole c hMem]
    decide
  rw [withSeparator?, hPlaces]
  simp only [hNone, Bool.false_eq_true, if_false]

/-- Each character of a written time is one byte. -/
theorem timePart_of_written (c : CodePoint) (h : cs.all isWritten = true) :
    timePart (c :: cs) = some cs := by
  have hBytes : ∀ d ∈ cs, List.replicate (Text.Utf8.encodeOne d.toNat).length d = [d] := by
    intro d hMem
    have hLt := toNat_lt_of_isWritten (List.all_eq_true.mp h d hMem)
    rw [Text.Utf8.encodeOne, if_pos hLt]
    rfl
  rw [timePart, List.flatMap_congr hBytes, List.flatMap_singleton']

/-- A written date and a written time after it are read together. -/
theorem Instant.read?_written {d : Date} (hDate : d.isValid = true) {seconds micros : Nat}
    (hSeconds : seconds < 24 * 3600) (hMicros : micros < microsPerSecond) {offset : Option Int}
    (hOffset : ∀ ahead, offset = some ahead → IsOffset ahead)
    (hWritten : (dateText d ++ CodePoint.char 'T' ::
      (clock seconds ++ fraction micros ++ offsetTail offset)).all isWritten = true) :
    Instant.read? (dateText d ++ CodePoint.char 'T' ::
        (clock seconds ++ fraction micros ++ offsetTail offset)) =
      some ⟨d.toDays * microsPerDay + seconds * microsPerSecond + micros, offset⟩ := by
  have hTail := hWritten
  rw [List.all_append, List.all_cons, Bool.and_eq_true, Bool.and_eq_true] at hTail
  have hDrop : (dateText d ++ CodePoint.char 'T' ::
      (clock seconds ++ fraction micros ++ offsetTail offset)).drop 10 = CodePoint.char 'T' ::
        (clock seconds ++ fraction micros ++ offsetTail offset) :=
    List.drop_left' (length_dateText hDate)
  have hLength : ¬(dateText d ++ CodePoint.char 'T' ::
      (clock seconds ++ fraction micros ++ offsetTail offset)).length < 7 := by
    rw [List.length_append, length_dateText hDate]
    omega
  have hClock : Clock.isValid ⟨[seconds / 3600, seconds / 60 % 60, seconds % 60], micros⟩ = true := by
    simp only [Clock.isValid, List.getD_cons_zero, List.getD_cons_succ, Bool.and_eq_true,
      decide_eq_true_eq]
    omega
  have hClockSeconds :
      Clock.seconds ⟨[seconds / 3600, seconds / 60 % 60, seconds % 60], micros⟩ = seconds := by
    simp only [Clock.seconds, List.getD_cons_zero, List.getD_cons_succ]
    omega
  have hValid : validOffset offset = true := by
    cases offset with
    | none => rfl
    | some ahead => exact decide_eq_true (hOffset ahead rfl).1
  rw [Instant.read?, if_neg hLength, withSeparator?_of_written hWritten]
  simp only [Option.bind_eq_bind, Option.bind_some, dateLength_dateText hDate,
    date?_dateText hDate, hDrop, timePart_of_written _ hTail.2.2,
    time?_written hSeconds hMicros hOffset, hDate, hClock, hValid, hClockSeconds, Bool.and_self,
    if_true]
  rfl

/-- An instant of the calendar is read from the text that it is written as. -/
theorem Instant.read?_text {t : Instant} (hRange : t.inRange = true)
    (hOffset : ∀ ahead, t.offset = some ahead → IsOffset ahead) : Instant.read? t.text = some t := by
  simp only [Instant.inRange, Bool.and_eq_true, decide_eq_true_eq] at hRange
  have hNat : (t.micros.toNat : Int) = t.micros := Int.toNat_of_nonneg hRange.1
  have hDay : t.micros.toNat / microsPerDay < Date.dayCount := by
    rw [Nat.div_lt_iff_lt_mul (by decide)]
    omega
  have hSeconds : t.micros.toNat % microsPerDay / microsPerSecond < 24 * 3600 := by
    rw [Nat.div_lt_iff_lt_mul (by decide)]
    exact Nat.mod_lt _ (by decide)
  have hMicros : t.micros.toNat % microsPerDay % microsPerSecond < microsPerSecond :=
    Nat.mod_lt _ (by decide)
  have hWritten := Instant.all_isWritten_text t
  rw [Instant.text_eq] at hWritten ⊢
  rw [Instant.read?_written (Date.isValid_ofDays hDay) hSeconds hMicros hOffset hWritten,
    Date.toDays_ofDays]
  have hSum : t.micros.toNat / microsPerDay * microsPerDay +
      t.micros.toNat % microsPerDay / microsPerSecond * microsPerSecond +
        t.micros.toNat % microsPerDay % microsPerSecond = t.micros.toNat := by
    rw [Nat.add_assoc, Nat.div_add_mod', Nat.div_add_mod']
  have hWhole : (↑(t.micros.toNat / microsPerDay) * ↑microsPerDay +
      ↑(t.micros.toNat % microsPerDay / microsPerSecond) * ↑microsPerSecond +
        ↑(t.micros.toNat % microsPerDay % microsPerSecond) : Int) = t.micros :=
    Eq.trans (by exact_mod_cast hSum) hNat
  rw [hWhole]

end LogQuery.Time
