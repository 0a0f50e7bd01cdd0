import LogQuery.Time.Window
import LogQuery.Proofs.Result
import LogQuery.Proofs.Time.IsoText

/-! Windows of time. From a text that is read the window starts there, else it ends now; its length is
the number of minutes asked for, kept between one and those of a week. Only the calendar can be too
short for it: a start close to its end is read, but no window starts there. -/

namespace LogQuery

theorem Json.clamp_int (n least most : Int) :
    (Json.int n).clamp (.int least) (.int most) = .ok (.int (max least (min n most))) := by
  have hUpper : (if decide (most < n) = true then Json.int most else Json.int n) =
      .int (min n most) := by
    by_cases h : most < n
    · simp only [h, decide_true, if_true, Json.int.injEq]
      omega
    · simp only [h, decide_false, Bool.false_eq_true, if_false, Json.int.injEq]
      omega
  simp only [clamp, less_int, bind, Except.bind, pure, Except.pure, hUpper]
  by_cases h : least < min n most
  · simp only [h, decide_true, if_true, Except.ok.injEq, Json.int.injEq]
    omega
  · simp only [h, decide_false, Bool.false_eq_true, if_false, Except.ok.injEq, Json.int.injEq]
    omega

namespace Time

/-! ## Instants -/

theorem Instant.inRange_iff (t : Instant) :
    t.inRange = true ↔ 0 ≤ t.micros ∧ t.micros < Date.dayCount * microsPerDay := by
  simp [Instant.inRange]

/-- The instant some microseconds later, whether or not the calendar has it. -/
def Instant.later (t : Instant) (micros : Int) : Instant :=
  { t with micros := t.micros + micros }

theorem Instant.shift_eq (t : Instant) (micros : Int) :
    t.shift micros = if (t.later micros).inRange then .ok (t.later micros) else .error .overflow :=
  rfl

namespace Window

/-! ## Starts and lengths -/

/-- The minutes of a window that is to have `n`. -/
def minutesOf (n : Int) : Int :=
  max 1 (min n maxMinutes)

theorem minutesOf_pos (n : Int) : 1 ≤ minutesOf n :=
  le_max_left _ _

theorem minutesOf_le (n : Int) : minutesOf n ≤ maxMinutes :=
  max_le (by decide) (min_le_right _ _)

/-- The start that a given text spells, if it can be read. -/
def readStart? (given : Option Text) : Option Instant :=
  given.bind fun s => Instant.read? (Text.replace 'Z' "+00:00" s)

/-- The text, or nothing, as it is given. -/
def asGiven (given : Option Text) : Json :=
  (given.map Json.str).getD .null

/-- The text is an instant of the calendar, as it is written, or with a `Z` for universal time. -/
def Spells (given : Option Text) (t : Instant) : Prop :=
  t.inRange = true ∧
    (given = some t.text ∧ (∀ ahead, t.offset = some ahead → IsOffset ahead) ∨
      given = some (Instant.text { t with offset := none } ++ "Z") ∧ t.offset = some 0)

/-- No `Z` is in a written time. -/
theorem replace_text (t : Instant) : Text.replace 'Z' "+00:00" t.text = t.text := by
  have hOther : ∀ c ∈ t.text, (if c == CodePoint.char 'Z' then ("+00:00" : Text) else [c]) = [c] := by
    intro c hMem
    have hWritten := List.all_eq_true.mp t.all_isWritten_text c hMem
    have hZulu : c ≠ 'Z' := by
      rintro rfl
      cases hWritten
    rw [if_neg (by simpa using hZulu)]
  rw [Text.replace, List.flatMap_congr hOther, List.flatMap_singleton']

theorem readStart?_of_spells {given : Option Text} {t : Instant} (h : Spells given t) :
    readStart? given = some t := by
  obtain ⟨hRange, ⟨rfl, hOffset⟩ | ⟨rfl, hZulu⟩⟩ := h
  · rw [readStart?, Option.bind_some, replace_text, Instant.read?_text hRange hOffset]
  · have hSplit : t.text = Instant.text { t with offset := none } ++ offsetTail t.offset := by
      rw [Instant.text_eq, Instant.text_eq]
      simp only [offsetTail, List.append_nil, List.append_assoc, List.cons_append]
    have hReplace : Text.replace 'Z' "+00:00" (Instant.text { t with offset := none } ++ "Z") =
        t.text := by
      rw [Text.replace, List.flatMap_append, ← Text.replace, replace_text, hSplit, hZulu]
      rfl
    have hOffset : ∀ ahead, t.offset = some ahead → IsOffset ahead := by
      intro ahead hAhead
      cases hZulu.symm.trans hAhead
      exact ⟨by decide, .inl rfl⟩
    rw [readStart?, Option.bind_some, hReplace, Instant.read?_text hRange hOffset]

theorem inRange_of_readStart {given : Option Text} {start : Instant}
    (h : readStart? given = some start) : start.inRange = true := by
  obtain ⟨s, -, hRead⟩ := Option.bind_eq_some_iff.mp h
  exact Instant.inRange_of_read hRead

theorem givenStart?_asGiven (given : Option Text) :
    givenStart? (asGiven given) = .ok (readStart? given) := by
  cases given with
  | none => rfl
  | some s =>
      by_cases hNone : s = ""
      · subst hNone
        rfl
      · have hGiven : (Json.str s).truthy = true := by simpa [Json.truthy] using hNone
        rw [givenStart?, asGiven, Option.map_some, Option.getD_some, if_pos hGiven]
        rfl

/-! ## Windows -/

/-- A window starts where it is told to, or else ends now. -/
theorem resolve_eq (now : Instant) (n : Int) (given : Option Text) :
    resolve now (.int n) (asGiven given) =
      match readStart? given with
      | some start =>
          (start.shift (minutesOf n * microsPerMinute)).map fun stop => ⟨start, some stop⟩
      | none => (now.shift (-(minutesOf n * microsPerMinute))).map fun start => ⟨start, some now⟩ := by
  have hMicros : micros (.int (minutesOf n)) = .ok (minutesOf n * microsPerMinute) := rfl
  have hClamp : (Json.int n).clamp (.int 1) (.int maxMinutes) = .ok (.int (minutesOf n)) :=
    Json.clamp_int n 1 maxMinutes
  rw [resolve, hClamp, givenStart?_asGiven]
  cases readStart? given with
  | some start =>
      cases hStop : start.shift (minutesOf n * microsPerMinute) <;>
        simp [hMicros, hStop, bind, Except.bind, pure, Except.pure, Except.map]
  | none =>
      cases hStart : now.shift (-(minutesOf n * microsPerMinute)) <;>
        simp [hMicros, hStart, bind, Except.bind, pure, Except.pure, Except.map]

theorem exists_stop_of_resolve {now : Instant} {minutes start : Json} {w : Window}
    (h : resolve now minutes start = .ok w) : ∃ stop, w.stop = some stop := by
  simp only [resolve, bind_eq_ok_iff] at h
  obtain ⟨_, _, given, _, h⟩ := h
  cases given with
  | some start =>
      simp only [bind_eq_ok_iff, pure_eq_ok_iff] at h
      obtain ⟨_, _, stop, _, rfl⟩ := h
      exact ⟨stop, rfl⟩
  | none =>
      simp only [bind_eq_ok_iff, pure_eq_ok_iff] at h
      obtain ⟨_, _, _, _, rfl⟩ := h
      exact ⟨now, rfl⟩

/-- The window ends some minutes after its start, on the same clock, and both lie in the calendar. -/
def Lasts (w : Window) (minutes : Int) : Prop :=
  ∃ stop, w.stop = some stop ∧ stop.micros - w.start.micros = minutes * microsPerMinute ∧
    stop.offset = w.start.offset ∧ w.start.inRange = true ∧ stop.inRange = true

/-- The window starts where it is told to, or else ends now. -/
def IsAt (w : Window) (now : Instant) : Option Instant → Prop
  | some start => w.start = start
  | none => w.stop = some now

/-- A window from the start on, if there is one, ends before the calendar does. -/
def HasRoom (start? : Option Instant) (minutes : Int) : Prop :=
  ∀ start, start? = some start →
    start.micros + minutes * microsPerMinute < Date.dayCount * microsPerDay

theorem hasRoom_some_iff {start : Instant} (hStart : start.inRange = true) {minutes : Int}
    (hMinutes : 1 ≤ minutes) :
    HasRoom (some start) minutes ↔ (start.later (minutes * microsPerMinute)).inRange = true := by
  have hMinute : (microsPerMinute : Int) = 60000000 := rfl
  rw [Instant.inRange_iff] at hStart ⊢
  simp only [HasRoom, Option.some.injEq, forall_eq', Instant.later, hMinute]
  omega

/-- From a week into the calendar on, a window can end now however long it is to be. -/
theorem inRange_earlier {now : Instant} (n : Int) (hNow : now.inRange = true)
    (hWeek : maxMinutes * microsPerMinute ≤ now.micros) :
    (now.later (-(minutesOf n * microsPerMinute))).inRange = true := by
  have hMinute : (microsPerMinute : Int) = 60000000 := rfl
  have hLeast := minutesOf_pos n
  have hMost := minutesOf_le n
  rw [Instant.inRange_iff] at hNow ⊢
  rw [hMinute] at hWeek
  simp only [Instant.later, hMinute]
  omega

theorem exists_resolve {now : Instant} (n : Int) (hRange : now.inRange = true)
    (hWeek : maxMinutes * microsPerMinute ≤ now.micros) :
    ∃ w, resolve now (.int n) .null = .ok w := by
  have hResolve := resolve_eq now n none
  rw [Instant.shift_eq, if_pos (inRange_earlier n hRange hWeek)] at hResolve
  exact ⟨_, hResolve⟩

/-- A window has the length that is asked for, and it starts where it is told to or else ends now,
exactly if the calendar has room for it after the start that is read; if not, it is a failure. The
start that an ISO time says is read from it. -/
theorem resolve_lasts_iff {now : Instant} (hNow : now.inRange = true)
    (hWeek : maxMinutes * microsPerMinute ≤ now.micros) (n : Int) (given : Option Text) :
    (∀ t, Spells given t → readStart? given = some t) ∧
      ((∃ w, resolve now (.int n) (asGiven given) = .ok w ∧ w.IsAt now (readStart? given) ∧
          w.Lasts (minutesOf n)) ↔ HasRoom (readStart? given) (minutesOf n)) ∧
        (¬HasRoom (readStart? given) (minutesOf n) →
          resolve now (.int n) (asGiven given) = .error .overflow) := by
  refine ⟨fun t hSpells => readStart?_of_spells hSpells, ?_⟩
  rw [resolve_eq]
  cases hStart : readStart? given with
  | some start =>
      have hRange := inRange_of_readStart hStart
      rw [hasRoom_some_iff hRange (minutesOf_pos n)]
      simp only [Instant.shift_eq]
      split
      · rename_i hRoom
        refine ⟨iff_of_true ?_ hRoom, fun h => absurd hRoom h⟩
        refine ⟨_, rfl, rfl, _, rfl, ?_, rfl, hRange, hRoom⟩
        simp only [Instant.later]
        omega
      · rename_i hNone
        refine ⟨iff_of_false ?_ hNone, fun _ => rfl⟩
        rintro ⟨w, hWindow, -⟩
        cases hWindow
  | none =>
      have hRoom : HasRoom none (minutesOf n) := by simp [HasRoom]
      have hBegun := inRange_earlier n hNow hWeek
      simp only [Instant.shift_eq, if_pos hBegun]
      refine ⟨iff_of_true ?_ hRoom, fun h => absurd hRoom h⟩
      refine ⟨_, rfl, rfl, now, rfl, ?_, rfl, hBegun, hNow⟩
      simp only [Instant.later]
      omega

/-- Noon of a day in January 2024, universal time. -/
def noon : Instant :=
  ⟨Date.toDays ⟨2024, 1, 15⟩ * microsPerDay + 12 * 60 * microsPerMinute, some 0⟩

theorem inRange_noon : noon.inRange = true := by
  decide +kernel

theorem week_le_noon : maxMinutes * microsPerMinute ≤ noon.micros := by
  decide +kernel

theorem resolve_lasts_iff_ten : noon.inRange = true ∧
    maxMinutes * microsPerMinute ≤ noon.micros ∧
    ∃ w, resolve noon (.int 60) (asGiven (some "2024-01-15T10:00:00Z")) = .ok w ∧
      w.start = { noon with micros := noon.micros - 120 * microsPerMinute } ∧
      w.Lasts 60 := by
  have hRead : readStart? (some "2024-01-15T10:00:00Z") =
      some { noon with micros := noon.micros - 120 * microsPerMinute } := by decide +kernel
  have hRoom : HasRoom (readStart? (some "2024-01-15T10:00:00Z")) (minutesOf 60) := by
    rw [hRead]
    intro start hStart
    cases hStart
    decide +kernel
  obtain ⟨-, hIff, -⟩ :=
    resolve_lasts_iff inRange_noon week_le_noon 60 (some "2024-01-15T10:00:00Z")
  obtain ⟨w, hWindow, hAt, hLasts⟩ := hIff.mpr hRoom
  rw [hRead] at hAt
  exact ⟨inRange_noon, week_le_noon, w, hWindow, hAt, hLasts⟩

/-- From the last minute of the calendar on there is no window, and none ends now instead. -/
theorem resolve_last_minute : noon.inRange = true ∧
    maxMinutes * microsPerMinute ≤ noon.micros ∧
    (∃ start, readStart? (some "9999-12-31T23:59:00Z") = some start ∧ start.inRange = true) ∧
    resolve noon (.int 60) (asGiven (some "9999-12-31T23:59:00Z")) = .error .overflow := by
  have hRead : readStart? (some "9999-12-31T23:59:00Z") =
      some ⟨Date.dayCount * microsPerDay - microsPerMinute, some 0⟩ := by decide +kernel
  have hPast : ¬(Instant.later ⟨Date.dayCount * microsPerDay - microsPerMinute, some 0⟩
      (minutesOf 60 * microsPerMinute)).inRange = true := by decide +kernel
  refine ⟨inRange_noon, week_le_noon, ⟨_, hRead, inRange_of_readStart hRead⟩, ?_⟩
  rw [resolve_eq, hRead]
  simp only [Instant.shift_eq, if_neg hPast]
  rfl

end Window

end Time

end LogQuery
