import LogQuery.Json.Order
import Mathlib.Algebra.Order.Field.Rat
import Mathlib.Algebra.Order.Field.Basic
import Mathlib.Order.WithBot

/-! Numbers of either kind on one line. Each number but that which is none has a place among the
rationals or at one of the two ends, and numbers are compared as their places are. -/

namespace LogQuery

/-- The rationals with an end on either side. -/
abbrev Line := WithBot (WithTop ℚ)

namespace Numeral

namespace Position

def place : Position → Line
  | .least => ⊥
  | .ratio n d => ((n / d : ℚ) : WithTop ℚ)
  | .greatest => (⊤ : WithTop ℚ)

/-- The denominator is positive. -/
def IsProper : Position → Prop
  | .ratio _ d => 0 < d
  | _ => True

theorem lt_iff {p q : Position} (hp : p.IsProper) (hq : q.IsProper) :
    p.lt q = true ↔ p.place < q.place := by
  cases p with
  | least => cases q <;> simp [lt, place]
  | greatest => cases q <;> simp [lt, place]
  | ratio n d =>
      cases q with
      | least => simp [lt, place]
      | greatest =>
          have hEnd : ((n / d : ℚ) : WithTop ℚ) < ⊤ := WithTop.coe_lt_top _
          exact iff_of_true rfl (WithBot.coe_lt_coe.mpr hEnd)
      | ratio m e =>
          have hd : (0 : ℚ) < d := Nat.cast_pos.mpr hp
          have he : (0 : ℚ) < e := Nat.cast_pos.mpr hq
          rw [lt, decide_eq_true_eq, place, place, WithBot.coe_lt_coe, WithTop.coe_lt_coe,
            div_lt_div_iff₀ hd he]
          exact_mod_cast Iff.rfl

end Position

theorem isProper_of_position? {n : Numeral} {p : Position} (h : n.position? = some p) :
    p.IsProper := by
  cases n with
  | int n =>
      cases h
      exact Nat.one_pos
  | float x =>
      unfold position? at h
      cases hView : Binary64.view x with
      | nan => simp [hView] at h
      | infinite negative =>
          simp only [hView, Option.some.injEq] at h
          subst h
          cases negative <;> exact trivial
      | finite parts =>
          simp only [hView, Option.some.injEq] at h
          subst h
          show 0 < parts.ratio.2
          unfold Binary64.Parts.ratio
          cases parts.exponent with
          | ofNat k => exact Nat.one_pos
          | negSucc k => exact Nat.pow_pos (by decide)

/-- Where a number lies, if it is one. -/
def place? (n : Numeral) : Option Line :=
  n.position?.map Position.place

variable {m n : Numeral} {x y : Line}

theorem lt_of_place? (hm : m.place? = some x) (hn : n.place? = some y) :
    m.lt n = decide (x < y) := by
  obtain ⟨p, hp, rfl⟩ := Option.map_eq_some_iff.mp hm
  obtain ⟨q, hq, rfl⟩ := Option.map_eq_some_iff.mp hn
  rw [lt, hp, hq, Bool.eq_iff_iff, decide_eq_true_eq]
  exact Position.lt_iff (isProper_of_position? hp) (isProper_of_position? hq)

theorem same_of_place? (hm : m.place? = some x) (hn : n.place? = some y) :
    m.same n = decide (x = y) := by
  have hLess := lt_of_place? hm hn
  have hMore := lt_of_place? hn hm
  obtain ⟨p, hp, -⟩ := Option.map_eq_some_iff.mp hm
  obtain ⟨q, hq, -⟩ := Option.map_eq_some_iff.mp hn
  rw [lt, hp, hq] at hLess
  rw [lt, hp, hq] at hMore
  simp only at hLess hMore
  rw [same, hp, hq]
  simp only
  rw [hLess, hMore, Bool.eq_iff_iff]
  simp only [Bool.and_eq_true, Bool.not_eq_true', decide_eq_false_iff_not, decide_eq_true_eq,
    not_lt]
  exact ⟨fun h => le_antisymm h.2 h.1, fun h => ⟨h.ge, h.le⟩⟩

end Numeral

namespace Json

/-- Where the number lies that a value is, if it is one. -/
def place? (value : Json) : Option Line :=
  value.numeral?.bind Numeral.place?

theorem place?_int (n : Int) : (int n).place? = some (((n : ℚ) : WithTop ℚ) : Line) := by
  simp [place?, numeral?, Numeral.place?, Numeral.position?, Numeral.Position.place]

variable {a b : Json} {x y : Line}

theorem same_of_place? (ha : a.place? = some x) (hb : b.place? = some y) :
    a.same b = decide (x = y) := by
  obtain ⟨m, hm, hx⟩ := Option.bind_eq_some_iff.mp ha
  obtain ⟨n, hn, hy⟩ := Option.bind_eq_some_iff.mp hb
  have hSame : a.same b = sameNumeral a b := by
    cases a <;> cases hm <;> rw [same]
  rw [hSame, sameNumeral, hm, hn]
  exact Numeral.same_of_place? hx hy

theorem less_of_place? (ha : a.place? = some x) (hb : b.place? = some y) :
    a.less b = .ok (decide (x < y)) := by
  obtain ⟨m, hm, hx⟩ := Option.bind_eq_some_iff.mp ha
  obtain ⟨n, hn, hy⟩ := Option.bind_eq_some_iff.mp hb
  have hLess : a.less b = (do return (← a.asNumeral).lt (← b.asNumeral)) := by
    cases a <;> cases hm <;> cases b <;> rfl
  rw [hLess, asNumeral, asNumeral, hm, hn, ← Numeral.lt_of_place? hx hy]
  rfl

end Json

end LogQuery
