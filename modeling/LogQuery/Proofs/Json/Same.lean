import LogQuery.Json.Order

/-! Values that count as the same. Each number, text and truth value counts as the same as itself,
and of two it does not matter which is compared with which. -/

namespace LogQuery

namespace Numeral

theorem Position.lt_self (p : Position) : p.lt p = false := by
  cases p <;> simp [Position.lt]

theorem same_self (n : Numeral) : n.same n = true := by
  unfold same
  cases n.position? <;> simp [Position.lt_self]

theorem same_comm (m n : Numeral) : m.same n = n.same m := by
  unfold same
  cases m.position? <;> cases n.position? <;> simp [Bool.and_comm]

end Numeral

namespace Json

variable {a b : Json}

theorem sameNumeral_comm (a b : Json) : sameNumeral a b = sameNumeral b a := by
  unfold sameNumeral
  cases a.numeral? <;> cases b.numeral? <;> simp [Numeral.same_comm]

theorem same_self (h : a.isScalar = true) : a.same a = true := by
  cases a with
  | arr items => cases h
  | obj members => cases h
  | _ => simp [same, isNull, isText, sameNumeral, numeral?, Numeral.same_self]

theorem same_str_iff {s t : Text} : same (.str s) (.str t) = true ↔ s = t := by
  rw [same, isText, beq_iff_eq, eq_comm]

theorem same_comm (ha : a.isScalar = true) (hb : b.isScalar = true) : a.same b = b.same a := by
  cases a with
  | arr items => cases ha
  | obj members => cases ha
  | null => cases b <;> simp [same, isNull, isText, sameNumeral, numeral?, isScalar] at hb ⊢
  | str s =>
      cases b with
      | str t => rw [Bool.eq_iff_iff, same_str_iff, same_str_iff, eq_comm]
      | _ => simp [same, isNull, isText, sameNumeral, numeral?, isScalar] at hb ⊢
  | _ =>
      cases b with
      | arr items => cases hb
      | obj members => cases hb
      | null => simp [same, isNull, sameNumeral, numeral?]
      | str t => simp [same, isText, sameNumeral, numeral?]
      | _ => simp only [same, sameNumeral_comm]

end Json

end LogQuery
