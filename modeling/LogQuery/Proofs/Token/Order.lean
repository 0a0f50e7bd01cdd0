import LogQuery.Proofs.Number.Place
import LogQuery.Proofs.Text.Halving
import LogQuery.Proofs.Token.Claims

/-! The order in which recognizers are tried. If their priorities are numbers and no two have the
same priority and the same name, a chain is strictly in order, and does not depend on the order in
which the further recognizers are given. A token is claimed by the first in this order that does not
decline it. -/

namespace LogQuery.Token

/-! ## Priorities and names -/

/-- The first comes before the second: its place is lower, or it is the same and so is its name. -/
def comesBefore (k l : Line × Text) : Bool :=
  if k.1 = l.1 then Text.before k.2 l.2 else decide (k.1 < l.1)

theorem comesBefore_iff {k l : Line × Text} :
    comesBefore k l = true ↔ k.1 < l.1 ∨ k.1 = l.1 ∧ k.2 < l.2 := by
  rw [comesBefore]
  split
  · rename_i h
    simp [h, Text.before]
  · rename_i h
    simp [h]

theorem comesBefore_eq_false_iff {k l : Line × Text} :
    comesBefore k l = false ↔ l.1 < k.1 ∨ l.1 = k.1 ∧ l.2 ≤ k.2 := by
  rw [← Bool.not_eq_true, comesBefore_iff, not_or, not_and, not_lt, List.not_lt, le_iff_lt_or_eq]
  constructor
  · rintro ⟨h | h, hName⟩
    · exact .inl h
    · exact .inr ⟨h, hName h.symm⟩
  · rintro (h | ⟨h, hName⟩)
    · exact ⟨.inl h, fun hSame => absurd hSame h.ne'⟩
    · exact ⟨.inr h, fun _ => hName⟩

theorem isWeakOrder_comesBefore : Text.IsWeakOrder comesBefore where
  asymm h := by
    rw [comesBefore_iff] at h
    rw [comesBefore_eq_false_iff]
    exact h.imp_right fun ⟨hPlace, hName⟩ => ⟨hPlace, List.le_of_lt hName⟩
  trans_false h h' := by
    rw [comesBefore_eq_false_iff] at h h' ⊢
    rcases h with h | ⟨h, hName⟩
    · rcases h' with h' | ⟨h', -⟩
      · exact .inl (h'.trans h)
      · exact .inl (h' ▸ h)
    · rcases h' with h' | ⟨h', hName'⟩
      · exact .inl (h ▸ h')
      · exact .inr ⟨h'.trans h, List.le_trans hName' hName⟩

namespace Recognizer

/-- What a recognizer is put in order by: the place of its priority, if that is a number, and its
name. -/
def key (r : Recognizer) : Option Line × Text :=
  (r.priority.place?, r.name)

/-- The priority of a recognizer is lower than that of another, or it is the same and the name comes
first. -/
def Precedes (a b : Recognizer) : Prop :=
  ∃ x y, a.priority.place? = some x ∧ b.priority.place? = some y ∧
    (x < y ∨ x = y ∧ a.name < b.name)

theorem Precedes.asymm {a b : Recognizer} (h : a.Precedes b) : ¬b.Precedes a := by
  rintro ⟨y', x', hy', hx', hOrder'⟩
  obtain ⟨x, y, hx, hy, hOrder⟩ := h
  obtain rfl := Option.some.inj (hx.symm.trans hx')
  obtain rfl := Option.some.inj (hy.symm.trans hy')
  rcases hOrder with hLess | ⟨rfl, hName⟩
  · rcases hOrder' with hLess' | ⟨hSame, -⟩
    · exact lt_asymm hLess hLess'
    · exact hLess.ne' hSame
  · rcases hOrder' with hLess' | ⟨-, hName'⟩
    · exact lt_irrefl _ hLess'
    · exact List.lt_asymm hName hName'

end Recognizer

/-! ## Slots in order -/

/-- A slot whose priority is a number. -/
abbrev NumberedSlot :=
  { slot : Slot // slot.priority.place?.isSome = true }

namespace NumberedSlot

def key (slot : NumberedSlot) : Line × Text :=
  (slot.1.priority.place?.get slot.2, slot.1.name)

variable {a b : NumberedSlot}

theorem key_bare (slot : NumberedSlot) : slot.1.bare.key = (some (key slot).1, (key slot).2) := by
  have hPlace : slot.1.priority.place? = some (key slot).1 := Option.eq_some_of_isSome slot.2
  rw [Recognizer.key, Slot.bare, hPlace]
  rfl

theorem place?_eq (slot : NumberedSlot) : slot.1.priority.place? = some (key slot).1 :=
  congrArg Prod.fst (key_bare slot)

theorem slotBefore_eq (a b : NumberedSlot) :
    Settings.slotBefore a.1 b.1 = Text.sure (fun a b => comesBefore (key a) (key b)) a b := by
  have hSame := Json.same_of_place? (place?_eq a) (place?_eq b)
  have hLess := Json.less_of_place? (place?_eq a) (place?_eq b)
  rw [Settings.slotBefore, Settings.triedBefore, hSame, hLess, Text.sure, comesBefore]
  by_cases h : (key a).1 = (key b).1
  · rw [if_pos (decide_eq_true h), if_pos h]
    rfl
  · rw [if_neg (by simpa using h), if_neg h]

theorem isWeakOrder : Text.IsWeakOrder fun a b => comesBefore (key a) (key b) where
  asymm h := isWeakOrder_comesBefore.asymm h
  trans_false h h' := isWeakOrder_comesBefore.trans_false h h'

/-- Of two with different keys one precedes the other. -/
theorem precedes_of_comesBefore_eq_false (h : comesBefore (key b) (key a) = false)
    (hKeys : a.1.bare.key ≠ b.1.bare.key) : a.1.bare.Precedes b.1.bare := by
  refine ⟨_, _, place?_eq a, place?_eq b, ?_⟩
  rw [comesBefore_eq_false_iff] at h
  refine h.imp_right fun ⟨hPlace, hName⟩ => ⟨hPlace, ?_⟩
  refine Std.lt_of_le_of_ne hName fun hSame => hKeys ?_
  have hNames : (key a).2 = (key b).2 := hSame
  rw [key_bare, key_bare, hPlace, hNames]

end NumberedSlot

/-- Slots whose priorities are numbers are sorted, and strictly if their keys are different. -/
theorem exists_sortByHalving_slots {slots : List Slot}
    (hNumbers : ∀ slot ∈ slots, slot.priority.place?.isSome = true) :
    ∃ sorted, Text.sortByHalving Settings.slotBefore slots = .ok sorted ∧
      ((slots.map fun slot => slot.bare.key).Nodup →
        sorted.Pairwise fun a b => a.bare.Precedes b.bare) := by
  obtain ⟨sorted, hSorted, hInOrder⟩ :=
    @Text.exists_sortByHalving _ Failure _ NumberedSlot.isWeakOrder (slots.attachWith _ hNumbers)
  have hMap := Text.sortByHalving_map NumberedSlot.slotBefore_eq (slots.attachWith _ hNumbers)
  rw [hSorted, List.attachWith_map_subtype_val] at hMap
  refine ⟨sorted.map Subtype.val, hMap, fun hNodup => ?_⟩
  have hPerm := Text.sortByHalving_perm hMap
  have hKeys : (sorted.map fun slot => slot.1.bare.key).Nodup := by
    have hNodup' := (hPerm.map fun slot => slot.bare.key).nodup_iff.mpr hNodup
    rwa [List.map_map] at hNodup'
  rw [List.pairwise_map]
  refine (hInOrder.and (List.pairwise_map.mp hKeys)).imp ?_
  rintro a b ⟨hBefore, hDifferent⟩
  exact NumberedSlot.precedes_of_comesBefore_eq_false hBefore hDifferent

namespace Settings

variable {s : Settings}

/-- The options of a stock recognizer give it an integer as its priority. -/
theorem exists_int_of_stockPriority? {options : Json} {stock : Stock} {priority : Json}
    (h : stockPriority? options stock = .ok (some priority)) : ∃ n, priority = .int n := by
  simp only [stockPriority?, bind_eq_ok_iff] at h
  obtain ⟨given, -, entries, -, h⟩ := h
  split at h
  · obtain ⟨read, hRead, h⟩ := bind_eq_ok_iff.mp h
    obtain rfl : read = priority := by simpa [pure_eq_ok_iff] using h
    rw [readPriority] at hRead
    split at hRead
    · split at hRead
      · obtain ⟨n, -, rfl⟩ := map_eq_ok_iff.mp hRead
        exact ⟨n, rfl⟩
      · cases hRead
        exact ⟨stock.priority, rfl⟩
    · cases hRead
  · cases h

/-- The priorities of the further recognizers are numbers. -/
def HasNumbers (s : Settings) : Prop :=
  ∀ e ∈ s.extras, e.priority.place?.isSome = true

theorem HasNumbers.slots (h : s.HasNumbers) {loaded : List Slot}
    (hLoaded : s.loadedSlots = .ok loaded) :
    ∀ slot ∈ loaded, slot.priority.place?.isSome = true := by
  obtain ⟨stock, hStock, hAll⟩ := bind_eq_ok_iff.mp hLoaded
  obtain rfl := pure_eq_ok_iff.mp hAll
  intro slot hMem
  rcases List.mem_append.mp hMem with hMem | hMem
  · obtain ⟨slot?, hMem, rfl⟩ := List.mem_filterMap.mp hMem
    obtain ⟨stock', -, hSlot⟩ := exists_of_mem_mapM hStock hMem
    obtain ⟨priority?, hPriority, hSlot⟩ := map_eq_ok_iff.mp hSlot
    obtain ⟨priority, rfl, rfl⟩ := Option.map_eq_some_iff.mp hSlot
    obtain ⟨n, rfl⟩ := exists_int_of_stockPriority? hPriority
    show (Json.int n).place?.isSome = true
    rw [Json.place?_int, Option.isSome_some]
  · obtain ⟨e, hExtra, rfl⟩ := List.mem_map.mp hMem
    exact h e hExtra

/-- No two recognizers have the same priority and the same name. -/
def HasDistinctKeys (s : Settings) : Prop :=
  ∀ rs, s.loaded = .ok rs → (rs.map Recognizer.key).Nodup

theorem HasDistinctKeys.slots (h : s.HasDistinctKeys) {loaded : List Slot}
    (hLoaded : s.loadedSlots = .ok loaded) : (loaded.map fun slot => slot.bare.key).Nodup := by
  have hNodup := h (loaded.map s.fill) (by rw [loaded_eq_fill, hLoaded]; rfl)
  rwa [List.map_map] at hNodup

/-- What was loaded is put into strict order. -/
theorem exists_slots (hNumbers : s.HasNumbers) (hKeys : s.HasDistinctKeys) {loaded : List Slot}
    (hLoaded : s.loadedSlots = .ok loaded) :
    ∃ slots, s.slots = .ok slots ∧ slots.Perm loaded ∧
      slots.Pairwise fun a b => a.bare.Precedes b.bare := by
  obtain ⟨slots, hSorted, hStrict⟩ := exists_sortByHalving_slots (hNumbers.slots hLoaded)
  refine ⟨slots, ?_, Text.sortByHalving_perm hSorted, hStrict (hKeys.slots hLoaded)⟩
  rw [slots_eq_bind, hLoaded]
  exact hSorted

/-- The settings with other further recognizers. -/
def withExtras (s : Settings) (extras : List Extra) : Settings :=
  { s with extras }

theorem slots_withExtras (hNumbers : s.HasNumbers) (hKeys : s.HasDistinctKeys)
    {extras : List Extra} (hPerm : extras.Perm s.extras) :
    (s.withExtras extras).slots = s.slots := by
  have hStockSlot : (s.withExtras extras).stockSlot = s.stockSlot := rfl
  cases hStock : Stock.all.mapM s.stockSlot with
  | error failure => rw [slots, slots, hStockSlot, hStock]; rfl
  | ok stock =>
      have hLoaded : s.loadedSlots = .ok (stock.filterMap id ++ s.extras.map Extra.slot) := by
        rw [loadedSlots, hStock]
        rfl
      have hOther : (s.withExtras extras).loadedSlots =
          .ok (stock.filterMap id ++ extras.map Extra.slot) := by
        rw [loadedSlots, hStockSlot, hStock]
        rfl
      have hLoadedPerm := (hPerm.map Extra.slot).append_left (stock.filterMap id)
      obtain ⟨slots, hSlots, hSlotsPerm, hStrict⟩ := exists_slots hNumbers hKeys hLoaded
      obtain ⟨others, hOthers, hOthersStrict⟩ := exists_sortByHalving_slots fun slot hMem =>
        hNumbers.slots hLoaded slot (hLoadedPerm.mem_iff.mp hMem)
      have hOthersPerm := Text.sortByHalving_perm hOthers
      have hSame : others = slots := by
        refine List.Perm.eq_of_pairwise (fun a b _ _ h h' => absurd h' h.asymm)
          (hOthersStrict ?_) hStrict (hOthersPerm.trans (hLoadedPerm.trans hSlotsPerm.symm))
        exact (hLoadedPerm.map fun slot => slot.bare.key).nodup_iff.mpr (hKeys.slots hLoaded)
      rw [slots_eq_bind, hOther, hSlots, ← hSame]
      exact hOthers

end Settings

/-! ## Claims -/

/-- The recognizer declines the token. -/
def Recognizer.Declines (around : Recognizer.Surroundings) (token : Text) (r : Recognizer) : Prop :=
  (r.expand around token).result = .ok none

/-- What comes of a token that the recognizer does not decline: its pieces with the name of the
recognizer, or its failure. -/
inductive Recognizer.Settles (around : Recognizer.Surroundings) (token : Text) (r : Recognizer) :
    Except Failure (List Piece) → Prop
  | claimed {pieces : List Piece} (h : (r.expand around token).result = .ok (some pieces)) :
      Settles around token r (.ok (pieces.map fun p => { p with claimedBy? := some r.name }))
  | failed {failure : Failure} (h : (r.expand around token).result = .error failure) :
      Settles around token r (.error failure)

/-- All of the recognizers decline the token, and it stays as it is without a name; or the result is
that of the one which precedes all others that do not decline it. -/
inductive IsSettled (around : Recognizer.Surroundings) (token : Text) (rs : List Recognizer) :
    Except Failure (List Piece) → Prop
  | declined (h : ∀ r ∈ rs, r.Declines around token) :
      IsSettled around token rs (.ok [Piece.ofText token])
  | settled {r : Recognizer} {result : Except Failure (List Piece)} (hMem : r ∈ rs)
      (hResult : r.Settles around token result)
      (hLeast : ∀ other ∈ rs, other = r ∨ r.Precedes other ∨ other.Declines around token) :
      IsSettled around token rs result

variable {around : Recognizer.Surroundings} {token : Text} {rs : List Recognizer}

theorem IsSettled.perm {others : List Recognizer} {result : Except Failure (List Piece)}
    (h : IsSettled around token rs result) (hPerm : rs.Perm others) :
    IsSettled around token others result := by
  cases h with
  | declined hAll => exact .declined fun r hMem => hAll r (hPerm.mem_iff.mpr hMem)
  | settled hMem hResult hLeast =>
      exact .settled (hPerm.mem_iff.mp hMem) hResult fun other hOther =>
        hLeast other (hPerm.mem_iff.mpr hOther)

theorem result_claimFirst_cons (r : Recognizer) (rs : List Recognizer) :
    (r.Declines around token ∧
        (claimFirst around token (r :: rs)).result = (claimFirst around token rs).result) ∨
      r.Settles around token (claimFirst around token (r :: rs)).result := by
  have hClaim : (r.claim around token).result = Option.map (List.map fun p =>
      { p with claimedBy? := some r.name }) <$> (r.expand around token).result := by
    rw [Recognizer.claim, Outcome.bind_def, Outcome.andThen]
    split
    · rename_i pieces? hExpand
      rw [hExpand]
      cases pieces? <;> rfl
    · rename_i failure hExpand
      rw [hExpand]
      rfl
  rw [claimFirst, Outcome.bind_def, Outcome.andThen, hClaim]
  cases hExpand : (r.expand around token).result with
  | error failure => exact .inr (.failed hExpand)
  | ok pieces? =>
      cases pieces? with
      | none => exact .inl ⟨hExpand, rfl⟩
      | some pieces => exact .inr (.claimed hExpand)

theorem isSettled_claimFirst (h : rs.Pairwise Recognizer.Precedes) :
    IsSettled around token rs (claimFirst around token rs).result := by
  induction rs with
  | nil => exact .declined (by simp)
  | cons r rs ih =>
      obtain ⟨hFirst, hRest⟩ := List.pairwise_cons.mp h
      rcases @result_claimFirst_cons around token r rs with ⟨hDeclines, hResult⟩ | hSettles
      · rw [hResult]
        generalize (claimFirst around token rs).result = result at ih
        cases ih hRest with
        | declined hAll => exact .declined (List.forall_mem_cons.mpr ⟨hDeclines, hAll⟩)
        | settled hMem hSettles hLeast =>
            refine .settled (List.mem_cons_of_mem r hMem) hSettles ?_
            exact List.forall_mem_cons.mpr ⟨.inr (.inr hDeclines), hLeast⟩
      · refine .settled List.mem_cons_self hSettles ?_
        exact List.forall_mem_cons.mpr ⟨.inl rfl, fun other hMem => .inr (.inl (hFirst other hMem))⟩

end LogQuery.Token
