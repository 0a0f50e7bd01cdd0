import LogQuery.Proofs.Result
import LogQuery.Proofs.Text.Sorted
import LogQuery.Token.Settings

/-! The chain of recognizers apart from how deep it lies. Which recognizers there are and in which
order they are tried depends on the options and on the further recognizers alone; only then each
gets the depth of the compilation that it belongs to. -/

namespace LogQuery.Token

/-- The recognizer is one of nested documents. -/
def Rule.isNested : Rule → Bool
  | .stock .nested => true
  | _ => false

theorem Rule.isNested_iff {rule : Rule} : rule.isNested = true ↔ rule = .stock .nested := by
  unfold isNested
  split
  · simp
  · rename_i h
    simpa using h

/-- A recognizer of a chain whose depth is left open. -/
structure Slot where
  name : Text
  priority : Json
  rule : Rule
  /-- The recognizer belongs to the compilation itself. -/
  isOwn : Bool

def Extra.slot (e : Extra) : Slot :=
  ⟨e.name, e.priority, e.rule, false⟩

/-- The recognizer of a slot on its own. -/
def Slot.bare (slot : Slot) : Recognizer :=
  ⟨slot.name, slot.priority, slot.rule, .null⟩

namespace Settings

def stockSlot (s : Settings) (stock : Stock) : Except Failure (Option Slot) :=
  Option.map (⟨stock.name, ·, .stock stock, true⟩) <$> stockPriority? s.options stock

/-- The recognizer of a slot in a compilation with these settings. -/
def fill (s : Settings) (slot : Slot) : Recognizer :=
  ⟨slot.name, slot.priority, slot.rule, if slot.isOwn then s.depth else s.extrasDepth.getD s.depth⟩

/-- A slot is tried before another, whatever the depths. -/
def slotBefore (a b : Slot) : Except Failure Bool :=
  triedBefore ⟨a.name, a.priority, a.rule, .null⟩ ⟨b.name, b.priority, b.rule, .null⟩

/-- The recognizers in the order in which they are tried. -/
def slots (s : Settings) : Except Failure (List Slot) := do
  let stock ← Stock.all.mapM s.stockSlot
  Text.sortByHalving slotBefore (stock.filterMap id ++ s.extras.map Extra.slot)

theorem loadStock_eq_fill (s : Settings) (stock : Stock) :
    s.loadStock stock = Option.map s.fill <$> s.stockSlot stock := by
  rw [loadStock, stockSlot]
  cases stockPriority? s.options stock with
  | error failure => rfl
  | ok priority? => cases priority? <;> rfl

theorem mapM_loadStock (s : Settings) (stocks : List Stock) :
    stocks.mapM s.loadStock = List.map (Option.map s.fill) <$> stocks.mapM s.stockSlot := by
  induction stocks with
  | nil => rfl
  | cons stock stocks ih =>
      rw [List.mapM_cons, List.mapM_cons, loadStock_eq_fill, ih]
      cases s.stockSlot stock with
      | error failure => rfl
      | ok slot? => cases stocks.mapM s.stockSlot <;> rfl

/-- The slots before they are sorted. -/
def loadedSlots (s : Settings) : Except Failure (List Slot) := do
  let stock ← Stock.all.mapM s.stockSlot
  return stock.filterMap id ++ s.extras.map Extra.slot

/-- The recognizers before they are sorted. -/
def loaded (s : Settings) : Except Failure (List Recognizer) := do
  let stock ← Stock.all.mapM s.loadStock
  return stock.filterMap id ++ s.extras.map s.loadExtra

theorem slots_eq_bind (s : Settings) :
    s.slots = s.loadedSlots >>= Text.sortByHalving slotBefore := by
  rw [slots, loadedSlots]
  cases Stock.all.mapM s.stockSlot <;> rfl

theorem chain_eq_bind (s : Settings) : s.chain = s.loaded >>= Text.sortByHalving triedBefore := by
  rw [chain, loaded]
  cases Stock.all.mapM s.loadStock <;> rfl

theorem loaded_eq_fill (s : Settings) : s.loaded = List.map s.fill <$> s.loadedSlots := by
  rw [loaded, loadedSlots, mapM_loadStock]
  cases Stock.all.mapM s.stockSlot with
  | error failure => rfl
  | ok stock =>
      have hInput : (stock.map (Option.map s.fill)).filterMap id ++ s.extras.map s.loadExtra =
          (stock.filterMap id ++ s.extras.map Extra.slot).map s.fill := by
        rw [List.map_append, List.map_filterMap, List.filterMap_map, List.map_map]
        rfl
      exact congrArg Except.ok hInput

/-- A chain is its slots filled in. -/
theorem chain_eq_fill (s : Settings) : s.chain = List.map s.fill <$> s.slots := by
  have hBefore : ∀ a b, triedBefore (s.fill a) (s.fill b) = slotBefore a b := fun _ _ => rfl
  rw [chain_eq_bind, loaded_eq_fill, slots_eq_bind]
  cases s.loadedSlots with
  | error failure => rfl
  | ok slots => exact Text.sortByHalving_map hBefore slots

/-- A slot of a chain is that of a stock recognizer which the options leave, or of a further one. -/
theorem mem_slots {s : Settings} {slots : List Slot} {slot : Slot} (h : s.slots = .ok slots)
    (hMem : slot ∈ slots) :
    (∃ stock, s.stockSlot stock = .ok (some slot)) ∨ ∃ e ∈ s.extras, e.slot = slot := by
  obtain ⟨stock, hStock, hSorted⟩ := bind_eq_ok_iff.mp h
  rw [(Text.sortByHalving_perm hSorted).mem_iff, List.mem_append] at hMem
  rcases hMem with hMem | hMem
  · obtain ⟨slot?, hMem, rfl⟩ := List.mem_filterMap.mp hMem
    obtain ⟨stock', -, hLoad⟩ := exists_of_mem_mapM hStock hMem
    exact .inl ⟨stock', hLoad⟩
  · exact .inr (List.mem_map.mp hMem)

/-! ## Settings and their chains -/

/-- The further recognizers are stock ones. -/
def HasStockExtras (s : Settings) : Prop :=
  ∀ e ∈ s.extras, ∃ stock, e.rule = .stock stock

theorem HasStockExtras.exists_stock {s : Settings} {slots : List Slot} {slot : Slot}
    (h : s.HasStockExtras) (hSlots : s.slots = .ok slots) (hMem : slot ∈ slots) :
    ∃ stock, slot.rule = .stock stock := by
  rcases mem_slots hSlots hMem with ⟨stock, hStock⟩ | ⟨e, hExtra, rfl⟩
  · obtain ⟨priority?, -, hSlot⟩ := map_eq_ok_iff.mp hStock
    obtain ⟨priority, -, rfl⟩ := Option.map_eq_some_iff.mp hSlot
    exact ⟨stock, rfl⟩
  · exact h e hExtra

/-- The recognizer of nested documents that is tried first. -/
def firstNested? (s : Settings) : Option Slot :=
  s.slots.toOption.bind (·.find? (·.rule.isNested))

/-- The depth of the compilation that it belongs to. -/
def nestedDepth (s : Settings) : Json :=
  match s.firstNested? with
  | some slot => (s.fill slot).depth
  | none => s.depth

/-- The settings agree in everything but how deep they lie and may go. -/
structure Agrees (s s' : Settings) : Prop where
  context : s'.context = s.context
  join : s'.join = s.join
  fieldsMeta : s'.fieldsMeta = s.fieldsMeta
  options : s'.options = s.options
  extras : s'.extras = s.extras

theorem Agrees.refl (s : Settings) : s.Agrees s :=
  ⟨rfl, rfl, rfl, rfl, rfl⟩

theorem Agrees.trans {s s' s'' : Settings} (h : s.Agrees s') (h' : s'.Agrees s'') :
    s.Agrees s'' :=
  ⟨h'.context.trans h.context, h'.join.trans h.join, h'.fieldsMeta.trans h.fieldsMeta,
    h'.options.trans h.options, h'.extras.trans h.extras⟩

theorem Agrees.symm {s s' : Settings} (h : s.Agrees s') : s'.Agrees s :=
  ⟨h.context.symm, h.join.symm, h.fieldsMeta.symm, h.options.symm, h.extras.symm⟩

theorem agrees_inner (s : Settings) (depth : Json) : s.Agrees (s.inner depth) :=
  ⟨rfl, rfl, rfl, rfl, rfl⟩

theorem agrees_inUse (s : Settings) : s.Agrees s.inUse :=
  ⟨rfl, rfl, rfl, rfl, rfl⟩

theorem Agrees.inner {s s' : Settings} (h : s.Agrees s') (depth depth' : Json) :
    (s.inner depth).Agrees (s'.inner depth') :=
  ⟨h.context, h.join, h.fieldsMeta, h.options, h.extras⟩

theorem Agrees.inUse {s s' : Settings} (h : s.Agrees s') : s.inUse.Agrees s'.inUse :=
  ⟨h.context, h.join, h.fieldsMeta, h.options, h.extras⟩

theorem Agrees.slots {s s' : Settings} (h : s.Agrees s') : s'.slots = s.slots := by
  have hStock : s'.stockSlot = s.stockSlot := by
    funext stock
    rw [stockSlot, stockSlot, h.options]
  rw [Settings.slots, Settings.slots, hStock, h.extras]

theorem Agrees.firstNested? {s s' : Settings} (h : s.Agrees s') :
    s'.firstNested? = s.firstNested? := by
  rw [Settings.firstNested?, Settings.firstNested?, h.slots]

/-- If a recognizer of nested documents is tried, the first of them is the compilation's own. -/
def NestsItself (s : Settings) : Prop :=
  ∀ slot, s.firstNested? = some slot → slot.isOwn = true

theorem nestsItself_of_extras {s : Settings} (h : ∀ e ∈ s.extras, e.rule.isNested = false) :
    s.NestsItself := by
  intro slot hFirst
  obtain ⟨slots, hSlots, hFind⟩ := Option.bind_eq_some_iff.mp hFirst
  have hNested := List.find?_some hFind
  rcases mem_slots (eq_ok_of_toOption hSlots) (List.mem_of_find?_eq_some hFind) with
    ⟨stock, hStock⟩ | ⟨e, hExtra, rfl⟩
  · obtain ⟨priority?, -, hSlot⟩ := map_eq_ok_iff.mp hStock
    obtain ⟨priority, -, rfl⟩ := Option.map_eq_some_iff.mp hSlot
    rfl
  · exact absurd hNested (by simp [Extra.slot, h e hExtra])

theorem Agrees.nestsItself {s s' : Settings} (h : s.Agrees s') (hOwn : s.NestsItself) :
    s'.NestsItself := by
  intro slot hFirst
  exact hOwn slot (h.firstNested?.symm.trans hFirst)

theorem NestsItself.nestedDepth_eq {s : Settings} (h : s.NestsItself) :
    s.nestedDepth = s.depth := by
  unfold nestedDepth
  split
  · rename_i slot hFirst
    rw [fill, h slot hFirst]
    rfl
  · rfl

/-- The depth of a further recognizer is the one at which it came into use. -/
theorem nestedDepth_of_not_nestsItself {s : Settings} (h : ¬s.NestsItself) :
    s.nestedDepth = s.extrasDepth.getD s.depth := by
  simp only [NestsItself, not_forall] at h
  obtain ⟨slot, hFirst, hOwn⟩ := h
  rw [nestedDepth, hFirst]
  simp [fill, hOwn]

theorem nestedDepth_inner_of_not_nestsItself {s : Settings} (h : ¬s.NestsItself) (depth : Json) :
    (s.inner depth).nestedDepth = s.extrasDepth.getD depth := by
  have hInner : ¬(s.inner depth).NestsItself := h
  exact nestedDepth_of_not_nestsItself hInner

/-- The settings let no value file be read. -/
def ReadsNoFiles (s : Settings) : Prop :=
  ∀ slots, s.slots = .ok slots → ∀ slot ∈ slots, slot.rule ≠ .stock .fileExpansion

/-! ## The stock recognizers alone -/

/-- There are no further recognizers, and the options leave every stock one in its place but that of
files, which they disable. -/
structure LeavesStock (s : Settings) : Prop where
  extras : s.extras = []
  priorities : ∀ stock, stockPriority? s.options stock =
    .ok (if stock = .fileExpansion then none else some (.int stock.priority))

/-- A stock recognizer as it comes. -/
def ofStock (s : Settings) (stock : Stock) : Recognizer :=
  ⟨stock.name, .int stock.priority, .stock stock, s.depth⟩

/-- A stock recognizer is tried before another, as they come. -/
def stockBefore (a b : Stock) : Bool :=
  if (Numeral.int a.priority).same (.int b.priority) then Text.before a.name b.name
  else (Numeral.int a.priority).lt (.int b.priority)

theorem triedBefore_ofStock (s : Settings) (a b : Stock) :
    triedBefore (s.ofStock a) (s.ofStock b) = .ok (stockBefore a b) := by
  have hSame : (s.ofStock a).priority.same (s.ofStock b).priority =
      (Numeral.int a.priority).same (.int b.priority) := by
    simp [ofStock, Json.same, Json.sameNumeral, Json.numeral?]
  have hLess : (s.ofStock a).priority.less (s.ofStock b).priority =
      .ok ((Numeral.int a.priority).lt (.int b.priority)) := by
    simp [ofStock, Json.less]
    rfl
  rw [triedBefore, hSame, hLess, stockBefore]
  split <;> rfl

theorem chain_of_leavesStock {s : Settings} (h : s.LeavesStock) :
    s.chain = .ok ([Stock.text, .ranges, .underscored, .ip, .bareWords, .nested, .autoEscape].map
      s.ofStock) := by
  have hLoad : Stock.all.mapM s.loadStock = .ok (Stock.all.map fun stock =>
      if stock = .fileExpansion then none else some (s.ofStock stock)) := by
    rw [mapM_eq_ok_iff, List.forall₂_map_right_iff]
    refine List.forall₂_same.mpr fun stock _ => ?_
    rw [loadStock, h.priorities]
    split <;> rfl
  have hSorted : Text.sortByHalving (fun a b => (.ok (stockBefore a b) : Except Failure Bool))
      [.text, .ranges, .underscored, .ip, .bareWords, .nested, .autoEscape] =
        .ok [.text, .ranges, .underscored, .ip, .bareWords, .nested, .autoEscape] := rfl
  have hMap := Text.sortByHalving_map (fun a b => triedBefore_ofStock s a b)
    [Stock.text, .ranges, .underscored, .ip, .bareWords, .nested, .autoEscape]
  rw [hSorted] at hMap
  rw [chain, hLoad, h.extras]
  exact hMap

end Settings

end LogQuery.Token
