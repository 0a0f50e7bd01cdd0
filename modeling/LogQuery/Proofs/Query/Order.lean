import LogQuery.Proofs.Query.Congruence
import LogQuery.Proofs.Query.Stock
import LogQuery.Proofs.Token.Order

/-! Compilations whose further recognizers are given in another order. If the chain is the same then,
the same is made of every token, and of the tokens nested in it. -/

namespace LogQuery

open Token

namespace Token.Settings

variable {s : Settings} {extras : List Extra}

theorem chain_withExtras (h : (s.withExtras extras).slots = s.slots) :
    (s.withExtras extras).chain = s.chain := by
  rw [chain_eq_fill, chain_eq_fill, h]
  rfl

/-- The chain stays as it is also one level deeper. -/
theorem slots_inner_withExtras (h : (s.withExtras extras).slots = s.slots) (depth : Json) :
    ((s.inner depth).withExtras extras).slots = (s.inner depth).slots :=
  (agrees_inner (s.withExtras extras) depth).slots.trans (h.trans (agrees_inner s depth).slots.symm)

theorem slots_inUse_withExtras (h : (s.withExtras extras).slots = s.slots) :
    (s.inUse.withExtras extras).slots = s.inUse.slots :=
  (agrees_inUse (s.withExtras extras)).slots.trans (h.trans (agrees_inUse s).slots.symm)

end Token.Settings

namespace Query

variable {folder : Folder} {s : Settings} {extras : List Extra}

theorem piecesWith_withExtras (h : (s.withExtras extras).slots = s.slots)
    (within : Json → List Text → Outcome Json) :
    piecesWith folder within (s.withExtras extras) = piecesWith folder within s := by
  funext token
  rw [piecesWith, piecesWith, Settings.chain_withExtras h]
  rfl

theorem compileWith_withExtras (h : (s.withExtras extras).slots = s.slots)
    (within : Json → List Text → Outcome Json) (tokens : List Text) :
    compileWith folder within (s.withExtras extras) tokens =
      compileWith folder within s tokens := by
  rw [compileWith, compileWith, piecesWith_withExtras h]
  rfl

theorem compileWithin_withExtras (levels : Nat) (h : (s.withExtras extras).slots = s.slots) :
    compileWithin folder levels (s.withExtras extras) = compileWithin folder levels s := by
  induction levels generalizing s with
  | zero => rfl
  | succ levels ih =>
      funext depth tokens
      have hDeeper : (s.withExtras extras).deeper depth = s.deeper depth := rfl
      rw [compileWithin, compileWithin, hDeeper]
      refine congrArg (Outcome.andThen (.of (s.deeper depth))) (funext fun deeper => ?_)
      have hInner := Settings.slots_inner_withExtras h deeper
      have hCompile : compileWith folder
            (compileWithin folder levels ((s.inner deeper).inUse.withExtras extras))
            ((s.inner deeper).withExtras extras) tokens =
          compileWith folder (compileWithin folder levels (s.inner deeper).inUse)
            (s.inner deeper) tokens := by
        rw [ih (Settings.slots_inUse_withExtras hInner), compileWith_withExtras hInner]
      exact congrArg (Outcome.andThen · fun q => .of q.render) hCompile

theorem within_withExtras (h : (s.withExtras extras).slots = s.slots) :
    within folder (s.withExtras extras) = within folder s := by
  have hInUse : (s.withExtras extras).inUse = s.inUse.withExtras extras := rfl
  rw [within, within, hInUse, compileWithin_withExtras _ (Settings.slots_inUse_withExtras h)]

theorem pieces_withExtras (h : (s.withExtras extras).slots = s.slots) :
    pieces folder (s.withExtras extras) = pieces folder s := by
  funext token
  rw [pieces, pieces, within_withExtras h, piecesWith_withExtras h]

theorem compileValues_withExtras (h : (s.withExtras extras).slots = s.slots) :
    compileValues folder (s.withExtras extras) = compileValues folder s := by
  have hPieces : piecesOfValue folder (s.withExtras extras) = piecesOfValue folder s := by
    funext token
    unfold piecesOfValue
    split
    · rw [pieces_withExtras h]
    · rw [Settings.chain_withExtras h]
  funext tokens
  rw [compileValues, compileValues, hPieces]
  rfl

/-- If the priorities of the further recognizers are numbers and no two recognizers that are loaded
have the same priority and the same name,

* the chain is what was loaded, strictly in the order of priorities and names;
* a token becomes what the first recognizer in this order makes of it that does not decline it, with
  the name of that recognizer, and stays as it is without a name if all decline it;
* and in whatever order the further recognizers are given, the chain, what becomes of every token
  and the request of all tokens are the same. -/
theorem exists_chain_precedes (hNumbers : s.HasNumbers) (hKeys : s.HasDistinctKeys) :
    (∀ rs, s.loaded = .ok rs →
      (∃ chain, s.chain = .ok chain ∧ chain.Perm rs ∧ chain.Pairwise Recognizer.Precedes) ∧
        ∀ folder token,
          IsSettled (surroundings folder s) token rs (pieces folder s token).result) ∧
      ∀ extras, extras.Perm s.extras → (s.withExtras extras).chain = s.chain ∧
        ∀ folder, pieces folder (s.withExtras extras) = pieces folder s ∧
          compileValues folder (s.withExtras extras) = compileValues folder s := by
  constructor
  · intro rs hLoaded
    rw [Settings.loaded_eq_fill] at hLoaded
    obtain ⟨loaded, hSlots, rfl⟩ := map_eq_ok_iff.mp hLoaded
    obtain ⟨slots, hSorted, hPerm, hStrict⟩ := Settings.exists_slots hNumbers hKeys hSlots
    have hChain : s.chain = .ok (slots.map s.fill) := by
      rw [Settings.chain_eq_fill, hSorted]
      rfl
    have hPrecedes : (slots.map s.fill).Pairwise Recognizer.Precedes :=
      List.pairwise_map.mpr hStrict
    refine ⟨⟨_, hChain, hPerm.map s.fill, hPrecedes⟩, fun folder token => ?_⟩
    rw [pieces_of_chain hChain]
    exact (isSettled_claimFirst hPrecedes).perm (hPerm.map s.fill)
  · intro extras hPerm
    have hSlots := Settings.slots_withExtras hNumbers hKeys hPerm
    exact ⟨Settings.chain_withExtras hSlots, fun folder =>
      ⟨pieces_withExtras hSlots, compileValues_withExtras hSlots⟩⟩

/-- Further recognizers beside the stock ones: one with a table, and one of escapes between those of
text and of bounds. -/
def shouting : Settings :=
  { settingsWithoutFiles with
    extras := [⟨"Shout", .int 1, .table [("shout", .ok [Piece.ofText "SHOUT"])]⟩,
      ⟨"Quiet", .int 20, .stock .autoEscape⟩] }

/-- The recognizers that are loaded, before they are sorted. -/
def shoutingLoaded : List Recognizer :=
  [Stock.text, .ranges, .underscored, .ip, .bareWords, .nested, .autoEscape].map shouting.ofStock ++
    shouting.extras.map shouting.loadExtra

theorem exists_chain_precedes_shouting :
    shouting.HasNumbers ∧ shouting.HasDistinctKeys ∧ shouting.loaded = .ok shoutingLoaded ∧
      (∃ chain, shouting.chain = .ok chain ∧ chain.Perm shoutingLoaded ∧
        chain.Pairwise Recognizer.Precedes) ∧
      IsSettled (surroundings .empty shouting) "shout" shoutingLoaded
        (pieces .empty shouting "shout").result ∧
      pieces .empty (shouting.withExtras shouting.extras.reverse) = pieces .empty shouting := by
  have hLoaded : shouting.loaded = .ok shoutingLoaded := by with_unfolding_all rfl
  have hNumbers : shouting.HasNumbers := by
    intro e hExtra
    simp only [shouting, List.mem_cons, List.not_mem_nil, or_false] at hExtra
    rcases hExtra with rfl | rfl <;> rw [Json.place?_int, Option.isSome_some]
  have hKeys : shouting.HasDistinctKeys := by
    intro rs hRead
    obtain rfl := Except.ok.inj (hLoaded.symm.trans hRead)
    have hNames : (shoutingLoaded.map Recognizer.name).Nodup := by decide
    exact List.Nodup.of_map Prod.snd (by rwa [List.map_map])
  obtain ⟨hChain, hSame⟩ := exists_chain_precedes hNumbers hKeys
  exact ⟨hNumbers, hKeys, hLoaded, (hChain _ hLoaded).1, (hChain _ hLoaded).2 .empty "shout",
    ((hSame _ (List.reverse_perm _)).2 .empty).1⟩

end Query

end LogQuery
