import LogQuery.Proofs.Token.Claims
import LogQuery.Query.Compile

/-! Compilations that differ in how deep they lie, in how deep they may go, or in the folder that
value files are looked up in. What relates the queries within them relates the compilations. -/

namespace LogQuery

namespace Query

open Token

variable {R : ∀ α : Type, Outcome α → Outcome α → Prop} {folder folder' : Folder} {s s' : Settings}

theorem piecesWith_of_slots {slots : List Slot} (h : s.slots = .ok slots)
    (within : Json → List Text → Outcome Json) (token : Text) :
    piecesWith folder within s token =
      claimFirst ⟨folder, s.fieldsMeta, some within⟩ token (slots.map s.fill) := by
  rw [piecesWith, s.chain_eq_fill, h]
  exact Outcome.done_andThen _ _

theorem piecesWith_of_error {failure : Failure} (h : s.slots = .error failure)
    (within : Json → List Text → Outcome Json) (token : Text) :
    piecesWith folder within s token = .fail failure := by
  rw [piecesWith, s.chain_eq_fill, h]
  rfl

/-- Tokens of nested queries lie below one compilation, whichever recognizers there are. -/
theorem piecesWith_uniform (within : Json → List Text → Outcome Json) :
    piecesWith folder within s = piecesWith folder (fun _ => within s.nestedDepth) s := by
  funext token
  cases hSlots : s.slots with
  | error failure => rw [piecesWith_of_error hSlots, piecesWith_of_error hSlots]
  | ok slots =>
      rw [piecesWith_of_slots hSlots, piecesWith_of_slots hSlots]
      apply claimFirst_uniform
      intro r hFirst
      rw [List.find?_map] at hFirst
      obtain ⟨slot, hSlot, rfl⟩ := Option.map_eq_some_iff.mp hFirst
      have hNested : s.firstNested? = some slot := by
        rw [Settings.firstNested?, hSlots]
        exact hSlot
      rw [Settings.nestedDepth, hNested]

theorem compileWith_uniform (within : Json → List Text → Outcome Json) (tokens : List Text) :
    compileWith folder within s tokens =
      compileWith folder (fun _ => within s.nestedDepth) s tokens := by
  rw [compileWith, piecesWith_uniform]
  rfl

theorem compileWithin_succ (levels : Nat) (s : Settings) (depth : Json) (tokens : List Text) :
    compileWithin folder (levels + 1) s depth tokens =
      (Outcome.of (s.deeper depth)).andThen fun deeper =>
        (compileWith folder (fun _ => compileWithin folder levels (s.inner deeper).inUse
          (s.inner deeper).nestedDepth) (s.inner deeper) tokens).andThen fun q => .of q.render := by
  rw [compileWithin]
  simp only [compileWith_uniform (compileWithin folder levels _)]
  rfl

theorem ofPieces_eq_of_agrees (h : s.Agrees s') : ofPieces s' = ofPieces s := by
  funext pieces
  simp only [ofPieces, Assembly.finish, Assembly.inContext, h.context, h.join, h.fieldsMeta]

theorem piecesWith_congr (hR : Outcome.IsCongruence R) {w w' : List Text → Outcome Json}
    (hAgrees : s.Agrees s') (hFolder : folder' = folder ∨ s.ReadsNoFiles)
    (hw : ∀ inner, R _ (w inner) (w' inner)) (token : Text) :
    R _ (piecesWith folder (fun _ => w) s token) (piecesWith folder' (fun _ => w') s' token) := by
  cases hSlots : s.slots with
  | error failure =>
      rw [piecesWith_of_error hSlots, piecesWith_of_error (hAgrees.slots.trans hSlots)]
      exact hR.refl _
  | ok slots =>
      rw [piecesWith_of_slots hSlots, piecesWith_of_slots (hAgrees.slots.trans hSlots),
        hAgrees.fieldsMeta]
      apply claimFirst_congr hR
      intro slot hMem
      refine Recognizer.claim_congr hR rfl rfl ?_ hw
      exact hFolder.imp_right fun hReads => hReads slots hSlots slot hMem

theorem compileWith_congr (hR : Outcome.IsCongruence R) {w w' : List Text → Outcome Json}
    (hAgrees : s.Agrees s') (hFolder : folder' = folder ∨ s.ReadsNoFiles)
    (hw : ∀ inner, R _ (w inner) (w' inner)) (tokens : List Text) :
    R _ (compileWith folder (fun _ => w) s tokens)
      (compileWith folder' (fun _ => w') s' tokens) := by
  refine hR.bind (hR.collect fun token _ => piecesWith_congr hR hAgrees hFolder hw token) ?_
  intro pieces _
  rw [ofPieces_eq_of_agrees hAgrees]
  exact hR.refl _

theorem piecesOfValue_congr (hR : Outcome.IsCongruence R)
    (hAgrees : s.Agrees s') (hFolder : folder' = folder ∨ s.ReadsNoFiles)
    (hw : ∀ inner, R _ (within folder s s.nestedDepth inner)
      (within folder' s' s'.nestedDepth inner)) (token : Json) :
    R _ (piecesOfValue folder s token) (piecesOfValue folder' s' token) := by
  unfold piecesOfValue
  split
  · rw [pieces, pieces, piecesWith_uniform, piecesWith_uniform (s := s')]
    exact piecesWith_congr hR hAgrees hFolder hw _
  · have hPass : ∀ slots : List Slot, passThrough token (slots.map s'.fill) =
        passThrough token (slots.map s.fill) := by
      intro slots
      rw [passThrough, passThrough, List.findSome?_map, List.findSome?_map]
      rfl
    rw [s.chain_eq_fill, s'.chain_eq_fill, hAgrees.slots]
    cases s.slots with
    | error failure => exact hR.refl _
    | ok slots =>
        show R _ ((Outcome.done (slots.map s.fill)).andThen _)
          ((Outcome.done (slots.map s'.fill)).andThen _)
        rw [Outcome.done_andThen, Outcome.done_andThen, hPass]
        exact hR.refl _

theorem compileValues_congr (hR : Outcome.IsCongruence R)
    (hAgrees : s.Agrees s') (hFolder : folder' = folder ∨ s.ReadsNoFiles)
    (hw : ∀ inner, R _ (within folder s s.nestedDepth inner)
      (within folder' s' s'.nestedDepth inner)) (tokens : List Json) :
    R _ (compileValues folder s tokens) (compileValues folder' s' tokens) := by
  refine hR.bind (hR.collect fun token _ => piecesOfValue_congr hR hAgrees hFolder hw token) ?_
  intro pieces _
  rw [ofPieces_eq_of_agrees hAgrees]
  exact hR.refl _

end Query

end LogQuery
