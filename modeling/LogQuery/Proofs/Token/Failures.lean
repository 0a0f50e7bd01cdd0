import LogQuery.Proofs.Token.Claims
import LogQuery.Query.Assembly

/-! How tokens fail. Reading options, files and tokens can fail in many ways, but none of these is
that nested queries lie too deep: only what is nested can fail so. -/

namespace LogQuery

/-- The result is not the failure that nested queries lie too deep. -/
def FitsDepth {α : Type} (x : Except Failure α) : Prop :=
  ∀ limit, x ≠ .error (.tooDeep limit)

namespace FitsDepth

variable {α β : Type} {x : Except Failure α}

theorem ok (a : α) : FitsDepth (.ok a) :=
  Spares.ok a

theorem bind {f : α → Except Failure β} (hx : FitsDepth x)
    (hf : ∀ a, x = .ok a → FitsDepth (f a)) : FitsDepth (x >>= f) :=
  Spares.bind hx hf

theorem map (hx : FitsDepth x) (f : α → β) : FitsDepth (f <$> x) :=
  Spares.map hx f

theorem mapM {f : α → Except Failure β} (h : ∀ a, FitsDepth (f a)) (as : List α) :
    FitsDepth (as.mapM f) :=
  Spares.mapM h as

theorem foldlM {f : β → α → Except Failure β} (h : ∀ b a, FitsDepth (f b a)) (as : List α) (b : β) :
    FitsDepth (as.foldlM f b) :=
  Spares.foldlM h as b

end FitsDepth

namespace Outcome

variable {α β : Type}

theorem fitsDepth_bind {x : Outcome α} {f : α → Outcome β} (hx : FitsDepth x.result)
    (hf : ∀ a, x.result = .ok a → FitsDepth (f a).result) : FitsDepth (x >>= f).result := by
  have hResult : (x >>= f).result = x.result >>= fun a => (f a).result := by
    rw [bind_def, andThen]
    cases x.result <;> rfl
  rw [hResult]
  exact hx.bind hf

theorem fitsDepth_map {x : Outcome α} (hx : FitsDepth x.result) (f : α → β) :
    FitsDepth (f <$> x).result := by
  rw [map_eq_pure_bind]
  exact fitsDepth_bind hx fun a _ => .ok (f a)

theorem fitsDepth_collect {f : α → Outcome β} {as : List α}
    (h : ∀ a ∈ as, FitsDepth (f a).result) : FitsDepth (collect f as).result := by
  induction as with
  | nil => exact .ok _
  | cons a as ih =>
      refine fitsDepth_bind (h a List.mem_cons_self) fun b _ => ?_
      exact fitsDepth_bind (ih fun c hc => h c (List.mem_cons_of_mem a hc)) fun bs _ => .ok _

end Outcome

/-! ## Documents -/

namespace Json

theorem fitsDepth_member? (value : Json) (key : Text) : FitsDepth (value.member? key) := by
  cases value <;> simp [member?, FitsDepth]

theorem fitsDepth_memberOr (value : Json) (key : Text) (other : Json) :
    FitsDepth (value.memberOr key other) :=
  (fitsDepth_member? value key).bind fun _ _ => .ok _

theorem fitsDepth_parts (value : Json) : FitsDepth value.parts := by
  cases value <;> simp [parts, FitsDepth]

theorem fitsDepth_asKey (value : Json) : FitsDepth value.asKey := by
  unfold asKey
  split <;> try split
  all_goals simp [FitsDepth]

theorem fitsDepth_asInteger (value : Json) : FitsDepth value.asInteger := by
  unfold asInteger readInteger
  split <;> try split
  all_goals simp [FitsDepth]

theorem fitsDepth_asNumeral (value : Json) : FitsDepth value.asNumeral := by
  unfold asNumeral
  split <;> simp [FitsDepth]

theorem fitsDepth_entry (position : Nat) (value : Json) : FitsDepth (entry position value) := by
  refine (fitsDepth_parts value).bind fun parts _ => ?_
  split
  · exact (fitsDepth_asKey _).bind fun _ _ => .ok _
  · simp [FitsDepth]

theorem fitsDepth_entriesFrom (position : Nat) (values : List Json) :
    FitsDepth (entriesFrom position values) := by
  induction values generalizing position with
  | nil => exact .ok _
  | cons value values ih =>
      exact (fitsDepth_entry position value).bind fun _ _ => (ih _).bind fun _ _ => .ok _

theorem fitsDepth_entries (value : Json) : FitsDepth value.entries := by
  unfold entries
  split
  · exact .ok _
  · exact (fitsDepth_parts _).bind fun parts _ => fitsDepth_entriesFrom 0 parts

theorem fitsDepth_less (a b : Json) : FitsDepth (a.less b) := by
  refine less.induct (fun a b => FitsDepth (a.less b)) (fun as bs => FitsDepth (lessItems as bs))
    ?_ ?_ ?_ ?_ ?_ ?_ ?_ a b
  · intro s t
    rw [less]
    exact .ok _
  · intro items others ih
    rwa [less]
  · intro a b hTexts hLists
    rw [less.eq_3 _ _ hTexts hLists]
    exact (fitsDepth_asNumeral a).bind fun _ _ => (fitsDepth_asNumeral b).bind fun _ _ => .ok _
  · intro items
    rw [lessItems]
    exact .ok _
  · intro item items
    rw [lessItems]
    exact .ok _
  · intro v vs w ws hSame ih
    rwa [lessItems, if_pos hSame]
  · intro v vs w ws hSame ih
    rwa [lessItems, if_neg hSame]

end Json

/-! ## Sorting -/

namespace Text

variable {α : Type} {lt : α → α → Except Failure Bool}

theorem fitsDepth_chainFrom {goesOn : α → α → Except Failure Bool}
    (h : ∀ a b, FitsDepth (goesOn a b)) (a : α) (as : List α) :
    FitsDepth (chainFrom goesOn a as) := by
  induction as generalizing a with
  | nil => exact .ok _
  | cons b bs ih =>
      refine (h a b).bind fun goes _ => ?_
      cases goes with
      | false => exact .ok _
      | true => exact (ih b).bind fun _ _ => .ok _

theorem fitsDepth_firstRun (h : ∀ a b, FitsDepth (lt a b)) (as : List α) :
    FitsDepth (firstRun lt as) := by
  match as with
  | [] => exact .ok _
  | [a] => exact .ok _
  | a :: b :: bs =>
    refine (h b a).bind fun falls _ => ?_
    exact (fitsDepth_chainFrom (fun c d => (h d c).bind fun _ _ => .ok _) b bs).bind
      fun _ _ => .ok _

theorem fitsDepth_placeByHalving (h : ∀ a b, FitsDepth (lt a b)) (a : α) (fuel : Nat)
    (bs : List α) : FitsDepth (placeByHalving lt a fuel bs) := by
  induction fuel generalizing bs with
  | zero => exact .ok _
  | succ fuel ih =>
      unfold placeByHalving
      split
      · exact .ok _
      · refine (h a _).bind fun falls _ => ?_
        cases falls with
        | false => exact (ih _).bind fun _ _ => .ok _
        | true => exact ih _

/-- Sorting fails only as comparing does. -/
theorem fitsDepth_sortByHalving (h : ∀ a b, FitsDepth (lt a b)) (as : List α) :
    FitsDepth (sortByHalving lt as) := by
  refine (fitsDepth_firstRun h as).bind fun parts _ => ?_
  refine FitsDepth.foldlM (fun bs a => ?_) parts.2 parts.1
  exact (fitsDepth_placeByHalving h a bs.length bs).bind fun _ _ => .ok _

end Text

/-! ## Files -/

namespace ValueFile

theorem fitsDepth_columnIndex (file : Text) (selector : Option Text) :
    FitsDepth (columnIndex file selector) := by
  unfold columnIndex
  split <;> try split
  all_goals simp [FitsDepth]

theorem fitsDepth_wholeText (contents : Text.Utf8.Decoded) :
    FitsDepth (wholeText contents).result := by
  unfold wholeText
  split <;> simp [FitsDepth, Outcome.fail]

theorem fitsDepth_csvRecords (contents : Text.Utf8.Decoded) :
    FitsDepth (csvRecords contents).result := by
  unfold csvRecords
  split <;> dsimp only <;> split <;> simp [FitsDepth, Outcome.fail]

theorem fitsDepth_linesValues (file : Text) (path : List Text) (number : Nat) (lines : List Text) :
    FitsDepth (linesValues file path number lines).result := by
  induction lines generalizing number with
  | nil => exact .ok _
  | cons line lines ih =>
      have hLine : FitsDepth (lineValues file path number line).result := by
        unfold lineValues
        split <;> try split
        all_goals simp [FitsDepth, Outcome.fail, Outcome.warn, Outcome.bind_def, Outcome.andThen,
          Outcome.pure_def]
      exact Outcome.fitsDepth_bind hLine fun _ _ => Outcome.fitsDepth_bind (ih _) fun _ _ => .ok _

theorem fitsDepth_jsonLinesValues (file : Text) (path : List Text)
    (contents : Text.Utf8.Decoded) : FitsDepth (jsonLinesValues file path contents).result := by
  unfold jsonLinesValues
  split
  · exact fitsDepth_linesValues _ _ _ _
  · refine Outcome.fitsDepth_bind (fitsDepth_linesValues _ _ _ _) fun _ _ => ?_
    simp [FitsDepth, Outcome.fail]

theorem fitsDepth_read (format : Format) (name : Text) (file : File) (selector : Option Text) :
    FitsDepth (read format name file selector).result := by
  cases format with
  | columns =>
      refine Outcome.fitsDepth_bind (fitsDepth_columnIndex name selector) fun index _ => ?_
      split
      · exact .ok _
      · exact Outcome.fitsDepth_bind (fitsDepth_wholeText _) fun _ _ => .ok _
  | csv =>
      refine Outcome.fitsDepth_bind (fitsDepth_columnIndex name selector) fun index _ => ?_
      split
      · exact .ok _
      · exact Outcome.fitsDepth_bind (fitsDepth_csvRecords _) fun _ _ => .ok _
  | jsonLines =>
      cases selector with
      | none => simp [read, FitsDepth, Outcome.fail]
      | some path =>
          simp only [read]
          split
          · exact .ok _
          · refine Outcome.fitsDepth_bind (fitsDepth_jsonLinesValues _ _ _) fun values _ => ?_
            split <;> simp [FitsDepth, Outcome.fail, Outcome.pure_def]

end ValueFile

/-! ## Tokens -/

namespace Token

theorem FileReference.fitsDepth_condition? (folder : Folder) (token : Text) :
    FitsDepth (FileReference.condition? folder token).result := by
  unfold FileReference.condition?
  split
  · exact .ok _
  · split
    · refine Outcome.fitsDepth_bind (ValueFile.fitsDepth_read _ _ _ _) fun values _ => ?_
      split <;> exact .ok _
    · exact .ok _

theorem Field.fitsDepth_chooseMatcher (fieldsMeta : Json) (operator : Option Text) (field : Text) :
    FitsDepth (chooseMatcher fieldsMeta operator field) := by
  have hIsText : FitsDepth (isText fieldsMeta field) := by
    refine (Json.fitsDepth_member? _ _).bind fun about? _ => ?_
    split
    · split
      · exact (Json.fitsDepth_memberOr _ _ _).bind fun _ _ => .ok _
      · exact .ok _
    · exact .ok _
  unfold chooseMatcher
  split
  · refine hIsText.bind fun words _ => ?_
    split <;> exact .ok _
  · exact .ok _

theorem Field.fitsDepth_condition? (fieldsMeta : Json) (token : Text) :
    FitsDepth (Field.condition? fieldsMeta token) := by
  unfold Field.condition?
  split
  · refine (Field.fitsDepth_chooseMatcher _ _ _).bind fun chosen? _ => ?_
    cases chosen? with
    | none => exact .ok _
    | some matcher =>
        dsimp only
        generalize (if (matcher? _).isSome then _ else _ : Text) = field
        split <;> exact .ok _
  · exact .ok _

theorem Ranges.fitsDepth_addBounds (token : Text) (done bounds : List Bound) :
    FitsDepth (addBounds token done bounds) := by
  induction bounds generalizing done with
  | nil => exact .ok _
  | cons b bounds ih =>
      unfold addBounds
      split
      · simp [FitsDepth]
      · exact ih _

theorem Ranges.fitsDepth_condition? (token : Text) : FitsDepth (Ranges.condition? token) := by
  unfold Ranges.condition?
  split
  · exact .ok _
  · refine (Ranges.fitsDepth_addBounds _ _ _).bind fun bounds _ => ?_
    split <;> exact .ok _

/-- A stock recognizer fails for depth only as what is within the token does. -/
theorem Recognizer.fitsDepth_claim {r : Recognizer} {folder : Folder} {fieldsMeta : Json}
    {within : Json → List Text → Outcome Json} {token : Text} {stock : Stock}
    (hr : r.rule = .stock stock)
    (hWithin : ∀ path inner, Nested.split? token = some (path, inner) →
      FitsDepth (within r.depth inner).result) :
    FitsDepth (r.claim ⟨folder, fieldsMeta, some within⟩ token).result := by
  have hExpand : FitsDepth (r.expand ⟨folder, fieldsMeta, some within⟩ token).result := by
    unfold expand
    rw [hr]
    cases stock with
    | fileExpansion => exact Outcome.fitsDepth_map (FileReference.fitsDepth_condition? _ _) _
    | text => exact (Field.fitsDepth_condition? _ _).map _
    | ranges => exact (Ranges.fitsDepth_condition? _).map _
    | nested =>
        cases hSplit : Nested.split? token with
        | none =>
            simp only [expandStock, hSplit]
            exact .ok _
        | some parts =>
            simp only [expandStock, hSplit]
            exact Outcome.fitsDepth_bind (hWithin _ _ hSplit) fun _ _ => .ok _
    | _ => exact .ok _
  refine Outcome.fitsDepth_bind hExpand fun pieces? _ => ?_
  split <;> exact .ok _

theorem fitsDepth_claimFirst {rs : List Recognizer} {folder : Folder} {fieldsMeta : Json}
    {within : Json → List Text → Outcome Json} {token : Text}
    (hStock : ∀ r ∈ rs, ∃ stock, r.rule = .stock stock)
    (hWithin : ∀ r ∈ rs, ∀ path inner, Nested.split? token = some (path, inner) →
      FitsDepth (within r.depth inner).result) :
    FitsDepth (claimFirst ⟨folder, fieldsMeta, some within⟩ token rs).result := by
  induction rs with
  | nil => exact .ok _
  | cons r rs ih =>
      obtain ⟨stock, hr⟩ := hStock r List.mem_cons_self
      have hClaim : FitsDepth (r.claim ⟨folder, fieldsMeta, some within⟩ token).result :=
        Recognizer.fitsDepth_claim hr (hWithin r List.mem_cons_self)
      refine Outcome.fitsDepth_bind hClaim fun claimed? _ => ?_
      split
      · exact .ok _
      · exact ih (fun q hq => hStock q (List.mem_cons_of_mem r hq))
          fun q hq => hWithin q (List.mem_cons_of_mem r hq)

/-! ## Chains -/

theorem fitsDepth_stockPriority? (options : Json) (stock : Stock) :
    FitsDepth (stockPriority? options stock) := by
  refine (Json.fitsDepth_memberOr _ _ _).bind fun given _ => ?_
  refine (Json.fitsDepth_entries given).bind fun entries _ => ?_
  have hPriority : ∀ entries default, FitsDepth (readPriority entries default) := by
    intro entries default
    unfold readPriority
    split
    · split
      · exact (Json.fitsDepth_asInteger _).map _
      · exact .ok _
    · simp [FitsDepth]
  split
  · exact (hPriority _ _).bind fun _ _ => .ok _
  · exact .ok _

theorem Settings.fitsDepth_slots (s : Settings) : FitsDepth s.slots := by
  refine (FitsDepth.mapM (fun stock => (fitsDepth_stockPriority? _ stock).map _) _).bind
    fun stock _ => ?_
  refine Text.fitsDepth_sortByHalving (fun a b => ?_) _
  unfold slotBefore triedBefore
  split
  · exact .ok _
  · exact Json.fitsDepth_less _ _

theorem Settings.fitsDepth_chain (s : Settings) : FitsDepth s.chain := by
  rw [chain_eq_fill]
  exact s.fitsDepth_slots.map _

theorem fitsDepth_passThrough (token : Json) (rs : List Recognizer) :
    FitsDepth (passThrough token rs) := by
  unfold passThrough
  split
  · rename_i failure hFailure
    obtain ⟨r, -, hr⟩ := List.exists_of_findSome?_eq_some hFailure
    rintro limit h
    cases h
    unfold Recognizer.failureOn at hr
    split at hr <;> try split at hr
    all_goals cases hr
  · exact .ok _

end Token

/-! ## Assembly -/

theorem Query.fitsDepth_ofPieces (s : Token.Settings) (pieces : List Piece) :
    FitsDepth (Query.ofPieces s pieces) := by
  have hWritten : ∀ texts, FitsDepth (FreeText.written texts) := by
    intro texts
    refine (FitsDepth.mapM (fun piece => ?_) texts).bind fun _ _ => .ok _
    unfold FreeText.textOf
    split <;> simp [FitsDepth]
  have hAssembled : ∀ join texts, FitsDepth (FreeText.assembleValues join texts) := by
    intro join texts
    unfold FreeText.assembleValues
    split <;> simp [FitsDepth]
  refine FitsDepth.bind (FitsDepth.bind (hAssembled _ _) fun pieces _ => ?_) fun _ _ => .ok _
  split
  · exact .ok _
  · exact (hWritten _).bind fun _ _ => .ok _

theorem Query.fitsDepth_render (q : Query) : FitsDepth q.render := by
  have hStashed : ∀ name, FitsDepth (q.stashedAt name) := by
    intro name
    unfold Query.stashedAt
    split <;> simp [FitsDepth]
  have hFull : ∀ sec, FitsDepth (q.fullConditions sec) := by
    intro sec
    refine (hStashed sec.name).bind fun condition _ => ?_
    split
    · exact .ok _
    · split
      · exact .ok _
      · simp [FitsDepth]
  unfold Query.render
  split
  · exact .ok _
  · exact (hFull _).bind fun _ _ => (hFull _).bind fun _ _ => (hFull _).bind fun _ _ =>
      (hFull _).bind fun _ _ => .ok _

end LogQuery
