import LogQuery.Proofs.Aggregation.Orders

/-! How definitions and orders fail. Definitions that cannot be read fail as an integer in them does,
and a tree that cannot be ordered holds something of another kind than a node. Neither is a matter of
the direction. -/

namespace LogQuery.Aggregation

/-! ## Reading definitions -/

section Reading

variable {ι : Type} {kind : ι → Failure} (h : ∀ cs, Spares kind (Json.readInteger cs))
include h

namespace Definition

theorem spares_coerce (cs : Text) : Spares kind (coerce cs) := by
  unfold coerce
  split
  · exact (h cs).map Json.int
  · split
    · exact .ok _
    · exact .ok _

theorem spares_coerceList (cs : Text) : Spares kind (coerceList cs) :=
  .mapM (spares_coerce h) _

theorem spares_paramValue (cs : Text) : Spares kind (paramValue cs) := by
  unfold paramValue
  split
  · exact (spares_coerceList h cs).map Json.arr
  · exact spares_coerce h cs

theorem spares_addPairs (params : Members) (pairs : List Text) :
    Spares kind (addPairs params pairs) := by
  induction pairs generalizing params with
  | nil => exact .ok params
  | cons pair pairs ih =>
      unfold addPairs
      split
      split
      · exact ih params
      · exact (spares_paramValue h _).bind fun value _ => ih _

theorem spares_wholeNumber (key cs : Text) : Spares kind (wholeNumber key cs) := by
  unfold wholeNumber
  split
  · exact (h cs).bind fun _ _ => .ok _
  · exact .ok _

theorem spares_interval (cs : Text) : Spares kind (interval cs) := by
  apply (spares_coerce h cs).bind
  intro value _
  split
  · exact .ok _
  · exact .ok _

theorem spares_percents (cs : Text) : Spares kind (percents cs) := by
  apply (spares_coerceList h cs).bind
  intro values _
  split
  · exact .ok _
  · exact .ok _

theorem spares_bareParams (m : Method) (cs : Text) : Spares kind (bareParams m cs) := by
  unfold bareParams
  split
  · exact spares_wholeNumber h _ cs
  · exact spares_wholeNumber h _ cs
  · exact spares_wholeNumber h _ cs
  · exact spares_wholeNumber h _ cs
  · split
    · exact .ok _
    · exact spares_interval h cs
  · exact .ok _
  · exact spares_percents h cs
  · exact .ok _

theorem spares_read (cs : Text) : Spares kind (read cs) := by
  have hParams : ∀ m given, Spares kind (readParams m given) := by
    intro m given
    unfold readParams
    split
    · exact spares_addPairs h [] _
    · exact spares_bareParams h m given
  unfold read
  split
  split
  · exact .ok _
  · exact (hParams _ _).bind fun _ _ => .ok _

theorem spares_readAll (text : Text) : Spares kind (readAll text) :=
  .mapM (spares_read h) _

end Definition

theorem spares_readDefinitions (texts : List Text) :
    Spares kind (readDefinitions (Json.texts texts)) := by
  rw [readDefinitions_texts]
  exact (Spares.mapM (Definition.spares_readAll h) texts).map List.flatten

end Reading

theorem spares_readInteger (cs : Text) : Spares Failure.unknownDirection (Json.readInteger cs) := by
  unfold Json.readInteger
  intro given h
  split at h <;> cases h

/-! ## Ordering -/

section Ordering

variable (order : Json) (values : Members) (given : Text)

/-- What is wrong with a node is not its direction. -/
theorem failure_orderKeys_ne (keys : List Text) (members : Members) :
    (orderKeys order values keys members).failure ≠ some (.unknownDirection given) := by
  induction keys generalizing members with
  | nil =>
      intro h
      cases h
  | cons key keys ih =>
      unfold orderKeys
      split
      · split
        · dsimp only
          split
          · exact ih _
          · exact ih _
          · intro h
            cases h
        · intro h
          cases h
      · exact ih members

theorem failure_orderNode_ne (held : Json) :
    (orderNode order values held).failure ≠ some (.unknownDirection given) := by
  cases held with
  | obj members => exact failure_orderKeys_ne order values given _ members
  | arr items =>
      unfold orderNode
      dsimp only
      split
      · intro h
        cases h
      · intro h
        cases h
  | _ =>
      intro h
      cases h

theorem failure_orderNodes_ne (nodes : Members) :
    (orderNodes order values nodes).failure ≠ some (.unknownDirection given) := by
  induction nodes with
  | nil =>
      intro h
      cases h
  | cons n nodes ih =>
      unfold orderNodes
      dsimp only
      split
      · rename_i failure hFailure
        rw [← hFailure]
        exact failure_orderNode_ne order values given n.2
      · exact ih

theorem failure_orderBy_ne (tree direction : Json) (texts : List Text) :
    (orderBy tree direction (Json.texts texts)).failure ≠ some (.unknownDirection given) := by
  unfold orderBy
  split
  · rename_i failure hRead
    intro h
    cases h
    exact spares_readDefinitions spares_readInteger texts given hRead
  · split
    · intro h
      cases h
    · split
      · exact failure_orderNodes_ne _ _ given _
      · intro h
        cases h

end Ordering

end LogQuery.Aggregation
