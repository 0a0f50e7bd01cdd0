import LogQuery.Index.Pattern
import LogQuery.Proofs.Text.Split

/-! Patterns that name several indices, with commas between them. Each part names indices by itself, but
a pattern is looked at as a whole: that it is not empty and does not start with an underscore is asked of
the text, and so of no part after the first. -/

namespace LogQuery

/-- Where a separator is not looked for, what is found in a text is found in its pieces, in order. -/
theorem Text.filter_join {p : CodePoint → Bool} {sep : CodePoint} (hSep : p sep = false)
    (pieces : List Text) : (join [sep] pieces).filter p = pieces.flatMap (List.filter p) := by
  induction pieces with
  | nil => rfl
  | cons first rest ih =>
      cases rest with
      | nil => simp [join_singleton]
      | cons second rest =>
          have hOther : ¬p sep = true := by simp [hSep]
          rw [join_sep_cons_cons, List.filter_append, List.filter_cons_of_neg hOther, ih,
            ← List.flatMap_cons]

namespace Index

variable {cs first : Text} {parts rest : List Text}

/-! ## Single patterns -/

/-- The text is accepted as a pattern. -/
def IsAccepted (cs : Text) : Prop :=
  checkPattern (.str cs) = .ok ()

/-- The text is made of the characters of patterns. -/
def IsSpelled (cs : Text) : Prop :=
  ∀ c ∈ cs, isPatternChar c = true

/-- The text starts with an underscore, as the names do that stand for all indices or for those of the
cluster itself. -/
def IsHidden (cs : Text) : Prop :=
  cs.head? = some (.char '_')

instance (cs : Text) : Decidable (IsHidden cs) :=
  inferInstanceAs (Decidable (_ = _))

theorem filter_isPatternChar_eq_nil_iff : cs.filter (!isPatternChar ·) = [] ↔ IsSpelled cs := by
  simp [IsSpelled, List.filter_eq_nil_iff]

theorem patternFault?_eq_none_iff :
    patternFault? cs = none ↔ cs ≠ [] ∧ ¬IsHidden cs ∧ IsSpelled cs := by
  rw [← filter_isPatternChar_eq_nil_iff, patternFault?, IsHidden]
  by_cases hEmpty : cs = []
  · simp [hEmpty]
  · by_cases hHidden : cs.head? = some (.char '_')
    · simp [hEmpty, hHidden]
    · cases hFound : cs.filter (!isPatternChar ·) <;> simp [hEmpty, hHidden]

/-- A text is refused for its fault. -/
theorem checkPattern_str (cs : Text) :
    checkPattern (.str cs) =
      match patternFault? cs with
      | some failure => .error failure
      | none => .ok () := by
  by_cases hEmpty : cs = []
  · subst hEmpty
    rfl
  · have hGiven : (Json.str cs).truthy = true := bne_iff_ne.mpr hEmpty
    rw [checkPattern, if_pos hGiven]
    rfl

theorem isAccepted_iff : IsAccepted cs ↔ cs ≠ [] ∧ ¬IsHidden cs ∧ IsSpelled cs := by
  rw [← patternFault?_eq_none_iff, IsAccepted, checkPattern_str]
  cases patternFault? cs with
  | none => exact iff_of_true rfl rfl
  | some failure => exact iff_of_false nofun nofun

theorem not_isAccepted_of_unfit (h : cs = [] ∨ IsHidden cs) : ¬IsAccepted cs := by
  intro hAccepted
  obtain ⟨hGiven, hShown, -⟩ := isAccepted_iff.mp hAccepted
  exact h.elim hGiven hShown

/-! ## Parts of patterns -/

theorem isSpelled_join_iff : IsSpelled (Text.join [','] parts) ↔ ∀ part ∈ parts, IsSpelled part := by
  have hComma : (!isPatternChar ',') = false := rfl
  rw [← filter_isPatternChar_eq_nil_iff, Text.filter_join hComma, List.flatMap_eq_nil_iff]
  exact forall₂_congr fun part _ => filter_isPatternChar_eq_nil_iff

/-- Only the first part can hide the whole. -/
theorem isHidden_join_iff : IsHidden (Text.join [','] (first :: rest)) ↔ IsHidden first := by
  cases rest with
  | nil => rw [Text.join_singleton]
  | cons second rest =>
      rw [Text.join_sep_cons_cons, IsHidden, IsHidden, List.head?_append]
      cases first with
      | nil => simp
      | cons c first => simp

/-- Of the parts after the first it is only asked how they are spelled. -/
theorem isAccepted_join_cons_iff :
    IsAccepted (Text.join [','] (first :: rest)) ↔
      (first = [] → rest ≠ []) ∧ ¬IsHidden first ∧ ∀ part ∈ first :: rest, IsSpelled part := by
  have hEmpty : Text.join [','] (first :: rest) ≠ [] ↔ (first = [] → rest ≠ []) := by
    rw [ne_eq, Text.join_eq_nil_iff]
    simp
  rw [isAccepted_iff, hEmpty, isHidden_join_iff, isSpelled_join_iff]

/-- The parts make a pattern, and one of them is none by itself: it is empty, or it is hidden behind
another one. -/
structure SlipsThrough (parts : List Text) : Prop where
  several : 2 ≤ parts.length
  shown : ∀ first ∈ parts.head?, ¬IsHidden first
  spelled : ∀ part ∈ parts, IsSpelled part
  unfit : ∃ part ∈ parts, part = [] ∨ IsHidden part

theorem SlipsThrough.isAccepted (h : SlipsThrough parts) :
    IsAccepted (Text.join [','] parts) := by
  match parts with
  | [] => exact absurd h.several (by simp)
  | [part] => exact absurd h.several (by simp)
  | first :: second :: rest =>
      rw [isAccepted_join_cons_iff]
      exact ⟨fun _ => List.cons_ne_nil second rest, h.shown first rfl, h.spelled⟩

/-- Parts that are patterns make one. -/
theorem isAccepted_join (hSome : parts ≠ []) (h : ∀ part ∈ parts, IsAccepted part) :
    IsAccepted (Text.join [','] parts) := by
  obtain ⟨first, rest, rfl⟩ := List.exists_cons_of_ne_nil hSome
  obtain ⟨hGiven, hShown, -⟩ := isAccepted_iff.mp (h first List.mem_cons_self)
  rw [isAccepted_join_cons_iff]
  exact ⟨fun hEmpty => absurd hEmpty hGiven, hShown, fun part hPart =>
    (isAccepted_iff.mp (h part hPart)).2.2⟩

/-- In an accepted text nothing but an empty or a hidden part can be wrong. -/
theorem slipsThrough_iff (h : IsAccepted (Text.join [','] parts)) :
    SlipsThrough parts ↔ ∃ part ∈ parts, part = [] ∨ IsHidden part := by
  constructor
  · intro hSlips
    exact hSlips.unfit
  · intro hUnfit
    obtain ⟨part, hMem, hPart⟩ := hUnfit
    obtain ⟨first, rest, rfl⟩ := List.exists_cons_of_ne_nil (List.ne_nil_of_mem hMem)
    obtain ⟨hGiven, hShown, hSpelled⟩ := isAccepted_join_cons_iff.mp h
    have hRest : rest ≠ [] := by
      rintro rfl
      obtain rfl := List.mem_singleton.mp hMem
      exact hPart.elim (fun hEmpty => hGiven hEmpty rfl) hShown
    have hSeveral := List.length_pos_iff.mpr hRest
    constructor
    · rw [List.length_cons]
      omega
    · intro other hFirst
      cases hFirst
      exact hShown
    · exact hSpelled
    · exact ⟨part, hMem, hPart⟩

theorem forall_isAccepted_iff (h : IsAccepted (Text.join [','] parts)) :
    (∀ part ∈ parts, IsAccepted part) ↔ ¬∃ part ∈ parts, part = [] ∨ IsHidden part := by
  constructor
  · intro hParts hUnfit
    obtain ⟨part, hMem, hPart⟩ := hUnfit
    exact not_isAccepted_of_unfit hPart (hParts part hMem)
  · intro hFit part hMem
    rw [isAccepted_iff]
    refine ⟨?_, ?_, ?_⟩
    · exact fun hEmpty => hFit ⟨part, hMem, .inl hEmpty⟩
    · exact fun hHidden => hFit ⟨part, hMem, .inr hHidden⟩
    · exact isSpelled_join_iff.mp (isAccepted_iff.mp h).2.2 part hMem

/-- Parts with commas between them are accepted exactly if each of them is, unless a part slips through;
then they are accepted although it is not. An accepted text has an empty or a hidden part between its
commas exactly if that one slipped through. -/
theorem isAccepted_join_iff (hSome : parts ≠ []) :
    ((IsAccepted (Text.join [','] parts) ↔ ∀ part ∈ parts, IsAccepted part) ↔
        ¬SlipsThrough parts) ∧
      (SlipsThrough parts →
        IsAccepted (Text.join [','] parts) ∧ ∃ part ∈ parts, ¬IsAccepted part) ∧
      ∀ cs, IsAccepted cs →
        ((∀ part ∈ Text.splitOn ',' cs, part ≠ [] ∧ ¬IsHidden part) ↔
          ¬SlipsThrough (Text.splitOn ',' cs)) := by
  have hSlipped : SlipsThrough parts → ∃ part ∈ parts, ¬IsAccepted part := by
    intro hSlips
    obtain ⟨part, hMem, hUnfit⟩ := hSlips.unfit
    exact ⟨part, hMem, not_isAccepted_of_unfit hUnfit⟩
  refine ⟨⟨?_, ?_⟩, ?_, ?_⟩
  · intro hLaw hSlips
    obtain ⟨part, hMem, hRefused⟩ := hSlipped hSlips
    exact hRefused (hLaw.mp hSlips.isAccepted part hMem)
  · intro hNone
    constructor
    · intro h
      rw [forall_isAccepted_iff h, ← slipsThrough_iff h]
      exact hNone
    · exact isAccepted_join hSome
  · intro hSlips
    exact ⟨hSlips.isAccepted, hSlipped hSlips⟩
  · intro cs h
    rw [← Text.join_splitOn ',' cs] at h
    rw [slipsThrough_iff h]
    simp

/-- Two patterns with a comma between them, as they are used. -/
theorem isAccepted_join_iff_logs :
    (["app-logs-*", "access-*"] : List Text) ≠ [] ∧ ¬SlipsThrough ["app-logs-*", "access-*"] ∧
      IsAccepted "app-logs-*,access-*" := by
  have hSome : (["app-logs-*", "access-*"] : List Text) ≠ [] := by simp
  have hFit : ¬SlipsThrough ["app-logs-*", "access-*"] := by
    intro hSlips
    exact absurd hSlips.unfit (by decide)
  have hLaw := (isAccepted_join_iff hSome).1.mpr hFit
  refine ⟨hSome, hFit, hLaw.mpr ?_⟩
  intro part hPart
  simp only [List.mem_cons, List.not_mem_nil, or_false] at hPart
  rcases hPart with rfl | rfl <;> rfl

/-- The name of all indices is refused by itself and accepted behind another one, and a comma alone, with
nothing on either side, is accepted too. -/
theorem isAccepted_logs_all :
    (∀ part ∈ (["logs", "_all"] : List Text), .char ',' ∉ part) ∧
      IsAccepted (Text.join [','] ["logs", "_all"]) ∧ ¬IsAccepted "_all" ∧
      IsAccepted "," ∧ Text.splitOn ',' "," = [[], []] := by
  exact ⟨by decide, rfl, nofun, rfl, rfl⟩

end Index

end LogQuery
