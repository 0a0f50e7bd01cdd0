import LogQuery.Proofs.Query.Stock
import LogQuery.Proofs.Token.Bounds

/-! Whether a token between quotes reaches the recognizer of nested documents. The recognizers that
are tried before it are given the whole token, quotes and all. Those of fields, of prefixes, of
addresses and of joining words decline it; that of bounds does not if one of the tokens between the
quotes has a bound after a comma. -/

namespace LogQuery

namespace Token

variable {s : Settings} {around : Recognizer.Surroundings} {path token : Text} {tokens : List Text}

/-- The recognizers that decline every token between quotes under a path. -/
theorem declines_quoted (h : IsPath around.fieldsMeta path) (tokens : List Text) {stock : Stock}
    (hStock : stock ∈ [Stock.text, .underscored, .ip, .bareWords]) :
    (s.ofStock stock).claim around (quoted path tokens) = .done none := by
  by_cases hIp : stock = .ip
  · rw [hIp]
    exact declines_ip (AddressBlock.condition?_quoted h.scope tokens)
  · have hOthers : ∀ stock ∈ [Stock.text, .underscored, .ip, .bareWords], stock ≠ .ip →
        stock ∈ [Stock.text, .underscored, .bareWords] := by
      decide
    exact declines_path h.plain _ (hOthers stock hStock hIp)

/-- The piece that the recognizer of bounds makes for a path. -/
def boundsPiece (path : Text) (bounds : Members) : Piece :=
  { Piece.ofCondition (Clause.range path bounds) with claimedBy? := some Stock.ranges.name }

theorem claim_ranges_quoted (s : Settings) (around : Recognizer.Surroundings) (hPath : path ≠ [])
    (hChars : ∀ c ∈ path, Nested.isFieldChar c = true) (h : ∀ t ∈ tokens, Text.IsWord t) :
    (tokens.any Ranges.boundsFurther = false →
      (s.ofStock .ranges).claim around (quoted path tokens) = .done none) ∧
    (tokens.any Ranges.boundsFurther = true →
      (∃ side, (s.ofStock .ranges).claim around (quoted path tokens) =
        .fail (.rangeConflict side (quoted path tokens))) ∨
      ∃ bounds, (s.ofStock .ranges).claim around (quoted path tokens) =
        .done (some [boundsPiece path bounds])) := by
  have hExpand : Recognizer.expandStock around s.depth .ranges (quoted path tokens) =
      .of (Recognizer.conditionPiece <$> Ranges.condition? (quoted path tokens)) := rfl
  obtain ⟨hNone, hSome⟩ := Ranges.condition?_quoted hPath hChars h
  constructor
  · exact fun hFree => declines_ranges (hNone hFree)
  · intro hBounds
    rcases hSome hBounds with ⟨side, hConflict⟩ | ⟨bounds, hRange⟩
    · rw [hConflict] at hExpand
      exact .inl ⟨side, Settings.claim_ofStock_of_fail hExpand⟩
    · rw [hRange] at hExpand
      exact .inr ⟨bounds, Settings.claim_ofStock hExpand⟩

end Token

namespace Query

open Token

variable {s : Settings} {path first : Text} {rest : List Text}

/-- Those before all decline a token between quotes exactly if no token in it has a bound after a
comma. -/
theorem declines_ahead_iff (folder : Folder) (hPath : IsPath s.fieldsMeta path)
    (hWords : ∀ t ∈ first :: rest, Text.IsWord t) :
    (∀ r ∈ ahead.map s.ofStock,
        r.claim (surroundings folder s) (quoted path (first :: rest)) = .done none) ↔
      (first :: rest).any Ranges.boundsFurther = false := by
  obtain ⟨hFree, hBounds⟩ :=
    claim_ranges_quoted s (surroundings folder s) hPath.nonempty hPath.chars hWords
  constructor
  · intro hDecline
    have hRanges := hDecline _ (List.mem_map_of_mem (by decide : Stock.ranges ∈ ahead))
    by_contra hSome
    rcases hBounds (Bool.eq_true_of_not_eq_false hSome) with ⟨side, hClaim⟩ | ⟨bounds, hClaim⟩ <;>
      cases hClaim.symm.trans hRanges
  · intro hNone r hMem
    obtain ⟨stock, hStock, rfl⟩ := List.mem_map.mp hMem
    by_cases hRanges : stock = .ranges
    · rw [hRanges]
      exact hFree hNone
    · have hOthers : ∀ stock ∈ ahead, stock ≠ .ranges →
          stock ∈ [Stock.text, .underscored, .ip, .bareWords] := by
        decide
      exact declines_quoted hPath (first :: rest) (hOthers stock hStock hRanges)

/-- The recognizer of nested documents and the one after it turn a token between quotes into a
nested query, if the first token in it starts one, and into text if not. -/
theorem claimFirst_quoted (folder : Folder) (hPath : IsPath s.fieldsMeta path)
    (hWords : ∀ t ∈ first :: rest, Text.IsWord t) (hValue : Nested.HasValue first) :
    claimFirst (surroundings folder s) (quoted path (first :: rest))
        [s.ofStock .nested, s.ofStock .autoEscape] =
      if Nested.opens first then
        (within folder s s.depth (first :: rest)).andThen fun query =>
          .done [{ Piece.ofNested path query with claimedBy? := some Stock.nested.name }]
      else .done [escapedPiece (quoted path (first :: rest))] := by
  rw [claimFirst_nested, split?_quoted hPath.scope hWords hValue]
  cases Nested.opens first <;> rfl

theorem isPath_comments : IsPath settingsWithoutFiles.fieldsMeta "comments" where
  nonempty := by decide
  chars := by decide
  free := by decide +kernel
  notText := rfl

theorem within_comments :
    within .empty settingsWithoutFiles settingsWithoutFiles.depth
        ["author:bob", "AND", "votes:>5"] =
      .done (Clause.single "bool" (Clause.single "must" (.arr [
        Clause.range "votes" [("gt", .str "5")], Clause.queryString (.str "author:bob")]))) := by
  with_unfolding_all rfl

/-- With the stock recognizers as they come, and none of files, a token between quotes whose first
token has the form of a field with a value

* is declined by every recognizer before that of nested documents exactly if no token in it has a
  bound after a comma;
* is then a nested query, or fails as compiling its tokens one level deeper does, if the first of
  them starts a nested query, and is text if not;
* and otherwise bounds its path, unless its bounds conflict. -/
theorem pieces_quoted (folder : Folder) (hStock : s.LeavesStock) (hPath : IsPath s.fieldsMeta path)
    (hWords : ∀ t ∈ first :: rest, Text.IsWord t) (hValue : Nested.HasValue first) :
    ∃ before nested after, s.chain = .ok (before ++ nested :: after) ∧
      nested.rule = .stock .nested ∧
      ((∀ r ∈ before, r.claim (surroundings folder s) (quoted path (first :: rest)) = .done none) ↔
        (first :: rest).any Ranges.boundsFurther = false) ∧
      ((first :: rest).any Ranges.boundsFurther = false →
        pieces folder s (quoted path (first :: rest)) =
          if Nested.opens first then
            (within folder s s.depth (first :: rest)).andThen fun query =>
              .done [{ Piece.ofNested path query with claimedBy? := some Stock.nested.name }]
          else .done [escapedPiece (quoted path (first :: rest))]) ∧
      ((first :: rest).any Ranges.boundsFurther = true →
        (∃ side, pieces folder s (quoted path (first :: rest)) =
          .fail (.rangeConflict side (quoted path (first :: rest)))) ∨
        ∃ bounds, pieces folder s (quoted path (first :: rest)) =
          .done [boundsPiece path bounds]) := by
  have hChain := Settings.chain_of_leavesStock hStock
  have hAhead := declines_ahead_iff folder hPath hWords
  refine ⟨ahead.map s.ofStock, s.ofStock .nested, [s.ofStock .autoEscape], hChain, rfl, hAhead,
    fun hNone => ?_, fun hSome => ?_⟩
  · exact (pieces_of_chain hChain folder _).trans
      ((claimFirst_append_of_declined (hAhead.mpr hNone) _).trans
        (claimFirst_quoted folder hPath hWords hValue))
  · have hText : (s.ofStock .text).claim (surroundings folder s) (quoted path (first :: rest)) =
        .done none := declines_quoted hPath (first :: rest) (by decide)
    have hPieces : pieces folder s (quoted path (first :: rest)) = _ :=
      (pieces_of_chain hChain folder _).trans (claimFirst_of_declined hText _)
    rcases (claim_ranges_quoted s (surroundings folder s) hPath.nonempty hPath.chars hWords).2
      hSome with ⟨side, hClaim⟩ | ⟨bounds, hClaim⟩
    · exact .inl ⟨side, hPieces.trans (claimFirst_of_fail hClaim _)⟩
    · exact .inr ⟨bounds, hPieces.trans (claimFirst_of_claimed hClaim _)⟩

theorem pieces_quoted_comments :
    pieces .empty settingsWithoutFiles (quoted "comments" ["author:bob", "AND", "votes:>5"]) =
      .done [{ Piece.ofNested "comments" (Clause.single "bool" (Clause.single "must" (.arr [
          Clause.range "votes" [("gt", .str "5")], Clause.queryString (.str "author:bob")])))
        with claimedBy? := some Stock.nested.name }] := by
  have hWords : ∀ t ∈ (["author:bob", "AND", "votes:>5"] : List Text), Text.IsWord t := by
    unfold Text.IsWord
    decide +kernel
  have hValue : Nested.HasValue "author:bob" :=
    ⟨"author", "bob", by decide, by decide, by decide, by decide⟩
  obtain ⟨-, -, -, -, -, -, hFree, -⟩ :=
    pieces_quoted .empty leavesStock_settingsWithoutFiles isPath_comments hWords hValue
  rw [hFree (by decide), if_pos (by decide), within_comments, Outcome.done_andThen]

/-- A bound after a comma within the quotes takes the token from the recognizer of nested documents,
although its only token is a field with a value: the path is bounded by what stands up to the
closing quote. -/
theorem pieces_quoted_bounds :
    settingsWithoutFiles.LeavesStock ∧ IsPath settingsWithoutFiles.fieldsMeta "comments" ∧
      (∀ t ∈ (["votes:>1,<5"] : List Text), Text.IsWord t) ∧ Nested.HasValue "votes:>1,<5" ∧
      Nested.opens "votes:>1,<5" = true ∧
      pieces .empty settingsWithoutFiles (quoted "comments" ["votes:>1,<5"]) =
        .done [boundsPiece "comments" [("lt", .str "5\"")]] ∧
      ∀ compiled : Outcome Json,
        pieces .empty settingsWithoutFiles (quoted "comments" ["votes:>1,<5"]) ≠
          compiled.andThen fun query =>
            .done [{ Piece.ofNested "comments" query with
              claimedBy? := some Stock.nested.name }] := by
  have hPieces : pieces .empty settingsWithoutFiles (quoted "comments" ["votes:>1,<5"]) =
      .done [boundsPiece "comments" [("lt", .str "5\"")]] := by
    with_unfolding_all rfl
  refine ⟨leavesStock_settingsWithoutFiles, isPath_comments, ?_,
    ⟨"votes", ">1,<5", by decide, by decide, by decide, by decide⟩, by decide, hPieces,
    fun compiled hSame => ?_⟩
  · unfold Text.IsWord
    decide +kernel
  · obtain ⟨result, warnings⟩ := compiled
    rw [hPieces] at hSame
    cases result <;> cases hSame

end Query

end LogQuery
