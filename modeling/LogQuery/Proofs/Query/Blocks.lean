import LogQuery.Proofs.Query.Stock
import LogQuery.Proofs.Token.Blocks

/-! What becomes of tokens with the form of a block of addresses of the longer family. A block is a
range on its path. Where there is no such block, the recognizer of addresses declines the token, and
that of nested documents makes a nested query of it if its first group looks like a field. -/

namespace LogQuery

namespace Token

variable {s : Settings} {around : Recognizer.Surroundings} {path body bits : Text}

/-- The piece that the recognizer of addresses makes for a path. -/
def blockPiece (path : Text) (block : Net.Block) : Piece :=
  { Piece.ofCondition (Clause.range path
      [("gte", .str block.first.text), ("lte", .str block.last.text)]) with
    claimedBy? := some Stock.ip.name }

theorem claim_ip_block (h : IsPath around.fieldsMeta path) (hShape : IsBlockShape body bits) :
    (s.ofStock .ip).claim around (blockToken path body bits) =
      .done ((Net.Block.read? body bits).map fun block => [blockPiece path block]) := by
  have hExpand : Recognizer.expandStock around s.depth .ip (blockToken path body bits) =
      .done ((Net.Block.read? body bits).map fun block => [Piece.ofCondition (Clause.range path
        [("gte", .str block.first.text), ("lte", .str block.last.text)])]) := by
    rw [Recognizer.expandStock, AddressBlock.condition?_block h.nonempty h.chars hShape]
    cases Net.Block.read? body bits <;> rfl
  rw [Settings.claim_ofStock hExpand]
  cases Net.Block.read? body bits <;> rfl

/-- Of the recognizers before that of nested documents, only the one of addresses may claim such a
token. -/
theorem declines_block (h : IsPath around.fieldsMeta path) (hShape : IsBlockShape body bits)
    {stock : Stock} (hStock : stock ∈ [Stock.text, .ranges, .underscored, .bareWords]) :
    (s.ofStock stock).claim around (blockToken path body bits) = .done none := by
  by_cases hRanges : stock = .ranges
  · rw [hRanges]
    exact declines_ranges (Ranges.condition?_block h.nonempty h.chars hShape)
  · have hOthers : ∀ stock ∈ [Stock.text, .ranges, .underscored, .bareWords], stock ≠ .ranges →
        stock ∈ [Stock.text, .underscored, .bareWords] := by
      decide
    exact declines_path h.plain _ (hOthers stock hStock hRanges)

end Token

namespace Query

open Token

variable {s : Settings} {path body bits : Text}

/-- With the stock recognizers as they come, and none of files, a token with the form of a block
under a path is a range on the path if there is such a block. If there is none, it is a nested
query, or fails as compiling its value one level deeper does, exactly if its value starts with a
letter and nothing in it looks like a hardware address; otherwise it is text. -/
theorem pieces_block (folder : Folder) (hStock : s.LeavesStock) (hPath : IsPath s.fieldsMeta path)
    (hShape : IsBlockShape body bits) :
    pieces folder s (blockToken path body bits) =
      match Net.Block.read? body bits with
      | some block => .done [blockPiece path block]
      | none =>
        if opensBlock path body bits then
          (within folder s s.depth [blockValue body bits]).andThen fun query =>
            .done [{ Piece.ofNested path query with claimedBy? := some Stock.nested.name }]
        else .done [escapedPiece (blockToken path body bits)] := by
  have hClaim := @claim_ip_block s (surroundings folder s) path body bits hPath hShape
  have hDeclines : ∀ stock ∈ [Stock.text, .ranges, .underscored, .bareWords],
      (s.ofStock stock).claim (surroundings folder s) (blockToken path body bits) = .done none :=
    fun stock => declines_block hPath hShape
  rw [pieces_of_chain (Settings.chain_of_leavesStock hStock)]
  simp only [List.map_cons, List.map_nil]
  rw [claimFirst_of_declined (hDeclines .text (by decide)),
    claimFirst_of_declined (hDeclines .ranges (by decide)),
    claimFirst_of_declined (hDeclines .underscored (by decide))]
  cases hBlock : Net.Block.read? body bits with
  | some block =>
      rw [hBlock] at hClaim
      exact claimFirst_of_claimed hClaim _
  | none =>
      rw [hBlock] at hClaim
      rw [claimFirst_of_declined hClaim, claimFirst_of_declined (hDeclines .bareWords (by decide)),
        claimFirst_nested, Nested.split?_block hPath.nonempty hPath.chars hPath.free hShape]
      cases opensBlock path body bits <;> rfl

theorem isPath_address : IsPath settingsWithoutFiles.fieldsMeta "src_ip" where
  nonempty := by decide
  chars := by decide
  free := by decide +kernel
  notText := rfl

theorem isBlockShape_tooLong : IsBlockShape "fe80::1" "129" where
  chars := by decide
  colon := by decide
  nonempty := by decide
  digits := by decide

/-- A block, and a text with two gaps that is none. -/
theorem pieces_block_address :
    pieces .empty settingsWithoutFiles (blockToken "src_ip" "fe80::" "10") =
        .done [blockPiece "src_ip" ⟨⟨.v6, 0xfe80 <<< 112⟩, 10⟩] ∧
      pieces .empty settingsWithoutFiles (blockToken "src_ip" "2001::db8::" "32") =
        .done [escapedPiece (blockToken "src_ip" "2001::db8::" "32")] := by
  have hBlock : IsBlockShape "fe80::" "10" := ⟨by decide, by decide, by decide, by decide⟩
  have hGaps : IsBlockShape "2001::db8::" "32" := ⟨by decide, by decide, by decide, by decide⟩
  have hRead : Net.Block.read? "fe80::" "10" = some ⟨⟨.v6, 0xfe80 <<< 112⟩, 10⟩ := by decide
  have hNone : Net.Block.read? "2001::db8::" "32" = none := by decide
  have hCloses : opensBlock "src_ip" "2001::db8::" "32" = false := by decide
  constructor
  · rw [pieces_block .empty leavesStock_settingsWithoutFiles isPath_address hBlock, hRead]
  · rw [pieces_block .empty leavesStock_settingsWithoutFiles isPath_address hGaps, hNone]
    simp only [hCloses, Bool.false_eq_true, ↓reduceIte]

/-- With more bits than an address has, a text that would start a block starts a nested query. -/
theorem pieces_block_tooLong :
    settingsWithoutFiles.LeavesStock ∧ IsPath settingsWithoutFiles.fieldsMeta "src_ip" ∧
      IsBlockShape "fe80::1" "129" ∧
      pieces .empty settingsWithoutFiles (blockToken "src_ip" "fe80::1" "129") =
        .done [{ Piece.ofNested "src_ip" (Clause.single "bool" (Clause.single "must" (.arr [
            Clause.queryString (.str "fe80::1\\/129")]))) with
          claimedBy? := some Stock.nested.name }] := by
  refine ⟨leavesStock_settingsWithoutFiles, isPath_address, isBlockShape_tooLong, ?_⟩
  with_unfolding_all rfl

end Query

end LogQuery
