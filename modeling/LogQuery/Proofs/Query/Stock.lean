import LogQuery.Proofs.Token.Claims
import LogQuery.Proofs.Token.Paths
import LogQuery.Proofs.Token.Pieces
import LogQuery.Query.Compile

/-! What becomes of a token with the stock recognizers as they come, and none of files. Those of
fields, of prefixes and of joining words decline a token under a path; a token that is declined by
all that are tried before the one of nested documents is a nested query, or text that at most has to
be escaped. -/

namespace LogQuery

namespace Token

variable {s : Settings} {around : Recognizer.Surroundings} {path token : Text}

theorem Settings.claim_ofStock {stock : Stock} {pieces? : Option (List Piece)}
    (h : Recognizer.expandStock around s.depth stock token = .done pieces?) :
    (s.ofStock stock).claim around token =
      .done (pieces?.map (·.map fun p => { p with claimedBy? := some stock.name })) :=
  Recognizer.claim_of_expand h

theorem Settings.claim_ofStock_of_fail {stock : Stock} {failure : Failure}
    (h : Recognizer.expandStock around s.depth stock token = .fail failure) :
    (s.ofStock stock).claim around token = .fail failure := by
  have hExpand : (s.ofStock stock).expand around token = .fail failure := h
  rw [Recognizer.claim, hExpand]
  rfl

/-- The recognizers that decline every token under a plain field. -/
theorem declines_path (h : IsPlain around.fieldsMeta path) (rest : Text) {stock : Stock}
    (hStock : stock ∈ [Stock.text, .underscored, .bareWords]) :
    (s.ofStock stock).claim around (path ++ .char ':' :: rest) = .done none := by
  have hExpand : Recognizer.expandStock around s.depth stock (path ++ .char ':' :: rest) =
      .done none := by
    simp only [List.mem_cons, List.not_mem_nil, or_false] at hStock
    rcases hStock with rfl | rfl | rfl
    · rw [Recognizer.expandStock, Field.condition?_path h]
      rfl
    · rw [Recognizer.expandStock, Underscored.condition?_path h.scope]
      rfl
    · have hColon : .char ':' ∈ path ++ .char ':' :: rest :=
        List.mem_append_right _ List.mem_cons_self
      rw [Recognizer.expandStock, Word.piece?_of_colon hColon]
      rfl
  exact Settings.claim_ofStock hExpand

theorem declines_ranges (h : Ranges.condition? token = .ok none) :
    (s.ofStock .ranges).claim around token = .done none := by
  have hExpand : Recognizer.expandStock around s.depth .ranges token = .done none := by
    rw [Recognizer.expandStock, h]
    rfl
  exact Settings.claim_ofStock hExpand

theorem declines_ip (h : AddressBlock.condition? token = none) :
    (s.ofStock .ip).claim around token = .done none := by
  have hExpand : Recognizer.expandStock around s.depth .ip token = .done none := by
    rw [Recognizer.expandStock, h]
    rfl
  exact Settings.claim_ofStock hExpand

/-- The piece of a token that at most has to be escaped. -/
def escapedPiece (token : Text) : Piece :=
  match Escape.text? token with
  | some text => { Piece.ofText text with claimedBy? := some Stock.autoEscape.name }
  | none => Piece.ofText token

theorem claimFirst_autoEscape (token : Text) :
    claimFirst around token [s.ofStock .autoEscape] = .done [escapedPiece token] := by
  have hClaim : (s.ofStock .autoEscape).claim around token = _ := Settings.claim_ofStock rfl
  rw [escapedPiece]
  cases hText : Escape.text? token with
  | none => exact claimFirst_of_declined (by simpa [hText] using hClaim) []
  | some text => exact claimFirst_of_claimed (by simpa [hText] using hClaim) []

end Token

namespace Query

open Token

variable {s : Settings}

/-- What the recognizers of a compilation know beside the token. -/
def surroundings (folder : Folder) (s : Settings) : Recognizer.Surroundings :=
  ⟨folder, s.fieldsMeta, some (within folder s)⟩

theorem pieces_of_chain {rs : List Recognizer} (h : s.chain = .ok rs) (folder : Folder)
    (token : Text) : pieces folder s token = claimFirst (surroundings folder s) token rs := by
  rw [pieces, piecesWith, h]
  exact Outcome.done_andThen rs _

/-- The stock recognizers that are tried before that of nested documents. -/
def ahead : List Stock :=
  [.text, .ranges, .underscored, .ip, .bareWords]

/-- The recognizer of nested documents and the one after it turn a token into a nested query, if it
can be split, and into text if not. -/
theorem claimFirst_nested (folder : Folder) (token : Text) :
    claimFirst (surroundings folder s) token [s.ofStock .nested, s.ofStock .autoEscape] =
      match Nested.split? token with
      | some (path, inner) =>
        (within folder s s.depth inner).andThen fun query =>
          .done [{ Piece.ofNested path query with claimedBy? := some Stock.nested.name }]
      | none => .done [escapedPiece token] := by
  cases hSplit : Nested.split? token with
  | some parts =>
      rw [claimFirst, surroundings, Recognizer.claim_nested rfl hSplit, Outcome.bind_def,
        Outcome.andThen_assoc]
      simp only [Outcome.done_andThen]
      rfl
  | none =>
      exact (claimFirst_of_declined (Recognizer.claim_nested_of_none rfl hSplit) _).trans
        (claimFirst_autoEscape _)

/-- A token that all those before decline is a nested query, if it can be split, and text if not. -/
theorem pieces_of_declined (folder : Folder) (hStock : s.LeavesStock) {token : Text}
    (h : ∀ r ∈ ahead.map s.ofStock, r.claim (surroundings folder s) token = .done none) :
    pieces folder s token =
      match Nested.split? token with
      | some (path, inner) =>
        (within folder s s.depth inner).andThen fun query =>
          .done [{ Piece.ofNested path query with claimedBy? := some Stock.nested.name }]
      | none => .done [escapedPiece token] :=
  (pieces_of_chain (Settings.chain_of_leavesStock hStock) folder token).trans
    ((claimFirst_append_of_declined h _).trans (claimFirst_nested folder token))

/-- The settings as they come, but for value files. -/
def settingsWithoutFiles : Settings :=
  { Settings.plain with options := .obj [("fileexpansion", .obj [("enabled", .bool false)])] }

theorem leavesStock_settingsWithoutFiles : settingsWithoutFiles.LeavesStock where
  extras := rfl
  priorities stock := by cases stock <;> rfl

end Query

end LogQuery
