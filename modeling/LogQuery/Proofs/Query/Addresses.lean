import LogQuery.Proofs.Query.Stock
import LogQuery.Proofs.Token.Addresses
import LogQuery.Proofs.Token.Words

/-! What becomes of addresses after a field name, with the stock recognizers as they come and none
of files: they stay free text, word for word, and no recognizer claims them. -/

namespace LogQuery

namespace Token

variable {s : Settings} {around : Recognizer.Surroundings} {field address value : Text}

theorem declines_address (hField : IsFieldName around.fieldsMeta field) (h : IsAddress address)
    (hValue : value ∈ addressValues address) {stock : Stock} (hStock : stock ∈ Query.ahead) :
    (s.ofStock stock).claim around (field ++ .char ':' :: value) = .done none := by
  have hPlain := hField.plain
  by_cases hRanges : stock = .ranges
  · rw [hRanges]
    exact declines_ranges (Ranges.condition?_address hField.nonempty hPlain.scope.colon h hValue)
  · by_cases hIp : stock = .ip
    · rw [hIp]
      exact declines_ip (AddressBlock.condition?_address hField.nonempty hPlain.scope.colon h hValue)
    · have hOthers : ∀ stock ∈ Query.ahead, stock ≠ .ranges → stock ≠ .ip →
          stock ∈ [Stock.text, .underscored, .bareWords] := by
        decide
      exact declines_path hPlain value (hOthers stock hStock hRanges hIp)

theorem escapedPiece_of_forall {token : Text} (h : ∀ c ∈ token, Escape.isSpecial c = false) :
    escapedPiece token = Piece.ofText token := by
  rw [escapedPiece, Escape.text?_eq_none h]

end Token

namespace Query

open Token

variable {s : Settings} {field address : Text}

/-- With the stock recognizers as they come, and none of files, an address after a field name, with
or without quotes around it, is free text: the one piece of such a token is the token itself, and no
recognizer claims it. -/
theorem pieces_address (folder : Folder) (hStock : s.LeavesStock)
    (hField : IsFieldName s.fieldsMeta field) (h : IsAddress address) :
    ∀ value ∈ addressValues address, pieces folder s (field ++ .char ':' :: value) =
      .done [Piece.ofText (field ++ .char ':' :: value)] := by
  intro value hValue
  have hAhead : ∀ r ∈ ahead.map s.ofStock,
      r.claim (surroundings folder s) (field ++ .char ':' :: value) = .done none := by
    intro r hMem
    obtain ⟨stock, hAhead, rfl⟩ := List.mem_map.mp hMem
    exact declines_address hField h hValue hAhead
  have hSplit := Nested.split?_address hField.plain.scope h hValue
  have hEscaped := escapedPiece_of_forall (Escape.isSpecial_address hField.chars h hValue)
  rw [pieces_of_declined folder hStock hAhead, hSplit, hEscaped]

/-- An address of the longer family that ends in one of the shorter and starts like a field with a
value, and the pairs of a hardware address. -/
theorem pieces_address_source :
    (∀ value ∈ addressValues "fe80::10.0.0.1",
        pieces .empty settingsWithoutFiles ("src-ip@lan.x" ++ .char ':' :: value) =
          .done [Piece.ofText ("src-ip@lan.x" ++ .char ':' :: value)]) ∧
      pieces .empty settingsWithoutFiles "src-ip@lan.x:aa:bb:cc" =
        .done [Piece.ofText "src-ip@lan.x:aa:bb:cc"] := by
  have hField : IsFieldName settingsWithoutFiles.fieldsMeta "src-ip@lan.x" :=
    ⟨by decide, by decide, by decide +kernel, rfl⟩
  have hInternet : IsAddress "fe80::10.0.0.1" := .internet (by decide)
  have hHardware : IsAddress (Text.join ":" ["aa", "bb", "cc"]) :=
    .hardware (by decide) (by unfold IsHexPair; decide)
  exact ⟨pieces_address .empty leavesStock_settingsWithoutFiles hField hInternet,
    pieces_address .empty leavesStock_settingsWithoutFiles hField hHardware _
      List.mem_cons_self⟩

end Query

end LogQuery
