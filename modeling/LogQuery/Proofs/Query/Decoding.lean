import LogQuery.Proofs.Query.Stock
import LogQuery.Proofs.Token.Quoted

/-! What the recognizer of nested documents makes of a token between quotes: the tokens that were
put together, compiled one level deeper than the compilation that it belongs to. Around a single
token the quotes make no difference. -/

namespace LogQuery.Query

open Token Recognizer

variable {s : Settings} {depth : Json} {path first : Text} {rest : List Text}

theorem expandStock_nested (folder : Folder) {token : Text} {inner : List Text}
    (hSplit : Nested.split? token = some (path, inner)) :
    expandStock (surroundings folder s) depth .nested token =
      (within folder s depth inner).andThen fun query =>
        .done (some [Piece.ofNested path query]) := by
  simp only [expandStock, surroundings, hSplit]
  rfl

/-- Let the first of some tokens start a nested query: it has the form of a field with a value, and
it looks neither like a hardware address nor like a web address nor is it an internet address. Then
the recognizer of nested documents makes of these tokens between quotes a query on the path, namely
what compiling exactly these tokens one level deeper renders to, or it fails as that does. A single
token that does not end in a quote comes to the same without the quotes, unless the path and the
token together look like a hardware address. -/
theorem expand_quoted (folder : Folder) (s : Settings) (depth : Json)
    (hPath : Nested.IsScope path) (hWords : ∀ t ∈ first :: rest, Text.IsWord t)
    (hOpens : Nested.opens first = true) :
    expandStock (surroundings folder s) depth .nested (quoted path (first :: rest)) =
        ((within folder s depth (first :: rest)).andThen fun query =>
          .done (some [Piece.ofNested path query])) ∧
      (first.getLast? ≠ some (.char '"') →
        Nested.startsLikeHardware (path ++ .char ':' :: first) = false →
        expandStock (surroundings folder s) depth .nested (path ++ .char ':' :: first) =
          expandStock (surroundings folder s) depth .nested (quoted path [first])) := by
  have hQuoted : ∀ rest, (∀ t ∈ first :: rest, Text.IsWord t) →
      Nested.split? (quoted path (first :: rest)) = some (path, first :: rest) := by
    intro rest hWords
    have hValue := Nested.hasValue_of_isFieldValue (Nested.isFieldValue_of_opens hOpens)
    rw [split?_quoted hPath hWords hValue, if_pos hOpens]
  have hFirst := hWords first List.mem_cons_self
  refine ⟨expandStock_nested folder (hQuoted rest hWords), fun hEnd hHardware => ?_⟩
  have hSingle : ∀ t ∈ [first], Text.IsWord t := List.forall_mem_singleton.mpr hFirst
  rw [expandStock_nested folder (split?_bare hPath hFirst hOpens hEnd hHardware),
    expandStock_nested folder (hQuoted [] hSingle)]

/-- Two tokens between quotes, the first of which ends in a quote of its own, under a path that is
no word; and a single token with and without quotes. -/
theorem expand_quoted_bob :
    expandStock (surroundings .empty settingsWithoutFiles) (.int 0) .nested
        "my-comments:\"author:\"bob\" =status:open\"" =
      .done (some [Piece.ofNested "my-comments" (Clause.single "bool" (Clause.single "must" (.arr [
        Clause.onField "term" "status" (.str "open"),
        Clause.queryString (.str "author:\"bob\"")])))]) ∧
      expandStock (surroundings .empty settingsWithoutFiles) (.int 0) .nested
          "my-comments:author:bob" =
        expandStock (surroundings .empty settingsWithoutFiles) (.int 0) .nested
          "my-comments:\"author:bob\"" := by
  have hPath : Nested.IsScope "my-comments" :=
    ⟨by decide, by decide, by decide, by decide +kernel⟩
  have hWords : ∀ t ∈ (["author:\"bob\"", "=status:open"] : List Text), Text.IsWord t := by
    unfold Text.IsWord
    decide +kernel
  have hSingle : ∀ t ∈ (["author:bob"] : List Text), Text.IsWord t := by
    unfold Text.IsWord
    decide +kernel
  have hWithin : within .empty settingsWithoutFiles (.int 0) ["author:\"bob\"", "=status:open"] =
      .done (Clause.single "bool" (Clause.single "must" (.arr [
        Clause.onField "term" "status" (.str "open"),
        Clause.queryString (.str "author:\"bob\"")]))) := by
    with_unfolding_all rfl
  have hPair := expand_quoted .empty settingsWithoutFiles (.int 0) hPath hWords (by decide)
  have hBare := expand_quoted .empty settingsWithoutFiles (.int 0) hPath hSingle (by decide)
  refine ⟨?_, hBare.2 (by decide) (by decide)⟩
  rw [hWithin, Outcome.done_andThen] at hPair
  exact hPair.1

end LogQuery.Query
