import LogQuery.Proofs.Query.Nested
import LogQuery.Proofs.Token.Words

/-! Negation of one token. A word that negates sends a condition to `must_not` and stays in front of
free text, but a query on nested documents takes the place of the whole bool query, and the negation
is lost with it. This is the only case in which it is. -/

namespace LogQuery

namespace Token

/-! ## The word that negates -/

/-- The piece of the word that negates. -/
def notPiece (name : Option Text) : Piece :=
  { text := .str "NOT", negates := true, dangles := true, claimedBy? := name }

theorem piece?_not : Word.piece? "not" = some (notPiece none) :=
  rfl

theorem notPiece_setsOne (name : Option Text) : (notPiece name).SetsOne :=
  .text "NOT" ⟨rfl, rfl, rfl⟩

end Token

namespace Query

open Token

variable {folder : Folder} {s : Settings} {token : Text}

/-! ## The pieces of one token -/

theorem compile_eq_ok_iff {tokens : List Text} {q : Query} :
    (compile folder s tokens).result = .ok q ↔
      ∃ results, List.Forall₂ (fun t ps => (pieces folder s t).result = .ok ps) tokens results ∧
        ofPieces s results.flatten = .ok q := by
  simp only [compile, compileWith, Outcome.result_bind_eq_ok_iff,
    Outcome.result_collect_eq_ok_iff, Outcome.result_of]
  rfl

theorem pieces_not (hOptions : s.options = .obj []) (hExtras : s.extras = []) {ps : List Piece}
    (h : (pieces folder s "not").result = .ok ps) : ∃ name, ps = [notPiece name] := by
  simp only [pieces, piecesWith, Outcome.result_bind_eq_ok_iff, Outcome.result_of] at h
  obtain ⟨rs, hChain, h⟩ := h
  obtain ⟨name, hName⟩ := claimFirst_word _
    (fun r hr => Settings.stock_of_mem_chain hExtras hChain hr)
    (Settings.exists_bareWords hExtras (Settings.leavesWords_of_options hOptions) hChain) piece?_not
  rw [hName] at h
  exact ⟨name, (Except.ok.inj h).symm⟩

/-! ## The rendered queries -/

/-- The query of a single clause in one section. -/
def clauseIn (sec : Section) (clause : Json) : Json :=
  Clause.single "bool" (.obj [(sec.name, .arr [clause])])

theorem render_single {q : Query} {sec : Section} {clause : Json} (hNested : q.nested = .null)
    (hMinimum : q.minimumShouldMatch = .null) (hStashed : q.stashed = .obj [])
    (hIn : q.conditions sec = .arr [clause])
    (hOthers : ∀ other, other ≠ sec → q.conditions other = .arr []) :
    q.render = .ok (clauseIn sec clause) := by
  rw [render_of_not_stashed hStashed, hNested, hMinimum]
  have hMust := hOthers .must
  have hMustNot := hOthers .mustNot
  have hShould := hOthers .should
  have hFilter := hOthers .filter
  cases sec <;>
    simp_all [conditions, Json.truthy, Clause.Sections.clause, Clause.ifGiven, Members.present,
      clauseIn, Section.name]

theorem eq_of_map_str_eq {t u : List Text} (h : t.map Json.str = u.map .str) : u = t :=
  (List.map_injective_iff.mpr fun _ _ => Json.str.inj) h.symm

namespace FollowsTable

variable {q : Query} {ps : List Piece} {clause : Json}

/-- The single clause that a table gives goes to the section of the context. -/
theorem render_plain (h : q.FollowsTable s ps) (hNested : lastNested? ps = none)
    (hNegated : conditionsAfter true false ps = [])
    (hClause : ∀ words : List Text,
      FreeText.assemble s.join ((freeTexts ps).map .str) = words.map .str →
        conditionsAfter false false ps ++ textClause words = [clause]) :
    q.render = .ok (clauseIn s.context.section clause) := by
  obtain ⟨words, hWords, hContext⟩ := h.context
  refine render_single (by simp [h.nested, hNested]) h.minimumShouldMatch h.stashed
    (by rw [hContext, hClause words hWords]) ?_
  intro other hOther
  by_cases hNot : other = .mustNot
  · rw [hNot, conditions, h.mustNot, hNegated]
  · exact h.others other hNot hOther

/-- The single condition that a table negates goes to `must_not`. -/
theorem render_negated (h : q.FollowsTable s ps) (hNested : lastNested? ps = none)
    (hNegated : conditionsAfter true false ps = [clause])
    (hPlain : conditionsAfter false false ps = []) (hFree : freeTexts ps = []) :
    q.render = .ok (clauseIn .mustNot clause) := by
  obtain ⟨words, hWords, hContext⟩ := h.context
  have hNoWords : words = [] := by
    rw [hFree] at hWords
    exact eq_of_map_str_eq (t := []) hWords
  refine render_single (by simp [h.nested, hNested]) h.minimumShouldMatch h.stashed
    (by rw [conditions, h.mustNot, hNegated]) ?_
  intro other hOther
  by_cases hSec : other = s.context.section
  · rw [hSec, hContext, hPlain, hNoWords]
    rfl
  · exact h.others other hOther hSec

end FollowsTable

theorem same_clauseIn_of_ne {sec other : Section} (h : sec ≠ other) (c d : Json) :
    (clauseIn sec c).same (clauseIn other d) = false := by
  have hName : sec.name ≠ other.name := fun he => h (by
    have hSec := Section.named?_name sec
    rw [he, Section.named?_name] at hSec
    exact (Option.some.inj hSec).symm)
  simp [clauseIn, Clause.single, Json.same, Json.sameMembers, Json.sameMember,
    Members.get?_cons, Members.get?_nil, hName]

theorem same_clauseIn_queryString {sec : Section} {t u : Text} (h : u ≠ t) :
    (clauseIn sec (Clause.queryString (.str t))).same
      (clauseIn sec (Clause.queryString (.str u))) = false := by
  simp [clauseIn, Clause.queryString, Clause.single, Json.same, Json.sameMembers,
    Json.sameMember, Json.sameItems, Json.isText, Members.get?_cons, h]

section SinglePiece

variable {p : Piece} {name : Option Text}

theorem render_condition {q n : Query} {members : Members} (h : p.IsCondition (.obj members))
    (hq : q.FollowsTable s [p]) (hn : n.FollowsTable s [notPiece name, p]) :
    q.render = .ok (clauseIn s.context.section (.obj members)) ∧
      n.render = .ok (clauseIn .mustNot (.obj members)) := by
  have hText : p.text? = none := by simp [Piece.text?, h.text]
  constructor
  · apply hq.render_plain
    · simp [lastNested?, h.nested?]
    · simp [conditionsAfter]
    · intro words hWords
      have hFree : freeTexts [p] = [] := by simp [freeTexts, headText?, hText]
      rw [hFree] at hWords
      have hNoWords : words = [] := eq_of_map_str_eq (t := []) hWords
      simp [conditionsAfter, h.condition?, hNoWords, textClause]
  · apply hn.render_negated
    · simp [lastNested?, notPiece, h.nested?]
    · simp [conditionsAfter, notPiece, h.condition?]
    · simp [conditionsAfter, notPiece]
    · simp [freeTexts, headText?, hText, notPiece, textFollows, h.dangles, h.kind_eq]

theorem render_text {q n : Query} {t : Text} (h : p.IsText t) (hd : p.dangles = false)
    (hOperator : FreeText.isOperator (.str t) = false)
    (hq : q.FollowsTable s [p]) (hn : n.FollowsTable s [notPiece name, p]) :
    q.render = .ok (clauseIn s.context.section (Clause.queryString (.str t))) ∧
      n.render = .ok (clauseIn s.context.section
        (Clause.queryString (.str ("NOT" ++ " " ++ t)))) := by
  have hNotText : (notPiece name).text? = some ("NOT" : Text) := rfl
  constructor
  · apply hq.render_plain
    · simp [lastNested?, h.nested?]
    · simp [conditionsAfter]
    · intro words hWords
      have hFree : freeTexts [p] = [t] := by simp [freeTexts, headText?, hd, h.text?_eq]
      rw [hFree, FreeText.assemble_of_isNormal _ (FreeText.isNormal_singleton hOperator)] at hWords
      obtain rfl : words = [t] := eq_of_map_str_eq (t := [t]) hWords
      simp [conditionsAfter, h.condition?, textClause, Text.join]
  · apply hn.render_plain
    · simp [lastNested?, notPiece, h.nested?]
    · simp [conditionsAfter, notPiece, h.condition?]
    · intro words hWords
      have hFree : freeTexts [notPiece name, p] = [("NOT" : Text), t] := by
        simp [freeTexts, headText?, hd, h.text?_eq, h.kind_eq, textFollows, hNotText]
      rw [hFree, FreeText.assemble_of_isNormal _ (FreeText.isNormal_negated hOperator)] at hWords
      obtain rfl : words = [("NOT" : Text), t] := eq_of_map_str_eq (t := [("NOT" : Text), t]) hWords
      simp [conditionsAfter, textClause, Text.join, notPiece]

/-- A query on nested documents takes no part of the table but its own place. -/
theorem ofPieces_not_nested {nested : Scoped} (h : p.IsNested nested) :
    ofPieces s [notPiece name, p] = ofPieces s [p] := by
  simp [ofPieces, Assembly.add, Assembly.place, notPiece, h.dangles, h.nested?]

end SinglePiece

/-! ## Negating a token -/

/-- A token and its negation compile from the same piece. -/
theorem exists_piece_of_compile (hOptions : s.options = .obj []) (hExtras : s.extras = [])
    {q n : Query} (hq : (compile folder s [token]).result = .ok q)
    (hn : (compile folder s ["not", token]).result = .ok n) :
    ∃ p name, (pieces folder s token).result = .ok [p] ∧ StockPiece (within folder s) token p ∧
      ofPieces s [p] = .ok q ∧ ofPieces s [notPiece name, p] = .ok n := by
  obtain ⟨results, hResults, hPieces⟩ := compile_eq_ok_iff.mp hq
  obtain ⟨resultsNot, hResultsNot, hPiecesNot⟩ := compile_eq_ok_iff.mp hn
  rcases hResults with _ | ⟨hToken, ⟨⟩⟩
  rcases hResultsNot with _ | ⟨hNot, hRest⟩
  rcases hRest with _ | ⟨hSame, ⟨⟩⟩
  cases hToken.symm.trans hSame
  obtain ⟨name, rfl⟩ := pieces_not hOptions hExtras hNot
  obtain ⟨p, rfl, hStock⟩ := exists_stockPiece hExtras hToken
  exact ⟨p, name, hToken, hStock, hPieces, hPiecesNot⟩

/-- With the stock recognizers as they come, negating a token changes the rendered query exactly if
the token does not compile to a query on nested documents. A condition lands in `must_not`. -/
theorem render_not_eq_iff_isNestedToken (hOptions : s.options = .obj []) (hExtras : s.extras = [])
    (hToken : Text.lower token ∉ (["and", "or", "not"] : List Text)) {q n : Query}
    (hq : (compile folder s [token]).result = .ok q)
    (hn : (compile folder s ["not", token]).result = .ok n) :
    ∃ x y, q.render = .ok x ∧ n.render = .ok y ∧
      (IsNestedToken folder s token → y = x) ∧
      (¬IsNestedToken folder s token → x.same y = false) ∧
      ∀ p condition, (pieces folder s token).result = .ok [p] → p.IsCondition condition →
        x = clauseIn s.context.section condition ∧ y = clauseIn .mustNot condition := by
  obtain ⟨p, name, hPiece, hStock, hOf, hOfNot⟩ := exists_piece_of_compile hOptions hExtras hq hn
  have hSets := hStock.setsOne
  have hTable : q.FollowsTable s [p] := followsTable_of_ofPieces (by simpa using hSets) hOf
  have hTableNot : n.FollowsTable s [notPiece name, p] :=
    followsTable_of_ofPieces (by simp [hSets, notPiece_setsOne]) hOfNot
  have hNone := (Word.piece?_eq_none_iff token).mpr hToken
  rw [isNestedToken_iff hPiece]
  cases hStock with
  | condition members h =>
      obtain ⟨hx, hy⟩ := render_condition h hTable hTableNot
      refine ⟨_, _, hx, hy, ?_, ?_, ?_⟩
      · rintro ⟨nested, hNested⟩
        simpa [h.nested?] using hNested.nested?
      · intro _
        exact same_clauseIn_of_ne (by cases s.context <;> decide) _ _
      · intro p' c hp' hc
        cases hPiece.symm.trans hp'
        cases Option.some.inj (h.condition?.symm.trans hc.condition?)
        exact ⟨rfl, rfl⟩
  | nested nested h =>
      rw [ofPieces_not_nested h] at hOfNot
      obtain rfl : n = q := Except.ok.inj (hOfNot.symm.trans hOf)
      refine ⟨_, _, render_of_not_stashed hTable.stashed, render_of_not_stashed hTable.stashed,
        fun _ => rfl, ?_, ?_⟩
      · intro hNot
        exact absurd ⟨nested, h⟩ hNot
      · intro p' c hp' hc
        cases hPiece.symm.trans hp'
        simpa [h.condition?] using hc.condition?
  | word w hw =>
      rw [hNone] at hw
      cases hw
  | text t h hn hd hFrom =>
      have hOperator : FreeText.isOperator (.str t) = false := by
        rcases hFrom with rfl | hEscaped
        · exact Word.isOperator_eq_false hNone
        · exact Escape.isOperator_eq_false hEscaped
      obtain ⟨hx, hy⟩ := render_text h hd hOperator hTable hTableNot
      refine ⟨_, _, hx, hy, ?_, ?_, ?_⟩
      · rintro ⟨nested, hNested⟩
        simpa [h.nested?] using hNested.nested?
      · intro _
        apply same_clauseIn_queryString
        intro hSame
        have hLength := congrArg List.length hSame
        simp [Text.ofString] at hLength
        omega
      · intro p' c hp' hc
        cases hPiece.symm.trans hp'
        simpa [h.condition?] using hc.condition?

/-- Negating a condition on one field. -/
theorem render_not_term :
    ∃ q n, (compile .empty .plain ["=program:sshd"]).result = .ok q ∧
      (compile .empty .plain ["not", "=program:sshd"]).result = .ok n ∧
      q.render = .ok (clauseIn .must (Clause.onField "term" "program" (.str "sshd"))) ∧
      n.render = .ok (clauseIn .mustNot (Clause.onField "term" "program" (.str "sshd"))) := by
  obtain ⟨q, hq⟩ := exists_eq_ok
    (show (compile .empty .plain ["=program:sshd"]).result.toBool = true by decide +kernel)
  obtain ⟨n, hn⟩ := exists_eq_ok (show
    (compile .empty .plain ["not", "=program:sshd"]).result.toBool = true by decide +kernel)
  have hPiece : (pieces .empty .plain "=program:sshd").result = .ok
      [{ Piece.ofCondition (Clause.onField "term" "program" (.str "sshd")) with
        claimedBy? := some "Text" }] := by cbv
  obtain ⟨x, y, hx, hy, -, -, hCondition⟩ :=
    render_not_eq_iff_isNestedToken rfl rfl (by decide) hq hn
  obtain ⟨rfl, rfl⟩ := hCondition _ _ hPiece ⟨rfl, rfl, rfl, rfl⟩
  exact ⟨q, n, hq, hn, hx, hy⟩

/-- The negation of a query on nested documents is lost. -/
theorem render_not_comments :
    ∃ q n x y, Text.lower "comments:author:bob" ∉ (["and", "or", "not"] : List Text) ∧
      (compile .empty .plain ["comments:author:bob"]).result = .ok q ∧
      (compile .empty .plain ["not", "comments:author:bob"]).result = .ok n ∧
      q.render = .ok x ∧ n.render = .ok y ∧ x.same y = true := by
  have h : (do
      let q ← (compile .empty .plain ["comments:author:bob"]).result
      let n ← (compile .empty .plain ["not", "comments:author:bob"]).result
      let x ← q.render
      let y ← n.render
      return x.same y).toOption = some true := by decide +kernel
  have hRun := eq_ok_of_toOption h
  simp only [bind_eq_ok_iff, pure_eq_ok_iff] at hRun
  obtain ⟨q, hq, n, hn, x, hx, y, hy, hSame⟩ := hRun
  exact ⟨q, n, x, y, by decide, hq, hn, hx, hy, hSame⟩

end Query

end LogQuery
