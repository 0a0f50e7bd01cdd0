import LogQuery.Proofs.Query.Nested
import LogQuery.Proofs.Token.Words

/-! Requests that match every document. A joining word alone leaves nothing in a request, and every
other token leaves something that is rendered: a condition, a query on nested documents, or free
text that is no operator and so cannot be trimmed. Hence only joining words match everything. -/

namespace LogQuery

theorem Json.truthy_arr_eq_false_iff {items : List Json} :
    (arr items).truthy = false ↔ items = [] := by
  simp [truthy]

namespace Clause

/-- The query that every document matches. -/
def everything : Json :=
  single "bool" (.obj [])

theorem ifGiven_eq_nil_iff {key : Text} {value : Json} :
    ifGiven key value = [] ↔ value.truthy = false := by
  cases h : value.truthy <;> simp [ifGiven, h]

theorem nested_ne_everything (path query : Json) : nested path query ≠ everything := by
  intro h
  simp [nested, everything, single, Text.ofString] at h

end Clause

namespace Token

/-- The token is a word between conditions, in whatever case it is given. -/
def IsWord (token : Json) : Prop :=
  ∃ t, token = .str t ∧ Text.lower t ∈ (["and", "or", "not"] : List Text)

/-- The piece restricts what is found: it is a condition, a query on nested documents that counts as
given, or free text that is no operator. -/
inductive Restricts (p : Piece) : Prop
  | condition (members : Members) (h : p.IsCondition (.obj members))
  | nested (n : Scoped) (h : p.IsNested n) (hGiven : n.query.truthy = true)
  | text (t : Text) (h : p.IsText t) (hd : p.dangles = false) (hTerm : t ∉ FreeText.operators)

theorem Restricts.setsOne {p : Piece} (h : Restricts p) : p.SetsOne := by
  cases h with
  | condition members h => exact .condition members h
  | nested n h => exact .nested n h
  | text t h => exact .text t h

theorem Restricts.dangles {p : Piece} (h : Restricts p) : p.dangles = false := by
  cases h with
  | condition members h => exact h.dangles
  | nested n h => exact h.dangles
  | text t h hd => exact hd

/-- What a token leaves among the pieces: a dangling word, or a piece that restricts. -/
inductive Leaves (token : Json) (p : Piece) : Prop
  | word (hWord : IsWord token) (t : Text) (h : p.IsText t) (hd : p.dangles = true)
  | other (hOther : ¬IsWord token) (h : Restricts p)

theorem Leaves.setsOne {token : Json} {p : Piece} (h : Leaves token p) : p.SetsOne := by
  cases h with
  | word _ t h => exact .text t h
  | other _ h => exact h.setsOne

theorem Leaves.isWord_iff {token : Json} {p : Piece} (h : Leaves token p) :
    IsWord token ↔ p.dangles = true := by
  cases h with
  | word hWord _ _ hd => exact iff_of_true hWord hd
  | other hOther h => exact iff_of_false hOther (by rw [h.dangles]; exact Bool.false_ne_true)

theorem Leaves.cases {token : Json} {p : Piece} (h : Leaves token p) :
    (∃ t, p.IsText t) ∧ p.dangles = true ∨ Restricts p := by
  cases h with
  | word _ t h hd => exact .inl ⟨⟨t, h⟩, hd⟩
  | other _ h => exact .inr h

end Token

namespace Query

open Token

variable {folder : Folder} {s : Settings}

/-! ## What each token leaves -/

theorem holdsNested_of_leaves {token : Json} {p : Piece} (h : Leaves token p) : HoldsNested p := by
  intro m hm
  cases h with
  | word _ t h => rw [h.nested?] at hm; cases hm
  | other _ h =>
      cases h with
      | condition members h => rw [h.nested?] at hm; cases hm
      | nested n h hGiven =>
          cases Option.some.inj (h.nested?.symm.trans hm)
          exact ⟨hGiven, h.dangles⟩
      | text t h => rw [h.nested?] at hm; cases hm

theorem exists_leaves_of_pieces (hExtras : s.extras = []) (hWords : s.LeavesWords) {token : Text}
    {ps : List Piece} (h : (pieces folder s token).result = .ok ps) :
    ∃ p, ps = [p] ∧ Leaves (.str token) p := by
  have hIsWord : Word.piece? token = none ↔ ¬IsWord (.str token) := by
    simp [Word.piece?_eq_none_iff, IsWord]
  cases hToken : Word.piece? token with
  | some w =>
      simp only [pieces, piecesWith, Outcome.result_bind_eq_ok_iff, Outcome.result_of] at h
      obtain ⟨rs, hChain, h⟩ := h
      obtain ⟨name, hClaim⟩ := claimFirst_word _
        (fun r hr => Settings.stock_of_mem_chain hExtras hChain hr)
        (Settings.exists_bareWords hExtras hWords hChain) hToken
      rw [hClaim] at h
      cases Except.ok.inj h
      obtain ⟨t, ht⟩ := Word.isText_of_piece? hToken
      have hWord : IsWord (.str token) := by
        by_contra hOther
        rw [hIsWord.mpr hOther] at hToken
        cases hToken
      exact ⟨_, rfl, .word hWord t ⟨ht.text, ht.condition?, ht.nested?⟩
        (Word.dangles_of_piece? hToken :)⟩
  | none =>
      obtain ⟨p, rfl, hStock⟩ := exists_stockPiece hExtras h
      refine ⟨p, rfl, .other (hIsWord.mp hToken) ?_⟩
      cases hStock with
      | condition members h => exact .condition members h
      | nested n h _ depth inner hQuery => exact .nested n h (truthy_of_compileWithin hQuery)
      | word w hw =>
          rw [hToken] at hw
          cases hw
      | text t h _ hd hFrom =>
          have hOperator : FreeText.isOperator (.str t) = false := by
            rcases hFrom with rfl | hEscaped
            · exact Word.isOperator_eq_false hToken
            · exact Escape.isOperator_eq_false hEscaped
          rw [FreeText.isOperator_str, decide_eq_false_iff_not] at hOperator
          exact .text t h hd hOperator

/-- The recognizer of joining words fails on a token that is no text, if no other does before. -/
theorem passThrough_ne_ok {rs : List Recognizer} (hWord : ∃ r ∈ rs, r.rule = .stock .bareWords)
    (token : Json) (ps : List Piece) : passThrough token rs ≠ .ok ps := by
  obtain ⟨r, hr, hRule⟩ := hWord
  have hFails : r.failureOn false token = some .noMember := by
    unfold Recognizer.failureOn
    rw [hRule]
  intro h
  unfold passThrough at h
  split at h
  · cases h
  · rename_i hNone
    rw [List.findSome?_eq_none_iff.mp hNone r hr] at hFails
    cases hFails

theorem exists_leaves (hExtras : s.extras = []) (hWords : s.LeavesWords) {token : Json}
    {ps : List Piece} (h : (piecesOfValue folder s token).result = .ok ps) :
    ∃ p, ps = [p] ∧ Leaves token p := by
  unfold piecesOfValue at h
  split at h
  · exact exists_leaves_of_pieces hExtras hWords h
  · simp only [Outcome.result_bind_eq_ok_iff, Outcome.result_of] at h
    obtain ⟨rs, hChain, h⟩ := h
    exact absurd h (passThrough_ne_ok (Settings.exists_bareWords hExtras hWords hChain) _ ps)

theorem forall₂_leaves (hExtras : s.extras = []) (hWords : s.LeavesWords) {tokens : List Json}
    {results : List (List Piece)} (h : List.Forall₂
      (fun token ps => (piecesOfValue folder s token).result = .ok ps) tokens results) :
    List.Forall₂ Leaves tokens results.flatten := by
  induction h with
  | nil => exact .nil
  | cons hToken _ ih =>
      obtain ⟨p, rfl, hLeaves⟩ := exists_leaves hExtras hWords hToken
      exact .cons hLeaves ih

theorem exists_leaves_of_mem {tokens : List Json} {ps : List Piece}
    (h : List.Forall₂ Leaves tokens ps) {p : Piece} (hp : p ∈ ps) : ∃ token, Leaves token p := by
  induction h with
  | nil => cases hp
  | @cons token first _ _ hToken _ ih =>
      rcases List.mem_cons.mp hp with rfl | hp
      · exact ⟨token, hToken⟩
      · exact ih hp

theorem forall_isWord_iff {tokens : List Json} {ps : List Piece}
    (h : List.Forall₂ Leaves tokens ps) :
    (∀ token ∈ tokens, IsWord token) ↔ ∀ p ∈ ps, p.dangles = true := by
  induction h with
  | nil => simp
  | cons hToken _ ih => rw [List.forall_mem_cons, List.forall_mem_cons, hToken.isWord_iff, ih]

/-! ## What the table keeps of it -/

theorem lastNested?_eq_none_iff {ps : List Piece} :
    lastNested? ps = none ↔ ∀ p ∈ ps, p.nested? = none := by
  simp [lastNested?]

theorem exists_of_lastNested? {ps : List Piece} {n : Scoped} (h : lastNested? ps = some n) :
    ∃ p ∈ ps, p.nested? = some n :=
  List.mem_filterMap.mp (List.mem_of_getLast? h)

/-- A condition is negated or not. -/
theorem conditionsAfter_eq_nil_iff (first : Bool) {ps : List Piece} :
    conditionsAfter true first ps = [] ∧ conditionsAfter false first ps = [] ↔
      ∀ p ∈ ps, p.condition? = none := by
  induction ps generalizing first with
  | nil => simp [conditionsAfter]
  | cons p ps ih =>
      rw [conditionsAfter_cons, conditionsAfter_cons, List.forall_mem_cons, ← ih p.negates]
      cases first <;> cases hp : p.condition? <;> simp

theorem mem_freeTexts {ps : List Piece} {p : Piece} {t : Text} (hp : p ∈ ps)
    (hd : p.dangles = false) (ht : p.text? = some t) : t ∈ freeTexts ps := by
  obtain ⟨before, after, rfl⟩ := List.append_of_mem hp
  refine List.mem_filterMap.mpr ⟨p :: after, ?_, by simp [headText?, hd, ht]⟩
  rw [List.mem_tails]
  exact List.suffix_append before (p :: after)

theorem textFollows_of_dangles {ps : List Piece} (h : ∀ p ∈ ps, p.dangles = true) :
    textFollows ps = false := by
  have hNone : ps.find? (!·.dangles) = none := by simpa using h
  rw [textFollows, hNone]
  rfl

/-- Dangling words alone are no free text. -/
theorem freeTexts_of_dangles {ps : List Piece} (h : ∀ p ∈ ps, p.dangles = true) :
    freeTexts ps = [] := by
  induction ps with
  | nil => rfl
  | cons p ps ih =>
      obtain ⟨hp, hRest⟩ := List.forall_mem_cons.mp h
      rw [freeTexts_cons, hp, textFollows_of_dangles hRest, ih hRest]
      rfl

theorem textClause_eq_nil_iff {words : List Text} : textClause words = [] ↔ words = [] := by
  by_cases h : words = [] <;> simp [textClause, h]

/-- A bool clause without a minimum matches everything exactly if no section counts as given. -/
theorem clause_eq_everything_iff {q : Query} (h : q.minimumShouldMatch = .null) :
    Clause.Sections.clause ⟨q.must, q.mustNot, q.should, q.filter, q.minimumShouldMatch⟩ =
        Clause.everything ↔
      ∀ sec, (q.conditions sec).truthy = false := by
  have hMinimum :
      Members.present [(("minimum_should_match" : Text), q.minimumShouldMatch)] = [] := by
    rw [h]
    rfl
  have hSections : (∀ sec, (q.conditions sec).truthy = false) ↔ q.must.truthy = false ∧
      q.mustNot.truthy = false ∧ q.should.truthy = false ∧ q.filter.truthy = false := by
    constructor
    · exact fun h => ⟨h .must, h .mustNot, h .should, h .filter⟩
    · rintro ⟨hMust, hNot, hShould, hFilter⟩ (_ | _ | _ | _) <;> assumption
  rw [hSections]
  simp [Clause.Sections.clause, Clause.everything, Clause.single, hMinimum,
    Clause.ifGiven_eq_nil_iff]

namespace FollowsTable

variable {q : Query} {ps : List Piece}

/-- Of the sections only that of the context and `must_not` can count as given. -/
theorem sections_eq_nil_iff (h : q.FollowsTable s ps) :
    (∀ sec, (q.conditions sec).truthy = false) ↔
      (∀ p ∈ ps, p.condition? = none) ∧ ∀ t ∈ freeTexts ps, t ∈ FreeText.operators := by
  obtain ⟨words, hWords, hContext⟩ := h.context
  rw [FreeText.assemble_map_str] at hWords
  have hNone : textClause words = [] ↔ ∀ t ∈ freeTexts ps, t ∈ FreeText.operators := by
    rw [textClause_eq_nil_iff, ← List.map_eq_nil_iff (f := Json.str), ← hWords,
      List.map_eq_nil_iff, FreeText.woven_eq_nil_iff, FreeText.core_eq_nil_iff]
  have hNot : (q.conditions .mustNot).truthy = false ↔ conditionsAfter true false ps = [] := by
    rw [conditions, h.mustNot, Json.truthy_arr_eq_false_iff]
  have hSection : (q.conditions s.context.section).truthy = false ↔
      conditionsAfter false false ps = [] ∧ textClause words = [] := by
    rw [hContext, Json.truthy_arr_eq_false_iff, List.append_eq_nil_iff]
  rw [← conditionsAfter_eq_nil_iff false, ← hNone, and_assoc, ← hNot, ← hSection]
  constructor
  · exact fun hAll => ⟨hAll _, hAll _⟩
  · rintro ⟨hNotEmpty, hEmpty⟩ sec
    by_cases hs : sec = .mustNot
    · rwa [hs]
    by_cases hc : sec = s.context.section
    · rwa [hc]
    rw [h.others sec hs hc]
    rfl

/-- The last query on nested documents counts as given, as every one does. -/
theorem nested_eq_false_iff (h : q.FollowsTable s ps) (hHolds : ∀ p ∈ ps, HoldsNested p) :
    q.nested.truthy = false ↔ ∀ p ∈ ps, p.nested? = none := by
  rw [h.nested, ← lastNested?_eq_none_iff]
  cases hLast : lastNested? ps with
  | none => exact iff_of_true rfl rfl
  | some n =>
      obtain ⟨p, hp, hn⟩ := exists_of_lastNested? hLast
      obtain ⟨hGiven, -⟩ := hHolds p hp n hn
      simp [hGiven]

/-- What a request renders to matches everything exactly if no piece is a query on nested documents
or a condition and all free text are operators. -/
theorem render_eq_everything_iff (h : q.FollowsTable s ps) (hHolds : ∀ p ∈ ps, HoldsNested p) :
    ∃ x, q.render = .ok x ∧ (x = Clause.everything ↔
      (∀ p ∈ ps, p.nested? = none) ∧ (∀ p ∈ ps, p.condition? = none) ∧
        ∀ t ∈ freeTexts ps, t ∈ FreeText.operators) := by
  refine ⟨_, render_of_not_stashed h.stashed, ?_⟩
  rw [← h.nested_eq_false_iff hHolds, ← h.sections_eq_nil_iff,
    ← clause_eq_everything_iff h.minimumShouldMatch]
  cases q.nested.truthy with
  | true => exact iff_of_false (Clause.nested_ne_everything _ _) (by simp)
  | false => simp

end FollowsTable

/-! ## All tokens together -/

/-- The pieces of which nothing is rendered are the dangling words. -/
theorem rendersNothing_iff {ps : List Piece}
    (hPieces : ∀ p ∈ ps, (∃ t, p.IsText t) ∧ p.dangles = true ∨ Restricts p) :
    ((∀ p ∈ ps, p.nested? = none) ∧ (∀ p ∈ ps, p.condition? = none) ∧
      ∀ t ∈ freeTexts ps, t ∈ FreeText.operators) ↔ ∀ p ∈ ps, p.dangles = true := by
  constructor
  · rintro ⟨hNested, hConditions, hTexts⟩ p hp
    rcases hPieces p hp with ⟨-, hd⟩ | hRestricts
    · exact hd
    -- a piece that restricts is seen in one of the three places
    exfalso
    cases hRestricts with
    | condition members h => simpa [h.condition?] using hConditions p hp
    | nested n h => simpa [h.nested?] using hNested p hp
    | text t h hd hTerm => exact hTerm (hTexts t (mem_freeTexts hp hd h.text?_eq))
  · intro hDangle
    have hText : ∀ p ∈ ps, ∃ t, p.IsText t := by
      intro p hp
      rcases hPieces p hp with ⟨hText, -⟩ | hRestricts
      · exact hText
      · exact absurd (hDangle p hp) (by simp [hRestricts.dangles])
    refine ⟨fun p hp => ?_, fun p hp => ?_, by simp [freeTexts_of_dangles hDangle]⟩
    · exact (hText p hp).elim fun t h => h.nested?
    · exact (hText p hp).elim fun t h => h.condition?

/-- Whatever the tokens, if a request is compiled from them with the stock recognizers alone and the
recognizer of joining words among them, it matches every document exactly if all tokens are joining
words, in whatever case. -/
theorem compileValues_everything (folder : Folder) {s : Settings} (hExtras : s.extras = [])
    (hWords : s.LeavesWords) {tokens : List Json} {q : Query}
    (h : (compileValues folder s tokens).result = .ok q) :
    ∃ x, q.render = .ok x ∧ (x = Clause.everything ↔ ∀ token ∈ tokens, IsWord token) := by
  simp only [compileValues, Outcome.result_bind_eq_ok_iff, Outcome.result_collect_eq_ok_iff,
    Outcome.result_of] at h
  obtain ⟨results, hResults, hPieces⟩ := h
  have hLeaves := forall₂_leaves hExtras hWords hResults
  have hLeft : ∀ p ∈ results.flatten, ∃ token, Leaves token p := fun _ =>
    exists_leaves_of_mem hLeaves
  have hTable : q.FollowsTable s results.flatten :=
    followsTable_of_ofPieces (fun p hp => (hLeft p hp).elim fun _ h => h.setsOne) hPieces
  obtain ⟨x, hx, hEverything⟩ := hTable.render_eq_everything_iff fun p hp =>
    (hLeft p hp).elim fun _ => holdsNested_of_leaves
  refine ⟨x, hx, ?_⟩
  rw [hEverything, rendersNothing_iff fun p hp => (hLeft p hp).elim fun _ h => h.cases,
    forall_isWord_iff hLeaves]

/-- Words alone match everything, in whatever case, and before a condition they do not. -/
theorem compileValues_everything_words :
    (∃ q, (compileValues .empty .plain [.str "NOT", .str "or"]).result = .ok q ∧
      q.render = .ok Clause.everything) ∧
    ∃ q x, (compileValues .empty .plain [.str "NOT", .str "=program:sshd"]).result = .ok q ∧
      q.render = .ok x ∧ x ≠ Clause.everything := by
  have hWords : Settings.plain.LeavesWords := Settings.leavesWords_of_options rfl
  constructor
  · obtain ⟨q, hq⟩ := exists_eq_ok (show
      (compileValues .empty .plain [.str "NOT", .str "or"]).result.toBool = true by decide +kernel)
    obtain ⟨x, hx, hIff⟩ := compileValues_everything .empty rfl hWords hq
    have hAll : ∀ token ∈ ([.str "NOT", .str "or"] : List Json), IsWord token := by
      intro token hToken
      simp only [List.mem_cons, List.not_mem_nil, or_false] at hToken
      rcases hToken with rfl | rfl
      · exact ⟨_, rfl, by decide⟩
      · exact ⟨_, rfl, by decide⟩
    rw [hIff.mpr hAll] at hx
    exact ⟨q, hq, hx⟩
  · obtain ⟨q, hq⟩ := exists_eq_ok (show (compileValues .empty .plain
      [.str "NOT", .str "=program:sshd"]).result.toBool = true by decide +kernel)
    obtain ⟨x, hx, hIff⟩ := compileValues_everything .empty rfl hWords hq
    refine ⟨q, x, hq, hx, fun hEverything => ?_⟩
    obtain ⟨t, ht, hWord⟩ := hIff.mp hEverything (.str "=program:sshd") (by simp)
    cases ht
    revert hWord
    decide

end Query

end LogQuery
