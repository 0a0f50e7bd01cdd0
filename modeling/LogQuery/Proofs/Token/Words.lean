import LogQuery.Proofs.Text.Split
import LogQuery.Proofs.Token.FreeText
import LogQuery.Proofs.Token.Claims
import LogQuery.Proofs.Token.Pieces

/-! Joining words as tokens. Such a token has nothing in it that another recognizer looks for,
neither a colon nor a character that has to be escaped, so that it becomes a word whatever the order
of the recognizers. What is no such word becomes no operator of free text either. -/

namespace LogQuery.Token

variable {token : Text} {w : Piece}

theorem Word.piece?_eq_none_iff (token : Text) :
    Word.piece? token = none ↔ Text.lower token ∉ (["and", "or", "not"] : List Text) := by
  simp only [Word.piece?, beq_iff_eq, List.mem_cons, List.not_mem_nil, or_false, not_or]
  split_ifs <;> simp_all

theorem Word.dangles_of_piece? (h : Word.piece? token = some w) : w.dangles = true := by
  unfold Word.piece? at h
  simp only at h
  split_ifs at h <;> cases h <;> rfl

/-! ## What is in a word -/

/-- The characters that other recognizers look for. -/
def marks : Text :=
  [':', ' ', '/', '(', ')']

theorem Word.not_mem_of_mem_marks (h : Word.piece? token = some w) {c : CodePoint}
    (hMark : c ∈ marks) : c ∉ token := by
  have hSigma : CodePoint.char 'Σ' ∉ marks := by decide
  have hOne : ∀ d ∈ marks, Text.lowerOne d = [d] := by decide
  have hWords : ∀ d ∈ marks, ∀ word ∈ (["and", "or", "not"] : List Text), d ∉ word := by decide
  have hLower : Text.lower token ∈ (["and", "or", "not"] : List Text) := by
    by_contra hOther
    rw [(Word.piece?_eq_none_iff token).mpr hOther] at h
    cases h
  intro hMem
  exact hWords c hMark _ hLower
    (Text.mem_lower (ne_of_mem_of_not_mem hMark hSigma) (hOne c hMark) hMem)

theorem splitFirst_of_not_mem (h : .char ':' ∉ token) :
    Text.splitFirst (· == .char ':') token = (token, none) :=
  Text.splitFirst_of_forall (Text.beq_eq_false_of_not_mem h)

theorem fieldAndValue?_of_not_mem (h : .char ':' ∉ token) : fieldAndValue? token = none := by
  have hParts : Text.partition ':' token = (token, []) := by
    rw [Text.partition, splitFirst_of_not_mem h]
    rfl
  rw [fieldAndValue?, hParts]
  cases token <;> rfl

theorem Nested.split?_of_not_mem (h : .char ':' ∉ token) : Nested.split? token = none := by
  rw [Nested.split?]
  cases hWords : Text.words token with
  | nil => rfl
  | cons first rest =>
      have hPiece : first ∈ Text.splitWhere Text.isBlank token :=
        List.mem_of_mem_filter (hWords ▸ List.mem_cons_self : first ∈ Text.words token)
      have hFirst : Nested.splitPath? first = none := by
        rw [Nested.splitPath?,
          splitFirst_of_not_mem fun hMem => h (Text.mem_of_mem_splitWhere hPiece hMem)]
      simp only [hFirst]

theorem Escape.escapeFrom_eq_self {after : Bool} {t : Text}
    (h : ∀ c ∈ t, Escape.isSpecial c = false) : Escape.escapeFrom after t = t := by
  induction t generalizing after with
  | nil => rfl
  | cons c t ih =>
      obtain ⟨hFirst, hRest⟩ := List.forall_mem_cons.mp h
      rw [Escape.escapeFrom, hFirst, Bool.false_and, if_neg Bool.false_ne_true, ih hRest]

/-- Without a character that has to be escaped, a text stays. -/
theorem Escape.text?_eq_none {t : Text} (h : ∀ c ∈ t, isSpecial c = false) : text? t = none := by
  have hSame : escape t = t := escapeFrom_eq_self h
  simp [text?, hSame]

theorem Word.escape_eq_none (h : Word.piece? token = some w) : Escape.text? token = none := by
  have hMarks : ∀ c, Escape.isSpecial c = true → c ∈ marks := by
    intro c hSpecial
    simp only [Escape.isSpecial, Bool.or_eq_true, beq_iff_eq] at hSpecial
    rcases hSpecial with ((rfl | rfl) | rfl) | rfl <;> decide
  refine Escape.text?_eq_none fun c hc => ?_
  rw [Bool.eq_false_iff]
  intro hSpecial
  exact Word.not_mem_of_mem_marks h (hMarks c hSpecial) hc

/-! ## Who claims a word -/

theorem expandStock_word (around : Recognizer.Surroundings) (depth : Json) (stock : Stock)
    (h : Word.piece? token = some w) :
    Recognizer.expandStock around depth stock token =
      .done (if stock = .bareWords then some [w] else none) := by
  have hColon : .char ':' ∉ token := Word.not_mem_of_mem_marks h (by decide)
  have hSplit := splitFirst_of_not_mem hColon
  have hParts := fieldAndValue?_of_not_mem hColon
  cases stock with
  | fileExpansion =>
      simp [Recognizer.expandStock, FileReference.condition?, FileReference.reference?, hParts]
      rfl
  | text =>
      rw [Recognizer.expandStock, Field.condition?, hSplit]
      cases token <;> rfl
  | ranges =>
      rw [Recognizer.expandStock, Ranges.condition?, hParts]
      rfl
  | underscored =>
      rw [Recognizer.expandStock, Underscored.condition?, hSplit]
      rfl
  | ip =>
      rw [Recognizer.expandStock, AddressBlock.condition?, hParts]
      rfl
  | bareWords =>
      rw [Recognizer.expandStock, h]
      rfl
  | nested =>
      rw [Recognizer.expandStock, Nested.split?_of_not_mem hColon]
      cases around.within <;> rfl
  | autoEscape =>
      rw [Recognizer.expandStock, Word.escape_eq_none h]
      rfl

/-- Among stock recognizers the one of joining words claims a word, whatever the order. -/
theorem claimFirst_word (around : Recognizer.Surroundings) {rs : List Recognizer}
    (hStock : ∀ r ∈ rs, ∃ stock, r.rule = .stock stock)
    (hWord : ∃ r ∈ rs, r.rule = .stock .bareWords) (h : Word.piece? token = some w) :
    ∃ name, claimFirst around token rs = .done [{ w with claimedBy? := name }] := by
  induction rs with
  | nil => simp at hWord
  | cons r rs ih =>
      obtain ⟨stock, hr⟩ := hStock r List.mem_cons_self
      have hExpand : r.expand around token =
          .done (if stock = .bareWords then some [w] else none) := by
        rw [Recognizer.expand, hr]
        exact expandStock_word around r.depth stock h
      -- the others decline the word, so only the first recognizer of words matters
      by_cases hs : stock = .bareWords
      · rw [if_pos hs] at hExpand
        exact ⟨some r.name, claimFirst_of_claimed (Recognizer.claim_of_expand hExpand) rs⟩
      · rw [if_neg hs] at hExpand
        have hRest : ∃ r ∈ rs, r.rule = .stock .bareWords := by
          obtain ⟨q, hq, hRule⟩ := hWord
          rcases List.mem_cons.mp hq with rfl | hq
          · exact absurd (Rule.stock.inj (hr.symm.trans hRule)) hs
          · exact ⟨q, hq, hRule⟩
        rw [claimFirst_of_declined (Recognizer.claim_of_expand hExpand)]
        exact ih (fun q hq => hStock q (List.mem_cons_of_mem r hq)) hRest

/-- The options leave the recognizer of joining words in its chain. -/
def Settings.LeavesWords (s : Settings) : Prop :=
  ∃ priority, stockPriority? s.options .bareWords = .ok (some priority)

theorem Settings.leavesWords_of_options {s : Settings} (h : s.options = .obj []) :
    s.LeavesWords :=
  ⟨.int Stock.bareWords.priority, by rw [h]; rfl⟩

theorem Settings.exists_bareWords {s : Settings} (hExtras : s.extras = []) (h : s.LeavesWords)
    {rs : List Recognizer} (hChain : s.chain = .ok rs) :
    ∃ r ∈ rs, r.rule = .stock .bareWords := by
  obtain ⟨priority, hPriority⟩ := h
  have hLoad : s.loadStock .bareWords =
      .ok (some ⟨Stock.bareWords.name, priority, .stock .bareWords, s.depth⟩) := by
    rw [Settings.loadStock, hPriority]
    rfl
  exact ⟨_, (Settings.mem_chain_iff hExtras hChain).mpr ⟨_, hLoad⟩, rfl⟩

/-! ## Free text that is no operator -/

theorem Word.isOperator_eq_false (h : Word.piece? token = none) :
    FreeText.isOperator (.str token) = false := by
  have hWords : ∀ w ∈ FreeText.operators, (Word.piece? w).isSome = true := by decide
  rw [FreeText.isOperator_str, decide_eq_false_iff_not]
  intro hOperator
  have hSome := hWords token hOperator
  rw [h] at hSome
  cases hSome

/-- Escaping that changes a text leaves a backslash in it. -/
theorem Escape.backslash_mem_of_ne {after : Bool} {t : Text} (h : escapeFrom after t ≠ t) :
    .char '\\' ∈ escapeFrom after t := by
  induction t generalizing after with
  | nil => exact absurd rfl h
  | cons c t ih =>
      unfold escapeFrom at h ⊢
      split
      · exact List.mem_cons_self
      · rename_i hc
        rw [if_neg hc] at h
        exact List.mem_cons_of_mem c (ih fun he => h (by rw [he]))

theorem Escape.isOperator_eq_false {t : Text} (h : Escape.text? token = some t) :
    FreeText.isOperator (.str t) = false := by
  have hWords : ∀ w ∈ FreeText.operators, CodePoint.char '\\' ∉ w := by decide
  simp only [Escape.text?, Escape.escape, beq_iff_eq] at h
  split_ifs at h with he
  cases h
  rw [FreeText.isOperator_str, decide_eq_false_iff_not]
  intro hOperator
  exact hWords _ hOperator (Escape.backslash_mem_of_ne he)

end LogQuery.Token
