import LogQuery.Token.FreeText
import Mathlib.Data.List.DropRight
import Mathlib.Data.List.Infix

/-! Free text as the words that it is put together from. What is put together is in a normal form:
no operator stands where it has nothing to join or to negate, and any two terms are joined. It
differs from the words that were given only in the operators left out at both ends and in the joins
put between two terms; and of words in normal form nothing is changed. -/

namespace LogQuery.FreeText

/-- The words that join two terms. -/
def joins : List Text :=
  ["AND", "OR"]

/-- The words that join two terms or negate one. -/
def operators : List Text :=
  ["AND", "OR", "NOT"]

theorem joins_subset_operators : joins ⊆ operators := by
  decide

theorem word_mem_joins (join : Join) : join.word ∈ joins := by
  cases join <;> decide

theorem isJoin_str (w : Text) : isJoin (.str w) = decide (w ∈ joins) := by
  simp only [isJoin, Json.isText, joins, List.mem_cons, List.not_mem_nil, or_false,
    Bool.decide_or, beq_eq_decide]

theorem isOperator_str (w : Text) : isOperator (.str w) = decide (w ∈ operators) := by
  simp only [isOperator, isJoin, Json.isText, operators, List.mem_cons, List.not_mem_nil, or_false,
    Bool.decide_or, beq_eq_decide, Bool.or_assoc]

variable {words middle : List Text} {join : Text}

/-! ## The words between the ends -/

/-- What is left of some words when the operators at the end are dropped, and then the joins at the
front. -/
def core (words : List Text) : List Text :=
  (words.rdropWhile (· ∈ operators)).dropWhile (· ∈ joins)

/-- The second list is the first one without the run of operators at its end and then without the
run of joins at its front. -/
def IsCore (words middle : List Text) : Prop :=
  ∃ front back, words = front ++ middle ++ back ∧
    (∀ w ∈ back, w ∈ operators) ∧ (∀ w ∈ (front ++ middle).getLast?, w ∉ operators) ∧
    (∀ w ∈ front, w ∈ joins) ∧ ∀ w ∈ middle.head?, w ∉ joins

theorem isCore_core (words : List Text) : IsCore words (core words) := by
  have hParts : (words.rdropWhile (· ∈ operators)).takeWhile (· ∈ joins) ++ core words =
      words.rdropWhile (· ∈ operators) := List.takeWhile_append_dropWhile
  refine ⟨(words.rdropWhile (· ∈ operators)).takeWhile (· ∈ joins),
    words.rtakeWhile (· ∈ operators), ?_, ?_, ?_, ?_, ?_⟩
  · rw [hParts, List.rdropWhile_append_rtakeWhile]
  · intro w hw
    simpa using List.mem_rtakeWhile_imp hw
  · intro w hw
    rw [hParts] at hw
    obtain ⟨hSome, rfl⟩ := List.mem_getLast?_eq_getLast hw
    simpa using List.rdropWhile_last_not _ _ hSome
  · intro w hw
    simpa using List.mem_takeWhile_imp hw
  · intro w hw
    have hHead := List.head?_dropWhile_not (· ∈ joins) (words.rdropWhile (· ∈ operators))
    rw [core, Option.mem_def] at hw
    rw [hw] at hHead
    simpa using hHead

/-- No other words can be left. -/
theorem core_eq_of_isCore (h : IsCore words middle) : core words = middle := by
  obtain ⟨front, back, rfl, hBack, hLast, hFront, hHead⟩ := h
  have hEnd : (front ++ middle ++ back).rdropWhile (· ∈ operators) = front ++ middle := by
    have hDrop : (front ++ middle ++ back).rdropWhile (· ∈ operators) =
        (front ++ middle).rdropWhile (· ∈ operators) := by
      rw [List.rdropWhile, List.reverse_append, List.dropWhile_append_of_pos, List.rdropWhile]
      simpa using hBack
    rw [hDrop, List.rdropWhile_eq_self_iff]
    intro hSome
    simpa using hLast _ (List.getLast_mem_getLast? hSome)
  rw [core, hEnd, List.dropWhile_append_of_pos (by simpa using hFront)]
  cases middle with
  | nil => rfl
  | cons w middle => exact List.dropWhile_cons_of_neg (by simpa using hHead w rfl)

/-- No words are left exactly if all of them are operators. -/
theorem core_eq_nil_iff : core words = [] ↔ ∀ w ∈ words, w ∈ operators := by
  obtain ⟨front, back, hWords, hBack, -, hFront, -⟩ := isCore_core words
  constructor
  · intro hNone w hw
    rw [hWords, hNone, List.append_nil, List.mem_append] at hw
    exact hw.elim (fun hw => joins_subset_operators (hFront w hw)) (hBack w)
  · intro hAll
    have hNone : words.rdropWhile (· ∈ operators) = [] := by simpa using hAll
    rw [core, hNone, List.dropWhile_nil]

/-! ## The words between two terms -/

/-- The words with a join put between any two neighbours of which the left one is no operator and
the right one no join. -/
def woven (join : Text) (words : List Text) : List Text :=
  (words.zipWith (fun left right =>
      if left ∈ operators ∨ right ∈ joins then [left] else [left, join]) words.tail).flatten ++
    words.getLast?.toList

@[simp]
theorem woven_nil : woven join [] = [] := rfl

@[simp]
theorem woven_singleton (w : Text) : woven join [w] = [w] := rfl

theorem woven_cons_cons (left right : Text) (rest : List Text) :
    woven join (left :: right :: rest) =
      (if left ∈ operators ∨ right ∈ joins then [left] else [left, join]) ++
        woven join (right :: rest) := by
  simp [woven]

/-- Joins are put behind words, never in front of the first one. -/
theorem exists_woven_cons (join w : Text) (rest : List Text) :
    ∃ more, woven join (w :: rest) = w :: more := by
  cases rest with
  | nil => exact ⟨[], rfl⟩
  | cons right rest =>
      rw [woven_cons_cons]
      split
      · exact ⟨_, rfl⟩
      · exact ⟨_, rfl⟩

theorem head?_woven (words : List Text) : (woven join words).head? = words.head? := by
  cases words with
  | nil => rfl
  | cons w rest =>
      obtain ⟨more, hMore⟩ := exists_woven_cons join w rest
      rw [hMore, List.head?_cons, List.head?_cons]

theorem getLast?_woven (words : List Text) : (woven join words).getLast? = words.getLast? := by
  cases hLast : words.getLast? with
  | none => rw [List.getLast?_eq_none_iff.mp hLast, woven_nil, List.getLast?_nil]
  | some w => simp [woven, hLast]

theorem woven_eq_nil_iff : woven join words = [] ↔ words = [] := by
  rw [← List.head?_eq_none_iff, head?_woven, List.head?_eq_none_iff]

/-- Only joins are put between the words. -/
theorem filter_woven (hJoin : join ∈ joins) (words : List Text) :
    (woven join words).filter (· ∉ operators) = words.filter (· ∉ operators) := by
  induction words with
  | nil => rfl
  | cons left rest ih =>
      cases rest with
      | nil => rfl
      | cons right rest =>
          have hDropped : join ∈ operators := joins_subset_operators hJoin
          have hFirst : (if left ∈ operators ∨ right ∈ joins then [left] else [left, join]).filter
              (· ∉ operators) = [left].filter (· ∉ operators) := by
            split
            · rfl
            · simp [List.filter_cons, hDropped]
          rw [woven_cons_cons, List.filter_append, ih, hFirst, ← List.filter_append,
            List.singleton_append]

/-- The first of two neighbours is an operator, or the second joins it to what came before. -/
def Adjoins (left right : Text) : Prop :=
  left ∉ operators → right ∈ joins

theorem isChain_woven (hJoin : join ∈ joins) (words : List Text) :
    (woven join words).IsChain Adjoins := by
  induction words with
  | nil => exact .nil
  | cons left rest ih =>
      cases rest with
      | nil => exact .singleton left
      | cons right rest =>
          obtain ⟨more, hMore⟩ := exists_woven_cons join right rest
          rw [woven_cons_cons, hMore]
          rw [hMore] at ih
          split
          · rename_i hAdjoins
            exact .cons_cons (fun hTerm => hAdjoins.resolve_left hTerm) ih
          · have hOperator : join ∈ operators := joins_subset_operators hJoin
            exact .cons_cons (fun _ => hJoin) (.cons_cons (absurd hOperator) ih)

theorem woven_eq_self (h : words.IsChain Adjoins) : woven join words = words := by
  induction h with
  | nil => rfl
  | singleton => rfl
  | cons_cons hAdjoins _ ih =>
      rw [woven_cons_cons, ih, if_pos (or_iff_not_imp_left.mpr hAdjoins)]
      rfl

/-! ## Words in normal form -/

/-- No operator ends the words and no join starts them, and a term goes on with a join. -/
structure IsNormal (words : List Text) : Prop where
  head : ∀ w ∈ words.head?, w ∉ joins
  last : ∀ w ∈ words.getLast?, w ∉ operators
  chain : words.IsChain Adjoins

theorem isNormal_woven (h : IsCore words middle) (hJoin : join ∈ joins) :
    IsNormal (woven join middle) := by
  obtain ⟨front, back, -, -, hLast, -, hHead⟩ := h
  refine ⟨?_, ?_, isChain_woven hJoin middle⟩
  · rwa [head?_woven]
  · intro w hw
    rw [getLast?_woven] at hw
    refine hLast w ?_
    rw [Option.mem_def] at hw ⊢
    rw [List.getLast?_append, hw, Option.some_or]

theorem IsNormal.isCore (h : IsNormal words) : IsCore words words :=
  ⟨[], [], by simp, by simp, h.last, by simp, h.head⟩

/-- One term is in normal form, and so is its negation. -/
theorem isNormal_singleton {t : Text} (h : isOperator (.str t) = false) : IsNormal [t] := by
  rw [isOperator_str, decide_eq_false_iff_not] at h
  have hJoin : t ∉ joins := fun hMem => h (joins_subset_operators hMem)
  exact ⟨by simpa using hJoin, by simpa using h, .singleton t⟩

theorem isNormal_negated {t : Text} (h : isOperator (.str t) = false) :
    IsNormal ["NOT", t] := by
  have hNot : ("NOT" : Text) ∈ operators ∧ ("NOT" : Text) ∉ joins := by decide
  exact ⟨by simpa using hNot.2, by simpa [isOperator_str] using h,
    .cons_cons (absurd hNot.1) (.singleton t)⟩

theorem IsNormal.woven_core (h : IsNormal words) : woven join (core words) = words := by
  rw [core_eq_of_isCore h.isCore, woven_eq_self h.chain]

/-! ## What is put together -/

theorem trim_map_str (words : List Text) :
    trim (words.map .str) = (core words).map .str := by
  have hJoin : (isJoin ∘ Json.str) = fun w => decide (w ∈ joins) := funext isJoin_str
  have hOperator : (isOperator ∘ Json.str) = fun w => decide (w ∈ operators) :=
    funext isOperator_str
  rw [trim, ← List.map_reverse, List.dropWhile_map, hOperator, ← List.map_reverse,
    List.dropWhile_map, hJoin]
  rfl

theorem weave_map_str (join : Join) (words : List Text) :
    weave join (words.map .str) = (woven join.word words).map .str := by
  induction words with
  | nil => rfl
  | cons left rest ih =>
      cases rest with
      | nil => rfl
      | cons right rest =>
          rw [List.map_cons] at ih
          rw [List.map_cons, List.map_cons, weave, ih, woven_cons_cons, isOperator_str, isJoin_str]
          by_cases h : left ∈ operators ∨ right ∈ joins
          · simp [h]
          · simp [h]

/-- Texts are put together to texts. -/
theorem assemble_map_str (join : Join) (words : List Text) :
    assemble join (words.map .str) = (woven join.word (core words)).map .str := by
  rw [assemble, trim_map_str, weave_map_str]

theorem assemble_of_isNormal (join : Join) (h : IsNormal words) :
    assemble join (words.map .str) = words.map .str := by
  rw [assemble_map_str, h.woven_core]

theorem assembleValues_map_str (join : Join) (words : List Text) :
    assembleValues join (words.map .str) = .ok ((woven join.word (core words)).map .str) := by
  have hScalar : (words.map Json.str).all (·.isScalar) = true := by simp [Json.isScalar]
  rw [assembleValues, if_pos hScalar, assemble_map_str]

/-- Whatever the words, what is put together from them is in normal form; it is the words between
the operators at the end and the joins at the front, with joins put between two terms, so that no
term is lost or moved; and put together once more it stays as it is. -/
theorem assembleValues_isNormal (join : Join) (words : List Text) :
    ∃ out : List Text, assembleValues join (words.map .str) = .ok (out.map .str) ∧
      IsNormal out ∧
      (∃ middle, IsCore words middle ∧ out = woven join.word middle) ∧
      out.filter (· ∉ operators) = words.filter (· ∉ operators) ∧
      assembleValues join (out.map .str) = .ok (out.map .str) := by
  have hCore := isCore_core words
  have hNormal := isNormal_woven hCore (word_mem_joins join)
  refine ⟨_, assembleValues_map_str join words, hNormal, ⟨_, hCore, rfl⟩, ?_, ?_⟩
  · obtain ⟨front, back, hWords, hBack, -, hFront, -⟩ := hCore
    have hDropped : ∀ ws : List Text, (∀ w ∈ ws, w ∈ operators) →
        ws.filter (· ∉ operators) = [] := by
      intro ws h
      simpa using h
    rw [filter_woven (word_mem_joins join)]
    conv_rhs => rw [hWords]
    rw [List.filter_append, List.filter_append, hDropped back hBack,
      hDropped front fun w hw => joins_subset_operators (hFront w hw), List.append_nil,
      List.nil_append]
  · rw [assembleValues_map_str, hNormal.woven_core]

example : woven "AND" (core ["AND", "a", "b", "OR", "c", "NOT"]) =
    ["a", "AND", "b", "OR", "c"] := by
  decide

end LogQuery.FreeText
