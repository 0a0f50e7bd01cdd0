import LogQuery.Proofs.Query.Congruence
import LogQuery.Proofs.Token.Failures
import LogQuery.Proofs.Token.Pieces

/-! How deep a compilation may go. The limit only ever cuts a compilation off: what is compiled with
some room is compiled to the same with more. The tokens in a token are shorter than it, so that room
for the longest token is room enough. -/

namespace LogQuery

/-! ## Tokens in tokens -/

namespace Text

theorem length_flatten_words_le (cs : Text) : (words cs).flatten.length ≤ cs.length := by
  rw [words, List.flatten_filter_not_isEmpty, flatten_splitWhere]
  exact List.length_filter_le _ _

end Text

namespace Token.Nested

open Text

theorem length_lt_of_splitPath? {cs path front : Text} (h : splitPath? cs = some (path, front)) :
    front.length < cs.length := by
  unfold splitPath? at h
  split at h
  · rename_i hSplit
    cases h
    obtain ⟨c, -, rfl⟩ := splitFirst_some hSplit
    simp
    omega
  · rename_i hSplit
    cases h
    obtain ⟨c, -, rfl⟩ := splitFirst_some hSplit
    simp
    omega
  · cases h

theorem length_le_of_mem_closeQuote {texts : List Text} {t : Text} (h : t ∈ closeQuote texts) :
    ∃ u ∈ texts, t.length ≤ u.length := by
  fun_induction closeQuote texts with
  | case1 => cases h
  | case2 last =>
      refine ⟨last, List.mem_singleton_self last, ?_⟩
      rw [List.mem_singleton.mp h, dropClosingQuote]
      split
      · simp
      · exact Nat.le_refl _
  | case3 cs rest hRest ih =>
      rcases List.mem_cons.mp h with rfl | h
      · exact ⟨t, List.mem_cons_self, Nat.le_refl _⟩
      · obtain ⟨u, hu, hLe⟩ := ih h
        exact ⟨u, List.mem_cons_of_mem cs hu, hLe⟩

/-- The tokens in a token are shorter than it. -/
theorem length_lt_of_split? {token path : Text} {inner : List Text}
    (h : split? token = some (path, inner)) : ∀ t ∈ inner, t.length < token.length := by
  unfold split? at h
  split at h
  · cases h
  · rename_i first rest hWords
    have hLength := length_flatten_words_le token
    rw [hWords, List.flatten_cons, List.length_append] at hLength
    split at h
    · cases h
    · rename_i path front hPath
      have hFront := length_lt_of_splitPath? hPath
      split_ifs at h
      cases h
      intro t ht
      obtain ⟨u, hu, hLe⟩ := length_le_of_mem_closeQuote (List.mem_of_mem_filter ht)
      rcases List.mem_cons.mp hu with rfl | hu
      · omega
      · have hRest := (List.sublist_flatten_of_mem hu).length_le
        omega

theorem length_pos_of_split? {token path : Text} {inner : List Text}
    (h : split? token = some (path, inner)) : 0 < token.length := by
  rw [List.length_pos_iff]
  rintro rfl
  cases h

end Token.Nested

/-! ## More room -/

namespace Outcome

/-- The first outcome is the second one, or it was cut off at a limit. -/
def CutOff (limit : Json) (α : Type) (x y : Outcome α) : Prop :=
  x = y ∨ x.result = .error (.tooDeep limit)

theorem isCongruence_cutOff (limit : Json) : IsCongruence (CutOff limit) where
  refl _ := .inl rfl
  bind := by
    intro α β x y f g h hNext
    have hStops : ∀ failure, x.result = .error failure → (x >>= f).result = .error failure := by
      intro failure hx
      rw [bind_def, andThen, hx]
    rcases h with rfl | hCut
    · cases hx : x.result with
      | error failure =>
          left
          simp only [bind_def, andThen, hx]
      | ok a =>
          rcases hNext a hx with hSame | hCut
          · left
            simp only [bind_def, andThen, hx, hSame]
          · right
            simp only [bind_def, andThen, hx, hCut]
    · exact .inr (hStops _ hCut)

end Outcome

namespace Token.Settings

theorem deeper_of_lt {s : Settings} {m d : Int} (h : s.maxDepth = .int m) (hRoom : d < m) :
    s.deeper (.int d) = .ok (.int (d + 1)) := by
  have hFits : ¬m < d + 1 := by omega
  simp [deeper, Json.succ_int, h, Json.less_int, hFits, bind, Except.bind, pure, Except.pure]

theorem deeper_of_le {s : Settings} {m d : Int} (h : s.maxDepth = .int m) (hFull : m ≤ d) :
    s.deeper (.int d) = .error (.tooDeep (.int m)) := by
  have hOver : m < d + 1 := by omega
  simp [deeper, Json.succ_int, h, Json.less_int, hOver, bind, Except.bind]

/-- The settings for a compilation at a depth, with a limit. -/
def lying (s : Settings) (depth limit : Int) : Settings :=
  { s with depth := .int depth, maxDepth := .int limit }

theorem agrees_lying (s : Settings) (d m : Int) : s.Agrees (s.lying d m) :=
  ⟨rfl, rfl, rfl, rfl, rfl⟩

theorem lying_agrees (s : Settings) (d m d' m' : Int) : (s.lying d m).Agrees (s.lying d' m') :=
  (s.agrees_lying d m).symm.trans (s.agrees_lying d' m')

end Token.Settings

namespace Query

open Token

variable {folder : Folder} {s s' : Settings}

/-- A nested compilation that may go deeper. -/
theorem compileWithin_of_deeper {depth deeper : Json} (h : s.deeper depth = .ok deeper)
    (levels : Nat) (tokens : List Text) :
    compileWithin folder (levels + 1) s depth tokens =
      compileWith folder (fun _ => compileWithin folder levels (s.inner deeper).inUse
        (s.inner deeper).nestedDepth) (s.inner deeper) tokens >>= fun q => .of q.render := by
  rw [compileWithin_succ, h]
  exact Outcome.done_andThen _ _

/-- A nested compilation that may not. -/
theorem compileWithin_of_error {depth : Json} {failure : Failure}
    (h : s.deeper depth = .error failure) (levels : Nat) (tokens : List Text) :
    compileWithin folder levels s depth tokens = .fail failure := by
  cases levels with
  | zero =>
      rw [compileWithin, h]
      rfl
  | succ levels =>
      rw [compileWithin_succ, h]
      rfl

/-- With more room, a nested compilation gives the same, unless it was cut off with less. -/
theorem compileWithin_cutOff (hOwn : s.NestsItself) (hAgrees : s.Agrees s') {m m' : Int}
    (hMax : s.maxDepth = .int m) (hMax' : s'.maxDepth = .int m') (levels : Nat) {d d' : Int}
    (hRoom : m - d ≤ m' - d') (tokens : List Text) :
    Outcome.CutOff (.int m) _ (compileWithin folder levels s (.int d) tokens)
      (compileWithin folder levels s' (.int d') tokens) := by
  induction levels generalizing s s' d d' tokens with
  | zero =>
      by_cases hd : d < m
      · left
        rw [compileWithin, compileWithin, Settings.deeper_of_lt hMax hd,
          Settings.deeper_of_lt hMax' (by omega)]
        rfl
      · right
        rw [compileWithin_of_error (Settings.deeper_of_le hMax (by omega))]
        rfl
  | succ levels ih =>
      by_cases hd : d < m
      · rw [compileWithin_of_deeper (Settings.deeper_of_lt hMax hd),
          compileWithin_of_deeper (Settings.deeper_of_lt hMax' (show d' < m' by omega))]
        have hInner := hAgrees.inner (.int (d + 1)) (.int (d' + 1))
        have hHere : (s.inner (.int (d + 1))).NestsItself := hOwn
        have hBelow : (s.inner (.int (d + 1))).inUse.NestsItself := hOwn
        have hCutOff := Outcome.isCongruence_cutOff (.int m)
        refine hCutOff.bind (compileWith_congr hCutOff hInner (.inl rfl) ?_ tokens)
          fun q _ => .inl rfl
        intro inner
        rw [hHere.nestedDepth_eq, (hInner.nestsItself hHere).nestedDepth_eq]
        exact ih hBelow hInner.inUse hMax hMax' (by omega) inner
      · right
        rw [compileWithin_of_error (Settings.deeper_of_le hMax (by omega))]
        rfl

/-- With more room, tokens are compiled to the same, unless they were cut off with less. -/
theorem compileValues_cutOff (hOwn : s.NestsItself) {d m d' m' : Int} (hRoom : m - d ≤ m' - d')
    (tokens : List Json) :
    Outcome.CutOff (.int m) _ (compileValues folder (s.lying d m) tokens)
      (compileValues folder (s.lying d' m') tokens) := by
  have hAgrees := s.lying_agrees d m d' m'
  have hHere : (s.lying d m).NestsItself := hOwn
  have hBelow : (s.lying d m).inUse.NestsItself := hOwn
  refine compileValues_congr (Outcome.isCongruence_cutOff _) hAgrees (.inl rfl) ?_ tokens
  intro inner
  rw [hHere.nestedDepth_eq, (hAgrees.nestsItself hHere).nestedDepth_eq]
  exact compileWithin_cutOff hBelow hAgrees.inUse rfl rfl maxLevels hRoom inner

/-! ## Room enough -/

/-- What is within the tokens decides whether nested queries lie too deep. -/
theorem fitsDepth_piecesWith (hStock : s.HasStockExtras) {w : List Text → Outcome Json}
    {token : Text} (hWithin : ∀ path inner, Nested.split? token = some (path, inner) →
      FitsDepth (w inner).result) :
    FitsDepth (piecesWith folder (fun _ => w) s token).result := by
  cases hSlots : s.slots with
  | error failure =>
      rw [piecesWith_of_error hSlots]
      rintro limit h
      cases h
      exact s.fitsDepth_slots limit hSlots
  | ok slots =>
      rw [piecesWith_of_slots hSlots]
      refine fitsDepth_claimFirst ?_ fun _ _ => hWithin
      intro r hr
      obtain ⟨slot, hSlot, rfl⟩ := List.mem_map.mp hr
      exact hStock.exists_stock hSlots hSlot

/-- With room for the longest token, nothing nested lies too deep. -/
theorem fitsDepth_compileWithin (hOwn : s.NestsItself) (hStock : s.HasStockExtras) {m : Int}
    (hMax : s.maxDepth = .int m) (levels : Nat) {d : Int} (hRoom : d < m) {tokens : List Text}
    (hLengths : ∀ t ∈ tokens, (t.length : Int) < m - d) :
    FitsDepth (compileWithin folder levels s (.int d) tokens).result := by
  induction levels generalizing s d tokens with
  | zero =>
      rw [compileWithin, Settings.deeper_of_lt hMax hRoom]
      simp [FitsDepth, Outcome.bind_def, Outcome.andThen, Outcome.of, Outcome.fail]
  | succ levels ih =>
      rw [compileWithin_of_deeper (Settings.deeper_of_lt hMax hRoom)]
      have hHere : (s.inner (.int (d + 1))).NestsItself := hOwn
      have hBelow : (s.inner (.int (d + 1))).inUse.NestsItself := hOwn
      have hStockHere : (s.inner (.int (d + 1))).HasStockExtras := hStock
      rw [hHere.nestedDepth_eq]
      refine Outcome.fitsDepth_bind ?_ fun q _ => fitsDepth_render q
      refine Outcome.fitsDepth_bind (Outcome.fitsDepth_collect fun token hToken => ?_)
        fun pieces _ => fitsDepth_ofPieces _ _
      refine fitsDepth_piecesWith hStockHere fun path inner hSplit => ?_
      have hLength := hLengths token hToken
      have hPos := Nested.length_pos_of_split? hSplit
      refine ih hBelow hStock hMax (by omega) fun t ht => ?_
      have hShorter := Nested.length_lt_of_split? hSplit t ht
      omega

theorem fitsDepth_compileValues (hOwn : s.NestsItself) (hStock : s.HasStockExtras) {d m : Int}
    {tokens : List Json} (hLengths : ∀ t, .str t ∈ tokens → (t.length : Int) ≤ m - d) :
    FitsDepth (compileValues folder (s.lying d m) tokens).result := by
  have hHere : (s.lying d m).NestsItself := hOwn
  have hBelow : (s.lying d m).inUse.NestsItself := hOwn
  have hStockHere : (s.lying d m).HasStockExtras := hStock
  refine Outcome.fitsDepth_bind (Outcome.fitsDepth_collect fun token hToken => ?_)
    fun pieces _ => fitsDepth_ofPieces _ _
  unfold piecesOfValue
  split
  · rename_i t
    rw [pieces, piecesWith_uniform, hHere.nestedDepth_eq]
    refine fitsDepth_piecesWith hStockHere fun path inner hSplit => ?_
    have hLength := hLengths t hToken
    have hPos := Nested.length_pos_of_split? hSplit
    refine fitsDepth_compileWithin hBelow hStock rfl maxLevels (by omega) fun u hu => ?_
    have hShorter := Nested.length_lt_of_split? hSplit u hu
    omega
  · exact Outcome.fitsDepth_bind (Settings.fitsDepth_chain _) fun rs _ => fitsDepth_passThrough _ rs

/-- Without further recognizers, whatever is compiled with some room is compiled to the same with
more, and with room for the longest token nothing lies too deep. -/
theorem compileValues_depth (folder : Folder) {s : Settings} (hExtras : s.extras = [])
    (tokens : List Json) (d m : Int) :
    (∀ d' m' q, m - d ≤ m' - d' → (compileValues folder (s.lying d m) tokens).result = .ok q →
      (compileValues folder (s.lying d' m') tokens).result = .ok q) ∧
    ((∀ t, .str t ∈ tokens → (t.length : Int) ≤ m - d) →
      ∀ limit, (compileValues folder (s.lying d m) tokens).result ≠ .error (.tooDeep limit)) := by
  have hNone : ∀ e, e ∉ s.extras := by simp [hExtras]
  have hOwn : s.NestsItself :=
    Settings.nestsItself_of_extras fun e he => absurd he (hNone e)
  have hStock : s.HasStockExtras := fun e he => absurd he (hNone e)
  constructor
  · intro d' m' q hRoom hResult
    rcases compileValues_cutOff hOwn hRoom tokens with hSame | hCut
    · rwa [← hSame]
    · cases hCut.symm.trans hResult
  · exact fitsDepth_compileValues hOwn hStock

/-- One level is room enough for a query in one, at whatever depth. -/
theorem compileValues_depth_comments :
    (∃ q, (compileValues .empty (.lying .plain 0 1) [.str "comments:author:bob"]).result = .ok q ∧
      (compileValues .empty (.lying .plain 3 5) [.str "comments:author:bob"]).result = .ok q) ∧
    ∀ limit, (compileValues .empty (.lying .plain 0 19)
      [.str "comments:author:bob"]).result ≠ .error (.tooDeep limit) := by
  obtain ⟨q, hResult⟩ := exists_eq_ok (show (compileValues .empty (.lying .plain 0 1)
    [.str "comments:author:bob"]).result.toBool = true by decide +kernel)
  have hLengths : ∀ t, .str t ∈ [Json.str "comments:author:bob"] → (t.length : Int) ≤ 19 - 0 := by
    intro t ht
    obtain rfl : t = "comments:author:bob" := by simpa using ht
    decide
  exact ⟨⟨q, hResult, (compileValues_depth .empty rfl _ 0 1).1 3 5 q (by decide) hResult⟩,
    (compileValues_depth .empty rfl _ 0 19).2 hLengths⟩

end Query

end LogQuery
