import LogQuery.Proofs.Query.Depth
import LogQuery.Proofs.Query.Reach

/-! The limit on nesting where further recognizers of nested documents may be in use. Such a
recognizer belongs to the compilation in which it came into use, and all that it nests lies one
below that, however deep it is itself. So the limit holds as long as the compilation's own
recognizer is tried first, and otherwise it counts for nothing. -/

namespace LogQuery

namespace Token

variable {s : Settings}

/-- Further recognizers in use belong where they came into use, whatever is nested since. -/
theorem Settings.extrasDepth_inUse_inner {came : Json} (h : s.extrasDepth = some came)
    (depth : Json) : (s.inner depth).inUse.extrasDepth = some came := by
  rw [inUse, inner, h]
  rfl

/-- In the compilation in which they come into use they are as deep as its own. -/
theorem Settings.nestedDepth_lying (hFresh : s.extrasDepth = none) (d m : Int) :
    (s.lying d m).nestedDepth = .int d := by
  by_cases hOwn : (s.lying d m).NestsItself
  · exact hOwn.nestedDepth_eq
  · rw [nestedDepth_of_not_nestsItself hOwn, lying, hFresh]
    rfl

end Token

namespace Query

open Token

variable {folder : Folder} {s base : Settings}

/-- A nested compilation that succeeds keeps to the limit, if the compilation's own recognizer of
nested documents is tried first or if it cannot go deeper anyway. -/
theorem reaches_le_of_compileWithin (hAgrees : base.Agrees s) {m d : Int}
    (hMax : s.maxDepth = .int m) (hOwn : s.NestsItself ∨ m ≤ d) {levels : Nat} {tokens : List Text}
    {x : Json} (h : (compileWithin folder levels s (.int d) tokens).result = .ok x) {n : Nat}
    (hReaches : Reaches folder base (tokens.map .str) n) : n + 1 ≤ m - d := by
  induction levels generalizing s d tokens x n with
  | zero =>
      obtain ⟨_, -, hFail⟩ := Outcome.result_bind_eq_ok_iff.mp h
      cases hFail
  | succ levels ih =>
      by_cases hFull : m ≤ d
      · rw [compileWithin_of_error (Settings.deeper_of_le hMax hFull)] at h
        cases h
      · have hHere : (s.inner (.int (d + 1))).NestsItself := hOwn.resolve_right hFull
        have hBelow : (s.inner (.int (d + 1))).inUse.NestsItself := hOwn.resolve_right hFull
        have hAgreesHere : base.Agrees (s.inner (.int (d + 1))) := hAgrees.trans (s.agrees_inner _)
        rw [compileWithin_of_deeper (Settings.deeper_of_lt hMax (show d < m by omega)),
          hHere.nestedDepth_eq] at h
        obtain ⟨q, hq, -⟩ := Outcome.result_bind_eq_ok_iff.mp h
        cases hReaches with
        | here => omega
        | within hMem hOpens hInner =>
            obtain ⟨token, hToken, hEq⟩ := List.mem_map.mp hMem
            cases hEq
            obtain ⟨results, hResults, -⟩ := Outcome.result_bind_eq_ok_iff.mp hq
            obtain ⟨ps, hPieces⟩ := Outcome.exists_of_collect hResults hToken
            obtain ⟨y, hy⟩ := exists_within_of_opens hAgreesHere hOpens hPieces
            have hDeeper := ih (hAgreesHere.trans (Settings.agrees_inUse _)) hMax (.inl hBelow) hy
              hInner
            push_cast
            omega

theorem reaches_le_of_compileValues (hFresh : s.extrasDepth = none) {d m : Int} (hRoom : d ≤ m)
    (hOwn : s.NestsItself ∨ d = m) {tokens : List Json} {q : Query}
    (h : (compileValues folder (s.lying d m) tokens).result = .ok q) {n : Nat}
    (hReaches : Reaches folder s tokens n) : n ≤ m - d := by
  have hAgrees := s.agrees_lying d m
  have hBelow : (s.lying d m).inUse.NestsItself ∨ m ≤ d := hOwn.imp id fun hEq => hEq.ge
  cases hReaches with
  | here => omega
  | within hMem hOpens hInner =>
      obtain ⟨results, hResults, -⟩ := Outcome.result_bind_eq_ok_iff.mp h
      obtain ⟨ps, hPieces⟩ := Outcome.exists_of_collect hResults hMem
      rw [piecesOfValue, pieces, piecesWith_uniform, Settings.nestedDepth_lying hFresh] at hPieces
      obtain ⟨y, hy⟩ := exists_within_of_opens hAgrees hOpens hPieces
      have hDeeper := reaches_le_of_compileWithin (hAgrees.trans (Settings.agrees_inUse _)) rfl
        hBelow hy hInner
      push_cast
      omega

/-- If a further recognizer of nested documents is tried first, everything nested is compiled as if
it were one below the compilation in which that came into use. -/
theorem compileWithin_of_not_nestsItself {s' : Settings} (hOwn : ¬s.NestsItself)
    (hAgrees : s.Agrees s') {d m m' : Int} (hUse : s.extrasDepth = some (.int d))
    (hUse' : s'.extrasDepth = some (.int d)) (hMax : s.maxDepth = .int m)
    (hMax' : s'.maxDepth = .int m') (hRoom : d < m) (hRoom' : d < m') (levels : Nat)
    (tokens : List Text) :
    compileWithin folder levels s (.int d) tokens =
      compileWithin folder levels s' (.int d) tokens := by
  induction levels generalizing s s' tokens with
  | zero =>
      rw [compileWithin, compileWithin, Settings.deeper_of_lt hMax hRoom,
        Settings.deeper_of_lt hMax' hRoom']
  | succ levels ih =>
      have hInner := hAgrees.inner (.int (d + 1)) (.int (d + 1))
      have hOther : ¬s'.NestsItself := fun h => hOwn (hAgrees.symm.nestsItself h)
      have hHere : (s.inner (.int (d + 1))).nestedDepth = .int d := by
        rw [Settings.nestedDepth_inner_of_not_nestsItself hOwn, hUse]
        rfl
      have hHere' : (s'.inner (.int (d + 1))).nestedDepth = .int d := by
        rw [Settings.nestedDepth_inner_of_not_nestsItself hOther, hUse']
        rfl
      have hBelow : ¬(s.inner (.int (d + 1))).inUse.NestsItself := hOwn
      rw [compileWithin_of_deeper (Settings.deeper_of_lt hMax hRoom),
        compileWithin_of_deeper (Settings.deeper_of_lt hMax' hRoom'), hHere, hHere']
      have hWithin := ih hBelow hInner.inUse (Settings.extrasDepth_inUse_inner hUse _)
        (Settings.extrasDepth_inUse_inner hUse' _) hMax hMax'
      rw [compileWith_congr Outcome.isCongruence_eq hInner (.inl rfl) hWithin tokens]

theorem compileValues_of_not_nestsItself (hOwn : ¬s.NestsItself) (hFresh : s.extrasDepth = none)
    {d m m' : Int} (hRoom : d < m) (hRoom' : d < m') (tokens : List Json) :
    compileValues folder (s.lying d m) tokens = compileValues folder (s.lying d m') tokens := by
  have hAgrees := s.lying_agrees d m d m'
  have hBelow : ¬(s.lying d m).inUse.NestsItself := hOwn
  have hUse : ∀ limit, (s.lying d limit).inUse.extrasDepth = some (.int d) := by
    intro limit
    rw [Settings.inUse, Settings.lying, hFresh]
    rfl
  refine compileValues_congr Outcome.isCongruence_eq hAgrees (.inl rfl) (fun inner => ?_) tokens
  rw [Settings.nestedDepth_lying hFresh, Settings.nestedDepth_lying hFresh]
  exact compileWithin_of_not_nestsItself hBelow hAgrees.inUse (hUse m) (hUse m') rfl rfl hRoom
    hRoom' maxLevels inner

/-- What a limit promises of some tokens compiled at a depth. -/
structure KeepsToLimit (folder : Folder) (s : Settings) (d m : Int) (tokens : List Json) :
    Prop where
  /-- What is compiled renders to a query with no more levels than there is room for. -/
  bounded : ∀ q, (compileValues folder (s.lying d m) tokens).result = .ok q →
    ∃ x, q.render = .ok x ∧ Clause.levels x ≤ m - d
  /-- What reaches deeper fails for that, unless it fails whatever the limit. -/
  refuses : ∀ n, Reaches folder s tokens n → m - d < n →
    (compileValues folder (s.lying d m) tokens).result = .error (.tooDeep (.int m)) ∨
      ∃ failure, ∀ m', m ≤ m' →
        (compileValues folder (s.lying d m') tokens).result = .error failure

theorem keepsToLimit (hStock : s.HasStockExtras) (hFresh : s.extrasDepth = none) {d m : Int}
    (hRoom : d ≤ m) (hOwn : s.NestsItself ∨ d = m) (tokens : List Json) :
    KeepsToLimit folder s d m tokens := by
  have hCutOff : ∀ m', m ≤ m' → Outcome.CutOff (.int m) _
      (compileValues folder (s.lying d m) tokens) (compileValues folder (s.lying d m') tokens) := by
    intro m' hm
    rcases hOwn with hOwn | rfl
    · exact compileValues_cutOff hOwn (by omega) tokens
    · have hAgrees := s.lying_agrees d d d m'
      refine compileValues_congr (Outcome.isCongruence_cutOff _) hAgrees (.inl rfl)
        (fun inner => ?_) tokens
      rw [Settings.nestedDepth_lying hFresh, Settings.nestedDepth_lying hFresh]
      right
      rw [within, compileWithin_of_error (Settings.deeper_of_le rfl (Int.le_refl d))]
      rfl
  constructor
  · intro q h
    obtain ⟨_, -, hPieces⟩ := Outcome.result_bind_eq_ok_iff.mp h
    have hRender := render_of_not_stashed (stashed_of_ofPieces hPieces)
    have hStockHere : (s.lying d m).HasStockExtras := hStock
    have hReaches := reaches_of_compileValues (s.agrees_lying d m) hStockHere h hRender
    exact ⟨_, hRender, reaches_le_of_compileValues hFresh hRoom hOwn h hReaches⟩
  · intro n hReaches hDeep
    cases hResult : (compileValues folder (s.lying d m) tokens).result with
    | ok q =>
        have hBound := reaches_le_of_compileValues hFresh hRoom hOwn hResult hReaches
        omega
    | error failure =>
        by_cases hCut : failure = .tooDeep (.int m)
        · exact .inl (by rw [hCut])
        · refine .inr ⟨failure, fun m' hm => ?_⟩
          rcases hCutOff m' hm with hSame | hOther
          · rw [← hSame, hResult]
          · cases hResult.symm.trans hOther
            exact absurd rfl hCut

/-- With stock recognizers of whatever priorities as further ones, the limit is kept if the
compilation's own recognizer of nested documents is tried first, and also if nothing may be nested
at all. Otherwise it makes no difference how much more than nothing may be nested. -/
theorem compileValues_nesting (folder : Folder) {s : Settings} (hStock : s.HasStockExtras)
    (hFresh : s.extrasDepth = none) {d m : Int} (hRoom : d ≤ m) (tokens : List Json) :
    (s.NestsItself ∨ d = m → KeepsToLimit folder s d m tokens) ∧
    (¬s.NestsItself → d < m → ∀ m', d < m' →
      compileValues folder (s.lying d m') tokens = compileValues folder (s.lying d m) tokens) := by
  constructor
  · exact fun hOwn => keepsToLimit hStock hFresh hRoom hOwn tokens
  · exact fun hOwn hMore m' hm => compileValues_of_not_nestsItself hOwn hFresh hm hMore tokens

/-! ## A further recognizer that is tried first -/

/-- A second recognizer of nested documents, which is tried before the stock one. -/
def guestSettings : Settings :=
  { Settings.plain with extras := [⟨"Nested", .int 40, .stock .nested⟩] }

theorem not_nestsItself_guest : ¬guestSettings.NestsItself := by
  have hFirst : guestSettings.firstNested? = some ⟨"Nested", .int 40, .stock .nested, false⟩ := by
    cbv
  intro hOwn
  cases hOwn _ hFirst

theorem exists_render_of_levels {o : Outcome Query} {n : Nat}
    (h : ((o.result >>= Query.render).map Clause.levels).toOption = some n) :
    ∃ q x, o.result = .ok q ∧ q.render = .ok x ∧ Clause.levels x = n := by
  obtain ⟨x, hx, hLevels⟩ := map_eq_ok_iff.mp (eq_ok_of_toOption h)
  obtain ⟨q, hq, hRender⟩ := bind_eq_ok_iff.mp hx
  exact ⟨q, x, hq, hRender, hLevels⟩

/-- The stock recognizer alone keeps to a limit of one level on what reaches two, and with another
tried first nine levels are as good as one. -/
theorem compileValues_nesting_comments :
    KeepsToLimit .empty .plain 0 1 [.str "posts:comments:author:bob"] ∧
    Reaches .empty .plain [.str "posts:comments:author:bob"] 2 ∧
    compileValues .empty (guestSettings.lying 0 9) [.str "posts:comments:author:bob"] =
      compileValues .empty (guestSettings.lying 0 1) [.str "posts:comments:author:bob"] := by
  have hPlain : Settings.plain.HasStockExtras := nofun
  have hOwn : Settings.plain.NestsItself := Settings.nestsItself_of_extras nofun
  have hGuest : guestSettings.HasStockExtras := by
    intro e he
    cases List.mem_singleton.mp he
    exact ⟨.nested, rfl⟩
  refine ⟨(compileValues_nesting .empty hPlain rfl (by decide) _).1 (.inl hOwn), ?_,
    (compileValues_nesting .empty hGuest rfl (by decide) _).2 not_nestsItself_guest (by decide) 9
      (by decide)⟩
  obtain ⟨q, x, hq, hRender, hTwo⟩ := exists_render_of_levels (show (((compileValues .empty
    (.lying .plain 0 4) [.str "posts:comments:author:bob"]).result >>= Query.render).map
      Clause.levels).toOption = some 2 by decide +kernel)
  rw [← hTwo]
  exact reaches_of_compileValues (Settings.agrees_lying .plain 0 4) hPlain hq hRender

/-- Two levels are rendered although one is allowed. -/
theorem compileValues_guest_exceeds :
    ∃ q x, (compileValues .empty (guestSettings.lying 0 1)
        [.str "posts:comments:author:bob"]).result = .ok q ∧ q.render = .ok x ∧
      (1 - 0 : Int) < Clause.levels x := by
  obtain ⟨q, x, hq, hRender, hTwo⟩ := exists_render_of_levels (show (((compileValues .empty
    (guestSettings.lying 0 1) [.str "posts:comments:author:bob"]).result >>= Query.render).map
      Clause.levels).toOption = some 2 by decide +kernel)
  exact ⟨q, x, hq, hRender, by rw [hTwo]; decide⟩

end Query

end LogQuery
