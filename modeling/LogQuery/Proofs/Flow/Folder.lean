import LogQuery.Proofs.Flow.Window
import LogQuery.Proofs.Query.Congruence

/-! What flows make of the folder that value files are looked up in: nothing, as long as the
configuration lets no value file be read. The recognizer of value files is then in no chain, neither
in that of the compilation nor in one of a query nested in it, and no other looks at the folder. -/

namespace LogQuery

theorem Step.of_bind_congr {σ α β : Type} {x : Except Failure α} {f g : α → Step σ β}
    (h : ∀ a, x = .ok a → f a = g a) : Step.of x >>= f = Step.of x >>= g := by
  cases x with
  | error failure => rfl
  | ok a => exact h a rfl

namespace Query

variable {folder folder' : Folder} {s : Token.Settings}

/-- Settings that let no value file be read let none be read at any depth. -/
theorem compileWithin_of_readsNoFiles (h : s.ReadsNoFiles) (levels : Nat) (depth : Json)
    (tokens : List Text) :
    compileWithin folder levels s depth tokens = compileWithin folder' levels s depth tokens := by
  induction levels generalizing s depth tokens with
  | zero => rfl
  | succ levels ih =>
      rw [compileWithin_succ, compileWithin_succ]
      congr 1
      funext deeper
      have hHere : (s.inner deeper).ReadsNoFiles := h
      have hBelow : (s.inner deeper).inUse.ReadsNoFiles := h
      have hWith : compileWith folder _ (s.inner deeper) tokens =
          compileWith folder' _ (s.inner deeper) tokens :=
        compileWith_congr Outcome.isCongruence_eq (Token.Settings.Agrees.refl _) (.inr hHere)
          (fun inner => ih hBelow (s.inner deeper).nestedDepth inner) tokens
      rw [hWith]

theorem compileValues_of_readsNoFiles (h : s.ReadsNoFiles) (tokens : List Json) :
    compileValues folder s tokens = compileValues folder' s tokens := by
  have hInUse : s.inUse.ReadsNoFiles := h
  exact compileValues_congr Outcome.isCongruence_eq (Token.Settings.Agrees.refl _) (.inr h)
    (fun inner => compileWithin_of_readsNoFiles hInUse maxLevels _ inner) tokens

end Query

namespace Flow

variable {config : Config} {around : Surroundings}

theorem stockPriority?_fileOptions (hOff : (config.query.getD "file_expansion").truthy = false) :
    Token.stockPriority? (fileOptions config) .fileExpansion = .ok none := by
  have hEnabled : Token.option? [(.str "enabled", config.query.getD "file_expansion")] "enabled" =
      some (config.query.getD "file_expansion") := rfl
  show (if ((Token.option? [(.str "enabled", config.query.getD "file_expansion")]
    "enabled").map Json.truthy).getD true then _ else _) = _
  rw [hEnabled, Option.map_some, Option.getD_some, hOff]
  rfl

/-- The recognizer of value files is in no chain of a flow. -/
theorem readsNoFiles_of_settings {context join fieldsMeta depth maxDepth : Json}
    {s : Token.Settings} (hOff : (config.query.getD "file_expansion").truthy = false)
    (h : settings config context join fieldsMeta (fileOptions config) [] depth maxDepth = .ok s) :
    s.ReadsNoFiles := by
  obtain ⟨_, -, h⟩ := bind_eq_ok_iff.mp h
  obtain ⟨_, -, h⟩ := bind_eq_ok_iff.mp h
  cases h
  intro slots hSlots slot hMem hRule
  rcases Token.Settings.mem_slots hSlots hMem with ⟨stock, hStock⟩ | ⟨e, hExtra, -⟩
  · obtain ⟨priority?, hPriority, hSlot⟩ := map_eq_ok_iff.mp hStock
    obtain ⟨priority, rfl, rfl⟩ := Option.map_eq_some_iff.mp hSlot
    cases hRule
    have hNone := stockPriority?_fileOptions hOff
    cases hNone.symm.trans hPriority
  · cases hExtra

theorem build_withFolder (hOff : (around.config.query.getD "file_expansion").truthy = false)
    (folder : Folder) : build { around with folder } = build around := by
  funext source
  simp only [build]
  congr 1
  funext known
  split
  · refine Step.of_bind_congr fun s hSettings => ?_
    have hSame : ∀ tokens, Query.compileValues folder s tokens =
        Query.compileValues around.folder s tokens :=
      Query.compileValues_of_readsNoFiles (readsNoFiles_of_settings hOff hSettings)
    simp only [hSame]
  · rfl

theorem prepare_withFolder (hOff : (around.config.query.getD "file_expansion").truthy = false)
    (folder : Folder) : prepare { around with folder } = prepare around := by
  funext selection
  simp only [prepare, build_withFolder hOff]

/-- Whatever the folder holds, the flows build the same requests, say the same to the cluster, give
the same warnings and end in the same way. -/
theorem flows_withFolder (hOff : (around.config.query.getD "file_expansion").truthy = false)
    (folder : Folder) :
    build { around with folder } = build around ∧
      expandQuery { around with folder } = expandQuery around ∧
      searchLogs { around with folder } = searchLogs around ∧
      groupLogs { around with folder } = groupLogs around := by
  refine ⟨build_withFolder hOff folder, ?_, ?_, ?_⟩
  · funext source
    simp only [expandQuery, build_withFolder hOff]
  · funext selection size fields
    simp only [searchLogs, prepare_withFolder hOff]
  · funext selection levels direction
    simp only [groupLogs, prepare_withFolder hOff]

/-- A folder with a list of addresses. -/
def listFolder : Folder :=
  Folder.empty.add "ips.txt" (.text "10.0.0.1\n10.0.0.2\n")

/-- The list stays unread, also where a nested query asks for it. -/
theorem flows_withFolder_list :
    (Token.FileReference.condition? listFolder "src_ip:ips.txt").result =
      .ok (some (Clause.terms "src_ip" [.str "10.0.0.1", .str "10.0.0.2"])) ∧
    searchLogs { Surroundings.plain with folder := listFolder }
        (logsOf ["src_ip:ips.txt", "comments:src_ip:ips.txt"]) .null .null =
      searchLogs .plain (logsOf ["src_ip:ips.txt", "comments:src_ip:ips.txt"]) .null .null := by
  have hOff : (Surroundings.plain.config.query.getD "file_expansion").truthy = false := rfl
  obtain ⟨-, -, hSearch, -⟩ := flows_withFolder hOff listFolder
  exact ⟨by cbv, by rw [hSearch]⟩

end Flow

end LogQuery
