import LogQuery.Proofs.Json.Members
import LogQuery.Proofs.Token.Claims
import LogQuery.Proofs.Token.Pieces
import LogQuery.Query.Compile

/-! What is known of the fields of the documents. Of all that a table of fields holds, compilation
looks at one thing only, which fields are analyzed as text; and that at every depth, since a nested
compilation is given the table of the one around it. So two tables that agree on this are compiled
with alike. -/

namespace LogQuery

namespace Token

variable {m m' : Json}

/-! ## Which fields are text -/

/-- A table of fields notes of the field that it is analyzed as text. -/
def IsNotedAsText (table : Members) (field : Text) : Prop :=
  ∃ about, table.get? field = some (.obj about) ∧ Members.get? about "type" = some (.str "text")

/-- What a table of fields says of each of them is an object. -/
def IsFieldTable (table : Members) : Prop :=
  ∀ entry ∈ table, ∃ about, entry.2 = .obj about

/-- The tables note the same fields as text. -/
def NoteSameTexts (table other : Members) : Prop :=
  ∀ field, IsNotedAsText table field ↔ IsNotedAsText other field

theorem Field.exists_isText {table : Members} (h : IsFieldTable table) (field : Text) :
    ∃ b, Field.isText (.obj table) field = .ok b ∧ (b = true ↔ IsNotedAsText table field) := by
  cases hValue : table.get? field with
  | none =>
      refine ⟨false, ?_, by simp [IsNotedAsText, hValue]⟩
      simp only [isText, Json.member?, hValue]
      rfl
  | some value =>
      obtain ⟨about, hAbout⟩ := h _ (Members.mem_of_get? hValue)
      obtain rfl : value = .obj about := hAbout
      have hNoted : IsNotedAsText table field ↔
          Members.get? about "type" = some (.str "text") := by
        simp [IsNotedAsText, hValue]
      cases about with
      | nil =>
          refine ⟨false, ?_, by simp [hNoted, Members.get?_nil]⟩
          simp only [isText, Json.member?, hValue]
          rfl
      | cons first rest =>
          refine ⟨((Members.get? (first :: rest) "type").getD .null).isText "text", ?_, ?_⟩
          · simp only [isText, Json.member?, hValue]
            rfl
          · rw [hNoted]
            cases hType : Members.get? (first :: rest) "type" with
            | none => simp [Json.isText]
            | some type => cases type <;> simp [Json.isText]

theorem Field.isText_eq_of_noteSameTexts {table other : Members} (hTable : IsFieldTable table)
    (hOther : IsFieldTable other) (h : NoteSameTexts table other) :
    Field.isText (.obj table) = Field.isText (.obj other) := by
  funext field
  obtain ⟨b, hb, hText⟩ := Field.exists_isText hTable field
  obtain ⟨c, hc, hOtherText⟩ := Field.exists_isText hOther field
  rw [hb, hc, Bool.eq_iff_iff.mpr (hText.trans ((h field).trans hOtherText.symm))]

/-! ## Recognizers -/

theorem Field.condition?_eq (h : Field.isText m = Field.isText m') (token : Text) :
    Field.condition? m token = Field.condition? m' token := by
  have hChoose : Field.chooseMatcher m = Field.chooseMatcher m' := by
    funext operator field
    rw [Field.chooseMatcher, Field.chooseMatcher, h]
  rw [Field.condition?, Field.condition?, hChoose]

/-- Of the recognizers only that of fields looks at what is known of them. -/
theorem Recognizer.claim_eq_of_isText (h : Field.isText m = Field.isText m') (folder : Folder)
    (within? : Option (Json → List Text → Outcome Json)) (r : Recognizer) (token : Text) :
    r.claim ⟨folder, m, within?⟩ token = r.claim ⟨folder, m', within?⟩ token := by
  have hExpand : r.expand ⟨folder, m, within?⟩ token = r.expand ⟨folder, m', within?⟩ token := by
    unfold expand
    cases r.rule with
    | stock stock =>
        cases stock with
        | text => simp only [expandStock, Field.condition?_eq h]
        | _ => rfl
    | table entries => rfl
    | unspecified => rfl
  rw [claim, claim, hExpand]

theorem claimFirst_eq_of_isText (h : Field.isText m = Field.isText m') (folder : Folder)
    (within? : Option (Json → List Text → Outcome Json)) (token : Text) (rs : List Recognizer) :
    claimFirst ⟨folder, m, within?⟩ token rs = claimFirst ⟨folder, m', within?⟩ token rs := by
  induction rs with
  | nil => rfl
  | cons r rs ih => rw [claimFirst, claimFirst, Recognizer.claim_eq_of_isText h, ih]

/-- The settings with something else known of the fields. -/
def Settings.knowing (s : Settings) (fieldsMeta : Json) : Settings :=
  { s with fieldsMeta }

end Token

namespace Query

open Token

variable {m m' : Json}

/-- The request with something else known of the fields. -/
def knowing (q : Query) (fieldsMeta : Json) : Query :=
  { q with fieldsMeta }

theorem render_knowing (q : Query) (fieldsMeta : Json) : (q.knowing fieldsMeta).render = q.render :=
  rfl

/-! ## Compilation -/

theorem piecesWith_knowing (h : Field.isText m = Field.isText m') (folder : Folder)
    (within : Json → List Text → Outcome Json) (s : Settings) :
    piecesWith folder within (s.knowing m') = piecesWith folder within (s.knowing m) := by
  have hChain : (s.knowing m').chain = (s.knowing m).chain := rfl
  funext token
  rw [piecesWith, piecesWith, hChain]
  simp only [Settings.knowing, claimFirst_eq_of_isText h]

theorem Assembly.inContext_knowing (a : Assembly) (s : Settings) (fieldsMeta : Json)
    (conditions : List Json) :
    a.inContext (s.knowing fieldsMeta) conditions =
      (a.inContext s conditions).knowing fieldsMeta := by
  simp only [inContext, Settings.knowing]
  cases s.context <;> rfl

/-- A request holds what is known of the fields, and nothing else in it depends on that. -/
theorem ofPieces_knowing (s : Settings) (m m' : Json) (ps : List Piece) :
    Outcome.of (ofPieces (s.knowing m') ps) =
      (·.knowing m') <$> Outcome.of (ofPieces (s.knowing m) ps) := by
  have hJoin : ∀ fieldsMeta, (s.knowing fieldsMeta).join = s.join := fun _ => rfl
  simp only [ofPieces, Assembly.finish, Assembly.inContext_knowing, hJoin]
  cases (ps.foldl Assembly.add {}).textConditions s.join <;> rfl

theorem compileWith_knowing (h : Field.isText m = Field.isText m') (folder : Folder)
    (within : Json → List Text → Outcome Json) (s : Settings) (tokens : List Text) :
    compileWith folder within (s.knowing m') tokens =
      (·.knowing m') <$> compileWith folder within (s.knowing m) tokens := by
  rw [compileWith, compileWith, map_bind, piecesWith_knowing h]
  simp only [ofPieces_knowing s m m']

/-- Nested compilations are given what is known of the fields, and so they agree at every depth. -/
theorem compileWithin_knowing (h : Field.isText m = Field.isText m') (folder : Folder)
    (levels : Nat) (s : Settings) (depth : Json) (tokens : List Text) :
    compileWithin folder levels (s.knowing m') depth tokens =
      compileWithin folder levels (s.knowing m) depth tokens := by
  -- each level has settings of its own, which still know the same table
  induction levels generalizing s depth tokens with
  | zero => rfl
  | succ levels ih =>
      have hDeeper : (s.knowing m').deeper = (s.knowing m).deeper := rfl
      have hBelow : ∀ deeper, compileWithin folder levels ((s.knowing m').inner deeper).inUse =
          compileWithin folder levels ((s.knowing m).inner deeper).inUse := by
        intro deeper
        funext depth tokens
        exact ih (s.inner deeper).inUse depth tokens
      have hHere : ∀ within deeper tokens,
          compileWith folder within ((s.knowing m').inner deeper) tokens =
            (·.knowing m') <$> compileWith folder within ((s.knowing m).inner deeper) tokens :=
        fun within deeper => compileWith_knowing h folder within (s.inner deeper)
      simp only [compileWithin, hDeeper, hBelow, hHere, bind_map_left, render_knowing]

theorem within_knowing (h : Field.isText m = Field.isText m') (folder : Folder) (s : Settings) :
    within folder (s.knowing m') = within folder (s.knowing m) := by
  funext depth tokens
  exact compileWithin_knowing h folder maxLevels s.inUse depth tokens

theorem piecesOfValue_knowing (h : Field.isText m = Field.isText m') (folder : Folder)
    (s : Settings) : piecesOfValue folder (s.knowing m') = piecesOfValue folder (s.knowing m) := by
  funext token
  unfold piecesOfValue
  split
  · rw [pieces, pieces, within_knowing h, piecesWith_knowing h]
  · rfl

theorem compileValues_knowing (h : Field.isText m = Field.isText m') (folder : Folder)
    (s : Settings) (tokens : List Json) :
    compileValues folder (s.knowing m') tokens =
      (·.knowing m') <$> compileValues folder (s.knowing m) tokens := by
  rw [compileValues, compileValues, map_bind, piecesOfValue_knowing h]
  simp only [ofPieces_knowing s m m']

/-- Whatever the settings and the tokens, two tables that note the same fields as text are compiled
with alike: to requests that differ in nothing but the table, and so render to the same query, or to
the same failure, with the same warnings; and so it is at every depth below. -/
theorem compileValues_noteSameTexts (folder : Folder) (s : Settings) {table other : Members}
    (hTable : IsFieldTable table) (hOther : IsFieldTable other)
    (h : NoteSameTexts table other) (tokens : List Json) :
    compileValues folder (s.knowing (.obj other)) tokens =
        (·.knowing (.obj other)) <$> compileValues folder (s.knowing (.obj table)) tokens ∧
      (do .of (← compileValues folder (s.knowing (.obj other)) tokens).render) =
        (do .of (← compileValues folder (s.knowing (.obj table)) tokens).render) ∧
      ∀ levels depth inner, compileWithin folder levels (s.knowing (.obj other)) depth inner =
        compileWithin folder levels (s.knowing (.obj table)) depth inner := by
  have hText := Field.isText_eq_of_noteSameTexts hTable hOther h
  have hCompiled := compileValues_knowing hText folder s tokens
  refine ⟨hCompiled, ?_, fun levels => compileWithin_knowing hText folder levels s⟩
  rw [hCompiled, bind_map_left]
  rfl

/-- A table that is kept by hand, and what a mapping says of other fields beside the same text. -/
def keptTable : Members :=
  [("message", .obj [("type", .str "text")]), ("host", .obj [("type", .str "keyword")])]

def mappedTable : Members :=
  [("bytes", .obj [("type", .str "long")]),
    ("message", .obj [("norms", .bool false), ("type", .str "text")])]

theorem noteSameTexts_mapped : NoteSameTexts keptTable mappedTable := by
  have hKept : ∀ field, IsNotedAsText keptTable field ↔ field = "message" := by
    intro field
    by_cases hField : field = "message"
    · simp +decide [IsNotedAsText, keptTable, Members.get?_cons, hField]
    · by_cases hHost : field = "host" <;>
        simp +decide [IsNotedAsText, keptTable, Members.get?_cons, Members.get?_nil, hField, hHost]
  have hMapped : ∀ field, IsNotedAsText mappedTable field ↔ field = "message" := by
    intro field
    by_cases hField : field = "message"
    · simp +decide [IsNotedAsText, mappedTable, Members.get?_cons, hField]
    · by_cases hBytes : field = "bytes" <;>
        simp +decide [IsNotedAsText, mappedTable, Members.get?_cons, Members.get?_nil, hField,
          hBytes]
  exact fun field => (hKept field).trans (hMapped field).symm

theorem compileValues_noteSameTexts_mapped :
    IsFieldTable keptTable ∧ IsFieldTable mappedTable ∧ NoteSameTexts keptTable mappedTable ∧
      (do .of (← compileValues .empty (Settings.plain.knowing (.obj mappedTable))
        [.str "=message:failed", .str "=host:db"]).render) =
      .done (Clause.single "bool" (Clause.single "must" (.arr [
        Clause.onField "match" "message" (.str "failed"),
        Clause.onField "term" "host" (.str "db")]))) := by
  have hKept : IsFieldTable keptTable := by simp [IsFieldTable, keptTable]
  have hMapped : IsFieldTable mappedTable := by simp [IsFieldTable, mappedTable]
  refine ⟨hKept, hMapped, noteSameTexts_mapped, ?_⟩
  rw [(compileValues_noteSameTexts .empty .plain hKept hMapped noteSameTexts_mapped _).2.1]
  with_unfolding_all rfl

end Query

end LogQuery
