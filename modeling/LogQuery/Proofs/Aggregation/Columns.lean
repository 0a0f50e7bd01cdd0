import LogQuery.Proofs.Aggregation.HiddenBuckets
import LogQuery.Proofs.Text.Split

/-! Rows as objects. A row has the number of documents of a bucket under the name of its node with
`.hits` after it, which may be the name of another node, and of two columns with one name an object
keeps only the last. All other columns of a row are named apart, if the nodes of the tree are. -/

namespace LogQuery.Aggregation

open Rows

/-! ## Rows as objects -/

/-- No column is lost where the row becomes an object. -/
structure Row.KeepsColumns (row : Row) : Prop where
  distinct : (row.map (·.1)).Nodup
  length : row.toMembers.length = row.length
  values : ∀ column ∈ row, row.toMembers.get? column.1 = some column.2

theorem Row.toMembers_of_nodup {row : Row} (h : (row.map (·.1)).Nodup) : row.toMembers = row :=
  Members.update_of_nodup h

theorem Row.keepsColumns_iff {row : Row} : row.KeepsColumns ↔ (row.map (·.1)).Nodup := by
  constructor
  · exact KeepsColumns.distinct
  · intro h
    have hSame := toMembers_of_nodup h
    refine ⟨h, by rw [hSame], fun column hColumn => ?_⟩
    rw [hSame]
    exact Members.get?_of_mem h hColumn

/-- Of two columns with one name one is lost. -/
theorem Row.length_toMembers_lt {row : Row} (h : ¬(row.map (·.1)).Nodup) :
    row.toMembers.length < row.length := by
  have hNodup : (row.toMembers.map (·.1)).Nodup := Members.nodup_update List.nodup_nil
  have hKeys : row.toMembers.map (·.1) ⊆ row.map (·.1) := by
    intro key hKey
    rcases Members.mem_keys_update.mp hKey with hRow | hNil
    · exact hRow
    · cases hNil
  have hSub := List.subperm_of_subset hNodup hKeys
  by_contra hMany
  rw [Nat.not_lt] at hMany
  exact h ((hSub.perm_of_length_le (by simpa using hMany)).nodup hNodup)

/-! ## The names in a tree -/

mutual

/-- The names of the nodes in a tree, wherever they stand. -/
def namesOf : List (Text × Json) → List Text
  | [] => []
  | node :: nodes => namesAt node ++ namesOf nodes

/-- The name of a node, and those within it. -/
def namesAt : Text × Json → List Text
  | (name, node) => name :: namesWithin node

def namesWithin : Json → List Text
  | .obj members => namesUnder members
  | _ => []

/-- The names in the tree that a member holds. -/
def namesUnder : List (Text × Json) → List Text
  | [] => []
  | member :: members =>
    match namesIn? member with
    | some names => names
    | none => namesUnder members

/-- The names in a member, if it is the one that holds the tree. -/
def namesIn? : Text × Json → Option (List Text)
  | (key, .obj tree) => if key = treeKey then some (namesOf tree) else none
  | _ => none

end

theorem namesWithin_node (m : Method) (body inner : Members) :
    namesWithin (.obj (node m body inner)) = namesOf inner := by
  have hName := (treeKey_ne_name m).symm
  cases inner with
  | nil => simp [namesWithin, node, namesUnder, namesIn?, namesOf, hName]
  | cons n inner => simp [namesWithin, node, namesUnder, namesIn?, hName]

theorem namesOf_eq (tree : Members) :
    namesOf tree = tree.flatMap fun n => n.1 :: namesWithin n.2 := by
  induction tree with
  | nil => rfl
  | cons n tree ih => rw [namesOf, ih, List.flatMap_cons, namesAt]

/-- The names at the top of a tree, and those within its nodes. -/
theorem namesOf_perm (tree : Members) :
    (namesOf tree).Perm (tree.map (·.1) ++ tree.flatMap fun n => namesWithin n.2) := by
  have hPerm := List.flatMap_append_perm tree (fun n => [n.1]) fun n => namesWithin n.2
  rw [namesOf_eq]
  refine hPerm.symm.trans ?_
  rw [← List.map_eq_flatMap]

theorem GroupTree.namesWithin_eq {tree members : Members} {name : Text} (h : GroupTree tree)
    (hNode : (name, .obj members) ∈ tree) : namesWithin (.obj members) = namesOf (within members) := by
  obtain ⟨m, body, inner, hHeld, -⟩ := h.node_of_mem hNode
  obtain rfl : members = node m body inner := Json.obj.inj hHeld
  rw [namesWithin_node, within_node]

variable {tree holder members : Members} {name : Text}

theorem mem_namesOf_of_mem (hName : name ∈ tree.map (·.1)) : name ∈ namesOf tree :=
  (namesOf_perm tree).mem_iff.mpr (List.mem_append_left _ hName)

theorem GroupTree.mem_namesOf_of_within {inner : Text} (h : GroupTree tree)
    (hNode : (name, .obj members) ∈ tree) (hInner : inner ∈ namesOf (within members)) :
    inner ∈ namesOf tree := by
  refine (namesOf_perm tree).mem_iff.mpr (List.mem_append_right _ ?_)
  exact List.mem_flatMap.mpr ⟨_, hNode, h.namesWithin_eq hNode ▸ hInner⟩

/-- Distinct names are so within a node, and none of them is a name at the top. -/
theorem GroupTree.nodup_within (h : GroupTree tree) (hNames : (namesOf tree).Nodup)
    (hNode : (name, .obj members) ∈ tree) :
    (namesOf (within members)).Nodup ∧
      ∀ other ∈ tree.map (·.1), other ∉ namesOf (within members) := by
  obtain ⟨-, hFlat, hApart⟩ := List.nodup_append.mp ((namesOf_perm tree).nodup hNames)
  rw [← h.namesWithin_eq hNode]
  refine ⟨(List.nodup_flatMap.mp hFlat).1 _ hNode, fun other hOther hInner => ?_⟩
  exact hApart other hOther other (List.mem_flatMap.mpr ⟨_, hNode, hInner⟩) rfl

/-! ## Trees of many buckets -/

/-- Every node makes any number of buckets, or computes a single value under a name without a dot. -/
def IsTabular (tree : Members) : Prop :=
  ∀ name members, HasNode tree name members → IsMultiBucket members ∨
    (∃ m, method? members = some m ∧ m.isSingleValue = true) ∧ .char '.' ∉ name

theorem IsMultiBucket.not_single {m : Method} (h : IsMultiBucket members)
    (hMethod : method? members = some m) : m.isSingleValue = false := by
  obtain ⟨m', hSame, hMulti⟩ := h
  cases hMethod.symm.trans hSame
  cases hSingle : m.isSingleValue with
  | false => rfl
  | true =>
      rw [Method.isMultiBucket, Method.isBucket_of_isSingleValue hSingle] at hMulti
      cases hMulti

theorem IsTabular.within (h : IsTabular tree) (hNode : (name, .obj members) ∈ tree) :
    IsTabular (within members) :=
  fun inner members hInner => h inner members (.within hNode hInner)

theorem IsTabular.method?_ne_missing (h : IsTabular tree) (hNode : HasNode tree name members) :
    method? members ≠ some .missing := by
  intro hMissing
  rcases h name members hNode with ⟨m, hMethod, hMulti⟩ | ⟨⟨m, hMethod, hSingle⟩, -⟩ <;>
    cases hMethod.symm.trans hMissing
  · cases hMulti
  · cases hSingle

theorem IsTabular.countsStandApart (h : IsTabular tree) : CountsStandApart tree :=
  fun _ _ _ hNode hMissing => absurd hMissing (h.method?_ne_missing hNode)

theorem HasNode.of_update {values : Members} (h : HasNode (tree.update values) name members) :
    HasNode tree name members ∨ HasNode values name members := by
  cases h with
  | here hNode =>
      rcases Members.eq_or_mem_of_mem_update hNode with hValue | hTree
      · exact .inr (.here hValue)
      · exact .inl (.here hTree)
  | within hNode hInner =>
      rcases Members.eq_or_mem_of_mem_update hNode with hValue | hTree
      · exact .inr (.within hValue hInner)
      · exact .inl (.within hTree hInner)

theorem isTabular_values (ds : List Definition) : IsTabular (valuesOf ds) := by
  intro name members hNode
  have hBare : ∀ v ∈ valuesOf ds, ∃ d ∈ ds, d.method.isSingleValue = true ∧
      v = (Text.replace '.' ['_'] d.name, .obj (node d.method d.bodyMembers [])) :=
    fun v hv => exists_of_mem_valuesOf hv
  cases hNode with
  | here hMem =>
      obtain ⟨d, -, hSingle, hSame⟩ := hBare _ hMem
      cases hSame
      exact .inr ⟨⟨d.method, method?_node _ _ _, hSingle⟩, Text.notMem_replace (by decide) _⟩
  | within hMem hInner =>
      obtain ⟨d, -, -, hSame⟩ := hBare _ hMem
      cases hSame
      rw [within_node] at hInner
      exact absurd hInner (not_hasNode_nil name members)

theorem isTabular_treeOf (direction : Json) {tiers : List Tier}
    (h : ∀ tier ∈ tiers, ∀ d ∈ tier.definitions, d.method.isMultiBucket = true) :
    IsTabular (treeOf direction tiers) := by
  induction tiers with
  | nil => exact fun name members hNode => absurd hNode (not_hasNode_nil name members)
  | cons tier tiers ih =>
      obtain ⟨hMulti, hRest⟩ := List.forall_mem_cons.mp h
      have hInner := ih hRest
      -- Each node at the top is a definition of the tier around the rest, with the values beside it.
      have hTop : ∀ n ∈ treeOf direction (tier :: tiers), ∃ d ∈ tier.definitions, ∃ body,
          n = (d.name, .obj (node d.method body
            (orderedTree d.method (valuesOf tier.ordering) (treeOf direction tiers)))) := by
        intro n hMem
        obtain ⟨bare, hBare, rfl⟩ := List.mem_map.mp hMem
        obtain ⟨d, hd, rfl⟩ := exists_of_mem_nodesOf hBare
        obtain ⟨body, hBody, -⟩ := exists_ordered_node direction tier.ordering d.method
          d.bodyMembers (treeOf direction tiers)
        refine ⟨d, hd, body, ?_⟩
        rw [d.body_eq_node, around_bare, hBody]
      intro name members hNode
      cases hNode with
      | here hMem =>
          obtain ⟨d, hd, body, hSame⟩ := hTop _ hMem
          cases hSame
          exact .inl ⟨d.method, method?_node _ _ _, hMulti d hd⟩
      | within hMem hWithin =>
          obtain ⟨d, -, body, hSame⟩ := hTop _ hMem
          cases hSame
          rw [within_node, orderedTree] at hWithin
          split at hWithin
          · rcases hWithin.of_update with hTree | hValue
            · exact hInner name members hTree
            · exact isTabular_values tier.ordering name members hValue
          · exact hInner name members hWithin

/-- The definitions in a text all make any number of buckets. -/
def CountsMany (text : Text) : Prop :=
  ∀ ds, Definition.readAll text = .ok ds → ∀ d ∈ ds, d.method.isMultiBucket = true

theorem CountsMany.countsBuckets {text : Text} (h : CountsMany text) : CountsBuckets text :=
  fun ds hRead d hd => (Bool.and_eq_true_iff.mp (h ds hRead d hd)).1

theorem CountsMany.of_read {text : Text} {d : Definition} (h : Definition.readAll text = .ok [d])
    (hMulti : d.method.isMultiBucket = true) : CountsMany text :=
  Definition.forall_of_readAll h hMulti

theorem isTabular_of_groupBy {direction : Json} {levels : List Level}
    (hLevels : ∀ level ∈ levels, CountsMany level.text)
    (h : groupBy (.arr (levels.map Level.toJson)) direction = .ok (.obj tree)) :
    IsTabular tree := by
  obtain ⟨tiers, hTiers, hTree⟩ := groupBy_eq_ok_iff.mp h
  rw [Json.obj.inj hTree]
  refine isTabular_treeOf direction fun tier hTier => ?_
  obtain ⟨level, hLevel, hSays⟩ := exists_of_mem_forall₂ hTiers hTier
  exact hLevels level hLevel _ hSays.text

/-! ## The columns of a row -/

/-- The values of a holder are single, and are called as nodes of the tree without a dot are. -/
theorem ShapedAs.exists_value (h : ShapedAs tree holder) (hTree : GroupTree tree)
    (hTabular : IsTabular tree) (hName : name ∈ valueNames holder) :
    name ∈ tree.map (·.1) ∧ .char '.' ∉ name ∧
      ∃ value, valueColumns name ((child? holder name).getD []) = [(name, value)] := by
  have hValue := (List.mem_filter.mp (Text.mem_sortBy.mp hName)).2
  obtain ⟨hSome, hNone⟩ := Bool.and_eq_true_iff.mp hValue
  obtain ⟨child, hChild⟩ := Option.isSome_iff_exists.mp hSome
  obtain ⟨hKey, hGet⟩ := get?_of_child hChild
  have hTop := h.others name (Members.mem_keys_of_get? hGet) hKey
  obtain ⟨members, hNode⟩ := hTree.exists_members hTop
  have hShape := h.shaped _ _ _ hNode hGet
  cases hShape with
  | @value _ _ m value hMethod hSingle hHeld hNoBuckets =>
      refine ⟨hTop, ?_, value, by simp [hChild, valueColumns, hHeld]⟩
      rcases hTabular name members (.here hNode) with hMulti | ⟨-, hDot⟩
      · rw [hMulti.not_single hMethod] at hSingle
        cases hSingle
      · exact hDot
  | buckets hMulti hBuckets hOwn hBears hShaped =>
      rw [collection?, hChild, Option.bind_some, hBuckets] at hNone
      cases hNone
  | missing hMethod hCount hBears hShaped =>
      exact absurd hMethod (hTabular.method?_ne_missing (.here hNode))

theorem ShapedAs.keys_valueSegment (h : ShapedAs tree holder) (hTree : GroupTree tree)
    (hTabular : IsTabular tree) : (valueSegment holder).map (·.1) = valueNames holder := by
  have hOne : ∀ name ∈ valueNames holder,
      (valueColumns name ((child? holder name).getD [])).map (·.1) = [name] := by
    intro name hName
    obtain ⟨-, -, value, hValue⟩ := h.exists_value hTree hTabular hName
    rw [hValue, List.map_singleton]
  rw [valueSegment, List.map_flatMap, List.flatMap_congr hOne]
  exact List.flatMap_singleton' _

/-- The column of the number of documents of a bucket, by the name of its node. -/
def hitsColumn (name : Text) : Text :=
  name ++ ".hits"

theorem keys_ownColumns {bucket : Members} (name : Text) (hKey : bucket.has "key" = true)
    (hCount : bucket.has "doc_count" = true) :
    (ownColumns name none bucket).map (·.1) = [name, hitsColumn name] := by
  obtain ⟨key, hKey⟩ := Option.isSome_iff_exists.mp hKey
  obtain ⟨count, hCount⟩ := Option.isSome_iff_exists.mp hCount
  simp [ownColumns, hitsColumn, hKey, hCount]

/-- The nodes that a path picks a bucket of, in order. -/
def Path.names : Path → List Text
  | pick name _ rest => name :: rest.names
  | _ => []

/-- The columns are the keys and the numbers of documents of the picked buckets, and values. All are
called as different nodes of the tree, but for the numbers of documents. -/
structure IsTable (tree : Members) (row : Row) (picked values : List Text) : Prop where
  columns : (row.map (·.1)).Perm (values ++ picked ++ picked.map hitsColumn)
  nodup : (values ++ picked).Nodup
  known : ∀ name ∈ values ++ picked, name ∈ namesOf tree
  plain : ∀ name ∈ values, .char '.' ∉ name

/-- Only the number of documents of one node can be called as another node. -/
theorem IsTable.nodup_iff {row : Row} {picked values : List Text}
    (h : IsTable tree row picked values) :
    (row.map (·.1)).Nodup ↔ ∀ name ∈ picked, hitsColumn name ∉ picked := by
  have hHits : (picked.map hitsColumn).Nodup :=
    (List.nodup_append.mp h.nodup).2.1.map fun _ _ hSame => List.append_cancel_right hSame
  rw [h.columns.nodup_iff, List.nodup_append]
  constructor
  · rintro ⟨-, -, hApart⟩ name hName hSame
    exact hApart _ (List.mem_append_right values hSame) _ (List.mem_map_of_mem hName) rfl
  · intro hApart
    refine ⟨h.nodup, hHits, ?_⟩
    rintro _ hPlain _ hCount rfl
    obtain ⟨name, hName, rfl⟩ := List.mem_map.mp hCount
    rcases List.mem_append.mp hPlain with hValue | hPicked
    · exact h.plain _ hValue (List.mem_append_right name (by decide))
    · exact hApart name hName hPicked

theorem ShapedAs.isTable_values (h : ShapedAs tree holder) (hTree : GroupTree tree)
    (hTabular : IsTabular tree) : IsTable tree (valueSegment holder) [] (valueNames holder) := by
  have hNodup : (valueNames holder).Nodup := by
    refine (Text.pairwise_lt_sort (h.keys.filter _)).imp ?_
    rintro name _ hLt rfl
    exact Std.lt_irrefl hLt
  have hColumns := h.keys_valueSegment hTree hTabular
  refine ⟨by simp [hColumns], by simpa using hNodup, fun name hName => ?_, fun name hName => ?_⟩
  · rw [List.append_nil] at hName
    exact mem_namesOf_of_mem (h.exists_value hTree hTabular hName).1
  · exact (h.exists_value hTree hTabular hName).2.1

/-- A bucket in front of the columns of what it holds. -/
theorem ShapedAs.isTable_bucket {bucket : Members} {row : Row} {picked values : List Text}
    (h : ShapedAs tree holder) (hTree : GroupTree tree) (hTabular : IsTabular tree)
    (hNames : (namesOf tree).Nodup) (hNode : (name, .obj members) ∈ tree)
    (hMulti : name ∈ branchNames holder) (hKey : bucket.has "key" = true)
    (hCount : bucket.has "doc_count" = true)
    (hRow : IsTable (Aggregation.within members) row picked values) :
    IsTable tree (valueSegment holder ++ (ownColumns name none bucket ++ row)) (name :: picked)
      (valueNames holder ++ values) := by
  have hFront := h.isTable_values hTree hTabular
  have hFrontNodup : (valueNames holder).Nodup := by simpa using hFront.nodup
  obtain ⟨-, hApart⟩ := hTree.nodup_within hNames hNode
  have hTop : name ∈ tree.map (·.1) := List.mem_map.mpr ⟨_, hNode, rfl⟩
  have hOther : name ∉ valueNames holder := by
    intro hName
    have hValue := (List.mem_filter.mp (Text.mem_sortBy.mp hName)).2
    rw [mem_branchNames] at hMulti
    simp [Option.isSome_iff_ne_none.mp hMulti] at hValue
  have hPerm : (valueNames holder ++ values ++ name :: picked).Perm
      (name :: (valueNames holder ++ (values ++ picked))) := by
    rw [← List.append_assoc]
    exact List.perm_middle
  have hColumns : (valueSegment holder).map (·.1) = valueNames holder :=
    h.keys_valueSegment hTree hTabular
  refine ⟨?_, ?_, ?_, ?_⟩
  · have hCounts := List.perm_iff_count.mp hRow.columns
    rw [List.perm_iff_count]
    intro column
    rw [List.map_append, List.map_append, hColumns, keys_ownColumns name hKey hCount]
    simp only [List.count_append, List.count_cons, List.map_cons, hCounts column, List.count_nil]
    omega
  · rw [hPerm.nodup_iff, List.nodup_cons, List.mem_append, not_or, List.nodup_append]
    refine ⟨⟨hOther, fun hRest => hApart name hTop (hRow.known name hRest)⟩, hFrontNodup,
      hRow.nodup, ?_⟩
    rintro value hValue _ hRest rfl
    exact hApart value (h.exists_value hTree hTabular hValue).1 (hRow.known value hRest)
  · intro column hColumn
    rcases List.mem_cons.mp (hPerm.mem_iff.mp hColumn) with rfl | hRest
    · exact mem_namesOf_of_mem hTop
    · rcases List.mem_append.mp hRest with hValue | hInner
      · exact mem_namesOf_of_mem (h.exists_value hTree hTabular hValue).1
      · exact hTree.mem_namesOf_of_within hNode (hRow.known column hInner)
  · intro value hValue
    rcases List.mem_append.mp hValue with hHolder | hBucket
    · exact hFront.plain value hHolder
    · exact hRow.plain value hBucket

/-- Every path from a result in the shape of a tree gives such a row. -/
theorem exists_isTable {path : Path} (hLeads : Path.Leads holder path) (hTree : GroupTree tree)
    (hTabular : IsTabular tree) (hNames : (namesOf tree).Nodup) (h : ShapedAs tree holder) :
    ∃ values, IsTable tree (path.row holder) path.names values := by
  induction hLeads generalizing tree with
  | stop hNone =>
      have hTable := h.isTable_values hTree hTabular
      exact ⟨_, by simpa [Path.row, Path.visits, Path.names] using hTable⟩
  | empty hName hEmpty =>
      have hTable := h.isTable_values hTree hTabular
      exact ⟨_, by simpa [Path.row, Path.visits, Path.names] using hTable⟩
  | @pick holder bucket name position keptUnder rest hName hBucket hRest ih =>
      obtain ⟨held, hHeld⟩ := Option.isSome_iff_exists.mp (mem_branchNames.mp hName)
      obtain ⟨members, buckets, hNode, rfl, hBuckets⟩ :=
        h.exists_buckets hTree hTabular.countsStandApart hHeld
      have hEntry := List.mem_of_getElem? hBucket
      rw [entriesAt_of_collection hHeld, entries_list] at hEntry
      obtain ⟨_, hMem, hSame⟩ := List.mem_map.mp hEntry
      cases hSame
      obtain ⟨hShape, hKey, hCount⟩ := hBuckets bucket hMem
      obtain ⟨values, hRow⟩ := ih (hTree.within_of_mem hNode) (hTabular.within hNode)
        (hTree.nodup_within hNames hNode).1 hShape
      rw [Path.row_pick rest hBucket]
      exact ⟨_, h.isTable_bucket hTree hTabular hNames hNode hName hKey hCount hRow⟩

/-- On the path are no two nodes of which one is called as the number of documents of the other. -/
def Path.NamesApart (path : Path) : Prop :=
  ∀ name ∈ path.names, hitsColumn name ∉ path.names

/-- The row keeps its columns as an object, and loses one if that is not so. -/
structure Row.KeepsColumnsIff (row : Row) (path : Path) : Prop where
  keeps : path.NamesApart → row.KeepsColumns
  loses : ¬path.NamesApart → row.toMembers.length < row.length

theorem keepsColumnsIff_row {path : Path} (hLeads : Path.Leads holder path)
    (hTree : GroupTree tree) (hTabular : IsTabular tree) (hNames : (namesOf tree).Nodup)
    (h : ShapedAs tree holder) : (path.row holder).KeepsColumnsIff path := by
  obtain ⟨values, hTable⟩ := exists_isTable hLeads hTree hTabular hNames h
  have hIff : ((path.row holder).map (·.1)).Nodup ↔ path.NamesApart := hTable.nodup_iff
  constructor
  · exact fun hApart => Row.keepsColumns_iff.mpr (hIff.mpr hApart)
  · exact fun hShared => Row.length_toMembers_lt fun hNodup => hShared (hIff.mp hNodup)

/-- The rows of a result in the shape of a tree are those of its paths. A result without members has
none. -/
theorem ShapedAs.exists_rows {result : Members} (h : ShapedAs tree result) (hTree : GroupTree tree)
    (hTabular : IsTabular tree) : ∃ found, rows (.obj result) [] = .ok found ∧
      ∀ row ∈ found, ∃ path, Path.Leads result path ∧ row = path.row result := by
  cases result with
  | nil => exact ⟨[], rfl, by simp⟩
  | cons m result =>
      have hWellFormed := h.wellFormed hTree hTabular.countsStandApart
      obtain ⟨paths, hPaths, hRows⟩ := hWellFormed.exists_rows (List.cons_ne_nil m result)
      refine ⟨_, hRows [], fun row hRow => ?_⟩
      obtain ⟨path, hPath, rfl⟩ := List.mem_map.mp hRow
      exact ⟨path, (hPaths.mem_iff path).mp hPath, rfl⟩

end LogQuery.Aggregation
