import LogQuery.Proofs.Aggregation.Documents

/-! Buckets that no row shows. The answer to a count of missing values is a single bucket without a
list around it, so it is taken for a computed value, and the buckets within it make no rows. A tree
loses no bucket exactly if it has no such count around other buckets. -/

namespace LogQuery.Aggregation

open Rows

variable {shown hidden : Text}

/-! ## A bucket with the hidden key -/

theorem mem_bucketsOf {holder bucket : Members} {name : Text}
    (h : holder.get? name = some (.obj [("buckets", .arr [.obj bucket])])) :
    bucket ∈ bucketsOf holder name := by
  have hList : Members.get? [("buckets", .arr [.obj bucket])] "buckets" =
      some (.arr ([bucket].map .obj)) := rfl
  rw [bucketsOf_eq h hList]
  exact List.mem_singleton_self bucket

/-- Between a bucket of a node that stands within another one and the result stands the document of
the other one. -/
theorem exists_bucket_of_within {tree extra around members : Members} {outer name : Text}
    {P : Members → Prop} (hTree : GroupTree tree) (hNames : IsNamedApart tree)
    (hExtra : AreOwn extra) (hNode : (outer, .obj around) ∈ tree)
    (hInside : HasNode (within around) name members)
    (h : ∀ key own, key = shown ∨ key = hidden → AreOwn own →
      ∃ bucket, HasBucket (within around) (own ++ documentsOf key hidden (within around)) name bucket ∧
        P bucket) :
    ∃ bucket, HasBucket tree (extra ++ documentsOf shown hidden tree) name bucket ∧ P bucket := by
  have hGet := get?_documents shown hidden hTree hNames hExtra hNode
  obtain ⟨body, inner, hHeld, -⟩ | ⟨m, body, inner, hHeld, hMany, -⟩ | ⟨m, body, hHeld, -⟩ :=
    (hTree.node_of_mem hNode).kinds <;> cases hHeld <;> rw [within_node] at h hInside
  · rw [documentOf_missing] at hGet
    obtain ⟨bucket, hHas, hBucket⟩ := h hidden countMembers (.inr rfl) areOwn_countMembers
    refine ⟨bucket, .inMissing hNode (method?_node _ _ _) hGet ?_, hBucket⟩
    rwa [within_node]
  · rw [documentOf_buckets hMany] at hGet
    obtain ⟨bucket, hHas, hBucket⟩ := h shown (ownMembers shown) (.inl rfl) (areOwn_ownMembers shown)
    have hMulti : IsMultiBucket (node m body inner) := ⟨m, method?_node _ _ _, hMany⟩
    refine ⟨bucket, .inBucket hNode hMulti (mem_bucketsOf hGet) ?_, hBucket⟩
    rwa [within_node]
  · exact absurd hInside (not_hasNode_nil name members)

/-- Each node of any number of buckets has one with the key, if there is only one key. -/
theorem exists_hasBucket {tree extra members : Members} {name : Text}
    (h : HasNode tree name members) (hMulti : IsMultiBucket members) (hTree : GroupTree tree)
    (hNames : IsNamedApart tree) (hExtra : AreOwn extra) :
    ∃ bucket, HasBucket tree (extra ++ documentsOf hidden hidden tree) name bucket ∧
      shownKey bucket = .str hidden := by
  induction h generalizing extra with
  | @here tree members name hNode =>
      obtain ⟨m, body, inner, hHeld, hInner, -⟩ := hTree.node_of_mem hNode
      obtain rfl : members = node m body inner := Json.obj.inj hHeld
      obtain ⟨m', hSame, hMany⟩ := hMulti
      cases (method?_node m body inner).symm.trans hSame
      have hApart := hNames.within hNode
      rw [within_node] at hApart
      have hGet := get?_documents hidden hidden hTree hNames hExtra hNode
      rw [documentOf_buckets hMany] at hGet
      refine ⟨_, .here hNode ⟨m, hSame, hMany⟩ (mem_bucketsOf hGet), ?_⟩
      rw [shownKey, Members.getD, get?_extra hidden hidden hInner hApart (by decide),
        get?_extra hidden hidden hInner hApart (by decide)]
      rfl
  | within hNode hRest ih =>
      refine exists_bucket_of_within hTree hNames hExtra hNode hRest ?_
      rintro key own (rfl | rfl) hOwn <;>
        exact ih hMulti (hTree.within_of_mem hNode) (hNames.within hNode) hOwn

/-- Within a count of missing values a bucket has the hidden key. -/
theorem exists_hidden_bucket {tree extra around members : Members} {outer name : Text}
    (shown hidden : Text) (h : HasNode tree outer around)
    (hMissing : method? around = some .missing) (hInside : HasNode (within around) name members)
    (hMulti : IsMultiBucket members) (hTree : GroupTree tree) (hNames : IsNamedApart tree)
    (hExtra : AreOwn extra) :
    ∃ bucket, HasBucket tree (extra ++ documentsOf shown hidden tree) name bucket ∧
      shownKey bucket = .str hidden := by
  induction h generalizing extra shown with
  | @here tree around outer hNode =>
      obtain ⟨m, body, inner, hHeld, -⟩ := hTree.node_of_mem hNode
      obtain rfl : around = node m body inner := Json.obj.inj hHeld
      cases (method?_node m body inner).symm.trans hMissing
      obtain ⟨bucket, hHas, hKey⟩ := exists_hasBucket hInside hMulti (hTree.within_of_mem hNode)
        (hNames.within hNode) areOwn_countMembers
      have hGet := get?_documents shown hidden hTree hNames hExtra hNode
      rw [documentOf_missing] at hGet
      rw [within_node] at hHas
      refine ⟨bucket, .inMissing hNode hMissing hGet ?_, hKey⟩
      rwa [within_node]
  | within hNode hRest ih =>
      refine exists_bucket_of_within hTree hNames hExtra hNode (hRest.trans hInside) ?_
      intro key own _ hOwn
      exact ih key hMissing hInside (hTree.within_of_mem hNode) (hNames.within hNode) hOwn

/-! ## The rows do not show the hidden key -/

theorem documentOf_ne_str (held : Json) (s : Text) : documentOf shown hidden held ≠ .str s := by
  unfold documentOf
  split
  · split
    · simp
    · split <;> simp
    · simp
  · simp

/-- What stands in a document is a number, a list, or a document for a node within. -/
theorem mem_document {held : Json} {members : Members} (hHeld : GroupNode held)
    (h : documentOf shown hidden held = .obj members) {v : Text × Json} (hMem : v ∈ members) :
    v.2 = .int 1 ∨ (∃ buckets, v.2 = .arr buckets) ∨
      ∃ inner, GroupNode inner ∧ v.2 = documentOf hidden hidden inner := by
  obtain ⟨body, inner, rfl, hInner⟩ | ⟨m, body, inner, rfl, hMany, -⟩ | ⟨m, body, rfl, hSingle⟩ :=
    hHeld.kinds
  · rw [documentOf_missing] at h
    cases h
    rw [documentsOf_eq] at hMem
    rcases List.mem_append.mp hMem with hCount | hNode
    · rw [List.mem_singleton.mp hCount]
      exact .inl rfl
    · obtain ⟨n, hn, rfl⟩ := List.mem_map.mp hNode
      exact .inr (.inr ⟨n.2, hInner.node_of_mem hn, rfl⟩)
  · rw [documentOf_buckets hMany] at h
    cases h
    rw [List.mem_singleton.mp hMem]
    exact .inr (.inl ⟨_, rfl⟩)
  · rw [documentOf_value hSingle] at h
    cases h
    rw [List.mem_singleton.mp hMem]
    exact .inl rfl

theorem ne_str_of_mem_document {held : Json} {members : Members} (hHeld : GroupNode held)
    (h : documentOf shown hidden held = .obj members) {v : Text × Json} (hMem : v ∈ members)
    (s : Text) : v.2 ≠ .str s := by
  rcases mem_document hHeld h hMem with hNumber | ⟨buckets, hList⟩ | ⟨inner, -, hDocument⟩
  · simp [hNumber]
  · simp [hList]
  · rw [hDocument]
    exact documentOf_ne_str inner s

/-- The columns of a computed value show what stands in it, or what stands in a member of it. -/
theorem mem_of_mem_valueColumns {name : Text} {value : Members} {column : Text × Json}
    (h : column ∈ valueColumns name value) :
    (∃ v ∈ value, column.2 = v.2) ∨
      ∃ v ∈ value, ∃ inside, v.2 = .obj inside ∧ ∃ w ∈ inside, column.2 = w.2 := by
  unfold valueColumns at h
  split at h
  · rename_i single hSingle
    rw [List.mem_singleton.mp h]
    exact .inl ⟨_, Members.mem_of_get? hSingle, rfl⟩
  · split at h
    · rename_i values hValues
      obtain ⟨w, hw, rfl⟩ := List.mem_map.mp h
      have hMem : (("values" : Text), Json.obj values) ∈ value := by
        cases hGet : Members.get? value "values" with
        | none => simp [Members.getD, hGet] at hValues
        | some v =>
            rw [Members.getD, hGet] at hValues
            cases hValues
            exact Members.mem_of_get? hGet
      exact .inr ⟨_, hMem, values, rfl, w, (List.mem_filter.mp hw).1, rfl⟩
    · obtain ⟨v, hv, rfl⟩ := List.mem_map.mp h
      exact .inl ⟨v, (List.mem_filter.mp hv).1, rfl⟩

section

variable {tree extra : Members} (hTree : GroupTree tree) (hNames : IsNamedApart tree)
  (hExtra : AreOwn extra)

include hTree hNames hExtra

/-- The children are documents for nodes. -/
theorem exists_node_of_child {name : Text} {child : Members}
    (h : child? (extra ++ documentsOf shown hidden tree) name = some child) :
    ∃ members, (name, .obj members) ∈ tree ∧
      documentOf shown hidden (.obj members) = .obj child := by
  obtain ⟨hKey, hGet⟩ := get?_of_child h
  have hBears := bears_documents shown hidden hTree hNames hExtra
  obtain ⟨members, hNode⟩ :=
    hTree.exists_members (hBears.others name (Members.mem_keys_of_get? hGet) hKey)
  rw [get?_documents shown hidden hTree hNames hExtra hNode] at hGet
  exact ⟨members, hNode, Option.some.inj hGet⟩

/-- The computed values show no text. -/
theorem ne_str_of_mem_valueSegment {column : Text × Json}
    (h : column ∈ valueSegment (extra ++ documentsOf shown hidden tree)) (s : Text) :
    column.2 ≠ .str s := by
  obtain ⟨name, hName, hColumn⟩ := List.mem_flatMap.mp h
  have hValue := (List.mem_filter.mp (Text.mem_sortBy.mp hName)).2
  obtain ⟨child, hChild⟩ := Option.isSome_iff_exists.mp (Bool.and_eq_true_iff.mp hValue).1
  obtain ⟨members, hNode, hDocument⟩ := exists_node_of_child hTree hNames hExtra hChild
  have hGroup : GroupNode (.obj members) := hTree.node_of_mem hNode
  rw [hChild, Option.getD_some] at hColumn
  rcases mem_of_mem_valueColumns hColumn with ⟨v, hv, hSame⟩ | ⟨v, hv, inside, hObj, w, hw, hSame⟩
  · rw [hSame]
    exact ne_str_of_mem_document hGroup hDocument hv s
  · rw [hSame]
    rcases mem_document hGroup hDocument hv with hNumber | ⟨buckets, hList⟩ | ⟨held, hHeld, hWithin⟩
    · rw [hNumber] at hObj
      cases hObj
    · rw [hList] at hObj
      cases hObj
    · exact ne_str_of_mem_document hHeld (hWithin.symm.trans hObj) hw s

/-- Each child with buckets has one, with the key that is shown. -/
theorem exists_tree_of_entry {name : Text} {entry : Option Json × Members}
    (h : entry ∈ entriesAt (extra ++ documentsOf shown hidden tree) name) :
    ∃ inner, GroupTree inner ∧ IsNamedApart inner ∧
      entry = (none, ownMembers shown ++ documentsOf shown hidden inner) := by
  obtain ⟨held, hHeld⟩ := exists_collection_of_entry h
  rw [entriesAt_of_collection hHeld] at h
  obtain ⟨child, hChild, hBuckets⟩ := exists_child_of_collection hHeld
  obtain ⟨members, hNode, hDocument⟩ := exists_node_of_child hTree hNames hExtra hChild
  have hApart := hNames.within hNode
  obtain ⟨body, inner, hMembers, hInner⟩ | ⟨m, body, inner, hMembers, hMany, hInner⟩ |
      ⟨m, body, hMembers, hSingle⟩ := (hTree.node_of_mem hNode).kinds <;> cases hMembers <;>
    rw [within_node] at hApart
  · -- A node within is not called so.
    rw [documentOf_missing] at hDocument
    cases hDocument
    have hMember := Members.mem_keys_of_get? hBuckets
    rw [List.map_append, keys_documentsOf] at hMember
    rcases List.mem_append.mp hMember with hCount | hName
    · exact absurd hCount (by decide)
    · obtain ⟨members, hInside⟩ := hInner.exists_members hName
      exact absurd rfl (hApart _ members (.here hInside)).2
  · rw [documentOf_buckets hMany] at hDocument
    cases hDocument
    cases hBuckets
    exact ⟨inner, hInner, hApart, List.mem_singleton.mp h⟩
  · rw [documentOf_value hSingle] at hDocument
    cases hDocument
    cases hBuckets

omit hExtra in
/-- A bucket shows its key. -/
theorem ownColumns_documents (name : Text) :
    ownColumns name none (ownMembers shown ++ documentsOf shown hidden tree) =
      [(name, .str shown), (name ++ ".hits", .int 1)] := by
  have hOwn : ∀ key, isChildKey key = false →
      (ownMembers shown ++ documentsOf shown hidden tree).get? key = (ownMembers shown).get? key :=
    fun key hKey => get?_extra shown hidden hTree hNames hKey
  rw [ownColumns, hOwn "key" (by decide), hOwn "doc_count" (by decide),
    hOwn "key_as_string" (by decide)]
  rfl

end

/-- Every bucket on a path has the key that is shown. -/
theorem exists_tree_of_mem_visits {tree extra : Members} (hTree : GroupTree tree)
    (hNames : IsNamedApart tree) (hExtra : AreOwn extra) (path : Path) {v : Path.Visit}
    (h : v ∈ path.visits (extra ++ documentsOf shown hidden tree)) :
    ∃ inner, GroupTree inner ∧ IsNamedApart inner ∧ v.keptUnder = none ∧
      v.bucket = ownMembers shown ++ documentsOf shown hidden inner := by
  induction path generalizing tree extra with
  | stop => cases h
  | empty name => cases h
  | pick name position rest ih =>
      rcases hAt : (entriesAt (extra ++ documentsOf shown hidden tree) name)[position]?
        with _ | ⟨keptUnder, bucket⟩
      · rw [Path.visits, hAt] at h
        cases h
      · obtain ⟨inner, hInner, hApart, hBucket⟩ :=
          exists_tree_of_entry hTree hNames hExtra (List.mem_of_getElem? hAt)
        cases hBucket
        rw [Path.visits_pick rest hAt] at h
        rcases List.mem_cons.mp h with rfl | hRest
        · exact ⟨inner, hInner, hApart, rfl, rfl⟩
        · exact ih hInner hApart (areOwn_ownMembers shown) hRest

/-- No row shows the hidden key. -/
theorem ne_hidden_of_mem_row {tree extra : Members} (hTree : GroupTree tree)
    (hNames : IsNamedApart tree) (hExtra : AreOwn extra) (hKeys : shown ≠ hidden) (path : Path)
    {column : Text × Json} (h : column ∈ path.row (extra ++ documentsOf shown hidden tree)) :
    column.2 ≠ .str hidden := by
  rcases List.mem_append.mp h with hValue | hVisits
  · exact ne_str_of_mem_valueSegment hTree hNames hExtra hValue hidden
  · obtain ⟨⟨name, keptUnder, bucket⟩, hVisit, hSegment⟩ := List.mem_flatMap.mp hVisits
    obtain ⟨inner, hInner, hApart, rfl, rfl⟩ :=
      exists_tree_of_mem_visits hTree hNames hExtra path hVisit
    rw [Path.Visit.segment, ownColumns_documents hInner hApart] at hSegment
    rcases List.mem_append.mp hSegment with hOwn | hValue
    · rcases List.mem_cons.mp hOwn with rfl | hHits
      · exact fun hSame => hKeys (Json.str.inj hSame)
      · rw [List.mem_singleton.mp hHits]
        simp
    · exact ne_str_of_mem_valueSegment hInner hApart (areOwn_ownMembers shown) hValue hidden

/-- The documents for a tree that hides buckets have one whose key is in no row. -/
theorem Hides.exists_bucket {tree : Members} (h : Hides tree) (hTree : GroupTree tree)
    (hNames : IsNamedApart tree) :
    ∃ result name bucket, ShapedAs tree result ∧ HasBucket tree result name bucket ∧
      ¬Shows result name bucket := by
  obtain ⟨outer, around, name, members, hOuter, hMissing, hInside, hMulti⟩ := h
  obtain ⟨bucket, hBucket, hKey⟩ := exists_hidden_bucket "shown" "hidden" hOuter hMissing hInside hMulti hTree hNames areOwn_nil
  have hShape : ShapedAs tree ([] ++ documentsOf "shown" "hidden" tree) :=
    shapedAs_documents "shown" "hidden" hTree hNames areOwn_nil
  refine ⟨_, name, bucket, hShape, hBucket, ?_⟩
  rintro ⟨found, row, hFound, hRow, hColumn⟩
  have hSome : [] ++ documentsOf "shown" "hidden" tree ≠ [] := by
    intro hEmpty
    rw [hEmpty] at hFound
    cases hFound
    cases hRow
  obtain ⟨paths, -, hRows⟩ := (hShape.wellFormed hTree hNames.countsStandApart).exists_rows hSome
  rw [hRows] at hFound
  cases hFound
  obtain ⟨path, -, rfl⟩ := List.mem_map.mp hRow
  exact ne_hidden_of_mem_row hTree hNames areOwn_nil (by decide) path hColumn hKey

/-- The rows of every result in the shape of the tree of some levels show the key of every bucket,
exactly if no bucket is within a count of missing values. -/
theorem shows_buckets_iff {levels : List Level} {direction : Json} {tree : Members}
    (hLevels : ∀ level ∈ levels, CountsBuckets level.text)
    (hTree : groupBy (.arr (levels.map Level.toJson)) direction = .ok (.obj tree))
    (hNames : IsNamedApart tree) :
    (∀ result, ShapedAs tree result → ∀ name bucket, HasBucket tree result name bucket →
      Shows result name bucket) ↔ ¬Hides tree := by
  have hGroup := groupTree_of_groupBy hLevels hTree
  constructor
  · intro hAll hHides
    obtain ⟨result, name, bucket, hShape, hBucket, hNot⟩ := hHides.exists_bucket hGroup hNames
    exact hNot (hAll result hShape name bucket hBucket)
  · intro hHides result hShape name bucket hBucket
    exact hBucket.shows hShape hGroup hNames hHides

/-! ## Hosts with and without ports -/

theorem hasNode_singleton_iff {outer name : Text} {m : Method} {body inner members : Members} :
    HasNode [(outer, .obj (node m body inner))] name members ↔
      (name = outer ∧ members = node m body inner) ∨ HasNode inner name members := by
  constructor
  · intro h
    cases h with
    | here h =>
        cases List.mem_singleton.mp h
        exact .inl ⟨rfl, rfl⟩
    | within h hNode =>
        cases List.mem_singleton.mp h
        rw [within_node] at hNode
        exact .inr hNode
  · rintro (⟨rfl, rfl⟩ | h)
    · exact .here (List.mem_singleton_self _)
    · refine .within (List.mem_singleton_self _) ?_
      rwa [within_node]

theorem CountsBuckets.of_read {text : Text} {d : Definition} (h : Definition.readAll text = .ok [d])
    (hBucket : d.method.isBucket = true) : CountsBuckets text :=
  Definition.forall_of_readAll h hBucket

/-- Sources, and how many of the documents of each have no host. -/
def sourceLevels : List Level :=
  [{ text := "src_ip" }, { text := "missing:host" }]

def sourceTree : Members :=
  [("src_ip", .obj (node .terms [("field", .str "src_ip"), ("size", .int 20)]
    [("missing.host", .obj (node .missing [("field", .str "host")] []))]))]

def sourceBucket : Members :=
  [("key", .str "10.0.0.1"), ("doc_count", .int 3), ("missing.host", .obj [("doc_count", .int 1)])]

def sourceResult : Members :=
  [("src_ip", .obj [("buckets", .arr [.obj sourceBucket])])]

theorem countsBuckets_sources : ∀ level ∈ sourceLevels, CountsBuckets level.text := by
  intro level hLevel
  rcases List.mem_cons.mp hLevel with rfl | hLevel
  · exact .of_read (d := ⟨"src_ip", .terms, "src_ip", [("size", .int 20)]⟩) rfl rfl
  · cases List.mem_singleton.mp hLevel
    exact .of_read (d := ⟨"missing.host", .missing, "host", []⟩) rfl rfl

theorem groupBy_sources :
    groupBy (.arr (sourceLevels.map Level.toJson)) (.str "desc") = .ok (.obj sourceTree) :=
  rfl

theorem isNamedApart_sources : IsNamedApart sourceTree := by
  intro name members h
  rw [sourceTree, hasNode_singleton_iff, hasNode_singleton_iff] at h
  rcases h with ⟨rfl, -⟩ | ⟨rfl, -⟩ | h
  · decide
  · decide
  · exact absurd h (not_hasNode_nil name members)

theorem not_hides_sources : ¬Hides sourceTree := by
  rintro ⟨outer, around, name, members, hOuter, hMissing, hInside, -⟩
  rw [sourceTree, hasNode_singleton_iff, hasNode_singleton_iff] at hOuter
  rcases hOuter with ⟨-, rfl⟩ | ⟨-, rfl⟩ | hOuter
  · cases hMissing
  · rw [within_node] at hInside
    exact not_hasNode_nil name members hInside
  · exact not_hasNode_nil outer around hOuter

theorem shapedAs_nil {holder : Members} (hKeys : (holder.map (·.1)).Nodup)
    (hOthers : ∀ name ∈ holder.map (·.1), isChildKey name = false) : ShapedAs [] holder := by
  refine ⟨⟨hKeys, by simp, ?_⟩, by simp⟩
  intro name hName hChild
  rw [hOthers name hName] at hChild
  cases hChild

/-- A holder of one child is in the shape of a tree of one node, if the child is. -/
theorem ShapedAs.of_singleton {holder : Members} {name : Text} {node held : Json}
    (hBears : Bears [(name, node)] holder) (hGet : holder.get? name = some held)
    (hShaped : Shaped node held) : ShapedAs [(name, node)] holder := by
  refine ⟨hBears, ?_⟩
  intro _ _ _ hMem hHeld
  cases List.mem_singleton.mp hMem
  cases hGet.symm.trans hHeld
  exact hShaped

theorem shapedAs_sources : ShapedAs sourceTree sourceResult := by
  have hCount : Shaped (.obj (node .missing [("field", .str "host")] []))
      (.obj [("doc_count", .int 1)]) :=
    .of_count rfl rfl (shapedAs_nil (by decide) (by decide))
  have hSource : ShapedAs [("missing.host", .obj (node .missing [("field", .str "host")] []))]
      sourceBucket :=
    .of_singleton ⟨by decide, by decide, by decide⟩ rfl hCount
  refine .of_singleton ⟨by decide, by decide, by decide⟩ rfl ?_
  exact .of_bucket ⟨.terms, rfl, rfl⟩ rfl ⟨rfl, rfl⟩ hSource

theorem shows_buckets_iff_sources :
    (∀ level ∈ sourceLevels, CountsBuckets level.text) ∧
      groupBy (.arr (sourceLevels.map Level.toJson)) (.str "desc") = .ok (.obj sourceTree) ∧
      IsNamedApart sourceTree ∧ ShapedAs sourceTree sourceResult ∧
      Shows sourceResult "src_ip" sourceBucket := by
  have hBucket : HasBucket sourceTree sourceResult "src_ip" sourceBucket := by
    refine .here (List.mem_singleton_self _) ⟨.terms, rfl, rfl⟩ ?_
    exact List.mem_singleton_self _
  have hAll := (shows_buckets_iff countsBuckets_sources groupBy_sources isNamedApart_sources).mpr
    not_hides_sources
  exact ⟨countsBuckets_sources, groupBy_sources, isNamedApart_sources, shapedAs_sources,
    hAll sourceResult shapedAs_sources "src_ip" sourceBucket hBucket⟩

/-- Ports of the documents that have no host. -/
def portTree : Members :=
  [("missing.host", .obj (node .missing [("field", .str "host")]
    [("dst_port", .obj (node .terms [("field", .str "dst_port"), ("size", .int 20)] []))]))]

def portBucket : Members :=
  [("key", .int 80), ("doc_count", .int 3)]

def portResult : Members :=
  [("missing.host", .obj [("doc_count", .int 3),
    ("dst_port", .obj [("buckets", .arr [.obj portBucket])])])]

theorem shapedAs_ports : ShapedAs portTree portResult := by
  have hPorts : Shaped (.obj (node .terms [("field", .str "dst_port"), ("size", .int 20)] []))
      (.obj [("buckets", .arr [.obj portBucket])]) :=
    .of_bucket ⟨.terms, rfl, rfl⟩ rfl ⟨rfl, rfl⟩ (shapedAs_nil (by decide) (by decide))
  refine .of_singleton ⟨by decide, by decide, by decide⟩ rfl ?_
  refine .of_count rfl rfl ?_
  exact .of_singleton ⟨by decide, by decide, by decide⟩ rfl hPorts

/-- The port of documents without a host is in no row. -/
theorem not_shows_ports :
    groupBy (.arr [.str "missing:host", .str "dst_port"]) (.str "desc") = .ok (.obj portTree) ∧
      ShapedAs portTree portResult ∧ HasBucket portTree portResult "dst_port" portBucket ∧
      rows (.obj portResult) [] = .ok [[("missing.host.doc_count", .int 3)]] ∧
      ¬Shows portResult "dst_port" portBucket := by
  have hRows : rows (.obj portResult) [] = .ok [[("missing.host.doc_count", .int 3)]] := rfl
  refine ⟨rfl, shapedAs_ports, ?_, hRows, ?_⟩
  · refine .inMissing (List.mem_singleton_self _) rfl rfl ?_
    refine .here (List.mem_singleton_self _) ⟨.terms, rfl, rfl⟩ ?_
    exact List.mem_singleton_self _
  · rintro ⟨found, row, hFound, hRow, hColumn⟩
    cases hRows.symm.trans hFound
    rw [List.mem_singleton.mp hRow] at hColumn
    exact absurd (congrArg Prod.fst (List.mem_singleton.mp hColumn)) (by decide)

end LogQuery.Aggregation
