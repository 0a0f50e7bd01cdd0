import LogQuery.Proofs.Aggregation.Children

/-! The rows of any result are its paths. A path picks a child with buckets and one of its buckets,
again and again, and ends where there is no such child or where the child has no bucket. Two equal
buckets lie on different paths, so a bucket is picked by its position. -/

namespace LogQuery.Aggregation

open Rows

/-! ## Paths -/

inductive Path where
  /-- The node has no child with buckets. -/
  | stop
  /-- The child has no bucket. -/
  | empty (name : Text)
  | pick (name : Text) (position : Nat) (rest : Path)

namespace Path

/-- The child picked first. -/
def child? : Path → Option Text
  | stop => none
  | empty name => some name
  | pick name _ _ => some name

/-- The path goes from a node as far as it can. -/
inductive Leads : Members → Path → Prop
  | stop {node : Members} (h : branchNames node = []) : Leads node stop
  | empty {node : Members} {name : Text} (hName : name ∈ branchNames node)
      (hEmpty : entriesAt node name = []) : Leads node (empty name)
  | pick {node bucket : Members} {name : Text} {position : Nat} {keptUnder : Option Json}
      {rest : Path} (hName : name ∈ branchNames node)
      (hBucket : (entriesAt node name)[position]? = some (keptUnder, bucket))
      (hRest : Leads bucket rest) : Leads node (pick name position rest)

/-- Depth-first order: by the names of the children, and then by the positions of the buckets. -/
inductive Before : Path → Path → Prop
  | child {p q : Path} {name other : Text} (hp : p.child? = some name)
      (hq : q.child? = some other) (h : name < other) : Before p q
  | position {name : Text} {i j : Nat} {p q : Path} (h : i < j) :
      Before (pick name i p) (pick name j q)
  | rest {name : Text} {i : Nat} {p q : Path} (h : Before p q) :
      Before (pick name i p) (pick name i q)

theorem Before.irrefl (p : Path) : ¬p.Before p := by
  intro h
  induction p with
  | stop =>
      cases h with
      | child hp hq h => cases hp
  | empty name =>
      cases h with
      | child hp hq h =>
          cases hp
          cases hq
          exact Std.lt_irrefl h
  | pick name position rest ih =>
      cases h with
      | child hp hq h =>
          cases hp
          cases hq
          exact Std.lt_irrefl h
      | position h => exact Nat.lt_irrefl position h
      | rest h => exact ih h

/-- A bucket on a path: the child it is a bucket of, the key it is kept under, and its members. -/
structure Visit where
  name : Text
  keptUnder : Option Json
  bucket : Members

/-- The columns of a bucket and of the computed values in it. -/
def Visit.segment (v : Visit) : Row :=
  ownColumns v.name v.keptUnder v.bucket ++ valueSegment v.bucket

/-- The buckets on a path from a node. -/
def visits : Path → Members → List Visit
  | pick name position rest, node =>
    match (entriesAt node name)[position]? with
    | some (keptUnder, bucket) => ⟨name, keptUnder, bucket⟩ :: rest.visits bucket
    | none => []
  | _, _ => []

/-- The columns of the nodes on a path, the one it starts from included. -/
def row (path : Path) (node : Members) : Row :=
  valueSegment node ++ (path.visits node).flatMap Visit.segment

theorem visits_pick {node bucket : Members} {name : Text} {position : Nat}
    {keptUnder : Option Json} (rest : Path)
    (h : (entriesAt node name)[position]? = some (keptUnder, bucket)) :
    (pick name position rest).visits node = ⟨name, keptUnder, bucket⟩ :: rest.visits bucket := by
  simp only [visits, h]

theorem row_pick {node bucket : Members} {name : Text} {position : Nat} {keptUnder : Option Json}
    (rest : Path) (h : (entriesAt node name)[position]? = some (keptUnder, bucket)) :
    (pick name position rest).row node =
      valueSegment node ++ (ownColumns name keptUnder bucket ++ rest.row bucket) := by
  rw [row, visits_pick rest h, List.flatMap_cons, Visit.segment, List.append_assoc]
  rfl

/-! ## Enumeration -/

/-- The paths through a child, given those from each of its buckets. -/
def through (below : Members → List Path) (node : Members) (name : Text) : List Path :=
  if entriesAt node name = [] then [empty name]
  else (entriesAt node name).zipIdx.flatMap fun entry =>
    (below entry.1.2).map (pick name entry.2)

/-- The paths from a node, given those from each bucket of its children. -/
def fanOut (below : Members → List Path) (node : Members) : List Path :=
  if branchNames node = [] then [stop]
  else (branchNames node).flatMap (through below node)

/-- The paths are those that lead from a node, in depth-first order. -/
structure Enumerates (node : Members) (paths : List Path) : Prop where
  mem_iff : ∀ path, path ∈ paths ↔ Leads node path
  ordered : paths.Pairwise Before

variable {node : Members} {name : Text} {below : Members → List Path}

theorem child?_of_mem_through {path : Path} (h : path ∈ through below node name) :
    path.child? = some name := by
  unfold through at h
  split at h
  · rw [List.mem_singleton.mp h]
    rfl
  · obtain ⟨entry, _, hPath⟩ := List.mem_flatMap.mp h
    obtain ⟨rest, _, rfl⟩ := List.mem_map.mp hPath
    rfl

theorem mem_through_iff (hName : name ∈ branchNames node)
    (hBelow : ∀ entry ∈ entriesAt node name, Enumerates entry.2 (below entry.2)) (path : Path) :
    path ∈ through below node name ↔ Leads node path ∧ path.child? = some name := by
  constructor
  · intro h
    refine ⟨?_, child?_of_mem_through h⟩
    unfold through at h
    split at h
    · rename_i hEmpty
      rw [List.mem_singleton.mp h]
      exact .empty hName hEmpty
    · obtain ⟨⟨⟨keptUnder, bucket⟩, position⟩, hEntry, hPath⟩ := List.mem_flatMap.mp h
      obtain ⟨rest, hRest, rfl⟩ := List.mem_map.mp hPath
      have hBucket := List.mem_zipIdx_iff_getElem?.mp hEntry
      have hLeads := ((hBelow _ (List.mem_of_getElem? hBucket)).mem_iff rest).mp hRest
      exact .pick hName hBucket hLeads
  · rintro ⟨hLeads, hChild⟩
    unfold through
    cases hLeads with
    | stop h => cases hChild
    | empty hMem hEmpty =>
        cases hChild
        rw [if_pos hEmpty]
        exact List.mem_singleton_self _
    | @pick _ bucket _ position keptUnder rest hMem hBucket hRest =>
        cases hChild
        have hEntry := List.mem_of_getElem? hBucket
        rw [if_neg (List.ne_nil_of_mem hEntry)]
        refine List.mem_flatMap.mpr
          ⟨((keptUnder, bucket), position), List.mem_zipIdx_iff_getElem?.mpr hBucket, ?_⟩
        exact List.mem_map.mpr ⟨rest, ((hBelow _ hEntry).mem_iff rest).mpr hRest, rfl⟩

theorem pairwise_zipIdx {α : Type} (as : List α) (start : Nat) :
    (as.zipIdx start).Pairwise fun a b => a.2 < b.2 := by
  have h := List.pairwise_lt_range' (s := start) (n := as.length)
  rw [← List.zipIdx_map_snd, List.pairwise_map] at h
  exact h

theorem pairwise_through
    (hBelow : ∀ entry ∈ entriesAt node name, Enumerates entry.2 (below entry.2)) :
    (through below node name).Pairwise Before := by
  unfold through
  split
  · exact List.pairwise_singleton _ _
  · rw [List.pairwise_flatMap]
    constructor
    · intro entry hEntry
      rw [List.pairwise_map]
      have hMem := List.mem_of_getElem? (List.mem_zipIdx_iff_getElem?.mp hEntry)
      exact (hBelow entry.1 hMem).ordered.imp Before.rest
    · refine (pairwise_zipIdx _ 0).imp ?_
      intro a b hLt p hp q hq
      obtain ⟨_, _, rfl⟩ := List.mem_map.mp hp
      obtain ⟨_, _, rfl⟩ := List.mem_map.mp hq
      exact .position hLt

theorem enumerates_fanOut (hKeys : (node.map (·.1)).Nodup)
    (hBelow : ∀ name, ∀ entry ∈ entriesAt node name, Enumerates entry.2 (below entry.2)) :
    Enumerates node (fanOut below node) := by
  unfold fanOut
  split
  · rename_i hNone
    refine ⟨fun path => ?_, List.pairwise_singleton _ _⟩
    rw [List.mem_singleton]
    constructor
    · rintro rfl
      exact .stop hNone
    · intro hLeads
      cases hLeads with
      | stop h => rfl
      | empty hName hEmpty =>
          rw [hNone] at hName
          cases hName
      | pick hName hBucket hRest =>
          rw [hNone] at hName
          cases hName
  · rename_i hSome
    constructor
    · intro path
      rw [List.mem_flatMap]
      constructor
      · rintro ⟨name, hName, hPath⟩
        exact ((mem_through_iff hName (hBelow name) path).mp hPath).1
      · intro hLeads
        have hThrough : ∀ name, name ∈ branchNames node → path.child? = some name →
            ∃ name ∈ branchNames node, path ∈ through below node name := fun name hName hChild =>
          ⟨name, hName, (mem_through_iff hName (hBelow name) path).mpr ⟨hLeads, hChild⟩⟩
        cases hLeads with
        | stop h => exact absurd h hSome
        | empty hName hEmpty => exact hThrough _ hName rfl
        | pick hName hBucket hRest => exact hThrough _ hName rfl
    · rw [List.pairwise_flatMap]
      refine ⟨fun name _ => pairwise_through (hBelow name), ?_⟩
      refine (Text.pairwise_lt_sort (hKeys.filter _)).imp ?_
      intro a b hLt p hp q hq
      exact .child (child?_of_mem_through hp) (child?_of_mem_through hq) hLt

/-! ## Rows of paths -/

/-- The rows of a child are the paths through it, without the columns of the node. -/
theorem map_row_through (own : Row) :
    (if entriesAt node name = [] then [[]]
      else (entriesAt node name).flatMap fun entry =>
        (below entry.2).map fun path => ownColumns name entry.1 entry.2 ++ path.row entry.2).map
        (own ++ valueSegment node ++ ·) =
      (through below node name).map fun path => own ++ path.row node := by
  unfold through
  by_cases hEmpty : entriesAt node name = []
  · simp [hEmpty, row, visits]
  · rw [if_neg hEmpty, if_neg hEmpty, List.map_flatMap, List.map_flatMap]
    have hFst : (entriesAt node name).zipIdx.map Prod.fst = entriesAt node name :=
      List.zipIdx_map_fst _ _
    conv_lhs => rw [← hFst, List.flatMap_map]
    apply List.flatMap_congr
    intro entry hEntry
    obtain ⟨⟨keptUnder, bucket⟩, position⟩ := entry
    have hBucket := List.mem_zipIdx_iff_getElem?.mp hEntry
    rw [List.map_map, List.map_map]
    apply List.map_congr_left
    intro path _
    simp only [Function.comp_apply, row_pick path hBucket, List.append_assoc]

end Path

/-! ## Rows of a result -/

/-- No node has a key twice, and wherever a child has buckets, they are a list or an object of
objects. -/
inductive WellFormed : Members → Prop
  | intro {node : Members} (hKeys : (node.map (·.1)).Nodup)
      (hCollections : ∀ name held, collection? node name = some held → IsCollection held)
      (hBuckets : ∀ name, ∀ entry ∈ entriesAt node name, WellFormed entry.2) : WellFormed node

/-- What a node gathers is one row for each path from it. -/
theorem WellFormed.exists_paths {node : Members} (h : WellFormed node) :
    ∃ paths, Path.Enumerates node paths ∧
      ∀ own, gather own (childrenOf node) = .ok (paths.map fun path => own ++ path.row node) := by
  induction h with
  | @intro node hKeys hCollections _ ih =>
      -- The paths from a bucket hang on the bucket alone, not on where it is found.
      have hChoice : ∀ bucket, ∃ paths, (∃ name, ∃ entry ∈ entriesAt node name, entry.2 = bucket) →
          Path.Enumerates bucket paths ∧ ∀ own,
            gather own (childrenOf bucket) = .ok (paths.map fun path => own ++ path.row bucket) := by
        intro bucket
        by_cases hBucket : ∃ name, ∃ entry ∈ entriesAt node name, entry.2 = bucket
        · obtain ⟨name, entry, hEntry, rfl⟩ := hBucket
          obtain ⟨paths, hPaths⟩ := ih name entry hEntry
          exact ⟨paths, fun _ => hPaths⟩
        · exact ⟨[], fun h => absurd h hBucket⟩
      choose below hBelow using hChoice
      have hEnumerates : ∀ name, ∀ entry ∈ entriesAt node name,
          Path.Enumerates entry.2 (below entry.2) := fun name entry hEntry =>
        (hBelow entry.2 ⟨name, entry, hEntry, rfl⟩).1
      refine ⟨Path.fanOut below node, Path.enumerates_fanOut hKeys hEnumerates, fun own => ?_⟩
      have hOne : ∀ name held, collection? node name = some held → ofBuckets name held =
          .ok (.ok (if entriesAt node name = [] then [[]]
            else (entriesAt node name).flatMap fun entry =>
              (below entry.2).map fun path =>
                ownColumns name entry.1 entry.2 ++ path.row entry.2)) := by
        intro name held hHeld
        rw [entriesAt_of_collection hHeld]
        apply ofBuckets_eq (hCollections name held hHeld)
        intro entry hEntry
        rw [ofBucket]
        refine (hBelow entry.2 ⟨name, entry, ?_, rfl⟩).2 _
        rwa [entriesAt_of_collection hHeld]
      rw [gather_eq own _ hKeys hOne, Path.fanOut]
      by_cases hNone : branchNames node = []
      · simp [hNone, Path.row, Path.visits]
      · rw [if_neg hNone, if_neg hNone, List.map_flatMap, List.map_flatMap]
        simp only [Path.map_row_through]

/-- The rows of a result that is not empty are those of the paths from its root. -/
theorem WellFormed.exists_rows {result : Members} (h : WellFormed result) (hSome : result ≠ []) :
    ∃ paths, Path.Enumerates result paths ∧
      ∀ front, rows (.obj result) front = .ok (paths.map fun path => front ++ path.row result) := by
  obtain ⟨paths, hPaths, hRows⟩ := h.exists_paths
  have hTruthy : (Json.obj result).truthy = true := by
    simpa [Json.truthy] using hSome
  refine ⟨paths, hPaths, fun front => ?_⟩
  rw [rows, if_pos hTruthy, ofRoot, hRows]
  simp [Functor.map, Except.map]

/-- A result that is not empty has exactly one row for each path from its root, in depth-first
order, and given columns stand before each row. -/
theorem exists_paths_rows {result : Members} (hSome : result ≠ []) (hWellFormed : WellFormed result) :
    ∃ paths : List Path, (∀ path, path ∈ paths ↔ Path.Leads result path) ∧
      paths.Pairwise Path.Before ∧ paths.Nodup ∧
      rows (.obj result) [] = .ok (paths.map (Path.row · result)) ∧
      ∀ front, rows (.obj result) front =
        (rows (.obj result) []).map fun found => found.map (front ++ ·) := by
  obtain ⟨paths, hPaths, hRows⟩ := hWellFormed.exists_rows hSome
  have hNodup : paths.Nodup := by
    refine hPaths.ordered.imp ?_
    rintro path _ hBefore rfl
    exact Path.Before.irrefl path hBefore
  refine ⟨paths, hPaths.mem_iff, hPaths.ordered, hNodup, ?_, fun front => ?_⟩
  · simpa using hRows []
  · simp [hRows, Except.map]

/-- Buckets in a list, one of them with a child that has none, beside buckets kept under keys. -/
def mixedResult : Members :=
  [("levels", .obj [("buckets", .obj [("errors", .obj [("doc_count", .int 2)])])]),
    ("ip", .obj [("buckets", .arr [.obj
      [("key", .str "10.0.0.1"), ("doc_count", .int 3), ("ports", .obj [("buckets", .arr [])]),
        ("bytes", .obj [("value", .int 70)])]])])]

theorem WellFormed.of_branches {node : Members} (names : List Text)
    (hKeys : (node.map (·.1)).Nodup) (hNames : branchNames node = names)
    (hCollections : ∀ name ∈ names, ∃ held, collection? node name = some held ∧
      IsCollection held ∧ ∀ entry ∈ entries held, WellFormed entry.2) : WellFormed node := by
  have hHeld : ∀ name held, collection? node name = some held →
      IsCollection held ∧ ∀ entry ∈ entries held, WellFormed entry.2 := by
    intro name held hHeld
    have hName : name ∈ branchNames node := mem_branchNames.mpr (by simp [hHeld])
    obtain ⟨_, hSame, hRest⟩ := hCollections name (hNames ▸ hName)
    cases hHeld.symm.trans hSame
    exact hRest
  refine .intro hKeys (fun name held h => (hHeld name held h).1) ?_
  intro name entry hEntry
  obtain ⟨held, hCollection⟩ := exists_collection_of_entry hEntry
  rw [entriesAt_of_collection hCollection] at hEntry
  exact (hHeld name held hCollection).2 entry hEntry

theorem wellFormed_mixed : WellFormed mixedResult := by
  have hErrors : WellFormed [("doc_count", .int 2)] :=
    .of_branches [] (by decide) rfl (by simp)
  have hHost : WellFormed
      [("key", .str "10.0.0.1"), ("doc_count", .int 3), ("ports", .obj [("buckets", .arr [])]),
        ("bytes", .obj [("value", .int 70)])] := by
    refine .of_branches ["ports"] (by decide) rfl ?_
    intro name hName
    cases List.mem_singleton.mp hName
    exact ⟨.arr [], rfl, .list [], by simp [entries]⟩
  refine .of_branches ["ip", "levels"] (by decide) rfl ?_
  intro name hName
  rcases List.mem_cons.mp hName with rfl | hName
  · refine ⟨_, rfl, .list [_], ?_⟩
    intro entry hEntry
    cases List.mem_singleton.mp hEntry
    exact hHost
  · cases List.mem_singleton.mp hName
    refine ⟨_, rfl, .keyed [("errors", _)], ?_⟩
    intro entry hEntry
    cases List.mem_singleton.mp hEntry
    exact hErrors

def mixedRows : List Row :=
  [[("ip", .str "10.0.0.1"), ("ip.hits", .int 3), ("bytes", .int 70)],
    [("levels", .str "errors"), ("levels.hits", .int 2)]]

theorem exists_paths_rows_mixed :
    mixedResult ≠ [] ∧ WellFormed mixedResult ∧
      ∃ paths : List Path, (∀ path, path ∈ paths ↔ Path.Leads mixedResult path) ∧
        paths.Pairwise Path.Before ∧ paths.Nodup ∧
        paths.map (Path.row · mixedResult) = mixedRows ∧
        rows (.obj mixedResult) [("window", .str "1h")] =
          .ok (mixedRows.map (("window", .str "1h") :: ·)) := by
  have hSome : mixedResult ≠ [] := List.cons_ne_nil _ _
  obtain ⟨paths, hMem, hOrdered, hNodup, hRows, hFront⟩ :=
    exists_paths_rows hSome wellFormed_mixed
  have hFound : rows (.obj mixedResult) [] = .ok mixedRows := rfl
  have hPaths : paths.map (Path.row · mixedResult) = mixedRows := by
    rw [hFound] at hRows
    exact (Except.ok.inj hRows).symm
  refine ⟨hSome, wellFormed_mixed, paths, hMem, hOrdered, hNodup, hPaths, ?_⟩
  rw [hFront, hFound]
  rfl

end LogQuery.Aggregation
