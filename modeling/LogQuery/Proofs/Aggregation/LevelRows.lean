import LogQuery.Proofs.Aggregation.Answers
import LogQuery.Proofs.Aggregation.Nodes
import LogQuery.Proofs.Text.Sorted
import Mathlib

/-! Rows of the answers to levels. A path picks one bucket of each level, the outermost first, and is
a row: level after level, the key and the number of documents of the bucket and then the values it is
ordered by. -/

namespace LogQuery.Aggregation

/-! ## Paths -/

/-- The buckets of a child. -/
def bucketsOf (holder : Members) (name : Text) : List Members :=
  match holder.get? name with
  | some (.obj answer) =>
    match Members.get? answer "buckets" with
    | some (.arr buckets) => buckets.filterMap (·.asMembers.toOption)
    | _ => []
  | _ => []

/-- The single value of a child. -/
def valueOf (holder : Members) (name : Text) : Json :=
  match holder.get? name with
  | some (.obj answer) => Members.getD answer "value"
  | _ => .null

/-- All ways to pick a bucket of each level, in depth-first order. -/
def paths : List Text → Members → List (List Members)
  | [], _ => [[]]
  | name :: names, holder =>
    (bucketsOf holder name).flatMap fun bucket => (paths names bucket).map (bucket :: ·)

/-- The columns of the values that a bucket is ordered by. -/
def metricColumns (metrics : List Text) (bucket : Members) : Row :=
  (Text.sort metrics).map fun metric => (metric, valueOf bucket metric)

/-- The columns of a bucket. -/
def Grouping.columns (g : Grouping) (bucket : Members) : Row :=
  [(g.name, bucket.getD "key"), (g.name ++ ".hits", bucket.getD "doc_count")] ++
    metricColumns g.metrics bucket

/-- The columns of the buckets of a path. -/
def pathColumns (gs : List Grouping) (path : List Members) : Row :=
  (gs.zip path).flatMap fun x => x.1.columns x.2

/-! ## Children -/

namespace Rows

/-- The child that a holder has under a name. -/
def childAt (holder : Members) (name : Text) : Child :=
  match holder.get? name with
  | some (.obj answer) =>
    match bucketsIn name answer with
    | some rows => .buckets rows
    | none => .columns (valueColumns name answer)
  | _ => .columns []

theorem bucketsIn_eq (name : Text) (answer : Members) :
    bucketsIn name answer = (answer.get? "buckets").map (ofBuckets name) := by
  induction answer with
  | nil => rfl
  | cons m answer ih =>
      obtain ⟨key, value⟩ := m
      rw [Members.get?_cons]
      by_cases h : key = "buckets"
      · simp [bucketsIn, bucketsAt, h]
      · have hKey : ("buckets" : Text) ≠ key := fun he => h he.symm
        simp [bucketsIn, bucketsAt, h, hKey, ih]

/-- Where every child is an object, the children are found by their names. -/
theorem childrenOf_eq {holder members : Members}
    (h : ∀ m ∈ members, isChildKey m.1 = true →
      ∃ answer, m.2 = .obj answer ∧ holder.get? m.1 = some m.2) :
    childrenOf members =
      ((members.map (·.1)).filter isChildKey).map fun name => (name, childAt holder name) := by
  induction members with
  | nil => rfl
  | cons m members ih =>
      have hRest := ih fun n hn => h n (List.mem_cons_of_mem m hn)
      obtain ⟨name, value⟩ := m
      rw [childrenOf, hRest, List.map_cons]
      cases hChild : isChildKey name with
      | false =>
          rw [List.filter_cons_of_neg (by simp [hChild])]
          cases value <;> simp [childOf, hChild]
      | true =>
          obtain ⟨answer, hObject, hGet⟩ := h _ List.mem_cons_self hChild
          obtain rfl : value = .obj answer := hObject
          rw [List.filter_cons_of_pos hChild, List.map_cons, childAt, hGet]
          cases hBuckets : bucketsIn name answer <;> simp [childOf, hChild, hBuckets]

theorem childAt_of_value {holder answer : Members} {name : Text} {v : Json}
    (hGet : holder.get? name = some (.obj answer)) (hValue : answer.get? "value" = some v)
    (hNoBuckets : answer.get? "buckets" = none) :
    childAt holder name = .columns [(name, valueOf holder name)] := by
  simp [childAt, valueOf, hGet, bucketsIn_eq, hNoBuckets, valueColumns, hValue, Members.getD]

theorem childAt_of_buckets {holder answer : Members} {name : Text} {buckets : List Members}
    (hGet : holder.get? name = some (.obj answer))
    (hBuckets : answer.get? "buckets" = some (.arr (buckets.map .obj))) :
    childAt holder name = .buckets (ofBuckets name (.arr (buckets.map .obj))) := by
  simp [childAt, hGet, bucketsIn_eq, hBuckets]

theorem bucketsOf_eq {holder answer : Members} {name : Text} {buckets : List Members}
    (hGet : holder.get? name = some (.obj answer))
    (hBuckets : answer.get? "buckets" = some (.arr (buckets.map .obj))) :
    bucketsOf holder name = buckets := by
  simp only [bucketsOf, hGet, hBuckets, List.filterMap_map]
  exact List.filterMap_some

theorem ofList_eq {name : Text} {buckets : List Members} {rows : Members → List Row}
    (h : ∀ bucket ∈ buckets, ofBucket name none (.obj bucket) = .ok (rows bucket)) :
    ofList name (buckets.map .obj) = .ok (buckets.flatMap rows) := by
  induction buckets with
  | nil => rfl
  | cons bucket buckets ih =>
      have hFirst := h bucket List.mem_cons_self
      have hRest := ih fun b hb => h b (List.mem_cons_of_mem bucket hb)
      rw [List.map_cons, ofList, hFirst, hRest, List.flatMap_cons]
      rfl

/-! ## Gathering -/

/-- What holds answers to a tree has its nodes as children, in the order of their names. -/
theorem sortBy_childrenOf {tree holder : Members} (h : Holds tree holder) :
    Text.sortBy (fun a b => Text.before a.1 b.1) (childrenOf holder) =
      (Text.sort (tree.map (·.1))).map fun name => (name, childAt holder name) := by
  have hChildren : childrenOf holder =
      ((holder.map (·.1)).filter isChildKey).map fun name => (name, childAt holder name) := by
    apply childrenOf_eq
    intro m hm hChild
    have hName : m.1 ∈ tree.map (·.1) :=
      h.children.mem_iff.mp (List.mem_filter.mpr ⟨List.mem_map.mpr ⟨m, hm, rfl⟩, hChild⟩)
    obtain ⟨n, hn, hSame⟩ := List.mem_map.mp hName
    have hGet : holder.get? m.1 = some m.2 := Members.get?_of_mem h.nodup hm
    have hAnswers := h.answers n.1 n.2 m.2 hn (hSame ▸ hGet)
    obtain ⟨answer, hObject⟩ := hAnswers.exists_obj
    exact ⟨answer, hObject, hGet⟩
  have hSort (names : List Text) :
      Text.sortBy (fun a b => Text.before a.1 b.1)
          (names.map fun name => (name, childAt holder name)) =
        (Text.sort names).map fun name => (name, childAt holder name) :=
    Text.sortBy_map (fun _ _ => rfl) names
  rw [hChildren, hSort, Text.sort_eq_of_perm h.children]

/-- The children under some names are single values. -/
def AreValues (holder : Members) (names : List Text) : Prop :=
  ∀ name ∈ names, childAt holder name = .columns [(name, valueOf holder name)]

theorem flatMap_row_of_areValues {holder : Members} {names : List Text}
    (h : AreValues holder names) :
    (names.map fun name => (name, childAt holder name)).flatMap (·.2.row) =
      names.map fun name => (name, valueOf holder name) := by
  induction names with
  | nil => rfl
  | cons name names ih =>
      have hFirst := h name List.mem_cons_self
      have hRest := ih fun n hn => h n (List.mem_cons_of_mem name hn)
      rw [List.map_cons, List.flatMap_cons, hRest, hFirst]
      rfl

theorem branches_of_areValues {holder : Members} {names : List Text}
    (h : AreValues holder names) :
    branches (names.map fun name => (name, childAt holder name)) = [] := by
  rw [branches, List.filterMap_map, List.filterMap_eq_nil_iff]
  intro name hName
  simp [h name hName]

theorem gather_of_values {values holder : Members} (own : Row) (h : Holds values holder)
    (hValues : AreValues holder (values.map (·.1))) :
    gather own (childrenOf holder) =
      .ok [own ++ metricColumns (values.map (·.1)) holder] := by
  have hSorted : AreValues holder (Text.sort (values.map (·.1))) := fun name hName =>
    hValues name (Text.mem_sortBy.mp hName)
  rw [gather, sortBy_childrenOf h]
  simp only [flatMap_row_of_areValues hSorted, branches_of_areValues hSorted]
  rfl

theorem gather_of_level {values holder : Members} {name : Text} {node : Json} {rows : List Row}
    (own : Row) (h : Holds ((name, node) :: values) holder)
    (hValues : AreValues holder (values.map (·.1)))
    (hLevel : childAt holder name = .buckets (.ok (.ok rows))) :
    gather own (childrenOf holder) =
      .ok (rows.map fun row => own ++ metricColumns (values.map (·.1)) holder ++ row) := by
  obtain ⟨front, rest, hSplit, hInsert⟩ :=
    Text.exists_insertBy Text.before name (Text.sort (values.map (·.1)))
  have hSorted : AreValues holder (front ++ rest) := fun n hn =>
    hValues n (Text.mem_sortBy.mp (hSplit ▸ hn : n ∈ Text.sort (values.map (·.1))))
  have hFront : AreValues holder front := fun n hn => hSorted n (List.mem_append_left rest hn)
  have hRest : AreValues holder rest := fun n hn => hSorted n (List.mem_append_right front hn)
  have hNames : Text.sort (((name, node) :: values).map (·.1)) = front ++ name :: rest := hInsert
  have hColumns : (((front ++ name :: rest).map fun n => (n, childAt holder n)).flatMap
      (·.2.row)) = metricColumns (values.map (·.1)) holder := by
    rw [metricColumns, hSplit, List.map_append, List.map_cons, List.flatMap_append,
      List.flatMap_cons, flatMap_row_of_areValues hFront, flatMap_row_of_areValues hRest, hLevel,
      List.map_append]
    rfl
  have hBranches : branches ((front ++ name :: rest).map fun n => (n, childAt holder n)) =
      [.ok (.ok rows)] := by
    have hAppend : ∀ cs ds : List (Text × Child), branches (cs ++ ds) = branches cs ++ branches ds :=
      fun cs ds => List.filterMap_append
    have hCons : ∀ ds : List (Text × Child), branches ((name, childAt holder name) :: ds) =
        .ok (.ok rows) :: branches ds := by
      intro ds
      simp [branches, hLevel]
    rw [List.map_append, List.map_cons, hAppend, hCons, branches_of_areValues hFront,
      branches_of_areValues hRest]
    rfl
  rw [gather, sortBy_childrenOf h, hNames]
  simp only [hColumns, hBranches]
  show Except.ok ([rows].flatten.map _) = _
  rw [List.flatten_singleton]

end Rows

/-! ## Rows of levels -/

/-- The nodes compute single values. -/
def AreSingle (values : Members) : Prop :=
  ∀ v ∈ values, ∃ d : Definition, v.2 = d.body ∧ d.method.isSingleValue = true

theorem Grouping.areSingle_values (g : Grouping) : AreSingle g.values := by
  intro v hv
  unfold Grouping.values orderingValues at hv
  split at hv
  · obtain ⟨d, hd, rfl⟩ := List.mem_map.mp hv
    exact ⟨d, rfl, (List.mem_filter.mp hd).2⟩
  · cases hv

theorem Holds.exists_get? {tree holder : Members} (h : Holds tree holder) {name : Text}
    {node : Json} (hMem : (name, node) ∈ tree) :
    ∃ held, holder.get? name = some held ∧ Answers node held := by
  have hName : name ∈ tree.map (·.1) := List.mem_map.mpr ⟨_, hMem, rfl⟩
  have hHolder := (List.mem_filter.mp (h.children.mem_iff.mpr hName)).1
  obtain ⟨held, hGet⟩ := Members.exists_get?_of_mem h.nodup hHolder
  exact ⟨held, hGet, h.answers name node held hMem hGet⟩

theorem Holds.areValues {tree values holder : Members} (h : Holds (tree ++ values) holder)
    (hSingle : AreSingle values) : Rows.AreValues holder (values.map (·.1)) := by
  intro name hName
  obtain ⟨v, hv, rfl⟩ := List.mem_map.mp hName
  obtain ⟨d, hBody, hMethod⟩ := hSingle v hv
  obtain ⟨held, hGet, hAnswers⟩ := h.exists_get? (List.mem_append_right tree hv)
  rw [hBody, d.body_eq_node] at hAnswers
  obtain ⟨answer, value, rfl, hValue, hNoBuckets⟩ :=
    hAnswers.exists_value (method?_node _ _ _) hMethod
  exact Rows.childAt_of_value hGet hValue hNoBuckets

/-- A bucket with nothing but its key, its number of documents and children gives two columns of its
own. -/
theorem ownColumns_of_keys {bucket : Members} {names : List Text} (name : Text)
    (hKeys : (bucket.map (·.1)).Perm (("key" : Text) :: ("doc_count" : Text) :: names))
    (hNodup : (bucket.map (·.1)).Nodup) (hChild : ∀ n ∈ names, Rows.isChildKey n = true) :
    Rows.ownColumns name none bucket =
      [(name, bucket.getD "key"), (name ++ ".hits", bucket.getD "doc_count")] := by
  obtain ⟨key, hKey⟩ : ∃ key, bucket.get? "key" = some key :=
    Members.exists_get?_of_mem hNodup (hKeys.mem_iff.mpr List.mem_cons_self)
  obtain ⟨count, hCount⟩ : ∃ count, bucket.get? "doc_count" = some count :=
    Members.exists_get?_of_mem hNodup
      (hKeys.mem_iff.mpr (List.mem_cons_of_mem _ List.mem_cons_self))
  have hString : bucket.get? "key_as_string" = none := by
    apply Members.get?_eq_none
    intro hMem
    rcases List.mem_cons.mp (hKeys.mem_iff.mp hMem) with hKey | hMem
    · exact absurd hKey (by decide)
    · rcases List.mem_cons.mp hMem with hCount | hMem
      · exact absurd hCount (by decide)
      · exact absurd (hChild _ hMem) (by decide)
  simp [Rows.ownColumns, Members.getD, hKey, hCount, hString]

/-- The rows of what holds answers to nested levels: one for each path, after the columns of its
own. -/
theorem gather_rows {gs : List Grouping} {tree : Members} (hNests : Nests gs tree)
    {values holder : Members} (own : Row) (hHolds : Holds (tree ++ values) holder)
    (hSingle : AreSingle values) (hNames : (gs.flatMap Grouping.names).Nodup)
    (hChild : ∀ name ∈ gs.flatMap Grouping.names, Rows.isChildKey name = true) :
    Rows.gather own (Rows.childrenOf holder) =
      .ok ((paths (gs.map Grouping.name) holder).map fun path =>
        own ++ metricColumns (values.map (·.1)) holder ++ pathColumns gs path) := by
  induction hNests generalizing values holder own with
  | nil =>
      rw [Rows.gather_of_values own hHolds (hHolds.areValues hSingle)]
      simp [paths, pathColumns]
  | cons g gs body inner hInner hMultiBucket ih =>
      have hWithin := hInner.nodup_within hNames
      rw [List.flatMap_cons] at hNames hChild
      have hChildWithin : ∀ name ∈ (inner ++ g.values).map (·.1),
          Rows.isChildKey name = true := by
        intro name hName
        apply hChild
        rw [List.map_append] at hName
        rcases List.mem_append.mp hName with hMem | hMem
        · exact List.mem_append_right _ (hInner.keys_sublist.mem hMem)
        · exact List.mem_append_left _ (List.mem_cons_of_mem _ hMem)
      obtain ⟨held, hGet, hAnswers⟩ := hHolds.exists_get? (List.mem_append_left _
        List.mem_cons_self)
      obtain ⟨answer, buckets, rfl, hBuckets, hSome, hBucket⟩ :=
        hAnswers.exists_buckets hMultiBucket hWithin hChildWithin
      have hOne : ∀ bucket ∈ buckets, Rows.ofBucket g.name none (.obj bucket) =
          .ok ((paths (gs.map Grouping.name) bucket).map fun path =>
            g.columns bucket ++ pathColumns gs path) := by
        intro bucket hMem
        obtain ⟨hHolder, hKeys⟩ := hBucket bucket hMem
        rw [Rows.ofBucket, ownColumns_of_keys g.name hKeys hHolder.nodup hChildWithin]
        exact ih _ hHolder g.areSingle_values (List.nodup_append.mp hNames).2.1
          fun name hName => hChild name (List.mem_append_right _ hName)
      have hLevel := Rows.childAt_of_buckets hGet hBuckets
      have hEmpty : (buckets.map Json.obj).isEmpty = false := by simpa using hSome
      rw [Rows.ofBuckets, hEmpty, Rows.ofList_eq hOne] at hLevel
      rw [Rows.gather_of_level own hHolds (hHolds.areValues hSingle) hLevel, List.map_cons, paths,
        Rows.bucketsOf_eq hGet hBuckets]
      simp [List.map_flatMap, pathColumns, Function.comp_def]

/-- The tree of levels can be built, and every answer to it has one row for each way to pick a bucket
of each level, in depth-first order. -/
theorem exists_groupBy_rows (direction : Json) {levels : List Level} {gs : List Grouping}
    (hLevels : levels ≠ []) (hReads : List.Forall₂ Level.Reads levels gs)
    (hNames : (gs.flatMap Grouping.names).Nodup)
    (hChild : ∀ name ∈ gs.flatMap Grouping.names, Rows.isChildKey name = true) :
    ∃ tree, groupBy (.arr (levels.map Level.toJson)) direction = .ok (.obj tree) ∧
      ∀ result, Conforms tree result →
        rows (.obj result) [] = .ok ((paths (gs.map Grouping.name) result).map (pathColumns gs)) := by
  obtain ⟨tree, hTree, hNests⟩ := exists_groupBy direction hReads hNames
  refine ⟨tree, hTree, ?_⟩
  intro result hConforms
  have hKeys := hNests.keys_sublist
  have hHolds : Holds (tree ++ []) result := by
    rw [List.append_nil]
    exact hConforms.holds (hNames.sublist hKeys) fun name hName => hChild name (hKeys.mem hName)
  have hSome : (Json.obj result).truthy = true := by
    cases hReads with
    | nil => exact absurd rfl hLevels
    | cons hLevel hRest =>
        cases hNests with
        | cons g gs body inner hInner hMultiBucket =>
            have hLength := hConforms.keys.length_eq
            cases result with
            | nil => cases hLength
            | cons m result => rfl
  have hSingle : AreSingle [] := fun v hv => by cases hv
  have hRows := gather_rows hNests [] hHolds hSingle hNames hChild
  rw [rows, if_pos hSome, Rows.ofRoot, hRows]
  simp [metricColumns, Text.sort, Text.sortBy, Functor.map, Except.map]

/-- Hosts by the bytes they sent, and the ports of each. -/
def trafficLevels : List Level :=
  [{ text := "src_ip", orderedBy? := some ["sum:bytes"] }, { text := "dst_port" }]

def trafficGroupings : List Grouping :=
  [⟨⟨"src_ip", .terms, "src_ip", [("size", .int 20)]⟩, [⟨"sum.bytes", .sum, "bytes", []⟩]⟩,
    ⟨⟨"dst_port", .terms, "dst_port", [("size", .int 20)]⟩, []⟩]

def trafficTree : Members :=
  [("src_ip", .obj (node .terms
    [("field", .str "src_ip"), ("size", .int 20),
      ("order", orderEntries (.str "desc") [("sum_bytes", .null)])]
    [("dst_port", .obj (node .terms [("field", .str "dst_port"), ("size", .int 20)] [])),
      ("sum_bytes", .obj (node .sum [("field", .str "bytes")] []))]))]

def trafficResult : Members :=
  [("src_ip", .obj [("buckets", .arr [.obj
    [("key", .str "10.0.0.1"), ("doc_count", .int 3), ("sum_bytes", .obj [("value", .int 70)]),
      ("dst_port", .obj [("buckets", .arr
        [.obj [("key", .int 22), ("doc_count", .int 2)],
          .obj [("key", .int 80), ("doc_count", .int 1)]])])]])])]

theorem trafficLevels_read : List.Forall₂ Level.Reads trafficLevels trafficGroupings :=
  .cons ⟨rfl, rfl, rfl⟩ (.cons ⟨rfl, rfl, rfl⟩ .nil)

theorem groupBy_traffic :
    groupBy (.arr (trafficLevels.map Level.toJson)) (.str "desc") = .ok (.obj trafficTree) := by
  rfl

theorem conforms_traffic : Conforms trafficTree trafficResult := by
  have hPorts : Answers (.obj (node .terms [("field", .str "dst_port"), ("size", .int 20)] []))
      (.obj [("buckets", .arr
        [.obj [("key", .int 22), ("doc_count", .int 2)],
          .obj [("key", .int 80), ("doc_count", .int 1)]])]) := by
    refine @Answers.buckets _ _ _ [_, _] (method?_node _ _ _) rfl rfl (List.cons_ne_nil _ _) ?_ ?_
    · simp
    · simp
  have hBytes : Answers (.obj (node .sum [("field", .str "bytes")] []))
      (.obj [("value", .int 70)]) :=
    .value (method?_node _ _ _) rfl rfl rfl
  refine ⟨.refl _, ?_⟩
  intro name node held hMem hGet
  cases List.mem_singleton.mp hMem
  cases hGet
  refine @Answers.buckets _ _ _ [_] (method?_node _ _ _) rfl rfl (List.cons_ne_nil _ _) ?_ ?_
  · intro bucket hBucket
    cases List.mem_singleton.mp hBucket
    decide
  · intro bucket hBucket name inner held hInner hHeld
    cases List.mem_singleton.mp hBucket
    rw [within_node] at hInner
    rcases List.mem_cons.mp hInner with hPort | hSum
    · cases hPort
      cases hHeld
      exact hPorts
    · cases List.mem_singleton.mp hSum
      cases hHeld
      exact hBytes

theorem exists_groupBy_rows_traffic :
    ∃ tree, groupBy (.arr (trafficLevels.map Level.toJson)) (.str "desc") = .ok (.obj tree) ∧
      Conforms tree trafficResult ∧
      rows (.obj trafficResult) [] = .ok
        [[("src_ip", .str "10.0.0.1"), ("src_ip.hits", .int 3), ("sum_bytes", .int 70),
            ("dst_port", .int 22), ("dst_port.hits", .int 2)],
          [("src_ip", .str "10.0.0.1"), ("src_ip.hits", .int 3), ("sum_bytes", .int 70),
            ("dst_port", .int 80), ("dst_port.hits", .int 1)]] := by
  obtain ⟨tree, hTree, hRows⟩ := exists_groupBy_rows (.str "desc") (List.cons_ne_nil _ _)
    trafficLevels_read (by decide) (by decide)
  cases groupBy_traffic.symm.trans hTree
  refine ⟨_, hTree, conforms_traffic, ?_⟩
  rw [hRows trafficResult conforms_traffic]
  cbv

/-- Buckets of significant terms cannot be ordered, so what they are to be ordered by is not among
their columns. -/
theorem rows_significantTerms :
    ∃ level g tree result row, Level.Reads level g ∧
      (∀ d ∈ g.ordering, d.method.isSingleValue = true) ∧
      (orderingValues g.ordering).map (·.1) = ["avg_bytes"] ∧
      groupBy (.arr [level.toJson]) (.str "desc") = .ok (.obj tree) ∧ Conforms tree result ∧
      rows (.obj result) [] = .ok [row] ∧ ("avg_bytes" : Text) ∉ row.map (·.1) := by
  refine ⟨{ text := "significant_terms:host", orderedBy? := some ["avg:bytes"] },
    ⟨⟨"significant_terms.host", .significantTerms, "host", []⟩, [⟨"avg.bytes", .avg, "bytes", []⟩]⟩,
    [("significant_terms.host", .obj (node .significantTerms [("field", .str "host")] []))],
    [("significant_terms.host", .obj [("buckets", .arr
      [.obj [("key", .str "db"), ("doc_count", .int 2)]])])],
    [("significant_terms.host", .str "db"), ("significant_terms.host.hits", .int 2)],
    ⟨rfl, rfl, rfl⟩, by decide, rfl, rfl, ⟨.refl _, ?_⟩, by cbv, by decide⟩
  intro name answered held hMem hGet
  cases List.mem_singleton.mp hMem
  cases hGet
  refine @Answers.buckets _ _ _ [_] (method?_node _ _ _) rfl rfl (List.cons_ne_nil _ _) ?_ ?_
  · simp
  · simp

end LogQuery.Aggregation
