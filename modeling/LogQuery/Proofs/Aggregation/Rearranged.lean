import LogQuery.Proofs.Aggregation.LevelRows
import LogQuery.Proofs.Json.Members
import LogQuery.Proofs.Text.Sorted

/-! Results that differ in what a server is free to choose: the order of the members of a node and of
a child with buckets, and members that are noise. Their rows are the same, because noise is dropped
before anything is looked up and the children of a node are sorted. The order of buckets, and of the
members of a computed value, is kept. -/

namespace LogQuery.Aggregation

open Rows

/-! ## Results with the same content -/

/-- The key tells something about the documents. -/
def isSignal (key : Text) : Bool :=
  !noiseKeys.contains key

mutual

/-- Two nodes, roots or buckets, whose members are the same in some order, noise apart. -/
inductive SameNode : Members → Members → Prop
  | intro {node other reordered : Members} (hKeys : (node.map (·.1)).Nodup)
      (hOrder : (node.filter fun m => isSignal m.1).Perm reordered)
      (hMembers : SameMembers reordered (other.filter fun m => isSignal m.1)) : SameNode node other

inductive SameMembers : Members → Members → Prop
  | nil : SameMembers [] []
  | cons {key : Text} {held held' : Json} {members others : Members} (hHeld : SameHeld key held held')
      (hRest : SameMembers members others) :
      SameMembers ((key, held) :: members) ((key, held') :: others)

/-- What a node holds under a key is the same, or is a child with the same buckets. Nothing else in
such a child counts, so its own members may come in another order and with other noise. -/
inductive SameHeld : Text → Json → Json → Prop
  | same (key : Text) (held : Json) : SameHeld key held held
  | buckets {key : Text} {child other : Members} {buckets buckets' : Json}
      (hKey : isChildKey key = true) (hBuckets : child.get? "buckets" = some buckets)
      (hOther : other.get? "buckets" = some buckets') (hSame : SameBuckets buckets buckets') :
      SameHeld key (.obj child) (.obj other)

/-- A list of buckets, or an object that keeps them under keys, in the same order. -/
inductive SameBuckets : Json → Json → Prop
  | same (buckets : Json) : SameBuckets buckets buckets
  | list {buckets others : List Json} (h : SameList buckets others) :
      SameBuckets (.arr buckets) (.arr others)
  | keyed {buckets others : List (Text × Json)} (h : SameEntries buckets others) :
      SameBuckets (.obj buckets) (.obj others)

inductive SameList : List Json → List Json → Prop
  | nil : SameList [] []
  | cons {bucket other : Json} {buckets others : List Json} (hBucket : SameBucket bucket other)
      (hRest : SameList buckets others) : SameList (bucket :: buckets) (other :: others)

inductive SameEntries : List (Text × Json) → List (Text × Json) → Prop
  | nil : SameEntries [] []
  | cons {key : Text} {bucket other : Json} {buckets others : List (Text × Json)}
      (hBucket : SameBucket bucket other) (hRest : SameEntries buckets others) :
      SameEntries ((key, bucket) :: buckets) ((key, other) :: others)

inductive SameBucket : Json → Json → Prop
  | same (bucket : Json) : SameBucket bucket bucket
  | node {node other : Members} (h : SameNode node other) : SameBucket (.obj node) (.obj other)

end

/-! ## What noise and order leave alone -/

theorem childrenOf_eq_flatMap (members : Members) : childrenOf members = members.flatMap childOf := by
  induction members with
  | nil => rfl
  | cons m members ih => rw [childrenOf, ih, List.flatMap_cons]

theorem childOf_of_noise {m : Text × Json} (h : isSignal m.1 = false) : childOf m = [] := by
  obtain ⟨key, held⟩ := m
  have hKey : isChildKey key = false := by
    have hNoise : noiseKeys.contains key = true := by simpa [isSignal] using h
    rw [isChildKey, hNoise]
    rfl
  cases held <;> simp [childOf, hKey]

/-- Noise is no child. -/
theorem childrenOf_signal (members : Members) :
    childrenOf (members.filter fun m => isSignal m.1) = childrenOf members := by
  rw [childrenOf_eq_flatMap, childrenOf_eq_flatMap]
  induction members with
  | nil => rfl
  | cons m members ih =>
      rw [List.filter_cons, List.flatMap_cons]
      cases h : isSignal m.1 with
      | false => simp [childOf_of_noise h, ih]
      | true => simp [ih]

/-- The names of children are names of members. -/
theorem keys_childrenOf_sublist (members : Members) :
    ((childrenOf members).map (·.1)).Sublist (members.map (·.1)) := by
  induction members with
  | nil => exact List.Sublist.refl _
  | cons m members ih =>
      obtain ⟨key, held⟩ := m
      rw [childrenOf, List.map_append, List.map_cons]
      have hOne : ((childOf (key, held)).map (·.1)).Sublist [key] := by
        cases held with
        | obj child =>
            cases hKey : isChildKey key with
            | false => simp [childOf, hKey]
            | true => cases hBuckets : bucketsIn key child <;> simp [childOf, hKey, hBuckets]
        | _ => exact List.nil_sublist _
      exact hOne.append ih

/-- The rows of a node hang on its children in any order. -/
theorem gather_eq_of_perm {children others : List (Text × Child)} (own : Row)
    (hNodup : (children.map (·.1)).Nodup) (h : children.Perm others) :
    gather own children = gather own others := by
  rw [gather, gather, Text.sortBy_name_eq_of_perm hNodup h]

theorem SameMembers.keys {members others : Members} (h : SameMembers members others) :
    members.map (·.1) = others.map (·.1) := by
  induction members generalizing others with
  | nil =>
      cases h with
      | nil => rfl
  | cons m members ih =>
      cases h with
      | cons hHeld hRest => rw [List.map_cons, List.map_cons, ih hRest]

/-- What is no child is the same. -/
theorem SameMembers.get?_eq {members others : Members} (h : SameMembers members others) {key : Text}
    (hKey : isChildKey key = false) : members.get? key = others.get? key := by
  induction members generalizing others with
  | nil =>
      cases h with
      | nil => rfl
  | cons m members ih =>
      cases h with
      | cons hHeld hRest =>
          rw [Members.get?_cons, Members.get?_cons, ih hRest]
          split
          · rename_i hSame
            subst hSame
            cases hHeld with
            | same => rfl
            | buckets hChild => rw [hChild] at hKey; cases hKey
          · rfl

theorem SameNode.get?_eq {node other : Members} (h : SameNode node other) {key : Text}
    (hSignal : isSignal key = true) (hKey : isChildKey key = false) :
    node.get? key = other.get? key := by
  cases h with
  | @intro _ _ reordered hKeys hOrder hMembers =>
      have hSome : ((node.filter fun m => isSignal m.1).map (·.1)).Nodup :=
        hKeys.sublist (List.filter_sublist.map _)
      calc node.get? key
          = Members.get? (node.filter fun m => isSignal m.1) key :=
            (Members.get?_filter_key isSignal node hSignal).symm
        _ = Members.get? reordered key := Members.get?_of_perm hSome hOrder key
        _ = Members.get? (other.filter fun m => isSignal m.1) key := hMembers.get?_eq hKey
        _ = other.get? key := Members.get?_filter_key isSignal other hSignal

theorem ownColumns_eq_of_sameNode {node other : Members} (h : SameNode node other) (name : Text)
    (keptUnder : Option Json) : ownColumns name keptUnder node = ownColumns name keptUnder other := by
  have hOwn (key : Text) (hBucket : key ∈ bucketKeys) : node.get? key = other.get? key := by
    have hKeys : ∀ key ∈ bucketKeys, isSignal key = true ∧ isChildKey key = false := by decide
    exact h.get?_eq (hKeys key hBucket).1 (hKeys key hBucket).2
  rw [ownColumns, ownColumns, hOwn "key" (by decide), hOwn "doc_count" (by decide),
    hOwn "key_as_string" (by decide)]

theorem SameList.isEmpty_eq {buckets others : List Json} (h : SameList buckets others) :
    buckets.isEmpty = others.isEmpty := by
  cases h with
  | nil => rfl
  | cons hBucket hRest => rfl

theorem SameEntries.isEmpty_eq {buckets others : List (Text × Json)}
    (h : SameEntries buckets others) : buckets.isEmpty = others.isEmpty := by
  cases h with
  | nil => rfl
  | cons hBucket hRest => rfl

/-- Buckets kept under keys are objects in both, or not. -/
theorem SameEntries.all_eq {buckets others : List (Text × Json)} (h : SameEntries buckets others)
    {p : Text × Json → Bool} (hNodes : ∀ key node other, p (key, .obj node) = p (key, .obj other)) :
    buckets.all p = others.all p := by
  induction buckets generalizing others with
  | nil =>
      cases h with
      | nil => rfl
  | cons bucket buckets ih =>
      cases h with
      | cons hBucket hRest =>
          rw [List.all_cons, List.all_cons, ih hRest]
          cases hBucket with
          | same => rfl
          | node h => rw [hNodes]

/-! ## Rows -/

mutual

theorem gather_eq_of_sameNode {node other : Members} (h : SameNode node other) (own : Row) :
    gather own (childrenOf node) = gather own (childrenOf other) := by
  match h with
  | @SameNode.intro _ _ reordered hKeys hOrder hMembers =>
      have hPerm : (childrenOf node).Perm (childrenOf other) := by
        rw [← childrenOf_signal node, ← childrenOf_signal other,
          ← childrenOf_eq_of_sameMembers hMembers, childrenOf_eq_flatMap, childrenOf_eq_flatMap]
        exact hOrder.flatMap_right childOf
      exact gather_eq_of_perm own (hKeys.sublist (keys_childrenOf_sublist node)) hPerm

theorem childrenOf_eq_of_sameMembers {members others : Members} (h : SameMembers members others) :
    childrenOf members = childrenOf others := by
  match h with
  | .nil => rfl
  | .cons hHeld hRest =>
      rw [childrenOf, childrenOf, childOf_eq_of_sameHeld hHeld, childrenOf_eq_of_sameMembers hRest]

theorem childOf_eq_of_sameHeld {key : Text} {held held' : Json} (h : SameHeld key held held') :
    childOf (key, held) = childOf (key, held') := by
  match h with
  | .same key held => rfl
  | .buckets hKey hBuckets hOther hSame =>
      have hRows := ofBuckets_eq_of_sameBuckets hSame key
      simp only [childOf, hKey, bucketsIn_eq, hBuckets, hOther, hRows, Option.map_some]

theorem ofBuckets_eq_of_sameBuckets {buckets others : Json} (h : SameBuckets buckets others)
    (name : Text) : ofBuckets name buckets = ofBuckets name others := by
  match h with
  | .same buckets => rfl
  | .list h => rw [ofBuckets, ofBuckets, h.isEmpty_eq, ofList_eq_of_sameList h]
  | .keyed h =>
      rw [ofBuckets, ofBuckets, h.isEmpty_eq, ofKeyed_eq_of_sameEntries h,
        h.all_eq fun _ _ _ => rfl]

theorem ofList_eq_of_sameList {buckets others : List Json} (h : SameList buckets others)
    (name : Text) : ofList name buckets = ofList name others := by
  match h with
  | .nil => rfl
  | .cons hBucket hRest =>
      rw [ofList, ofList, ofBucket_eq_of_sameBucket hBucket, ofList_eq_of_sameList hRest]

theorem ofKeyed_eq_of_sameEntries {buckets others : List (Text × Json)}
    (h : SameEntries buckets others) (name : Text) :
    ofKeyed name buckets = ofKeyed name others := by
  match h with
  | .nil => rfl
  | .cons hBucket hRest =>
      rw [ofKeyed, ofKeyed, ofEntry, ofEntry, ofBucket_eq_of_sameBucket hBucket,
        ofKeyed_eq_of_sameEntries hRest]

theorem ofBucket_eq_of_sameBucket {bucket other : Json} (h : SameBucket bucket other) (name : Text)
    (keptUnder : Option Json) : ofBucket name keptUnder bucket = ofBucket name keptUnder other := by
  match h with
  | .same bucket => rfl
  | .node hNode =>
      rw [ofBucket, ofBucket, ownColumns_eq_of_sameNode hNode, gather_eq_of_sameNode hNode]

end

theorem SameNode.isSignal_mem {node other : Members} (h : SameNode node other)
    (hSome : ∃ key ∈ node.map (·.1), isSignal key = true) :
    ∃ key ∈ other.map (·.1), isSignal key = true := by
  obtain ⟨key, hKey, hSignal⟩ := hSome
  obtain ⟨m, hm, rfl⟩ := List.mem_map.mp hKey
  cases h with
  | @intro _ _ reordered hKeys hOrder hMembers =>
      have hReordered := hOrder.mem_iff.mp (List.mem_filter.mpr ⟨hm, hSignal⟩)
      have hOther : m.1 ∈ (other.filter fun m => isSignal m.1).map (·.1) :=
        hMembers.keys ▸ List.mem_map_of_mem hReordered
      obtain ⟨n, hn, hSame⟩ := List.mem_map.mp hOther
      exact ⟨m.1, List.mem_map.mpr ⟨n, List.mem_of_mem_filter hn, hSame⟩, hSignal⟩

theorem truthy_of_mem_keys {node : Members} {key : Text} (h : key ∈ node.map (·.1)) :
    (Json.obj node).truthy = true := by
  cases node with
  | nil => cases h
  | cons m node => rfl

/-- The rows of a result that holds more than noise stay the same, whatever columns stand before
them, in every order of the members of its nodes and of its children with buckets, and with more or
less noise among these. -/
theorem rows_eq_of_sameNode {result other : Members} (h : SameNode result other)
    (hSome : ∃ key ∈ result.map (·.1), isSignal key = true) (front : Row) :
    rows (.obj result) front = rows (.obj other) front := by
  obtain ⟨key', hKey', -⟩ := h.isSignal_mem hSome
  obtain ⟨key, hKey, -⟩ := hSome
  rw [rows, rows, if_pos (truthy_of_mem_keys hKey), if_pos (truthy_of_mem_keys hKey'), ofRoot,
    ofRoot, gather_eq_of_sameNode h]

/-! ## Hosts with and without annotations -/

theorem SameMembers.refl (members : Members) : SameMembers members members := by
  induction members with
  | nil => exact .nil
  | cons m members ih => exact .cons (.same m.1 m.2) ih

/-- Members may be put in another order, and noise may come and go. -/
theorem SameNode.of_perm {node other : Members} (hKeys : (node.map (·.1)).Nodup)
    (h : (node.filter fun m => isSignal m.1).Perm (other.filter fun m => isSignal m.1)) :
    SameNode node other :=
  .intro hKeys h (SameMembers.refl _)

/-- The same holds for a child with buckets. -/
theorem SameHeld.of_perm {key : Text} {child other : Members} {buckets : Json}
    (hKey : isChildKey key = true) (hKeys : (child.map (·.1)).Nodup)
    (hBuckets : child.get? "buckets" = some buckets)
    (h : (child.filter fun m => isSignal m.1).Perm (other.filter fun m => isSignal m.1)) :
    SameHeld key (.obj child) (.obj other) := by
  have hSome : ((child.filter fun m => isSignal m.1).map (·.1)).Nodup :=
    hKeys.sublist (List.filter_sublist.map _)
  have hSignal : isSignal "buckets" = true := by decide
  have hOther : other.get? "buckets" = some buckets := by
    rw [← Members.get?_filter_key isSignal other hSignal, ← Members.get?_of_perm hSome h,
      Members.get?_filter_key isSignal child hSignal, hBuckets]
  exact .buckets hKey hBuckets hOther (.same buckets)

/-- A host with its traffic and its ports, beside the number of all hosts. -/
def plainHosts : Members :=
  [("ip", .obj [("buckets", .arr [.obj
      [("key", .str "10.0.0.1"), ("doc_count", .int 3), ("bytes", .obj [("value", .int 70)]),
        ("ports", .obj [("buckets", .arr [.obj [("key", .int 80), ("doc_count", .int 3)]]),
          ("meta", .null)])]])]),
    ("hosts", .obj [("value", .int 1)])]

/-- The same in another order, with noise in each place where there may be some. -/
def annotatedHosts : Members :=
  [("hosts", .obj [("value", .int 1)]), ("sum_other_doc_count", .int 4),
    ("ip", .obj [("doc_count_error_upper_bound", .int 0), ("buckets", .arr [.obj
      [("ports", .obj [("meta", .null), ("sum_other_doc_count", .int 2),
          ("buckets", .arr [.obj [("key", .int 80), ("doc_count", .int 3)]])]),
        ("doc_count_error_upper_bound", .int 0), ("bytes", .obj [("value", .int 70)]),
        ("doc_count", .int 3), ("key", .str "10.0.0.1")]])])]

theorem sameNode_hosts : SameNode plainHosts annotatedHosts := by
  have hPorts : SameHeld "ports"
      (.obj [("buckets", .arr [.obj [("key", .int 80), ("doc_count", .int 3)]]), ("meta", .null)])
      (.obj [("meta", .null), ("sum_other_doc_count", .int 2),
        ("buckets", .arr [.obj [("key", .int 80), ("doc_count", .int 3)]])]) :=
    .of_perm (by decide) (by decide) rfl (.swap _ _ _)
  have hBucket : SameNode
      [("key", .str "10.0.0.1"), ("doc_count", .int 3), ("bytes", .obj [("value", .int 70)]),
        ("ports", .obj [("buckets", .arr [.obj [("key", .int 80), ("doc_count", .int 3)]]),
          ("meta", .null)])]
      [("ports", .obj [("meta", .null), ("sum_other_doc_count", .int 2),
          ("buckets", .arr [.obj [("key", .int 80), ("doc_count", .int 3)]])]),
        ("doc_count_error_upper_bound", .int 0), ("bytes", .obj [("value", .int 70)]),
        ("doc_count", .int 3), ("key", .str "10.0.0.1")] :=
    .intro (by decide) (List.reverse_perm _).symm (.cons hPorts (SameMembers.refl _))
  have hHosts : SameBuckets _ _ := .list (.cons (.node hBucket) .nil)
  exact .intro (by decide) (List.reverse_perm _).symm
    (.cons (.same _ _) (.cons (.buckets (by decide) rfl rfl hHosts) .nil))

theorem rows_eq_of_sameNode_hosts :
    SameNode plainHosts annotatedHosts ∧
      (∃ key ∈ plainHosts.map (·.1), isSignal key = true) ∧
      rows (.obj annotatedHosts) [("window", .str "1h")] = .ok
        [[("window", .str "1h"), ("hosts", .int 1), ("ip", .str "10.0.0.1"), ("ip.hits", .int 3),
          ("bytes", .int 70), ("ports", .int 80), ("ports.hits", .int 3)]] := by
  have hSome : ∃ key ∈ plainHosts.map (·.1), isSignal key = true := ⟨"ip", by decide, by decide⟩
  refine ⟨sameNode_hosts, hSome, ?_⟩
  rw [← rows_eq_of_sameNode sameNode_hosts hSome]
  rfl

end LogQuery.Aggregation
