import LogQuery.Aggregation.Rows
import LogQuery.Proofs.Aggregation.Levels

/-! Answers to trees of aggregations. An answer has the shape of its tree: a single value for a node
that computes one, and for a node of buckets a list of them, each of which answers the tree within. -/

namespace LogQuery.Aggregation

/-! ## Answers -/

/-- A document answers a node: with a single value, or with buckets, at least one, each of which
holds its key, its number of documents and an answer to every node of the tree within. -/
inductive Answers : Json → Json → Prop
  | value {members answer : Members} {m : Method} {v : Json}
      (hMethod : method? members = some m) (hSingle : m.isSingleValue = true)
      (hValue : answer.get? "value" = some v) (hNoBuckets : answer.get? "buckets" = none) :
      Answers (.obj members) (.obj answer)
  | buckets {members answer : Members} {m : Method} {buckets : List Members}
      (hMethod : method? members = some m) (hMulti : m.isMultiBucket = true)
      (hBuckets : answer.get? "buckets" = some (.arr (buckets.map .obj))) (hSome : buckets ≠ [])
      (hKeys : ∀ bucket ∈ buckets, (bucket.map (·.1)).Perm
        (("key" : Text) :: ("doc_count" : Text) :: (within members).map (·.1)))
      (hAnswers : ∀ bucket ∈ buckets, ∀ name inner held, (name, inner) ∈ within members →
        bucket.get? name = some held → Answers inner held) :
      Answers (.obj members) (.obj answer)

/-- A result holds an answer to every node of a tree, and nothing else. -/
structure Conforms (tree result : Members) : Prop where
  keys : (result.map (·.1)).Perm (tree.map (·.1))
  answers : ∀ name node held, (name, node) ∈ tree → result.get? name = some held →
    Answers node held

/-- A result, or a bucket in it, holds answers to the nodes of a tree, beside what is no child. -/
structure Holds (tree holder : Members) : Prop where
  nodup : (holder.map (·.1)).Nodup
  children : ((holder.map (·.1)).filter Rows.isChildKey).Perm (tree.map (·.1))
  answers : ∀ name node held, (name, node) ∈ tree → holder.get? name = some held →
    Answers node held

theorem Conforms.holds {tree result : Members} (h : Conforms tree result)
    (hNodup : (tree.map (·.1)).Nodup) (hKeys : ∀ name ∈ tree.map (·.1), Rows.isChildKey name = true) :
    Holds tree result := by
  refine ⟨h.keys.nodup_iff.mpr hNodup, ?_, h.answers⟩
  have hFilter := h.keys.filter Rows.isChildKey
  rwa [List.filter_eq_self.mpr hKeys] at hFilter

theorem Answers.exists_obj {node held : Json} (h : Answers node held) :
    ∃ answer, held = .obj answer := by
  cases h with
  | value => exact ⟨_, rfl⟩
  | buckets => exact ⟨_, rfl⟩

/-- A node of single values is answered by a single value. -/
theorem Answers.exists_value {members : Members} {held : Json} {m : Method}
    (h : Answers (.obj members) held) (hMethod : method? members = some m)
    (hSingle : m.isSingleValue = true) :
    ∃ (answer : Members) (v : Json), held = .obj answer ∧ answer.get? "value" = some v ∧
      answer.get? "buckets" = none := by
  cases h with
  | value hMethod' hSingle' hValue hNoBuckets => exact ⟨_, _, rfl, hValue, hNoBuckets⟩
  | buckets hMethod' hMulti =>
      cases hMethod.symm.trans hMethod'
      rw [Method.isMultiBucket, Method.isBucket_of_isSingleValue hSingle] at hMulti
      cases hMulti

/-- A node of buckets is answered by buckets that hold answers to the tree within. -/
theorem Answers.exists_buckets {m : Method} {body inner : Members} {held : Json}
    (h : Answers (.obj (node m body inner)) held) (hMulti : m.isMultiBucket = true)
    (hNodup : (inner.map (·.1)).Nodup)
    (hChild : ∀ name ∈ inner.map (·.1), Rows.isChildKey name = true) :
    ∃ (answer : Members) (buckets : List Members), held = .obj answer ∧
      answer.get? "buckets" = some (.arr (buckets.map .obj)) ∧ buckets ≠ [] ∧
      ∀ bucket ∈ buckets, Holds inner bucket ∧
        (bucket.map (·.1)).Perm
          (("key" : Text) :: ("doc_count" : Text) :: inner.map (·.1)) := by
  cases h with
  | value hMethod hSingle =>
      rw [method?_node] at hMethod
      cases hMethod
      rw [Method.isMultiBucket, Method.isBucket_of_isSingleValue hSingle] at hMulti
      cases hMulti
  | buckets hMethod hMulti' hBuckets hSome hKeys hAnswers =>
      rw [within_node] at hKeys hAnswers
      refine ⟨_, _, rfl, hBuckets, hSome, ?_⟩
      intro bucket hBucket
      have hKey : Rows.isChildKey "key" = false := by decide
      have hCount : Rows.isChildKey "doc_count" = false := by decide
      have hNew : (("key" : Text) :: ("doc_count" : Text) :: inner.map (·.1)).Nodup := by
        refine List.nodup_cons.mpr ⟨?_, List.nodup_cons.mpr ⟨?_, hNodup⟩⟩
        · rw [List.mem_cons, not_or]
          refine ⟨by decide, fun hMem => ?_⟩
          rw [hChild _ hMem] at hKey
          cases hKey
        · intro hMem
          rw [hChild _ hMem] at hCount
          cases hCount
      have hFilter := (hKeys bucket hBucket).filter Rows.isChildKey
      rw [List.filter_cons_of_neg (by simp [hKey]), List.filter_cons_of_neg (by simp [hCount]),
        List.filter_eq_self.mpr hChild] at hFilter
      exact ⟨⟨(hKeys bucket hBucket).nodup_iff.mpr hNew, hFilter, hAnswers bucket hBucket⟩,
        hKeys bucket hBucket⟩

end LogQuery.Aggregation
