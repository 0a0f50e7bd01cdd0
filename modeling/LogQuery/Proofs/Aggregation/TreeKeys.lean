import LogQuery.Proofs.Aggregation.Nodes
import LogQuery.Proofs.Json.Keys

/-! The names at the top of a tree of levels, whatever documents the levels are. They are the names
of the outermost level: what comes later puts a tree within each node or an order on it, and neither
adds a node at the top nor takes one away. -/

namespace LogQuery.Aggregation

variable {direction outer inner level : Json} {tree : Members}

theorem keys_of_mapM_nestUnder {nodes nested : Members}
    (h : nodes.mapM (nestUnder inner) = .ok nested) : nested.map (·.1) = nodes.map (·.1) := by
  have hPairs := mapM_eq_ok_iff.mp h
  clear h
  induction hPairs with
  | nil => rfl
  | @cons node put nodes nested hNode _ ih =>
      have hName : put.1 = node.1 := by
        unfold nestUnder at hNode
        split at hNode
        · cases hNode
          rfl
        · cases hNode
      rw [List.map_cons, List.map_cons, hName, ih]

/-- Putting a tree within the nodes of another leaves the names of those. -/
theorem exists_keys_of_nest {wrapper : Json}
    (h : (if inner.truthy then
        (do return Json.obj (← (← wrapper.asMembers).mapM (nestUnder inner)))
      else return wrapper : Except Failure Json) = .ok (.obj tree)) :
    ∃ nodes, wrapper = .obj nodes ∧ tree.map (·.1) = nodes.map (·.1) := by
  split at h
  · simp only [bind_eq_ok_iff, pure_eq_ok_iff] at h
    obtain ⟨nodes, hNodes, nested, hNested, hSame⟩ := h
    cases hSame
    cases wrapper with
    | obj members =>
        cases hNodes
        exact ⟨nodes, rfl, keys_of_mapM_nestUnder hNested⟩
    | _ => cases hNodes
  · exact ⟨tree, pure_eq_ok_iff.mp h, rfl⟩

/-- Of a tree that is put around another, the names are those of its text, or of the document that
it is. -/
theorem nodup_of_wrap (hOuter : outer.HasDistinctKeys) (h : wrap outer inner = .ok (.obj tree)) :
    (tree.map (·.1)).Nodup := by
  cases outer with
  | str text =>
      simp only [wrap] at h
      obtain ⟨wrapper, hWrapper, h⟩ := bind_eq_ok_iff.mp h
      obtain ⟨nodes, rfl, hKeys⟩ := exists_keys_of_nest h
      obtain ⟨expanded, hExpand, hSame⟩ := map_eq_ok_iff.mp hWrapper
      cases hSame
      obtain ⟨ds, -, rfl⟩ := expand_eq_ok_iff.mp hExpand
      rw [hKeys]
      exact Members.nodup_update List.nodup_nil
  | obj members =>
      simp only [wrap] at h
      obtain ⟨wrapper, hWrapper, h⟩ := bind_eq_ok_iff.mp h
      obtain ⟨nodes, rfl, hKeys⟩ := exists_keys_of_nest h
      cases hWrapper
      rw [hKeys]
      exact hOuter.keys
  | _ =>
      simp only [wrap] at h
      obtain ⟨wrapper, hWrapper, h⟩ := bind_eq_ok_iff.mp h
      obtain ⟨nodes, rfl, -⟩ := exists_keys_of_nest h
      cases hWrapper

theorem keys_orderNodes (order : Json) (values nodes : Members) :
    (orderNodes order values nodes).reached.map (·.1) = nodes.map (·.1) := by
  induction nodes with
  | nil => rfl
  | cons n nodes ih =>
      simp only [orderNodes]
      split
      · rfl
      · rw [List.map_cons, List.map_cons, ih]

/-- Ordering leaves the names of the tree. -/
theorem exists_keys_of_orderBy {unordered definitions : Json}
    (h : (orderBy unordered direction definitions).result = .ok (.obj tree)) :
    ∃ nodes, unordered = .obj nodes ∧ tree.map (·.1) = nodes.map (·.1) := by
  cases hRead : readDefinitions definitions with
  | error failure =>
      simp only [orderBy, hRead] at h
      cases h
  | ok ds =>
      by_cases hNone : orderingValues ds = []
      · rw [orderBy_of_nil hRead hNone] at h
        exact ⟨tree, Except.ok.inj h, rfl⟩
      · cases unordered with
        | obj nodes =>
            rw [orderBy_of_ne_nil hRead hNone, Change.result] at h
            split at h
            · cases h
            · cases h
              exact ⟨nodes, rfl, keys_orderNodes _ _ nodes⟩
        | _ =>
            simp only [orderBy, hRead] at h
            cases h

theorem nodup_of_addLevel {around : Json} (hLevel : level.HasDistinctKeys)
    (h : addLevel direction level around = .ok (.obj tree)) : (tree.map (·.1)).Nodup := by
  obtain ⟨⟨outer, definitions⟩, hParts, h⟩ := bind_eq_ok_iff.mp h
  have hOuter : outer.HasDistinctKeys := by
    unfold levelParts at hParts
    split at hParts
    · cases hParts
      exact hLevel
    · exact (hLevel.of_asPair hParts).1
  obtain ⟨wrapped, hWrap, h⟩ := bind_eq_ok_iff.mp h
  split at h
  · obtain ⟨nodes, rfl, hKeys⟩ := exists_keys_of_orderBy h
    rw [hKeys]
    exact nodup_of_wrap hOuter hWrap
  · cases pure_eq_ok_iff.mp h
    exact nodup_of_wrap hOuter hWrap

/-- No two nodes at the top of a tree of levels have one name. -/
theorem nodup_of_groupBy {levels : Json} (hLevels : levels.HasDistinctKeys)
    (h : groupBy levels direction = .ok (.obj tree)) : (tree.map (·.1)).Nodup := by
  obtain ⟨parts, hParts, h⟩ := bind_eq_ok_iff.mp h
  cases parts with
  | nil =>
      cases h
      exact List.nodup_nil
  | cons level parts =>
      rw [List.reverse_cons, nestLevels_append, bind_eq_ok_iff] at h
      obtain ⟨within, -, h⟩ := h
      exact nodup_of_addLevel (hLevels.of_parts hParts level List.mem_cons_self) h

end LogQuery.Aggregation
