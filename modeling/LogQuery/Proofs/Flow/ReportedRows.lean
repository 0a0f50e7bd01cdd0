import LogQuery.Proofs.Aggregation.Columns
import LogQuery.Proofs.Flow.Window

/-! The rows in a report, each as an object. A report of levels whose names are all different loses a
column of a row exactly if the row has picked a bucket of two nodes and one of them is called as the
number of documents of the other. -/

namespace LogQuery

open Cluster Aggregation

theorem Cluster.rows_of_read {answer : Json} {summary : Summary}
    (h : Summary.read answer = .ok summary) :
    rows summary.aggregations [] = .ok summary.rows := by
  simp only [Summary.read, bind_eq_ok_iff, pure_eq_ok_iff] at h
  obtain ⟨_, -, _, -, _, -, found, hFound, rfl⟩ := h
  exact hFound

namespace Session

variable {config : Config} {index : Json} {s t : Session}

theorem rows_of_aggregate {summary : Summary}
    (h : (aggregate config index).run s = (.ok summary, t)) :
    rows summary.aggregations [] = .ok summary.rows := by
  simp only [aggregate, Step.run_bind_eq_ok_iff, Step.run_of_eq_ok_iff, run_current_eq_ok_iff] at h
  obtain ⟨_, _, ⟨-, rfl⟩, _, _, ⟨rfl, rfl⟩, h⟩ := h
  split at h
  · simp only [Step.run_bind_eq_ok_iff, Step.run_of_eq_ok_iff, run_current_eq_ok_iff,
      run_edit_eq_ok_iff] at h
    obtain ⟨_, _, rfl, _, _, ⟨-, rfl⟩, _, _, ⟨rfl, rfl⟩, h⟩ := h
    split at h
    · cases h
    · simp only [Step.run_bind_eq_ok_iff, Step.run_of_eq_ok_iff] at h
      obtain ⟨answer, _, -, hRead, -⟩ := h
      exact rows_of_read hRead
  · cases h

theorem rows_of_groupBy {levels direction : Json} {summary : Summary}
    (h : (groupBy config index levels direction).run s = (.ok summary, t)) :
    rows summary.aggregations [] = .ok summary.rows := by
  simp only [groupBy, Step.run_bind_eq_ok_iff, Step.run_of_eq_ok_iff] at h
  obtain ⟨_, _, ⟨-, rfl⟩, tree, _, ⟨-, rfl⟩, h⟩ := h
  split at h
  · simp only [Step.run_bind_eq_ok_iff, Step.run_of_eq_ok_iff, run_current_eq_ok_iff,
      run_edit_eq_ok_iff] at h
    obtain ⟨_, _, ⟨rfl, rfl⟩, _, _, ⟨-, rfl⟩, _, _, rfl, hRun⟩ := h
    exact rows_of_aggregate hRun
  · cases h

end Session

namespace Flow

/-- The rows in a report, each an object of its columns. -/
def shownRows (found : List Row) : Json :=
  .arr (found.map fun row => .arr (row.toMembers.map fun column => .arr [.str column.1, column.2]))

theorem member?_rows_of_groupLogs {around : Surroundings} {selection : Selection}
    {levels direction : Json} {s t : State} {report : GroupReport} {found : List Row}
    (h : (groupLogs around selection levels direction).run s = (.ok report, t))
    (hFound : rows report.summary.aggregations [] = .ok found) :
    report.toJson.member? "rows" = .ok (some (shownRows found)) := by
  simp only [groupLogs, Step.run_bind_eq_ok_iff, Prod.exists, run_inSession_eq_ok_iff,
    Step.run_of_eq_ok_iff, Step.run_pure_eq_ok_iff] at h
  obtain ⟨prepared, _, -, summary, q, _, ⟨_, hRun, -, -⟩, shown, _, -, rfl, -⟩ := h
  have hSame := (Session.rows_of_groupBy hRun).symm.trans hFound
  rw [← Except.ok.inj hSame]
  rfl

/-- Of a result in the shape of the tree of levels of many buckets, whose names are all different,
each row keeps its columns as an object, unless one of the nodes that it has picked a bucket of is
called as the number of documents of another one. Then it has fewer members than columns. The rows in
a report are these objects. -/
theorem rows_keepColumnsIff {levels : List Level} {direction : Json} {tree result : Members}
    (hLevels : ∀ level ∈ levels, CountsMany level.text)
    (hTree : groupBy (.arr (levels.map Level.toJson)) direction = .ok (.obj tree))
    (hNames : (namesOf tree).Nodup) (hShape : ShapedAs tree result) :
    ∃ found, rows (.obj result) [] = .ok found ∧
      (∀ row ∈ found, ∃ path, Path.Leads result path ∧ row = path.row result ∧
        row.KeepsColumnsIff path) ∧
      ∀ around selection given towards s report t,
        (groupLogs around selection given towards).run s = (.ok report, t) →
          report.summary.aggregations = .obj result →
            report.toJson.member? "rows" = .ok (some (shownRows found)) := by
  have hGroup := groupTree_of_groupBy (fun level hLevel => (hLevels level hLevel).countsBuckets) hTree
  have hTabular := isTabular_of_groupBy hLevels hTree
  obtain ⟨found, hFound, hPaths⟩ := hShape.exists_rows hGroup hTabular
  refine ⟨found, hFound, fun row hRow => ?_, ?_⟩
  · obtain ⟨path, hLeads, rfl⟩ := hPaths row hRow
    exact ⟨path, hLeads, rfl, keepsColumnsIff_row hLeads hGroup hTabular hNames hShape⟩
  · intro around selection given towards s report t hRun hResult
    exact member?_rows_of_groupLogs hRun (hResult ▸ hFound)

theorem shapedAs_traffic : ShapedAs trafficTree trafficResult := by
  have hPorts : Shaped (.obj (node .terms [("field", .str "dst_port"), ("size", .int 20)] []))
      (.obj [("buckets", .arr
        [.obj [("key", .int 22), ("doc_count", .int 2)],
          .obj [("key", .int 80), ("doc_count", .int 1)]])]) := by
    refine @Shaped.of_buckets _ _ [_, _] ⟨.terms, rfl, rfl⟩ rfl ?_
    intro bucket hBucket
    rcases List.mem_cons.mp hBucket with rfl | hBucket
    · exact ⟨⟨rfl, rfl⟩, shapedAs_nil (by decide) (by decide)⟩
    · cases List.mem_singleton.mp hBucket
      exact ⟨⟨rfl, rfl⟩, shapedAs_nil (by decide) (by decide)⟩
  have hBytes : Shaped (.obj (node .sum [("field", .str "bytes")] []))
      (.obj [("value", .int 70)]) :=
    .value (method?_node _ _ _) rfl rfl rfl
  refine .of_singleton ⟨by decide, by decide, by decide⟩ rfl ?_
  refine .of_bucket ⟨.terms, rfl, rfl⟩ rfl ⟨rfl, rfl⟩ ⟨⟨by decide, by decide, by decide⟩, ?_⟩
  intro name inner held hInner hHeld
  rw [within_node] at hInner
  rcases List.mem_cons.mp hInner with hPort | hSum
  · cases hPort
    cases hHeld
    exact hPorts
  · cases List.mem_singleton.mp hSum
    cases hHeld
    exact hBytes

theorem countsMany_traffic : ∀ level ∈ trafficLevels, CountsMany level.text := by
  intro level hLevel
  rcases List.mem_cons.mp hLevel with rfl | hLevel
  · exact .of_read (d := ⟨"src_ip", .terms, "src_ip", [("size", .int 20)]⟩) rfl rfl
  · cases List.mem_singleton.mp hLevel
    exact .of_read (d := ⟨"dst_port", .terms, "dst_port", [("size", .int 20)]⟩) rfl rfl

theorem rows_keepColumnsIff_traffic :
    (∀ level ∈ trafficLevels, CountsMany level.text) ∧
      groupBy (.arr (trafficLevels.map Level.toJson)) (.str "desc") = .ok (.obj trafficTree) ∧
      (namesOf trafficTree).Nodup ∧ ShapedAs trafficTree trafficResult ∧
      ∃ found, rows (.obj trafficResult) [] = .ok found ∧ found.length = 2 ∧
        ∀ row ∈ found, row.KeepsColumns := by
  have hNames : (namesOf trafficTree).Nodup := by decide
  obtain ⟨found, hFound, hRows, -⟩ :=
    rows_keepColumnsIff countsMany_traffic groupBy_traffic hNames shapedAs_traffic
  have hBoth : rows (.obj trafficResult) [] = .ok
      [[("src_ip", .str "10.0.0.1"), ("src_ip.hits", .int 3), ("sum_bytes", .int 70),
          ("dst_port", .int 22), ("dst_port.hits", .int 2)],
        [("src_ip", .str "10.0.0.1"), ("src_ip.hits", .int 3), ("sum_bytes", .int 70),
          ("dst_port", .int 80), ("dst_port.hits", .int 1)]] := rfl
  cases hBoth.symm.trans hFound
  refine ⟨countsMany_traffic, groupBy_traffic, hNames, shapedAs_traffic, _, hFound, rfl, ?_⟩
  intro row hRow
  obtain ⟨path, -, -, hIff⟩ := hRows row hRow
  have hLength : row.toMembers.length = row.length := by
    rcases List.mem_cons.mp hRow with rfl | hRow
    · rfl
    · cases List.mem_singleton.mp hRow
      rfl
  exact hIff.keeps (by_contra fun hShared => (hIff.loses hShared).ne hLength)

/-- Sites, and the numbers of hits in the documents of each. -/
def siteLevels : List Level :=
  [{ text := "site=host" }, { text := "site.hits" }]

def siteTree : Members :=
  [("site", .obj (node .terms [("field", .str "host"), ("size", .int 20)]
    [("site.hits", .obj (node .terms [("field", .str "site.hits"), ("size", .int 20)] []))]))]

def siteResult : Members :=
  [("site", .obj [("buckets", .arr [.obj [("key", .str "a"), ("doc_count", .int 3),
    ("site.hits", .obj [("buckets", .arr [.obj [("key", .int 7), ("doc_count", .int 2)]])])]])])]

theorem countsMany_sites : ∀ level ∈ siteLevels, CountsMany level.text := by
  intro level hLevel
  rcases List.mem_cons.mp hLevel with rfl | hLevel
  · exact .of_read (d := ⟨"site", .terms, "host", [("size", .int 20)]⟩) rfl rfl
  · cases List.mem_singleton.mp hLevel
    exact .of_read (d := ⟨"site.hits", .terms, "site.hits", [("size", .int 20)]⟩) rfl rfl

theorem shapedAs_sites : ShapedAs siteTree siteResult := by
  have hHits : Shaped (.obj (node .terms [("field", .str "site.hits"), ("size", .int 20)] []))
      (.obj [("buckets", .arr [.obj [("key", .int 7), ("doc_count", .int 2)]])]) :=
    .of_bucket ⟨.terms, rfl, rfl⟩ rfl ⟨rfl, rfl⟩ (shapedAs_nil (by decide) (by decide))
  refine .of_singleton ⟨by decide, by decide, by decide⟩ rfl ?_
  refine .of_bucket ⟨.terms, rfl, rfl⟩ rfl ⟨rfl, rfl⟩ ?_
  exact .of_singleton ⟨by decide, by decide, by decide⟩ rfl hHits

/-- The number of documents of a site is lost, since the hits in them are called as it. -/
theorem rows_overwrite_hits :
    (∀ level ∈ siteLevels, CountsMany level.text) ∧
      groupBy (.arr (siteLevels.map Level.toJson)) (.str "desc") = .ok (.obj siteTree) ∧
      (namesOf siteTree).Nodup ∧ ShapedAs siteTree siteResult ∧
      ∃ row : Row, rows (.obj siteResult) [] = .ok [row] ∧ ¬(row.map (·.1)).Nodup ∧
        (("site.hits" : Text), Json.int 3) ∈ row ∧ row.toMembers.get? "site.hits" = some (.int 7) ∧
        row.toMembers.length < row.length := by
  have hRows : rows (.obj siteResult) [] = .ok [[("site", .str "a"), ("site.hits", .int 3),
      ("site.hits", .int 7), ("site.hits.hits", .int 2)]] := rfl
  refine ⟨countsMany_sites, rfl, by decide, shapedAs_sites, _, hRows, by decide, ?_, rfl, by decide⟩
  exact List.mem_cons_of_mem _ List.mem_cons_self

end Flow

end LogQuery
