import LogQuery.Text.Basic

/-!
The catalogue of aggregations: which group documents into buckets and which compute values, which of
the latter give a single value, and which of the former can be ordered.
-/

namespace LogQuery.Aggregation

/-- An aggregation of the catalogue. -/
inductive Method where
  | terms
  | significantTerms
  | rareTerms
  | histogram
  | dateHistogram
  | geohashGrid
  | missing
  | avg
  | max
  | min
  | sum
  | cardinality
  | stats
  | extendedStats
  | percentiles
  | geoCentroid
deriving DecidableEq, Repr

namespace Method

def name : Method → Text
  | terms => "terms"
  | significantTerms => "significant_terms"
  | rareTerms => "rare_terms"
  | histogram => "histogram"
  | dateHistogram => "date_histogram"
  | geohashGrid => "geohash_grid"
  | missing => "missing"
  | avg => "avg"
  | max => "max"
  | min => "min"
  | sum => "sum"
  | cardinality => "cardinality"
  | stats => "stats"
  | extendedStats => "extended_stats"
  | percentiles => "percentiles"
  | geoCentroid => "geo_centroid"

def isBucket : Method → Bool
  | terms | significantTerms | rareTerms | histogram | dateHistogram | geohashGrid | missing => true
  | _ => false

def isSingleValue : Method → Bool
  | avg | max | min | sum | cardinality => true
  | _ => false

/-- Has buckets that can be ordered by a single value. -/
def isOrderable : Method → Bool
  | terms | histogram | dateHistogram => true
  | _ => false

def all : List Method :=
  [terms, significantTerms, rareTerms, histogram, dateHistogram, geohashGrid, missing, avg, max, min,
    sum, cardinality, stats, extendedStats, percentiles, geoCentroid]

def named? (name : Text) : Option Method :=
  all.find? fun m => m.name == name

theorem mem_all (m : Method) : m ∈ all := by
  cases m <;> decide

theorem named?_name (m : Method) : named? m.name = some m := by
  cases m <;> decide

theorem name_of_named? {name : Text} {m : Method} (h : named? name = some m) : m.name = name := by
  simpa using List.find?_some h

theorem isBucket_of_isOrderable {m : Method} (h : m.isOrderable = true) : m.isBucket = true := by
  revert h
  cases m <;> decide

theorem isBucket_of_isSingleValue {m : Method} (h : m.isSingleValue = true) :
    m.isBucket = false := by
  revert h
  cases m <;> decide

end Method

end LogQuery.Aggregation
