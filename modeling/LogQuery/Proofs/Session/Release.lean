import LogQuery.Proofs.Session.Exchanges
import LogQuery.Session.Iterate

/-! Going through all hits lets go of the scroll, however it ends, if there is a client to do so with.
What the session holds is at every moment the id of the latest answer that has one, and the last call
lets go of that. -/

namespace LogQuery.Session

open Cluster

variable {config : Config} {start s : Session} {es : List Exchange}

/-- A session in the middle of going through hits: what it and the cluster have said to each other
since the start, and what it holds. -/
structure Follows (config : Config) (start s : Session) (es : List Exchange) : Prop where
  exchanged : Exchanges start.cluster s.cluster es
  held : s.query.openScroll? = heldAfter start.query.openScroll? es
  connected : es ≠ [] → checkConnection config = .ok ()
  methods : ∀ e ∈ es, e.call.method = .search ∨ e.call.method = .scroll
  carries : CarriesLatest es

/-- Without a client nothing is said. -/
theorem Follows.eq_nil {failure : Failure} (h : Follows config start s es)
    (hConnection : checkConnection config = .error failure) : es = [] := by
  apply Classical.byContradiction
  intro hSome
  cases hConnection.symm.trans (h.connected hSome)

/-- What going on from a page does to the session: nothing, or it gets the next page and goes on. -/
theorem harvestFrom_cases (config : Config) (limit : Json) (wanted : Option Nat) (fuel taken : Nat)
    (page : Page) (s : Session) :
    (harvestFrom config limit wanted fuel taken page s).2 = s ∨
    (∃ failure t, (scroll config).run s = (.error failure, t) ∧
      (harvestFrom config limit wanted fuel taken page s).2 = t) ∨
    ∃ less more next t, fuel = less + 1 ∧ (scroll config).run s = (.ok next, t) ∧
      (harvestFrom config limit wanted fuel taken page s).2 =
        (harvestFrom config limit wanted less more next t).2 := by
  rw [harvestFrom.eq_def]
  dsimp only
  cases page.hits.truthy with
  | false => exact .inl rfl
  | true =>
      cases page.hits.parts with
      | error failure => exact .inl rfl
      | ok hits =>
          dsimp only
          rcases takeHits limit wanted taken hits with ⟨front, pause⟩
          cases pause with
          | enough => exact .inl rfl
          | failed failure => exact .inl rfl
          | more =>
              cases fuel with
              | zero => exact .inl rfl
              | succ fuel =>
                  rcases hScroll : (scroll config).run s with ⟨result, t⟩
                  cases result with
                  | error failure => exact .inr (.inl ⟨failure, t, rfl, rfl⟩)
                  | ok next => exact .inr (.inr ⟨fuel, taken + front.length, next, t, rfl, rfl, rfl⟩)

/-- The hits up to the end, and the session then, which may still hold a scroll. -/
def collect (config : Config) (index limit lifetime : Json) (wanted : Option Nat) (s : Session) :
    Harvest × Session :=
  let s := { s with query := s.query.setScanScroll lifetime }
  match (execute config index).run s with
  | (.error failure, s) => (⟨[], some failure⟩, s)
  | (.ok page, s) =>
    harvestFrom config limit wanted ((s.cluster.replies .scroll).length + 1) 0 page s

theorem iterate_eq_finish {index limit lifetime : Json} {wanted : Option Nat} {s : Session}
    (h : wanted ≠ some 0) :
    iterate config index limit lifetime wanted s =
      finish config (collect config index limit lifetime wanted s).1
        (collect config index limit lifetime wanted s).2 := by
  rw [iterate, if_neg (by simpa using h)]
  rfl

theorem finish_fst (harvest : Harvest) (s : Session) (hConnection : checkConnection config = .ok ()) :
    (finish config harvest s).1 = harvest := by
  cases hHeld : s.query.openScroll? with
  | none => rw [finish, run_clear_of_none hHeld]
  | some id => rw [finish, run_clear_of_some hHeld hConnection]

def pagedConfig : Config where
  cluster := [("url", .str "http://localhost:9200"), ("timeout_ms", .float 30000)]
  query := []
  logLevel := "INFO"

def hitOf (id : Text) : Json :=
  .obj [("_id", .str id)]

/-- The members of an answer that is a page of hits. -/
def pageOf (hits : List Json) : Members :=
  [("hits", .obj [("hits", .arr hits)])]

/-- Two hits with the id of a scroll, then one more without it, and then no more. -/
def pagedReplies : Method → List Reply
  | .search => [.answer (.obj (("_scroll_id", .str "s1") :: pageOf [hitOf "1", hitOf "2"]))]
  | .scroll => [.answer (.obj (pageOf [hitOf "3"]))]
  | _ => []

/-- A request that still holds another scroll. -/
def pagedSession : Session where
  query := { scrollId := .str "s0" }
  cluster := ⟨pagedReplies, []⟩

end LogQuery.Session
