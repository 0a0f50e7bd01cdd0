import LogQuery.Proofs.Session.Release
import LogQuery.Proofs.Time.Lifetime

/-! The lifetime of the scroll that all hits are gone through with. It is set before the search and never
changed, so every call for a page asks for the same one. A text that only looks like a lifetime is
asked for as it is. -/

namespace LogQuery

namespace Time.Lifetime

/-- What a given text becomes: itself if it is a lifetime, and a minute if it is none. -/
structure IsGranted (given life : Text) : Prop where
  exact : IsExact life
  same : IsExact given → life = given
  minute : ¬IsExact given → life = "1m"

/-- The lifetime that is set for a given text. -/
def granted (given : Text) : Text :=
  if isLifetime given then given else defaultLifetime

theorem granted_of_isLookalike {given : Text} (h : IsLookalike given) : granted given = given :=
  if_pos (isLifetime_iff.mpr (.inr h))

/-- What is set is right for every text but one that only looks like a lifetime. -/
theorem isGranted_granted_iff {given : Text} : IsGranted given (granted given) ↔ ¬IsLookalike given := by
  constructor
  · intro hGranted hLooks
    have hExact := hGranted.exact
    rw [granted_of_isLookalike hLooks] at hExact
    exact hExact.not_isLookalike hLooks
  · intro hNot
    by_cases hExact : IsExact given
    · have hSame : granted given = given := if_pos (isLifetime_iff.mpr (.inl hExact))
      rw [hSame]
      exact ⟨hExact, fun _ => rfl, fun hOther => absurd hExact hOther⟩
    · have hMinute : granted given = defaultLifetime := by
        apply if_neg
        rw [isLifetime_iff]
        exact fun hEither => hEither.elim hExact hNot
      rw [hMinute]
      exact ⟨isExact_defaultLifetime, fun hOther => absurd hOther hExact, fun _ => rfl⟩

theorem granted_ne_nil (given : Text) : granted given ≠ [] := by
  unfold granted
  split
  · rename_i hLifetime
    rintro rfl
    cases hLifetime
  · decide

end Time.Lifetime

open Cluster Time

theorem Query.scroll_setScanScroll (q : Query) (given : Text) :
    (q.setScanScroll (.str given)).scroll = .str (Lifetime.granted given) :=
  rfl

/-- The call asks for hits: for the first page of them, or for the next one. -/
def Cluster.Call.AsksForPage (call : Call) : Prop :=
  call.method = .search ∨ call.method = .scroll

namespace Session

variable {index : Json} {life : Text} {start s : Session}

/-- The session is to keep its scroll for the lifetime, and since the start each of its calls for a page
asked for that. -/
structure AsksFor (life : Text) (start s : Session) : Prop where
  kept : s.query.scroll = .str life
  sent : ∃ calls, s.cluster.calls = start.cluster.calls ++ calls ∧
    ∀ call ∈ calls, call.AsksForPage → call.arguments.get? "scroll" = some (.str life)

theorem asksFor_start (hKept : s.query.scroll = .str life) (hCluster : s.cluster = start.cluster) :
    AsksFor life start s :=
  ⟨hKept, [], by rw [hCluster, List.append_nil], by simp⟩

/-! ## Arguments -/

theorem get?_scroll_searchArguments {q : Query} {arguments : Members} (h : q.scroll = .str life)
    (hArguments : q.searchArguments index = .ok arguments) :
    arguments.get? "scroll" = some (.str life) := by
  obtain ⟨x, -, rfl⟩ := Query.searchArguments_eq_ok_iff.mp hArguments
  have hOther : ("scroll" : Text) ≠ "body" := by decide
  rw [Query.argumentsAround, Members.get?_cons, if_neg hOther, Query.parameters, h]
  rfl

theorem get?_scroll_scrollArguments {q : Query} (h : q.scroll = .str life) (hSome : life ≠ []) :
    (scrollArguments q).get? "scroll" = some (.str life) := by
  have hGiven : (Json.str life).truthy = true := bne_iff_ne.mpr hSome
  have hLife : q.scroll.orElse (.str defaultLifetime) = .str life := by
    rw [h, Json.orElse, if_pos hGiven]
  rw [scrollArguments, hLife]
  rfl

/-! ## Steps -/

/-- One more call, which asks for the lifetime if it asks for a page. -/
theorem AsksFor.call {t : Session} {method : Method} {arguments : Members} (h : AsksFor life start s)
    (hQuery : t.query.scroll = s.query.scroll)
    (hCluster : t.cluster = (Cluster.send method arguments s.cluster).2)
    (hPage : (⟨method, arguments⟩ : Call).AsksForPage →
      arguments.get? "scroll" = some (.str life)) : AsksFor life start t := by
  obtain ⟨calls, hCalls, hSent⟩ := h.sent
  constructor
  · rw [hQuery, h.kept]
  · refine ⟨calls ++ [⟨method, arguments⟩], ?_, ?_⟩
    · rw [hCluster, calls_send, hCalls, List.append_assoc]
    · intro call hMem
      rcases List.mem_append.mp hMem with hEarlier | hLast
      · exact hSent call hEarlier
      · rw [List.mem_singleton.mp hLast]
        exact hPage

theorem AsksFor.after {method : Method} {arguments : Members} (h : AsksFor life start s)
    (note : Json → Json) (hPage : (⟨method, arguments⟩ : Call).AsksForPage →
      arguments.get? "scroll" = some (.str life)) :
    AsksFor life start (s.after method arguments note) := by
  apply h.call _ rfl hPage
  rw [Session.after]
  cases (Cluster.send method arguments s.cluster).1.noted? <;> rfl

theorem AsksFor.execute (h : AsksFor life start s) (config : Config) (index : Json) :
    AsksFor life start ((execute config index).run s).2 := by
  rcases run_execute_cases config index s with ⟨failure, size, hRun⟩ | ⟨arguments, hCan⟩
  · rw [hRun]
    exact ⟨h.kept, h.sent⟩
  · obtain ⟨filled, hRun⟩ := run_execute hCan
    obtain ⟨size, -, hArguments⟩ := hCan.arguments
    have hSized : AsksFor life start { s with query := s.query.sized filled } := ⟨h.kept, h.sent⟩
    rw [hRun]
    exact hSized.after id fun _ =>
      get?_scroll_searchArguments (q := s.query.sized size) h.kept hArguments

theorem AsksFor.scroll (h : AsksFor life start s) (hSome : life ≠ []) (config : Config) :
    AsksFor life start ((Session.scroll config).run s).2 := by
  cases hOpen : s.query.scrollId.truthy with
  | false =>
      rw [run_scroll_of_none hOpen]
      exact h
  | true =>
      cases hConnection : checkConnection config with
      | error failure =>
          rw [run_scroll_of_connection hConnection hOpen]
          exact h
      | ok _ =>
          rw [run_scroll hConnection hOpen]
          exact h.after _ fun _ => get?_scroll_scrollArguments h.kept hSome

theorem AsksFor.clear (h : AsksFor life start s) (config : Config) :
    AsksFor life start ((Session.clear config).run s).2 := by
  cases hOpen : s.query.openScroll? with
  | none =>
      rw [run_clear_of_none hOpen]
      exact h
  | some id =>
      cases hConnection : checkConnection config with
      | error failure =>
          have hGiven := (Json.given?_eq_some_iff.mp hOpen).1
          rw [run_clear_of_connection hConnection hGiven]
          exact h
      | ok _ =>
          rw [run_clear_of_some hOpen hConnection]
          refine h.call rfl rfl ?_
          intro hPage
          exact hPage.elim nofun nofun

/-! ## All hits -/

/-- However many pages are gone through. -/
theorem AsksFor.harvestFrom (h : AsksFor life start s) (hSome : life ≠ []) (config : Config)
    (limit : Json) (wanted : Option Nat) (fuel taken : Nat) (page : Page) :
    AsksFor life start (harvestFrom config limit wanted fuel taken page s).2 := by
  induction fuel using Nat.strongRecOn generalizing taken page s with
  | ind fuel ih =>
      have hNext := h.scroll hSome config
      rcases harvestFrom_cases config limit wanted fuel taken page s with
        hSame | ⟨failure, t, hRun, hEnd⟩ | ⟨less, more, next, t, hFuel, hRun, hEnd⟩
      · rw [hSame]
        exact h
      · rw [hRun] at hNext
        rw [hEnd]
        exact hNext
      · rw [hRun] at hNext
        rw [hEnd]
        exact ih less (by omega) hNext more next

theorem AsksFor.finish (h : AsksFor life start s) (config : Config) (harvest : Harvest) :
    AsksFor life start (finish config harvest s).2 := by
  have hClear := h.clear config
  rw [Session.finish]
  rcases hRun : (Session.clear config).run s with ⟨result, t⟩
  rw [hRun] at hClear
  cases result <;> exact hClear

theorem asksFor_collect (config : Config) (index limit : Json) (wanted : Option Nat) (given : Text)
    (s : Session) :
    AsksFor (Lifetime.granted given) s (collect config index limit (.str given) wanted s).2 := by
  let started : Session := { s with query := s.query.setScanScroll (.str given) }
  have hStart : AsksFor (Lifetime.granted given) s started := asksFor_start rfl rfl
  have hSearch := hStart.execute config index
  rw [collect]
  rcases hRun : (execute config index).run started with ⟨result, t⟩
  rw [hRun] at hSearch
  cases result with
  | error failure => exact hSearch
  | ok page => exact hSearch.harvestFrom (Lifetime.granted_ne_nil given) config limit wanted _ 0 page

/-- Letting go of the scroll asks for no page. -/
theorem asksFor_iterate (config : Config) (index limit : Json) {wanted : Option Nat} (given : Text)
    (s : Session) (hStarted : wanted ≠ some 0) :
    AsksFor (Lifetime.granted given) s (iterate config index limit (.str given) wanted s).2 := by
  rw [iterate_eq_finish hStarted]
  exact (asksFor_collect config index limit wanted given s).finish config _

/-- One lifetime is set for a given text, directly or to go through all hits with, and each call for a page
asks for that one. It is right exactly if the text does not only look like a lifetime; a text that does is
asked for as it is. -/
theorem exists_lifetime_isGranted_iff (config : Config) (index limit : Json) {wanted : Option Nat}
    (given : Text) (s : Session) (hStarted : wanted ≠ some 0) :
    ∃ life, (∀ q : Query, (q.setScanScroll (.str given)).scroll = .str life) ∧
      AsksFor life s (iterate config index limit (.str given) wanted s).2 ∧
      (Lifetime.IsGranted given life ↔ ¬Lifetime.IsLookalike given) ∧
      (Lifetime.IsLookalike given → life = given) := by
  refine ⟨Lifetime.granted given, ?_, ?_, ?_, ?_⟩
  · intro q
    exact q.scroll_setScanScroll given
  · exact asksFor_iterate config index limit given s hStarted
  · exact Lifetime.isGranted_granted_iff
  · exact Lifetime.granted_of_isLookalike

theorem exists_lifetime_isGranted_iff_paged :
    (none : Option Nat) ≠ some 0 ∧ Lifetime.IsExact "30s" ∧
      AsksFor "30s" pagedSession
        (iterate pagedConfig (.str "logs-*") .null (.str "30s") none pagedSession).2 ∧
      (iterate pagedConfig (.str "logs-*") .null (.str "30s") none
        pagedSession).2.cluster.calls.length = 4 := by
  have hStarted : (none : Option Nat) ≠ some 0 := by simp
  have hExact : Lifetime.IsExact "30s" := ⟨"30", "s", rfl, by decide, by decide, by decide⟩
  obtain ⟨life, -, hAsks, hGranted, -⟩ :=
    exists_lifetime_isGranted_iff pagedConfig (.str "logs-*") .null "30s" pagedSession hStarted
  obtain rfl := (hGranted.mpr hExact.not_isLookalike).same hExact
  exact ⟨hStarted, hExact, hAsks, rfl⟩

/-- A minute before a line feed, and three minutes in the digits of another script, are set as they are,
and the cluster is asked for them. -/
theorem setScanScroll_lookalikes :
    ¬Lifetime.IsExact "1m\n" ∧ ¬Lifetime.IsExact "\u0663m" ∧
      (({} : Query).setScanScroll (.str "1m\n")).scroll = .str "1m\n" ∧
      (({} : Query).setScanScroll (.str "\u0663m")).scroll = .str "\u0663m" ∧
      ∃ call ∈ (iterate pagedConfig (.str "logs-*") .null (.str "1m\n") none
        pagedSession).2.cluster.calls,
        call.method = .search ∧ call.arguments.get? "scroll" = some (.str "1m\n") := by
  have hEnded : Lifetime.IsLookalike "1m\n" :=
    ⟨"1", "m", ⟨by decide, by decide, by decide⟩, .inl rfl⟩
  have hArabic : Lifetime.IsLookalike "\u0663m" :=
    ⟨"\u0663", "m", ⟨by decide, by decide, by decide⟩, .inr ⟨rfl, by decide⟩⟩
  exact ⟨fun hExact => hExact.not_isLookalike hEnded, fun hExact => hExact.not_isLookalike hArabic,
    rfl, rfl, _, List.mem_cons_self, rfl, rfl⟩

end Session

end LogQuery
