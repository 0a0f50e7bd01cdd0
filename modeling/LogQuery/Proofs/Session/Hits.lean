import LogQuery.Proofs.Session.Release

/-! What going through all hits gives: the hits of the pages up to the first empty one, and no more of
them than the limit. A limit of zero is looked at too late. -/

namespace LogQuery

namespace Cluster

/-- The answer is a page with the hits. -/
def Reply.Gives (reply : Reply) (hits : List Json) : Prop :=
  ∃ document page, reply = .answer document ∧ Page.read document = .ok page ∧ page.hits = .arr hits

theorem Reply.Gives.page {reply : Reply} {hits : List Json} (h : reply.Gives hits)
    (refused : Text → Failure) :
    ∃ page, reply.page refused = .ok page ∧ page.hits = .arr hits := by
  obtain ⟨document, page, rfl, hRead, hHits⟩ := h
  refine ⟨page, ?_, hHits⟩
  have hId : ∃ id, scrollId document = .ok id := by
    simp only [Page.read, bind_eq_ok_iff] at hRead
    obtain ⟨_, _, _, _, _, _, _, _, _, _, id, hId, _⟩ := hRead
    exact ⟨id, hId⟩
  obtain ⟨id, hId⟩ := hId
  rw [Reply.page, hId]
  exact hRead

/-- Where no answer is left, an empty page is given. -/
theorem gives_nextReply {replies : List Reply} {pages : List (List Json)}
    (h : List.Forall₂ Reply.Gives replies pages) :
    (nextReply replies).1.Gives (pages.headD []) ∧
      List.Forall₂ Reply.Gives (nextReply replies).2 pages.tail := by
  cases h with
  | nil => exact ⟨⟨_, _, rfl, rfl, rfl⟩, .nil⟩
  | cons hFirst hRest => exact ⟨hFirst, hRest⟩

end Cluster

namespace Session

open Cluster

variable {config : Config} {s : Session}

/-! ## Limits -/

/-- At most as many as a limit allows. -/
def within {α : Type} (limit : Option Nat) (as : List α) : List α :=
  match limit with
  | none => as
  | some n => as.take n

theorem within_append_of_le {α : Type} {limit : Option Nat} {n taken : Nat} {as : List α}
    (hLimit : limit = some n) (h : n ≤ taken + as.length) (more : List α) :
    within (limit.map (· - taken)) (as ++ more) = within (limit.map (· - taken)) as := by
  subst hLimit
  have hLength : n - taken ≤ as.length := by omega
  exact List.take_append_of_le_length hLength

theorem within_append_of_lt {α : Type} {limit : Option Nat} {taken : Nat} {as : List α}
    (h : ∀ n, limit = some n → taken + as.length < n) (more : List α) :
    within (limit.map (· - taken)) (as ++ more) =
      as ++ within (limit.map (· - (taken + as.length))) more := by
  cases limit with
  | none => rfl
  | some n =>
      have hLess := h n rfl
      have hLength : as.length ≤ n - taken := by omega
      have hRest : n - taken - as.length = n - (taken + as.length) := by omega
      show (as ++ more).take (n - taken) = as ++ more.take (n - (taken + as.length))
      rw [List.take_append, List.take_of_length_le hLength, hRest]

theorem within_nil {α : Type} (limit : Option Nat) : within limit ([] : List α) = [] := by
  cases limit with
  | none => rfl
  | some n => exact List.take_nil

/-- A limit as it is given. -/
def limitJson : Option Nat → Json
  | none => .null
  | some n => .int n

/-- The limit as it is kept: it is looked at only after a hit, so at least one is taken. -/
def kept (limit : Option Nat) : Option Nat :=
  limit.map (max 1)

theorem isReached_int (n taken : Nat) : isReached (.int n) taken = .ok (decide (n ≤ taken)) := by
  have hReached : ((Numeral.int n).lt (Numeral.int taken) ||
      (Numeral.int n).same (Numeral.int taken)) = decide (n ≤ taken) := by
    rw [Bool.eq_iff_iff]
    simp only [Numeral.lt, Numeral.same, Numeral.position?, Numeral.Position.lt, Bool.or_eq_true,
      Bool.and_eq_true, Bool.not_eq_true', decide_eq_true_eq, decide_eq_false_iff_not]
    omega
  exact congrArg Except.ok hReached

theorem takeHits_null (taken : Nat) (hits : List Json) :
    takeHits .null none taken hits = (hits, .more) := by
  induction hits generalizing taken with
  | nil => rfl
  | cons hit hits ih =>
      have hRest := ih (taken + 1)
      simp [takeHits, isReached, hRest]

theorem takeHits_cons_int (n taken : Nat) (hit : Json) (hits : List Json) :
    takeHits (.int n) none taken (hit :: hits) =
      if n ≤ taken + 1 then ([hit], .enough)
      else (hit :: (takeHits (.int n) none (taken + 1) hits).1,
        (takeHits (.int n) none (taken + 1) hits).2) := by
  rw [takeHits, if_neg (by simp), isReached_int]
  by_cases hReached : n ≤ taken + 1
  · rw [if_pos hReached, decide_eq_true hReached]
  · rw [if_neg hReached, decide_eq_false hReached]

theorem takeHits_int {n taken : Nat} (h : taken < max 1 n) (hits : List Json) :
    takeHits (.int n) none taken hits =
      if max 1 n ≤ taken + hits.length then (hits.take (max 1 n - taken), .enough)
      else (hits, .more) := by
  induction hits generalizing taken with
  | nil =>
      have hMore : ¬max 1 n ≤ taken + ([] : List Json).length := Nat.not_le.mpr h
      rw [if_neg hMore]
      rfl
  | cons hit hits ih =>
      have hLength : taken + 1 + hits.length = taken + (hit :: hits).length := by
        rw [List.length_cons]
        omega
      rw [takeHits_cons_int]
      by_cases hReached : n ≤ taken + 1
      · -- This is the first hit after which the limit is looked at and found to be reached.
        have hOne : max 1 n - taken = 1 := by omega
        have hEnough : max 1 n ≤ taken + (hit :: hits).length := by
          rw [← hLength]
          omega
        rw [if_pos hReached, if_pos hEnough, hOne]
        rfl
      · have hMore : max 1 n - taken = max 1 n - (taken + 1) + 1 := by omega
        rw [if_neg hReached, ih (by omega), hLength, hMore, List.take_succ_cons]
        split <;> rfl

/-- Taking hits of a page, where some may still be taken. -/
theorem takeHits_limit {limit : Option Nat} {taken : Nat} (h : ∀ n, kept limit = some n → taken < n)
    (hits : List Json) :
    takeHits (limitJson limit) none taken hits =
      if ∃ n, kept limit = some n ∧ n ≤ taken + hits.length then
        (within ((kept limit).map (· - taken)) hits, .enough)
      else (hits, .more) := by
  cases limit with
  | none =>
      rw [if_neg (by simp [kept])]
      exact takeHits_null taken hits
  | some n =>
      have hTake := takeHits_int (h (max 1 n) rfl) hits
      simpa [kept, within, limitJson] using hTake

/-! ## Pages -/

/-- The hits of the pages before the first empty one. -/
def upToEmpty (pages : List (List Json)) : List Json :=
  (pages.takeWhile fun page => !page.isEmpty).flatten

theorem upToEmpty_nil_cons (pages : List (List Json)) : upToEmpty ([] :: pages) = [] := rfl

theorem upToEmpty_cons {page : List Json} (h : page ≠ []) (pages : List (List Json)) :
    upToEmpty (page :: pages) = page ++ upToEmpty (pages.headD [] :: pages.tail) := by
  have hPage : upToEmpty (page :: pages) = page ++ upToEmpty pages := by
    simp [upToEmpty, h]
  rw [hPage]
  cases pages <;> rfl

theorem harvestFrom_of_empty {limit : Json} {wanted : Option Nat} {fuel taken : Nat} {page : Page}
    (h : page.hits = .arr []) :
    harvestFrom config limit wanted fuel taken page s = (⟨[], none⟩, s) := by
  have hFalsy : ¬page.hits.truthy = true := by
    simp [h, Json.truthy]
  rw [harvestFrom.eq_def]
  exact if_neg hFalsy

theorem harvestFrom_succ {limit : Json} {wanted : Option Nat} {fuel taken : Nat} {page : Page}
    {hits : List Json} (h : page.hits = .arr hits) (hSome : hits ≠ []) :
    harvestFrom config limit wanted (fuel + 1) taken page s =
      match takeHits limit wanted taken hits with
      | (hits, .enough) => (⟨hits, none⟩, s)
      | (hits, .failed failure) => (⟨hits, some failure⟩, s)
      | (hits, .more) =>
        match (scroll config).run s with
        | (.error failure, s) => (⟨hits, some failure⟩, s)
        | (.ok page, s) =>
          let (rest, s) := harvestFrom config limit wanted fuel (taken + hits.length) page s
          (⟨hits ++ rest.hits, rest.failure⟩, s) := by
  have hTruthy : (Json.arr hits).truthy = true := by
    simpa [Json.truthy] using hSome
  rw [harvestFrom, h, if_pos hTruthy]
  rfl

/-- The hits from a page on. -/
theorem harvestFrom_hits {limit : Option Nat} {fuel taken : Nat} {page : Page} {hits : List Json}
    {pages : List (List Json)} (hConnection : checkConnection config = .ok ())
    (hHits : page.hits = .arr hits) (hOpen : s.query.openScroll?.isSome = true)
    (hPages : List.Forall₂ Reply.Gives (s.cluster.replies .scroll) pages)
    (hTaken : ∀ n, kept limit = some n → taken < n) (hFuel : pages.length < fuel ∨ hits = []) :
    (harvestFrom config (limitJson limit) none fuel taken page s).1 =
      ⟨within ((kept limit).map (· - taken)) (upToEmpty (hits :: pages)), none⟩ := by
  induction fuel generalizing taken page hits pages s with
  | zero =>
      obtain rfl : hits = [] := hFuel.resolve_left (Nat.not_lt_zero _)
      rw [harvestFrom_of_empty hHits, upToEmpty_nil_cons, within_nil]
  | succ fuel ih =>
      by_cases hEmpty : hits = []
      · subst hEmpty
        rw [harvestFrom_of_empty hHits, upToEmpty_nil_cons, within_nil]
      · rw [harvestFrom_succ hHits hEmpty, takeHits_limit hTaken, upToEmpty_cons hEmpty]
        by_cases hEnough : ∃ n, kept limit = some n ∧ n ≤ taken + hits.length
        · obtain ⟨n, hLimit, hLe⟩ := hEnough
          rw [if_pos ⟨n, hLimit, hLe⟩, within_append_of_le hLimit hLe]
        · have hMore : ∀ n, kept limit = some n → taken + hits.length < n := by
            intro n hLimit
            by_contra hLess
            exact hEnough ⟨n, hLimit, Nat.not_lt.mp hLess⟩
          have hTruthy : s.query.scrollId.truthy = true := by
            rwa [← Query.isSome_openScroll?]
          obtain ⟨hGives, hRest⟩ := gives_nextReply hPages
          obtain ⟨next, hNext, hNextHits⟩ := hGives.page .scrollFailed
          have hScroll := run_scroll hConnection hTruthy
          have hReply : (Cluster.send .scroll (scrollArguments s.query) s.cluster).1.page
              .scrollFailed = .ok next := hNext
          rw [hReply] at hScroll
          rw [if_neg hEnough, within_append_of_lt hMore, hScroll]
          have hOpenNext : (s.after .scroll (scrollArguments s.query)
              (·.orElse s.query.scrollId)).query.openScroll?.isSome = true := by
            rw [openScroll?_after_scroll, Option.isSome_or, hOpen, Bool.or_true]
          have hFuelNext : pages.tail.length < fuel ∨ pages.headD [] = [] := by
            cases pages with
            | nil => exact .inr rfl
            | cons page pages =>
                refine .inl ?_
                have hLess := hFuel.resolve_right hEmpty
                simpa using hLess
          have hHarvest := ih hNextHits hOpenNext hRest hMore hFuelNext
          dsimp only
          rw [hHarvest]

/-! ## All hits -/

theorem within_kept_eq_iff (limit : Option Nat) (page : List Json) (pages : List (List Json)) :
    within (kept limit) (upToEmpty (page :: pages)) = within limit (upToEmpty (page :: pages)) ↔
      ¬(limit = some 0 ∧ page ≠ []) := by
  cases limit with
  | none => simp [kept]
  | some n =>
      cases n with
      | succ n => simp [kept]
      | zero =>
          cases page with
          | nil => simp [upToEmpty_nil_cons, within_nil]
          | cons hit page => simp [kept, within, upToEmpty]

/-- After a search that is answered with a page, the hits are those from that page on. -/
theorem exists_collect_eq {index lifetime : Json} {arguments : Members} {page : Page} (limit : Json)
    (wanted : Option Nat) (hCan : CanSearch config index (s.query.setScanScroll lifetime) arguments)
    (hPage : (nextReply (s.cluster.replies .search)).1.page .searchFailed = .ok page) :
    ∃ t, collect config index limit lifetime wanted s =
        harvestFrom config limit wanted ((t.cluster.replies .scroll).length + 1) 0 page t ∧
      t.cluster.replies .scroll = s.cluster.replies .scroll ∧
      t.query.openScroll? = (nextReply (s.cluster.replies .search)).1.scrollId? := by
  let opened : Session := { s with query := s.query.setScanScroll lifetime }
  obtain ⟨size, hRun⟩ := run_execute (s := opened) hCan
  have hReply : (Cluster.send .search arguments opened.cluster).1.page .searchFailed = .ok page :=
    hPage
  rw [hReply] at hRun
  refine ⟨({ opened with query := opened.query.sized size } : Session).after .search arguments id,
    ?_, rfl, ?_⟩
  · rw [collect, hRun]
  · rw [openScroll?_after_search, if_pos (Reply.noted_of_page hReply)]
    rfl

/-- Where each answer is a page and the first one opens a scroll, going through all hits gives those
of the pages up to the first empty one, within the limit as it is kept. These are the hits that were
asked for, unless none was asked for and there is one. -/
theorem iterate_hits_eq_iff {index lifetime : Json} {arguments : Members} {first : Reply}
    {others : List Reply} {page : List Json} {pages : List (List Json)} (limit : Option Nat)
    (hCan : CanSearch config index (s.query.setScanScroll lifetime) arguments)
    (hSearch : s.cluster.replies .search = first :: others)
    (hId : first.scrollId?.isSome = true) (hFirst : first.Gives page)
    (hPages : List.Forall₂ Reply.Gives (s.cluster.replies .scroll) pages) :
    (iterate config index (limitJson limit) lifetime none s).1 =
        ⟨within (kept limit) (upToEmpty (page :: pages)), none⟩ ∧
      ((iterate config index (limitJson limit) lifetime none s).1.hits =
          within limit (upToEmpty (page :: pages)) ↔ ¬(limit = some 0 ∧ page ≠ [])) := by
  have hAll : (iterate config index (limitJson limit) lifetime none s).1 =
      ⟨within (kept limit) (upToEmpty (page :: pages)), none⟩ := by
    obtain ⟨found, hPage, hHits⟩ := hFirst.page .searchFailed
    have hReply : (nextReply (s.cluster.replies .search)).1 = first := by
      rw [hSearch]
      rfl
    obtain ⟨t, hCollect, hScrolls, hScroll⟩ :=
      exists_collect_eq (limitJson limit) none hCan (hReply ▸ hPage)
    have hOpen : t.query.openScroll?.isSome = true := by
      rwa [hScroll, hReply]
    have hTaken : ∀ n, kept limit = some n → 0 < n := by
      intro n hLimit
      obtain ⟨m, -, rfl⟩ := Option.map_eq_some_iff.mp hLimit
      omega
    rw [← hScrolls] at hPages
    have hFuel : pages.length < (t.cluster.replies .scroll).length + 1 := by
      rw [hPages.length_eq]
      exact Nat.lt_succ_self _
    have hStarted : (none : Option Nat) ≠ some 0 := by simp
    rw [iterate_eq_finish hStarted, finish_fst _ _ hCan.connection, hCollect,
      harvestFrom_hits hCan.connection hHits hOpen hPages hTaken (.inl hFuel)]
    simp
  refine ⟨hAll, ?_⟩
  rw [hAll]
  exact within_kept_eq_iff limit page pages

theorem canSearch_paged : ∃ arguments,
    CanSearch pagedConfig (.str "logs-*") (pagedSession.query.setScanScroll .null) arguments :=
  ⟨_, rfl, rfl, _, rfl, rfl⟩

/-- The first answer opens a scroll, and the others are pages too. -/
theorem gives_paged : ∃ first, pagedSession.cluster.replies .search = [first] ∧
    first.scrollId?.isSome = true ∧ first.Gives [hitOf "1", hitOf "2"] ∧
      List.Forall₂ Reply.Gives (pagedSession.cluster.replies .scroll) [[hitOf "3"]] := by
  refine ⟨_, rfl, rfl, ⟨_, _, rfl, rfl, rfl⟩, .cons ⟨_, _, rfl, rfl, rfl⟩ .nil⟩

theorem iterate_hits_eq_iff_paged :
    (∃ arguments,
      CanSearch pagedConfig (.str "logs-*") (pagedSession.query.setScanScroll .null) arguments) ∧
      (∃ first, pagedSession.cluster.replies .search = [first] ∧ first.scrollId?.isSome = true ∧
        first.Gives [hitOf "1", hitOf "2"]) ∧
      List.Forall₂ Reply.Gives (pagedSession.cluster.replies .scroll) [[hitOf "3"]] ∧
      (iterate pagedConfig (.str "logs-*") (.int 2) .null none pagedSession).1.hits =
        [hitOf "1", hitOf "2"] := by
  obtain ⟨arguments, hCan⟩ := canSearch_paged
  obtain ⟨first, hSearch, hId, hFirst, hPages⟩ := gives_paged
  have hIff := (iterate_hits_eq_iff (some 2) hCan hSearch hId hFirst hPages).2
  have hHits := hIff.mpr (by simp)
  exact ⟨⟨arguments, hCan⟩, ⟨first, hSearch, hId, hFirst⟩, hPages, hHits⟩

/-- Where no hits are asked for, one is given. -/
theorem iterate_hits_ne_paged :
    (∃ first, pagedSession.cluster.replies .search = [first] ∧ first.scrollId?.isSome = true ∧
        first.Gives [hitOf "1", hitOf "2"]) ∧
      List.Forall₂ Reply.Gives (pagedSession.cluster.replies .scroll) [[hitOf "3"]] ∧
      (iterate pagedConfig (.str "logs-*") (.int 0) .null none pagedSession).1.hits =
        [hitOf "1"] ∧
      within (some 0) (upToEmpty [[hitOf "1", hitOf "2"], [hitOf "3"]]) = [] := by
  obtain ⟨first, hSearch, hId, hFirst, hPages⟩ := gives_paged
  exact ⟨⟨first, hSearch, hId, hFirst⟩, hPages, rfl, rfl⟩

end Session

end LogQuery
