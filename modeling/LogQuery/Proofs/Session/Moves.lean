import LogQuery.Proofs.Session.Release

/-! The steps that may be taken in a session: what each says to the cluster, and what scroll is held
after it. -/

namespace LogQuery

theorem Step.run_discard {σ α : Type} (x : Step σ α) (s : σ) :
    (discard x).run s = ((x.run s).1.map fun _ => (), (x.run s).2) := by
  show (x.andThen fun _ => done ()) s = _
  unfold andThen run
  rcases x s with ⟨result, t⟩
  cases result <;> rfl

namespace Cluster

/-- The reply is a page of hits. -/
def Reply.IsPage (reply : Reply) : Prop :=
  ∃ document page, reply = .answer document ∧ Page.read document = .ok page

/-- The call was refused. -/
def Reply.IsRefusal (reply : Reply) : Prop :=
  ∃ reason, reply = .refusal reason

theorem Reply.IsRefusal.noted? {reply : Reply} (h : reply.IsRefusal) : reply.noted? = none := by
  obtain ⟨reason, rfl⟩ := h
  rfl

theorem exists_scrollId_of_read {document : Json} {page : Page}
    (h : Page.read document = .ok page) : ∃ id, scrollId document = .ok id := by
  simp only [Page.read, bind_eq_ok_iff] at h
  obtain ⟨_, _, _, _, _, _, _, _, _, _, id, hId, _⟩ := h
  exact ⟨id, hId⟩

theorem Reply.page_eq_ok_iff {reply : Reply} {refused : Text → Failure} :
    (reply.page refused).map (fun _ => ()) = .ok () ↔ reply.IsPage := by
  constructor
  · intro h
    cases hPage : reply.page refused with
    | error failure =>
        rw [hPage] at h
        cases h
    | ok page =>
        cases reply with
        | refusal reason => cases hPage
        | answer document =>
            obtain ⟨_, _, hRead⟩ := bind_eq_ok_iff.mp hPage
            exact ⟨document, page, rfl, hRead⟩
  · rintro ⟨document, page, rfl, hRead⟩
    obtain ⟨id, hId⟩ := exists_scrollId_of_read hRead
    rw [Reply.page, hId]
    exact congrArg (Except.map _) hRead

end Cluster

namespace Session

open Cluster

/-! ## Steps and what they leave behind -/

/-- A step that may be taken in a session. -/
inductive Move where
  | execute (index : Json)
  | scroll
  | clear
  | aggregate (index : Json)
  | stash (name : Text) (condition : Json)
  | addConditions (sections : Members)
  | setScanScroll (lifetime : Json)

/-- What a step does to the session. A change of conditions that stops half way keeps what it
reached. -/
def Move.action (config : Config) : Move → Action Unit
  | .execute index => discard (Session.execute config index)
  | .scroll => discard (Session.scroll config)
  | .clear => Session.clear config
  | .aggregate index => discard (Session.aggregate config index)
  | .stash name condition => do
    let changed ← Step.of ((← current).stash name condition)
    edit fun _ => changed
  | .addConditions sections => do
    let change := (← current).addConditions sections
    edit fun _ => change.reached
    Step.of (change.result.map fun _ => ())
  | .setScanScroll lifetime => edit (·.setScanScroll lifetime)

/-- The step asks for a page of hits. -/
def Move.AsksForPage : Move → Prop
  | .execute _ | .scroll => True
  | _ => False

/-- A step that was taken: how it ended, and the session before it and after it. -/
structure Event where
  move : Move
  before : Session
  result : Except Failure Unit
  after : Session

def Move.event (config : Config) (m : Move) (s : Session) : Event where
  move := m
  before := s
  result := ((m.action config).run s).1
  after := ((m.action config).run s).2

theorem latestId?_singleton (x : Exchange) : latestId? [x] = x.reply.scrollId? := by
  simp [latestId?]

namespace Event

/-- The call of a step with the answer to it, if the step makes one. -/
def exchanges (e : Event) : List Exchange :=
  (e.after.cluster.calls.drop e.before.cluster.calls.length).map fun call =>
    ⟨call, (nextReply (e.before.cluster.replies call.method)).1⟩

/-- The id that the answer to a search or to a call for the next page delivers. -/
def delivered? (e : Event) : Option Json :=
  match e.move with
  | .execute _ | .scroll => latestId? e.exchanges
  | _ => none

/-- The step gives up what was delivered: it lets go of the scroll, it replaces a condition of a
section, or it is a search whose answer has no id. -/
def Closes (e : Event) : Prop :=
  match e.move with
  | .execute _ => ∃ x ∈ e.exchanges, x.reply.noted?.isSome = true ∧ x.reply.scrollId? = none
  | .clear => True
  | .stash name condition =>
    (Section.named? name).isSome = true ∧ condition.isNull = false ∧ e.result = .ok ()
  | _ => False

variable {config : Config} {e : Event}

theorem exchanges_of_silent (h : e.after.cluster = e.before.cluster) : e.exchanges = [] := by
  simp [exchanges, h]

theorem exchanges_of_send {method : Method} {arguments : Members}
    (h : e.after.cluster = (Cluster.send method arguments e.before.cluster).2) :
    e.exchanges = [⟨⟨method, arguments⟩, (Cluster.send method arguments e.before.cluster).1⟩] := by
  rw [exchanges, h, calls_send, List.drop_left]
  rfl

theorem eq_of_mem_exchanges {method : Method} {arguments : Members} {x : Exchange}
    (h : e.after.cluster = (Cluster.send method arguments e.before.cluster).2)
    (hMem : x ∈ e.exchanges) :
    x = ⟨⟨method, arguments⟩, (Cluster.send method arguments e.before.cluster).1⟩ := by
  rw [exchanges_of_send h] at hMem
  exact List.mem_singleton.mp hMem

end Event

/-! ## What a step can do -/

/-- What a step says to the cluster, and what is held after it. -/
inductive Event.Effect (config : Config) (e : Event) : Prop
  /-- No call. What is given up was not held, or nothing can be called anyway. -/
  | silent (hCluster : e.after.cluster = e.before.cluster)
      (hHeld : e.after.query.scrollId = e.before.query.scrollId)
      (hCloses : e.Closes → e.before.query.openScroll? = none ∨ checkConnection config ≠ .ok ())
  | stashed (hCluster : e.after.cluster = e.before.cluster)
      (hHeld : e.after.query.scrollId = .null) (hCloses : e.Closes)
      (hMove : ∃ name condition, e.move = .stash name condition)
  | searched (index : Json) (arguments : Members) (hMove : e.move = .execute index)
      (hConnection : checkConnection config = .ok ())
      (hAfter : ∃ size, e.after =
        ({ e.before with query := e.before.query.sized size } : Session).after .search arguments id)
      (hResult : e.result =
        ((Cluster.send .search arguments e.before.cluster).1.page .searchFailed).map fun _ => ())
  | scrolled (hMove : e.move = .scroll) (hConnection : checkConnection config = .ok ())
      (hOpen : e.before.query.scrollId.truthy = true)
      (hAfter : e.after = e.before.after .scroll (scrollArguments e.before.query)
        (·.orElse e.before.query.scrollId))
      (hResult : e.result = ((Cluster.send .scroll (scrollArguments e.before.query)
        e.before.cluster).1.page .scrollFailed).map fun _ => ())
  | released (id : Json) (hMove : e.move = .clear) (hConnection : checkConnection config = .ok ())
      (hOpen : e.before.query.openScroll? = some id)
      (hAfter : e.after = ⟨{ e.before.query with scrollId := .null },
        (Cluster.send .clearScroll [("scroll_id", id)] e.before.cluster).2⟩)
  | aggregated (index : Json) (arguments : Members) (hMove : e.move = .aggregate index)
      (hConnection : checkConnection config = .ok ())
      (hHeld : e.after.query.scrollId = e.before.query.scrollId)
      (hCluster : e.after.cluster = (Cluster.send .search arguments e.before.cluster).2)

variable {config : Config} {s : Session}

/-- An aggregation keeps what it runs. It makes no call or a search, and it does not note the
scroll of the answer. -/
theorem run_aggregate_cases (config : Config) (index : Json) (s : Session) :
    ((aggregate config index).run s).2.query.scrollId = s.query.scrollId ∧
      ((aggregate config index).run s).2.query.aggregations = s.query.aggregations ∧
      (((aggregate config index).run s).2.cluster = s.cluster ∨
        checkConnection config = .ok () ∧ ∃ arguments,
          ((aggregate config index).run s).2.cluster =
            (Cluster.send .search arguments s.cluster).2) := by
  simp only [aggregate, run_of_bind, run_current_bind]
  cases Index.checkPattern index with
  | error failure => exact ⟨rfl, rfl, .inl rfl⟩
  | ok _ =>
      cases s.query.aggregations.truthy with
      | false => exact ⟨rfl, rfl, .inl rfl⟩
      | true =>
          simp only [↓reduceIte, run_edit_bind, run_of_bind, run_current_bind]
          cases hConnection : checkConnection config with
          | error failure => exact ⟨rfl, rfl, .inl rfl⟩
          | ok _ =>
              dsimp only
              split
              · exact ⟨rfl, rfl, .inl rfl⟩
              · rename_i arguments _
                rw [Step.run_bind, run_send]
                cases (Cluster.send .search arguments s.cluster).1 with
                | refusal reason => exact ⟨rfl, rfl, .inr ⟨rfl, arguments, rfl⟩⟩
                | answer document => exact ⟨rfl, rfl, .inr ⟨rfl, arguments, rfl⟩⟩

theorem effect_execute (index : Json) (s : Session) :
    ((Move.execute index).event config s).Effect config := by
  rcases run_execute_cases config index s with ⟨failure, size, hRun⟩ | ⟨arguments, hCan⟩
  · have hAfter : ((Move.execute index).event config s).after =
        { s with query := s.query.sized size } := by
      simp only [Move.event, Move.action, Step.run_discard, hRun]
    have hCluster : ((Move.execute index).event config s).after.cluster = s.cluster := by
      rw [hAfter]
    refine .silent hCluster (by rw [hAfter]; rfl) ?_
    rintro ⟨x, hMem, -⟩
    rw [Event.exchanges_of_silent hCluster] at hMem
    cases hMem
  · obtain ⟨size, hRun⟩ := run_execute hCan
    refine .searched index arguments rfl hCan.connection ⟨size, ?_⟩ ?_
    · simp only [Move.event, Move.action, Step.run_discard, hRun]
    · simp only [Move.event, Move.action, Step.run_discard, hRun]

theorem effect_scroll (s : Session) : (Move.scroll.event config s).Effect config := by
  cases hOpen : s.query.scrollId.truthy with
  | false =>
      have hAfter : (Move.scroll.event config s).after = s := by
        simp only [Move.event, Move.action, Step.run_discard, run_scroll_of_none hOpen]
      exact .silent (by rw [hAfter]; rfl) (by rw [hAfter]; rfl) False.elim
  | true =>
      cases hConnection : checkConnection config with
      | error failure =>
          have hAfter : (Move.scroll.event config s).after = s := by
            simp only [Move.event, Move.action, Step.run_discard,
              run_scroll_of_connection hConnection hOpen]
          exact .silent (by rw [hAfter]; rfl) (by rw [hAfter]; rfl) False.elim
      | ok _ =>
          refine .scrolled rfl hConnection hOpen ?_ ?_
          · simp only [Move.event, Move.action, Step.run_discard, run_scroll hConnection hOpen]
          · simp only [Move.event, Move.action, Step.run_discard, run_scroll hConnection hOpen]

theorem effect_clear (s : Session) : (Move.clear.event config s).Effect config := by
  cases hOpen : s.query.openScroll? with
  | none =>
      have hAfter : (Move.clear.event config s).after = s := by
        simp only [Move.event, Move.action, run_clear_of_none hOpen]
      exact .silent (by rw [hAfter]; rfl) (by rw [hAfter]; rfl) fun _ => .inl hOpen
  | some id =>
      cases hConnection : checkConnection config with
      | error failure =>
          have hGiven := (Json.given?_eq_some_iff.mp hOpen).1
          have hAfter : (Move.clear.event config s).after = s := by
            simp only [Move.event, Move.action, run_clear_of_connection hConnection hGiven]
          refine .silent (by rw [hAfter]; rfl) (by rw [hAfter]; rfl) fun _ => .inr ?_
          rw [hConnection]
          simp
      | ok _ =>
          refine .released id rfl hConnection hOpen ?_
          simp only [Move.event, Move.action, run_clear_of_some hOpen hConnection]

theorem effect_aggregate (index : Json) (s : Session) :
    ((Move.aggregate index).event config s).Effect config := by
  obtain ⟨hHeld, -, hCluster⟩ := run_aggregate_cases config index s
  have hAfter : ((Move.aggregate index).event config s).after =
      ((Session.aggregate config index).run s).2 := by
    simp only [Move.event, Move.action, Step.run_discard]
  rw [← hAfter] at hHeld hCluster
  rcases hCluster with hCluster | ⟨hConnection, arguments, hCluster⟩
  · exact .silent hCluster hHeld False.elim
  · exact .aggregated index arguments rfl hConnection hHeld hCluster

theorem effect_stash (name : Text) (condition : Json) (s : Session) :
    ((Move.stash name condition).event config s).Effect config := by
  by_cases hSets : ((Section.named? name).isSome && !condition.isNull) = true
  · cases hStash : s.query.stash name condition with
    | error failure =>
        have hRun : ((Move.stash name condition).action config).run s = (.error failure, s) := by
          simp only [Move.action, run_current_bind, run_of_bind, hStash]
        refine .silent (by rw [Move.event, hRun]) (by rw [Move.event, hRun]) ?_
        rintro ⟨-, -, hResult⟩
        rw [Move.event, hRun] at hResult
        cases hResult
    | ok q =>
        have hRun : ((Move.stash name condition).action config).run s =
            (.ok (), { s with query := q }) := by
          simp only [Move.action, run_current_bind, run_of_bind, hStash]
          rfl
        have hHeld : q.scrollId = .null := by
          rw [Query.stash, if_pos hSets] at hStash
          split at hStash
          · cases hStash
            rfl
          · cases hStash
        simp only [Bool.and_eq_true, Bool.not_eq_true'] at hSets
        refine .stashed (by rw [Move.event, hRun]) (by rw [Move.event, hRun]; exact hHeld) ?_
          ⟨name, condition, rfl⟩
        exact ⟨hSets.1, hSets.2, by rw [Move.event, hRun]⟩
  · have hRun : ((Move.stash name condition).action config).run s = (.ok (), s) := by
      simp only [Move.action, run_current_bind, run_of_bind, Query.stash, if_neg hSets]
      rfl
    refine .silent (by rw [Move.event, hRun]) (by rw [Move.event, hRun]) ?_
    rintro ⟨hKnown, hGiven, -⟩
    exact absurd (by simp [hKnown, hGiven]) hSets

theorem scrollId_append {q r : Query} {sec : Section} {conditions : Json}
    (h : q.append sec conditions = .ok r) : r.scrollId = q.scrollId := by
  unfold Query.append at h
  split at h
  · cases h
    cases sec <;> rfl
  · cases h

theorem scrollId_appendAll (q : Query) (sections : Members) :
    (q.appendAll sections).reached.scrollId = q.scrollId := by
  induction sections generalizing q with
  | nil => rfl
  | cons first rest ih =>
      obtain ⟨name, conditions⟩ := first
      unfold Query.appendAll
      cases Section.named? name with
      | none => exact ih q
      | some sec =>
          dsimp only
          cases hAppend : q.append sec conditions with
          | error failure => rfl
          | ok r => exact (ih r).trans (scrollId_append hAppend)

theorem scrollId_addConditions (q : Query) (sections : Members) :
    (q.addConditions sections).reached.scrollId = q.scrollId := by
  unfold Query.addConditions
  split
  · rfl
  · exact scrollId_appendAll q _

/-- Every step does one of these things. -/
theorem effect_event (m : Move) (s : Session) : (m.event config s).Effect config := by
  cases m with
  | execute index => exact effect_execute index s
  | scroll => exact effect_scroll s
  | clear => exact effect_clear s
  | aggregate index => exact effect_aggregate index s
  | stash name condition => exact effect_stash name condition s
  | setScanScroll lifetime => exact .silent rfl rfl False.elim
  | addConditions sections =>
      exact .silent rfl (scrollId_addConditions s.query sections) False.elim

namespace Event

variable {e : Event}

/-- The exchanges of a step are all that it said to the cluster and heard of it. -/
theorem Effect.exchanged (h : e.Effect config) :
    Exchanges e.before.cluster e.after.cluster e.exchanges := by
  have hSilent : e.after.cluster = e.before.cluster →
      Exchanges e.before.cluster e.after.cluster e.exchanges := by
    intro hCluster
    rw [exchanges_of_silent hCluster, hCluster]
    exact .nil
  have hSend : ∀ method arguments,
      e.after.cluster = (Cluster.send method arguments e.before.cluster).2 →
        Exchanges e.before.cluster e.after.cluster e.exchanges := by
    intro method arguments hCluster
    rw [exchanges_of_send hCluster, hCluster]
    exact Exchanges.nil.snoc method arguments
  cases h with
  | silent hCluster => exact hSilent hCluster
  | stashed hCluster => exact hSilent hCluster
  | searched index arguments hMove hConnection hAfter =>
      obtain ⟨size, hAfter⟩ := hAfter
      exact hSend _ _ (congrArg Session.cluster hAfter)
  | scrolled hMove hConnection hOpen hAfter => exact hSend _ _ (congrArg Session.cluster hAfter)
  | released id hMove hConnection hOpen hAfter =>
      exact hSend _ _ (congrArg Session.cluster hAfter)
  | aggregated index arguments hMove hConnection hHeld hCluster => exact hSend _ _ hCluster

/-- Whoever makes a call has a client. -/
theorem Effect.connected (h : e.Effect config) (hCall : e.exchanges ≠ []) :
    checkConnection config = .ok () := by
  cases h with
  | silent hCluster => exact absurd (exchanges_of_silent hCluster) hCall
  | stashed hCluster => exact absurd (exchanges_of_silent hCluster) hCall
  | searched index arguments hMove hConnection => exact hConnection
  | scrolled hMove hConnection => exact hConnection
  | released id hMove hConnection => exact hConnection
  | aggregated index arguments hMove hConnection => exact hConnection

theorem exchanges_ne_nil_of_delivered {id : Json} (h : e.delivered? = some id) :
    e.exchanges ≠ [] := by
  intro hNone
  unfold delivered? at h
  rw [hNone] at h
  split at h <;> cases h

/-- What is held after a step: what it delivered, or else what was held before, unless it was given
up. -/
theorem Effect.held_iff (h : e.Effect config) (id : Json)
    (hConnected : e.before.query.openScroll?.isSome = true → checkConnection config = .ok ()) :
    e.after.query.openScroll? = some id ↔
      e.delivered? = some id ∨
        (e.delivered? = none ∧ ¬e.Closes ∧ e.before.query.openScroll? = some id) := by
  cases h with
  | silent hCluster hHeld hCloses =>
      have hNone : e.delivered? = none := by
        rw [Option.eq_none_iff_forall_ne_some]
        intro other hOther
        exact exchanges_ne_nil_of_delivered hOther (exchanges_of_silent hCluster)
      have hSame : e.after.query.openScroll? = e.before.query.openScroll? :=
        congrArg Json.given? hHeld
      rw [hSame, hNone]
      constructor
      · intro hOpen
        refine .inr ⟨rfl, fun hClosed => ?_, hOpen⟩
        rcases hCloses hClosed with hClosed | hClosed
        · rw [hOpen] at hClosed
          cases hClosed
        · exact hClosed (hConnected (by rw [hOpen]; rfl))
      · rintro (hDelivered | ⟨-, -, hOpen⟩)
        · cases hDelivered
        · exact hOpen
  | stashed hCluster hHeld hCloses hMove =>
      obtain ⟨name, condition, hMove⟩ := hMove
      have hAfter : e.after.query.openScroll? = none := congrArg Json.given? hHeld
      simp [hAfter, hCloses, delivered?, hMove]
  | searched index arguments hMove hConnection hAfter hResult =>
      obtain ⟨size, hAfter⟩ := hAfter
      have hExchanges := exchanges_of_send (congrArg Session.cluster hAfter)
      have hHeld : e.after.query.openScroll? = _ :=
        (congrArg (·.query.openScroll?) hAfter).trans (openScroll?_after_search _ arguments)
      simp only [hHeld, delivered?, Closes, hMove, hExchanges, latestId?_singleton,
        List.mem_singleton, exists_eq_left]
      cases hNoted : (Cluster.send .search arguments e.before.cluster).1.noted? with
      | none => simp [Reply.scrollId?, hNoted, Query.openScroll?, Query.sized]
      | some noted => cases hGiven : noted.given? <;> simp [Reply.scrollId?, hNoted, hGiven]
  | scrolled hMove hConnection hOpen hAfter hResult =>
      have hExchanges := exchanges_of_send (congrArg Session.cluster hAfter)
      have hHeld : e.after.query.openScroll? = _ :=
        (congrArg (·.query.openScroll?) hAfter).trans (openScroll?_after_scroll _ _)
      simp only [hHeld, delivered?, Closes, hMove, hExchanges, latestId?_singleton,
        not_false_eq_true, true_and]
      exact Option.or_eq_some_iff
  | released id hMove hConnection hOpen hAfter =>
      have hHeld : e.after.query.openScroll? = none := congrArg (·.query.openScroll?) hAfter
      simp [hHeld, delivered?, Closes, hMove]
  | aggregated index arguments hMove hConnection hHeld hCluster =>
      have hSame : e.after.query.openScroll? = e.before.query.openScroll? :=
        congrArg Json.given? hHeld
      simp [hSame, delivered?, Closes, hMove]

theorem Effect.carries (h : e.Effect config) {x : Exchange} (hMem : x ∈ e.exchanges)
    (hMethod : x.call.method = .scroll ∨ x.call.method = .clearScroll) :
    ∃ id, e.before.query.openScroll? = some id ∧
      x.call.arguments.get? "scroll_id" = some id := by
  cases h with
  | silent hCluster =>
      rw [exchanges_of_silent hCluster] at hMem
      cases hMem
  | stashed hCluster =>
      rw [exchanges_of_silent hCluster] at hMem
      cases hMem
  | searched index arguments hMove hConnection hAfter =>
      obtain ⟨size, hAfter⟩ := hAfter
      cases eq_of_mem_exchanges (congrArg Session.cluster hAfter) hMem
      simp at hMethod
  | scrolled hMove hConnection hOpen hAfter =>
      cases eq_of_mem_exchanges (congrArg Session.cluster hAfter) hMem
      exact ⟨_, Query.openScroll?_of_truthy hOpen, rfl⟩
  | released id hMove hConnection hOpen hAfter =>
      cases eq_of_mem_exchanges (congrArg Session.cluster hAfter) hMem
      exact ⟨id, hOpen, rfl⟩
  | aggregated index arguments hMove hConnection hHeld hCluster =>
      cases eq_of_mem_exchanges hCluster hMem
      simp at hMethod

theorem Effect.unanswered (h : e.Effect config) (hMove : e.move.AsksForPage)
    (hRefused : ∀ x ∈ e.exchanges, x.reply.IsRefusal) :
    e.after.query.scrollId = e.before.query.scrollId := by
  cases h with
  | silent hCluster hHeld => exact hHeld
  | stashed hCluster hHeld hCloses hStash =>
      obtain ⟨name, condition, hStash⟩ := hStash
      rw [hStash] at hMove
      exact hMove.elim
  | searched index arguments hSearch hConnection hAfter =>
      obtain ⟨size, hAfter⟩ := hAfter
      have hReply := hRefused _ (by
        rw [exchanges_of_send (congrArg Session.cluster hAfter)]
        exact List.mem_singleton_self _)
      rw [hAfter, Session.after, hReply.noted?]
      rfl
  | scrolled hScroll hConnection hOpen hAfter =>
      have hReply := hRefused _ (by
        rw [exchanges_of_send (congrArg Session.cluster hAfter)]
        exact List.mem_singleton_self _)
      rw [hAfter, Session.after, hReply.noted?]
  | released id hClear =>
      rw [hClear] at hMove
      exact hMove.elim
  | aggregated index arguments hAggregate =>
      rw [hAggregate] at hMove
      exact hMove.elim

theorem Effect.succeeds (h : e.Effect config) (hMove : e.move.AsksForPage) {x : Exchange}
    (hMem : x ∈ e.exchanges) : e.result = .ok () ↔ x.reply.IsPage := by
  cases h with
  | silent hCluster =>
      rw [exchanges_of_silent hCluster] at hMem
      cases hMem
  | stashed hCluster =>
      rw [exchanges_of_silent hCluster] at hMem
      cases hMem
  | searched index arguments hSearch hConnection hAfter hResult =>
      obtain ⟨size, hAfter⟩ := hAfter
      rw [hResult, eq_of_mem_exchanges (congrArg Session.cluster hAfter) hMem,
        Reply.page_eq_ok_iff]
  | scrolled hScroll hConnection hOpen hAfter hResult =>
      rw [hResult, eq_of_mem_exchanges (congrArg Session.cluster hAfter) hMem,
        Reply.page_eq_ok_iff]
  | released id hClear =>
      rw [hClear] at hMove
      exact hMove.elim
  | aggregated index arguments hAggregate =>
      rw [hAggregate] at hMove
      exact hMove.elim

theorem Effect.aggregated_held (h : e.Effect config) {index : Json}
    (hMove : e.move = .aggregate index) : e.after.query.scrollId = e.before.query.scrollId := by
  cases h with
  | silent hCluster hHeld => exact hHeld
  | stashed hCluster hHeld hCloses hStash =>
      obtain ⟨name, condition, hStash⟩ := hStash
      cases hMove.symm.trans hStash
  | searched index arguments hSearch => cases hMove.symm.trans hSearch
  | scrolled hScroll => cases hMove.symm.trans hScroll
  | released id hClear => cases hMove.symm.trans hClear
  | aggregated index arguments hAggregate hConnection hHeld => exact hHeld

end Event

theorem scroll_of_closed (h : s.query.scrollId.truthy = false) :
    (Move.scroll.event config s).result = .error .noScroll ∧
      (Move.scroll.event config s).exchanges = [] := by
  have hRun : (Move.scroll.action config).run s = (.error .noScroll, s) := by
    simp only [Move.action, Step.run_discard, run_scroll_of_none h, Except.map]
  refine ⟨by rw [Move.event, hRun], Event.exchanges_of_silent ?_⟩
  rw [Move.event, hRun]

end Session

end LogQuery
