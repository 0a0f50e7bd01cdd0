import LogQuery.Proofs.Session.Moves

/-! Any steps of a session one after the other, on a request that holds no scroll at the start. What
is held is at every moment the id that was delivered last, unless it was given up since, and a call
that goes on with a scroll or lets go of it carries that id. -/

namespace LogQuery

namespace Session

open Cluster

variable {config : Config} {s : Session}

/-- The steps of a session in order. One that fails does not end the session. -/
def history (config : Config) (s : Session) : List Move → List Event
  | [] => []
  | m :: moves => m.event config s :: history config (m.event config s).after moves

/-- The id was delivered by the last step that delivered one, and it was not given up since. -/
def IsOpen (past : List Event) (id : Json) : Prop :=
  ∃ early d late, past = early ++ d :: late ∧ d.delivered? = some id ∧
    ∀ e ∈ late, e.delivered? = none ∧ ¬e.Closes

theorem not_isOpen_nil (id : Json) : ¬IsOpen [] id := by
  rintro ⟨early, d, late, h, -⟩
  simp at h

theorem isOpen_snoc_iff {past : List Event} {e : Event} {id : Json} :
    IsOpen (past ++ [e]) id ↔
      e.delivered? = some id ∨ (e.delivered? = none ∧ ¬e.Closes ∧ IsOpen past id) := by
  constructor
  · rintro ⟨early, d, late, hSplit, hDelivered, hLate⟩
    rcases List.eq_nil_or_concat late with rfl | ⟨late, last, rfl⟩
    · obtain ⟨-, hSame⟩ := List.append_inj' hSplit rfl
      cases hSame
      exact .inl hDelivered
    · rw [List.concat_eq_append, ← List.cons_append, ← List.append_assoc] at hSplit
      obtain ⟨rfl, hSame⟩ := List.append_inj' hSplit rfl
      cases hSame
      obtain ⟨hNone, hOpen⟩ := hLate e (by simp)
      exact .inr ⟨hNone, hOpen, early, d, late, rfl, hDelivered,
        fun x hx => hLate x (by simp [hx])⟩
  · rintro (hDelivered | ⟨hNone, hOpen, early, d, late, rfl, hDelivered, hLate⟩)
    · exact ⟨past, e, [], rfl, hDelivered, by simp⟩
    · refine ⟨early, d, late ++ [e], by simp, hDelivered, ?_⟩
      intro x hx
      rcases List.mem_append.mp hx with hx | hx
      · exact hLate x hx
      · rw [List.mem_singleton.mp hx]
        exact ⟨hNone, hOpen⟩

/-! ## Histories -/

/-- What a session has come to after some steps. -/
structure Stands (config : Config) (past : List Event) (s : Session) : Prop where
  held : ∀ id, s.query.openScroll? = some id ↔ IsOpen past id
  connected : ∀ e ∈ past, e.exchanges ≠ [] → checkConnection config = .ok ()

theorem stands_nil (h : s.query.openScroll? = none) : Stands config [] s := by
  refine ⟨fun id => ?_, by simp⟩
  simp [h, not_isOpen_nil]

theorem Stands.connection {past : List Event} (h : Stands config past s)
    (hOpen : s.query.openScroll?.isSome = true) : checkConnection config = .ok () := by
  obtain ⟨id, hId⟩ := Option.isSome_iff_exists.mp hOpen
  obtain ⟨early, d, late, rfl, hDelivered, -⟩ := (h.held id).mp hId
  exact h.connected d (by simp) (Event.exchanges_ne_nil_of_delivered hDelivered)

/-- One more step. -/
theorem Stands.snoc {past : List Event} {e : Event} (h : Stands config past e.before)
    (hEffect : e.Effect config) : Stands config (past ++ [e]) e.after := by
  constructor
  · intro id
    rw [hEffect.held_iff id h.connection, isOpen_snoc_iff, h.held id]
  · intro d hMem
    rcases List.mem_append.mp hMem with hEarlier | hLast
    · exact h.connected d hEarlier
    · rw [List.mem_singleton.mp hLast]
      exact hEffect.connected

/-- However many steps. -/
theorem Stands.before_of_history {past early late : List Event} {e : Event} {moves : List Move}
    (h : Stands config past s) (hSplit : history config s moves = early ++ e :: late) :
    Stands config (past ++ early) e.before ∧ e = e.move.event config e.before := by
  induction moves generalizing past s early with
  | nil => simp [history] at hSplit
  | cons m moves ih =>
      rw [history] at hSplit
      cases early with
      | nil =>
          cases hSplit
          rw [List.append_nil]
          exact ⟨h, rfl⟩
      | cons first early =>
          obtain ⟨rfl, hRest⟩ := List.cons.inj hSplit
          have hNext := ih (h.snoc (effect_event m s)) hRest
          simpa using hNext

/-- A step keeps to the scroll that is open after earlier steps. -/
structure KeepsToScroll (past : List Event) (e : Event) : Prop where
  /-- The calls of the step with their answers are all that it said to the cluster. -/
  exchanged : Exchanges e.before.cluster e.after.cluster e.exchanges
  /-- A call that goes on with a scroll or lets go of one carries the id that is open. -/
  carries : ∀ x ∈ e.exchanges, x.call.method = .scroll ∨ x.call.method = .clearScroll →
    ∃ id, IsOpen past id ∧ id.truthy = true ∧ x.call.arguments.get? "scroll_id" = some id
  /-- Where none is open, there is no next page and no call for one. -/
  noScroll : e.move = .scroll → (∀ id, ¬IsOpen past id) →
    e.result = .error .noScroll ∧ e.exchanges = []
  /-- A search or a call for the next page that is refused, or not even made, changes nothing. -/
  unanswered : e.move.AsksForPage → (∀ x ∈ e.exchanges, x.reply.IsRefusal) →
    e.after.query.scrollId = e.before.query.scrollId
  aggregated : ∀ index, e.move = .aggregate index →
    e.after.query.scrollId = e.before.query.scrollId
  /-- A search or a call for the next page succeeds exactly if its answer is a page. -/
  succeeds : e.move.AsksForPage → ∀ x ∈ e.exchanges, e.result = .ok () ↔ x.reply.IsPage

/-- Starting without a scroll, every step of a session keeps to the scroll that is open then. -/
theorem history_keepsToScroll {start : Session} {moves : List Move} {past rest : List Event}
    {e : Event} (hStart : start.query.openScroll? = none)
    (hSplit : history config start moves = past ++ e :: rest) : KeepsToScroll past e := by
  obtain ⟨hStands, hEvent⟩ := (stands_nil hStart).before_of_history hSplit
  rw [List.nil_append] at hStands
  have hEffect : e.Effect config := hEvent ▸ effect_event e.move e.before
  refine ⟨hEffect.exchanged, ?_, ?_, hEffect.unanswered, fun _ => hEffect.aggregated_held,
    fun hMove x => hEffect.succeeds hMove⟩
  · intro x hMem hMethod
    obtain ⟨id, hOpen, hId⟩ := hEffect.carries hMem hMethod
    obtain ⟨hGiven, rfl⟩ := Json.given?_eq_some_iff.mp hOpen
    exact ⟨_, (hStands.held _).mp hOpen, hGiven, hId⟩
  · intro hMove hNone
    have hClosed : e.before.query.scrollId.truthy = false := by
      rw [← Query.isSome_openScroll?, Option.isSome_eq_false_iff, Option.isNone_iff_eq_none,
        Option.eq_none_iff_forall_ne_some]
      intro id hOpen
      exact hNone id ((hStands.held id).mp hOpen)
    exact hEvent ▸ hMove ▸ scroll_of_closed hClosed

/-- A session without a scroll, whose cluster gives pages. -/
def freshSession : Session :=
  { pagedSession with query := {} }

/-- The scroll that is let go of is the one that the search opened, two steps after the next
page. -/
theorem history_keepsToScroll_paged :
    freshSession.query.openScroll? = none ∧ ∃ past e,
      history pagedConfig freshSession
        [.execute (.str "logs-*"), .scroll, .setScanScroll .null, .clear] = past ++ [e] ∧
      past.length = 3 ∧ KeepsToScroll past e ∧
      e.exchanges.map (·.call) = [⟨.clearScroll, [("scroll_id", .str "s1")]⟩] := by
  have hStart : freshSession.query.openScroll? = none := rfl
  have hSplit : history pagedConfig freshSession
      [.execute (.str "logs-*"), .scroll, .setScanScroll .null, .clear] = [_, _, _] ++ [_] := rfl
  exact ⟨hStart, _, _, hSplit, rfl, history_keepsToScroll hStart hSplit, rfl⟩

/-- An answer that opens a scroll and holds no hits that can be read. -/
def unreadSession : Session where
  query := {}
  cluster :=
    { replies := fun
        | .search => [.answer (.obj [("_scroll_id", .str "s1"), ("hits", .null)])]
        | _ => []
      calls := [] }

/-- The id of a search that failed on its answer is noted, and a call carries it. -/
theorem history_scrolls_unread :
    unreadSession.query.openScroll? = none ∧ ∃ first second,
      history pagedConfig unreadSession [.execute (.str "logs-*"), .scroll] = [first, second] ∧
      first.result = .error .noMember ∧
      ∃ x ∈ second.exchanges, x.call.method = .scroll ∧
        x.call.arguments.get? "scroll_id" = some (.str "s1") := by
  exact ⟨rfl, _, _, rfl, rfl, _, List.mem_singleton_self _, rfl, rfl⟩

end Session
end LogQuery
