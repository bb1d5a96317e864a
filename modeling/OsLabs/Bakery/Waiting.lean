import OsLabs.Bakery.Order
import Mathlib.Data.List.Perm.Subperm

/-! How long a request waits in bakery_server.c: for the requests that have held a ticket
when it drew its own, and for nothing else. -/

namespace OsLabs.Bakery

variable {Tid : Type} [DecidableEq Tid] {argp : Tid → Request}

/-- An activation draws once. -/
theorem draws_nodup {allowed : Threads.State Tid (Shared Tid) Pc → Tid → Prop}
    (run : (threads argp).machine.Run allowed actions events state) :
    ((events.filterMap Event.place?).filterMap TicketQueue.Event.drawer?).Nodup := by
  induction run with
  | start => exact .nil
  | step path permitted taken ih =>
    rename_i actions events state tid after emitted
    obtain ⟨shared', pc', stepped, rfl⟩ := Threads.next_cases taken
    rw [List.filterMap_append, List.filterMap_append]
    rcases step_shows stepped with ⟨rfl, _⟩ | ⟨event, rfl, shows⟩
    · simpa using ih
    · generalize here : state.pcs tid = pc at shows
      cases shows with
      | drew max =>
        have first : tid ∉ (events.filterMap Event.place?).filterMap TicketQueue.Event.drawer? := by
          rw [mem_drawer?, (Drawn.ofRun path).drew, here]
          simp [Pc.drawn]
        have more := ih.concat first
        rwa [List.concat_eq_append] at more
      | locked | unlocked | returned ticket | entered ticket | released ticket | replied ticket =>
        simpa [List.filterMap_cons, Event.place?, TicketQueue.Event.drawer?] using ih

omit [DecidableEq Tid] in
/-- The ids of the activations in line are different numbers below `MAX_CLIENTS`. -/
theorem Orderly.line_le {shared : Shared Tid} {pcs : Tid → Pc} {queue : TicketQueue.State Tid}
    (orderly : Orderly argp shared pcs queue) : queue.line.length ≤ MAX_CLIENTS := by
  let ids := queue.line.map fun tid => (argp tid).clientId.toNat
  have ranged : ∀ tid ∈ queue.line, 0 ≤ (argp tid).clientId ∧ (argp tid).clientId < MAX_CLIENTS :=
    fun tid member => orderly.ranged tid (Pc.inFlight_of_holds ((orderly.member tid).mp member))
  have distinct : ids.Nodup := by
    refine List.Nodup.map_on ?_ orderly.nodup
    intro tid member other also same
    have one := ranged tid member
    have two := ranged other also
    exact orderly.distinct tid other (Pc.inFlight_of_holds ((orderly.member tid).mp member))
      (Pc.inFlight_of_holds ((orderly.member other).mp also)) (by omega)
  have below : ids ⊆ List.range MAX_CLIENTS := by
    intro id listed
    obtain ⟨tid, member, rfl⟩ := List.mem_map.mp listed
    have range := ranged tid member
    exact List.mem_range.mpr (by omega)
  simpa [ids] using (distinct.subperm below).length_le

omit [DecidableEq Tid] in
theorem mem_leaver? {events : List (Event Tid)} :
    tid ∈ (events.filterMap Event.place?).filterMap TicketQueue.Event.leaver? ↔
      .released tid ∈ events := by
  refine ⟨released_of_leaver?, fun member => ?_⟩
  exact List.mem_filterMap.mpr ⟨.left tid, List.mem_filterMap.mpr ⟨_, member, rfl⟩, rfl⟩

/-- An activation gives up its ticket. -/
def Event.releases : Event Tid → Bool
  | .released _ => true
  | .locked _ | .drew _ _ | .unlocked _ | .returned _ _ | .entered _ | .replied _ _ => false

omit [DecidableEq Tid] in
theorem countP_releases (events : List (Event Tid)) : events.countP Event.releases =
    ((events.filterMap Event.place?).filterMap TicketQueue.Event.leaver?).length := by
  induction events with
  | nil => rfl
  | cons event events ih =>
    cases event <;> simp [List.countP_cons, List.filterMap_cons, Event.releases,
      Event.place?, TicketQueue.Event.leaver?, ih]

/-- Whoever returns from the waiting loop is at the front of the line. -/
theorem front_of_entered
    (run : (threads argp).machine.Run (admissible argp) actions events state)
    (place : events = before ++ .entered tid :: behind) :
    ∃ queue, TicketQueue.History ((before ++ [.entered tid]).filterMap Event.place?) queue ∧
      queue.line.head? = some tid := by
  obtain ⟨_, entering, actor, shared', pc', _, shows, entered⟩ := shown_step run place
  obtain ⟨rfl, ticket, rfl⟩ : actor = tid ∧ ∃ ticket, pc' = .fillClient ticket := by
    generalize entering.pcs actor = pc at shows
    cases shows with
    | entered ticket drawn => exact ⟨rfl, ticket, rfl⟩
  obtain ⟨queue, orderly, history⟩ := run_queue entered
  have outline := orderly.outline actor
  refine ⟨queue, history, orderly.front ?_ ?_⟩
  · simp [Pc.holds, Pc.serves]
  · simpa [Pc.Outline] using outline

/-- A draw puts the activation behind those that are in line, at most 99. -/
theorem line_of_drew
    (run : (threads argp).machine.Run (admissible argp) actions events state)
    (place : events = before ++ .drew tid ticket :: behind) :
    ∃ ahead queue,
      TicketQueue.History ((before ++ [.drew tid ticket]).filterMap Event.place?) queue ∧
      queue.line = ahead ++ [tid] ∧ ahead.length < MAX_CLIENTS ∧
      (before.filterMap Event.place?).filterMap TicketQueue.Event.drawer? =
        (before.filterMap Event.place?).filterMap TicketQueue.Event.leaver? ++ ahead := by
  obtain ⟨_, drawing, actor, shared', pc', earlier, _, drew⟩ := shown_step run place
  obtain ⟨first, _, history⟩ := run_queue earlier
  obtain ⟨queue, orderly, history'⟩ := run_queue drew
  have order := history'.order
  simp only [List.filterMap_append, history.order] at order
  have line : queue.line = first.line ++ [tid] := by
    simpa [List.filterMap_cons, Event.place?, TicketQueue.Event.drawer?,
      TicketQueue.Event.leaver?] using order.symm
  have bound := orderly.line_le
  rw [line, List.length_append, List.length_singleton] at bound
  exact ⟨first.line, queue, history', line, bound, history.order⟩

/-- Between its draw and its service, a request sees just those give up their tickets
that have drawn before and not given up yet: at most 99. -/
theorem waits_for_holders
    (run : (threads argp).machine.Run (admissible argp) actions events state)
    (place : events = before ++ .drew tid ticket :: between ++ .entered tid :: behind) :
    (∀ other, .released other ∈ between ↔
      (∃ number, .drew other number ∈ before) ∧ .released other ∉ before) ∧
    between.countP Event.releases < MAX_CLIENTS := by
  have parts : events = before ++ .drew tid ticket :: (between ++ .entered tid :: behind) := by
    rw [place, List.append_assoc, List.cons_append]
  obtain ⟨ahead, queue, early, line, few, holders⟩ := line_of_drew run parts
  obtain ⟨last, late, front⟩ := front_of_entered run place
  have once := draws_nodup run
  have cut : before ++ .drew tid ticket :: between ++ [.entered tid] =
      (before ++ [.drew tid ticket]) ++ (between ++ [.entered tid]) := by simp
  have left : (between.filterMap Event.place?).filterMap TicketQueue.Event.leaver? = ahead := by
    rw [place, List.append_cons, List.filterMap_append, List.filterMap_append] at once
    have first := (List.nodup_append.mp once).1
    rw [cut, List.filterMap_append] at late first
    have passed := early.passed late line front first
    rw [List.filterMap_append, List.filterMap_append] at passed
    simpa [List.filterMap_cons, Event.place?, TicketQueue.Event.leaver?] using passed
  refine ⟨fun other => ?_, ?_⟩
  · rw [place, List.append_assoc, List.filterMap_append, List.filterMap_append, holders] at once
    have apart := List.nodup_append.mp (List.nodup_append.mp once).1
    rw [← mem_leaver?, left, ← mem_leaver?, ← mem_drawer?, holders, List.mem_append]
    constructor
    · exact fun waits => ⟨.inr waits, fun gone => apart.2.2 other gone other waits rfl⟩
    · rintro ⟨drew, stays⟩
      exact drew.resolve_left stays
  · rw [countP_releases, left]
    exact few

theorem waits_for_holders_overlap : ∃ actions state before between,
    (threads pair).machine.Run (admissible pair) actions overlapEvents state ∧
    overlapEvents = before ++ .drew false 2 :: between ++ .entered false :: [] ∧
    .released true ∈ between ∧
    (∀ other, .released other ∈ between ↔
      (∃ number, .drew other number ∈ before) ∧ .released other ∉ before) ∧
    between.countP Event.releases < MAX_CLIENTS := by
  obtain ⟨actions, shared, pcs, run, _, _⟩ := overlap
  let before : List (Event Bool) :=
    [.locked true, .drew true 1, .unlocked true, .returned true 1, .locked false]
  let between : List (Event Bool) :=
    [.unlocked false, .returned false 2, .entered true, .released true]
  exact ⟨actions, _, before, between, run, rfl, by simp [between], waits_for_holders run rfl⟩

end OsLabs.Bakery
