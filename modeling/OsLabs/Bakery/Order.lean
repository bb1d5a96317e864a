import OsLabs.Bakery.Refinement
import OsLabs.Bakery.Solo
import OsLabs.Bakery.Trace
import Mathlib.Data.Set.Subsingleton

/-! What bakery_server.c guarantees while the requests in flight have ids of
their own: one activation at a time is served, in the order of the tickets. -/

namespace OsLabs.Bakery

variable {Tid : Type} [DecidableEq Tid] {argp : Tid → Request}

/-- Where a run leaves the line, and what has passed it. -/
theorem run_queue (run : (threads argp).machine.Run (admissible argp) actions events state) :
    ∃ queue, Orderly argp state.shared state.pcs queue ∧
      TicketQueue.History (events.filterMap Event.place?) queue := by
  obtain ⟨moves, shown, queue, followed, same, orderly⟩ := (refines_queue argp).run run
  rw [List.filterMap_some] at same
  subst same
  exact ⟨queue, orderly, .ofRun followed⟩

/-- At most one activation is between its return from `wait_for_turn` and its
assignment `number[client_id] = 0`. -/
theorem mutual_exclusion
    (run : (threads argp).machine.Run (admissible argp) actions events state) :
    {tid | (state.pcs tid).serves = true}.Subsingleton := by
  obtain ⟨queue, orderly, _⟩ := run_queue run
  intro tid first other second
  exact orderly.serves_unique first second

theorem mutual_exclusion_overlap : ∃ actions events state,
    (threads pair).machine.Run (admissible pair) actions events state ∧
    (state.pcs false).serves = true ∧ (state.pcs true).serves = false := by
  obtain ⟨actions, shared, pcs, run, first, second⟩ := overlap
  have serves : (pcs false).serves = true := by rw [second]; rfl
  refine ⟨actions, _, _, run, serves, ?_⟩
  by_contra also
  have alone := mutual_exclusion run
  cases alone (eq_true_of_ne_false also) serves

/-- Whoever has left `get_ticket` before another one takes the mutex there has
given up its ticket before the other one returns from `wait_for_turn`. -/
def ServedInOrder (events : List (Event Tid)) : Prop :=
  ∀ first second before between behind after,
    events = before ++ .unlocked first :: between ++ .locked second :: behind ++
      .entered second :: after →
    .released first ∈ before ++ .unlocked first :: between ++ .locked second :: behind

omit [DecidableEq Tid] in
theorem mem_drawer? {events : List (Event Tid)} :
    tid ∈ (events.filterMap Event.place?).filterMap TicketQueue.Event.drawer? ↔
      ∃ ticket, .drew tid ticket ∈ events := by
  simp only [List.mem_filterMap]
  constructor
  · rintro ⟨shown, ⟨event, member, place⟩, drawer⟩
    cases event with
    | drew other ticket =>
      obtain rfl := Option.some.inj place
      obtain rfl := Option.some.inj drawer
      exact ⟨ticket, member⟩
    | entered _ | released _ =>
      obtain rfl := Option.some.inj place
      cases drawer
    | locked _ | unlocked _ | returned _ _ | replied _ _ => cases place
  · rintro ⟨ticket, member⟩
    exact ⟨_, ⟨_, member, rfl⟩, rfl⟩

omit [DecidableEq Tid] in
theorem released_of_leaver? {events : List (Event Tid)}
    (left : tid ∈ (events.filterMap Event.place?).filterMap TicketQueue.Event.leaver?) :
    .released tid ∈ events := by
  simp only [List.mem_filterMap] at left
  obtain ⟨shown, ⟨event, member, place⟩, leaver⟩ := left
  cases event with
  | released other =>
    obtain rfl := Option.some.inj place
    obtain rfl := Option.some.inj leaver
    exact member
  | drew _ _ | entered _ =>
    obtain rfl := Option.some.inj place
    cases leaver
  | locked _ | unlocked _ | returned _ _ | replied _ _ => cases place

theorem servedInOrder_of_run
    (run : (threads argp).machine.Run (admissible argp) actions events state) :
    ServedInOrder events := by
  rintro first second before between behind after rfl
  let early := before ++ .unlocked first :: between
  -- when the second one takes the mutex, the first has drawn and the second has not
  obtain ⟨_, locking, tid, _, locked, earlier, shows, _⟩ := shown_step run
    (List.append_assoc early (.locked second :: behind) (.entered second :: after))
  generalize here : locking.pcs tid = pc at shows
  cases shows
  have history := Drawn.ofRun earlier
  have drew : first ∈ (early.filterMap Event.place?).filterMap TicketQueue.Event.drawer? :=
    mem_drawer?.mpr ((history.drew first).mpr (history.unlocked first (by simp [early])))
  have later : second ∉ (early.filterMap Event.place?).filterMap TicketQueue.Event.drawer? := by
    rw [mem_drawer?, history.drew, here]
    simp [Pc.drawn]
  -- when the second one returns from the waiting loop, it is at the front of the line
  obtain ⟨_, entering, tid, shared', pc', _, shows, entered⟩ := shown_step run rfl
  have returned : tid = second ∧ ∃ ticket, pc' = .fillClient ticket := by
    generalize entering.pcs tid = pc at shows
    cases shows with
    | entered ticket drawn => exact ⟨rfl, ticket, rfl⟩
  obtain ⟨rfl, ticket, rfl⟩ := returned
  obtain ⟨queue, orderly, line⟩ := run_queue entered
  have front : queue.line.head? = some tid := by
    have outline := orderly.outline tid
    refine orderly.front ?_ ?_
    · simp [Pc.holds, Pc.serves]
    · simpa [Pc.Outline] using outline
  have parts : (early ++ Event.locked tid :: behind ++ [Event.entered tid]).filterMap Event.place? =
      early.filterMap Event.place? ++
        (Event.locked tid :: behind ++ [Event.entered tid]).filterMap Event.place? := by
    rw [List.append_assoc, List.filterMap_append]
  have left := released_of_leaver? (line.left_of_drew parts front drew later)
  simpa using left

/-- The ticket of a draw. -/
def Event.ticket? : Event Tid → Option Int
  | .drew _ ticket => some ticket
  | .locked _ | .unlocked _ | .returned _ _ | .entered _ | .released _ | .replied _ _ => none

omit [DecidableEq Tid] in
theorem ticket?_place? (events : List (Event Tid)) :
    (events.filterMap Event.place?).filterMap TicketQueue.Event.ticket? =
      events.filterMap Event.ticket? := by
  rw [List.filterMap_filterMap]
  congr 1
  funext event
  cases event <;> rfl

/-- An entry of `number` holds a ticket. -/
def Taken (number : Int → Int) (index ticket : Int) : Prop :=
  0 ≤ index ∧ index < MAX_CLIENTS ∧ number index = ticket ∧ ticket ≠ 0

/-- A draw gives the number after the last one drawn, or 1 when no ticket is
held; the tickets held are consecutive; the least one is given up first. -/
structure TicketSequence (argp : Tid → Request) (events : List (Event Tid))
    (state : Threads.State Tid (Shared Tid) Pc) : Prop where
  restart : ∀ tid ticket after, admissible argp state tid →
    (threads argp).machine.next state tid = some (after, [.drew tid ticket]) →
    (∀ index held, ¬ Taken state.shared.number index held) → ticket = 1
  next : ∀ tid ticket after, admissible argp state tid →
    (threads argp).machine.next state tid = some (after, [.drew tid ticket]) →
    (∃ index held, Taken state.shared.number index held) →
    (events.filterMap Event.ticket?).getLast? = some (ticket - 1)
  consecutive : ∃ (first : Int) (count : Nat), ∀ ticket,
    (∃ index, Taken state.shared.number index ticket) ↔ first ≤ ticket ∧ ticket < first + count
  single : ∀ index other ticket, Taken state.shared.number index ticket →
    Taken state.shared.number other ticket → index = other
  least : ∀ tid after, (threads argp).machine.next state tid = some (after, [.released tid]) →
    ∃ own, Taken state.shared.number (argp tid).clientId own ∧
      ∀ index ticket, Taken state.shared.number index ticket → own ≤ ticket

omit [DecidableEq Tid] in
/-- The entries that hold tickets are those of the activations in line. -/
theorem Orderly.taken_iff {shared : Shared Tid} {pcs : Tid → Pc} {queue : TicketQueue.State Tid}
    (orderly : Orderly argp shared pcs queue) :
    Taken shared.number index ticket ↔ ∃ (place : Nat) (tid : Tid), queue.line[place]? = some tid ∧
      (argp tid).clientId = index ∧ ticket = queue.first + place := by
  constructor
  · rintro ⟨_, _, rfl, nonzero⟩
    rcases orderly.number_cases index with zero | ⟨place, tid, found, same, _, ticket⟩
    · exact absurd zero nonzero
    · exact ⟨place, tid, found, same, ticket⟩
  · rintro ⟨place, tid, found, rfl, rfl⟩
    have holds := (orderly.member tid).mp (List.mem_of_getElem? found)
    obtain ⟨nonneg, below⟩ := orderly.ranged tid (Pc.inFlight_of_holds holds)
    have positive := orderly.positive
    exact ⟨nonneg, below, orderly.tickets place tid found, by omega⟩

theorem ticketSequence_of_run
    (run : (threads argp).machine.Run (admissible argp) actions events state) :
    TicketSequence argp events state := by
  obtain ⟨queue, orderly, history⟩ := run_queue run
  have drew : ∀ tid ticket after, admissible argp state tid →
      (threads argp).machine.next state tid = some (after, [.drew tid ticket]) →
      ticket = queue.ticket := by
    intro tid ticket after permitted taken
    obtain ⟨_, _, _, shows⟩ := next_shows taken
    generalize here : state.pcs tid = pc at shows
    cases shows with
    | drew max =>
      rw [admissible, here] at permitted
      exact (orderly.draw here permitted).1
  refine ⟨?_, ?_, ?_, ?_, ?_⟩
  · intro tid ticket after permitted taken none
    have empty : queue.line = [] := by
      by_contra nonempty
      obtain ⟨tid, rest, line⟩ := List.exists_cons_of_ne_nil nonempty
      exact none _ _ (orderly.taken_iff.mpr ⟨0, tid, by simp [line], rfl, rfl⟩)
    rw [drew tid ticket after permitted taken, TicketQueue.State.ticket, history.restart empty,
      empty]
    rfl
  · rintro tid ticket after permitted taken ⟨index, held, some⟩
    have nonempty : queue.line ≠ [] := by
      obtain ⟨place, holder, found, _⟩ := orderly.taken_iff.mp some
      rintro empty
      simp [empty] at found
    rw [← ticket?_place?, drew tid ticket after permitted taken]
    exact history.last nonempty
  · refine ⟨queue.first, queue.line.length, fun ticket => ⟨?_, ?_⟩⟩
    · rintro ⟨index, held⟩
      obtain ⟨place, holder, found, _, rfl⟩ := orderly.taken_iff.mp held
      obtain ⟨bound, _⟩ := List.getElem?_eq_some_iff.mp found
      omega
    · rintro ⟨above, below⟩
      have bound : (ticket - queue.first).toNat < queue.line.length := by omega
      refine ⟨_, orderly.taken_iff.mpr ⟨_, _, List.getElem?_eq_getElem bound, rfl, ?_⟩⟩
      omega
  · intro index other ticket one two
    obtain ⟨place, holder, found, rfl, same⟩ := orderly.taken_iff.mp one
    obtain ⟨place', holder', found', rfl, same'⟩ := orderly.taken_iff.mp two
    obtain rfl : place = place' := by omega
    rw [Option.some.inj (found.symm.trans found')]
  · intro tid after taken
    obtain ⟨_, _, _, shows⟩ := next_shows taken
    generalize here : state.pcs tid = pc at shows
    cases shows with
    | released ticket =>
      obtain ⟨front, _⟩ := orderly.release here
      have first : queue.line[0]? = some tid := by rw [← List.head?_eq_getElem?, front]
      refine ⟨queue.first + (0 : Nat), orderly.taken_iff.mpr ⟨0, tid, first, rfl, rfl⟩, ?_⟩
      intro index ticket held
      obtain ⟨place, _, _, _, rfl⟩ := orderly.taken_iff.mp held
      omega

/-- Requests are served in the order in which they have left `get_ticket`, and
their tickets are numbered one after the other. -/
theorem first_come_first_served
    (run : (threads argp).machine.Run (admissible argp) actions events state) :
    ServedInOrder events ∧ TicketSequence argp events state :=
  ⟨servedInOrder_of_run run, ticketSequence_of_run run⟩

theorem first_come_first_served_overlap : ∃ actions state,
    (threads pair).machine.Run (admissible pair) actions overlapEvents state ∧
    .released true ∈ overlapEvents.dropLast := by
  obtain ⟨actions, shared, pcs, run, _, _⟩ := overlap
  refine ⟨actions, _, run, ?_⟩
  exact (first_come_first_served run).1 true false [.locked true, .drew true 1] [.returned true 1]
    [.drew false 2, .unlocked false, .returned false 2, .entered true, .released true] [] rfl

end OsLabs.Bakery
