import OsLabs.Bakery.Progress
import OsLabs.Bakery.Waiting

/-! That every request that bakery_server.c has begun to handle can be brought to its
end: the owner of the mutex gives it back, and the line is served from its front. Nothing
depends on how the steps of the others come in between. -/

namespace OsLabs.Bakery

variable {Tid : Type} {argp : Tid → Request} {tid : Tid}

/-- The steps that are left, if no condition of a waiting loop holds. What has been read
before may be out of date, and makes a loop go round once more. -/
def Pc.rank (number : Int → Int) (client : Int) : Pc → Nat
  | .arrive => 1226
  | .lock => 1225
  | .setChoosing => 1224
  | .scan i _ => 1023 + 2 * (MAX_CLIENTS - i)
  | .scanTake i => 1022 + 2 * (MAX_CLIENTS - i)
  | .draw _ => 1021
  | .clearChoosing => 1020
  | .unlock => 1019
  | .reread => 1018
  | .waitChoosing _ i => 17 + 10 * (MAX_CLIENTS - i)
  | .waitNonzero _ i => 16 + 10 * (MAX_CLIENTS - i)
  | .waitLess _ i => (if number i = 0 then 19 else 15) + 10 * (MAX_CLIENTS - i)
  | .waitLessOwn _ i value => (if value < number client then 18 else 14) + 10 * (MAX_CLIENTS - i)
  | .waitEqual _ i => 13 + 10 * (MAX_CLIENTS - i)
  | .waitEqualOwn _ i value =>
    (if value = number client ∧ i < client then 17 else 12) + 10 * (MAX_CLIENTS - i)
  | .fillClient _ => 8
  | .fillTicket _ => 7
  | .fillPosition _ => 6
  | .fillStatus _ => 5
  | .lockAgain _ => 4
  | .release _ => 3
  | .unlockAgain _ => 2
  | .reply _ => 1
  | .finished => 0

theorem Pc.rank_le (number : Int → Int) (client : Int) (pc : Pc) :
    pc.rank number client ≤ 1226 := by
  cases pc with
  | waitLess ticket i | waitLessOwn ticket i value | waitEqualOwn ticket i value =>
    simp only [Pc.rank, MAX_CLIENTS]
    split <;> omega
  | _ =>
    simp only [Pc.rank, MAX_CLIENTS]
    omega

theorem ScanNext.rank_lt {max : Int} (next : ScanNext max (i + 1) pc) (number : Int → Int)
    (client : Int) : pc.rank number client < 1022 + 2 * (MAX_CLIENTS - i) := by
  cases next with
  | again more | done all =>
    simp only [Pc.rank]
    omega

theorem WaitNext.rank_lt {emitted : List (Event Tid)}
    (next : WaitNext tid ticket (i + 1) pc emitted) (number : Int → Int) (client : Int) :
    pc.rank number client < 12 + 10 * (MAX_CLIENTS - i) := by
  cases next with
  | again more | done all =>
    simp only [Pc.rank]
    omega

/-- An activation that is not stuck comes nearer to its end. -/
theorem rank_lt {shared shared' : Shared Tid} {emitted : List (Event Tid)} {request : Request}
    (effect : Effect request tid shared pc shared' pc' emitted)
    (loose : ¬ pc.Stuck shared request.clientId)
    (held : pc.holds = true → 0 < shared.number request.clientId) :
    pc'.rank shared'.number request.clientId < pc.rank shared.number request.clientId := by
  cases effect with
  | choosing ticket set => exact absurd set loose
  | notGreater _ next | scanTake next | zero _ next =>
    refine Nat.lt_of_lt_of_le (next.rank_lt _ _) ?_
    simp only [Pc.rank]
    omega
  | notEqual behind next =>
    refine Nat.lt_of_lt_of_le (next.rank_lt _ _) ?_
    simp only [Pc.rank, if_neg behind, Nat.le_refl]
  | nonzero ticket taken =>
    simp only [Pc.rank, if_neg taken]
    omega
  | waitLess ticket i =>
    simp only [Pc.rank]
    by_cases none : shared.number i = 0
    · rw [if_pos none]
      split <;> omega
    · have behind : ¬ shared.number i < shared.number request.clientId :=
        fun less => loose ⟨none, .inl less⟩
      simp [none, behind]
  | less ticket i before =>
    simp only [Pc.rank, if_pos before]
    omega
  | notLess ticket i behind =>
    simp only [Pc.rank, if_neg (Int.not_lt.mpr behind)]
    omega
  | waitEqual ticket i =>
    have own := held rfl
    have apart : ¬ (shared.number i = shared.number request.clientId ∧ i < request.clientId) :=
      fun ⟨equal, before⟩ => loose ⟨by omega, .inr ⟨equal, before⟩⟩
    simp only [Pc.rank, if_neg apart]
    omega
  | equal ticket before =>
    simp only [Pc.rank, if_pos before]
    omega
  | reread | setChoosing =>
    simp only [Pc.rank, MAX_CLIENTS]
    omega
  | greater =>
    simp only [Pc.rank]
    omega
  | notChoosing =>
    simp only [Pc.rank]
    omega
  | _ => simp [Pc.rank]

/-- What a step does to the mutex that its activation has. -/
theorem Effect.locked {shared shared' : Shared Tid} {emitted : List (Event Tid)}
    {request : Request} (effect : Effect request tid shared pc shared' pc' emitted)
    (locks : pc.locks = true) :
    (shared'.mutex = shared.mutex ∧ pc'.locks = true ∨
      shared'.mutex = none ∧ pc'.unfinished = true) ∧
    (pc'.drawn = true ∨ pc.drawn = false ∧ shared'.number = shared.number) := by
  cases effect with
  | setChoosing | greater => exact ⟨.inl ⟨rfl, rfl⟩, .inr ⟨rfl, rfl⟩⟩
  | notGreater _ next | scanTake next => cases next <;> exact ⟨.inl ⟨rfl, rfl⟩, .inr ⟨rfl, rfl⟩⟩
  | draw | clearChoosing | release => exact ⟨.inl ⟨rfl, rfl⟩, .inl rfl⟩
  | unlock | unlockAgain => exact ⟨.inr ⟨rfl, rfl⟩, .inl rfl⟩
  | _ => cases locks

/-- A step that leaves the line as it is, one before the draw, or the release. -/
theorem Effect.line {shared shared' : Shared Tid} {emitted : List (Event Tid)}
    {request : Request} (effect : Effect request tid shared pc shared' pc' emitted) :
    (shared'.number = shared.number ∧ pc'.holds = pc.holds ∧ pc'.drawn = pc.drawn) ∨
      (pc.holds = false ∧ pc.drawn = false) ∨ (pc'.holds = false ∧ pc'.drawn = true) := by
  cases effect with
  | draw => exact .inr (.inl ⟨rfl, rfl⟩)
  | release => exact .inr (.inr ⟨rfl, rfl⟩)
  | notGreater _ next | scanTake next => cases next <;> exact .inl ⟨rfl, rfl, rfl⟩
  | zero _ next | notEqual _ next => cases next <;> exact .inl ⟨rfl, rfl, rfl⟩
  | _ => exact .inl ⟨rfl, rfl, rfl⟩

theorem Effect.mutex {shared shared' : Shared Tid} {emitted : List (Event Tid)}
    {request : Request} (effect : Effect request tid shared pc shared' pc' emitted) :
    shared'.mutex = shared.mutex ∨ shared'.mutex = none ∨ shared'.mutex = some tid := by
  cases effect with
  | lock | lockAgain => exact .inr (.inr rfl)
  | unlock | unlockAgain => exact .inr (.inl rfl)
  | _ => exact .inl rfl

/-- What has begun goes on, or has ended. -/
theorem Effect.begun {shared shared' : Shared Tid} {emitted : List (Event Tid)}
    {request : Request} (effect : Effect request tid shared pc shared' pc' emitted) :
    pc'.unfinished = true ∨ pc' = .finished := by
  cases effect with
  | reply => exact .inr rfl
  | notGreater _ next | scanTake next => cases next <;> exact .inl rfl
  | zero _ next | notEqual _ next => cases next <;> exact .inl rfl
  | _ => exact .inl rfl

variable [DecidableEq Tid] {state : Threads.State Tid (Shared Tid) Pc}

omit [DecidableEq Tid] in
/-- Once a request has arrived, only the draw is restricted. -/
theorem admissible_of_unfinished (unfinished : (state.pcs tid).unfinished = true)
    (small : ∀ max, state.pcs tid = .draw max → max < INT_MAX) : admissible argp state tid := by
  unfold admissible
  cases here : state.pcs tid with
  | arrive =>
    rw [here] at unfinished
    cases unfinished
  | draw max => exact small max here
  | _ => trivial

/-- An activation that is not stuck can take a step, and comes nearer to its end. -/
theorem advance (run : (threads argp).machine.Run (admissible argp) actions events state)
    (unfinished : (state.pcs tid).unfinished = true)
    (loose : ¬ (state.pcs tid).Stuck state.shared (argp tid).clientId) :
    ∃ after emitted, (threads argp).machine.next state tid = some (after, emitted) ∧
      Effect (argp tid) tid state.shared (state.pcs tid) after.shared (after.pcs tid) emitted ∧
      (∀ other, other ≠ tid → after.pcs other = state.pcs other) ∧
      (after.pcs tid).rank after.shared.number (argp tid).clientId <
        (state.pcs tid).rank state.shared.number (argp tid).clientId := by
  obtain ⟨queue, orderly, _⟩ := run_queue run
  obtain ⟨⟨shared', pc', emitted⟩, stepped⟩ := step_of_not_stuck unfinished loose
  have effect := step_effect stepped
  have here : Function.update state.pcs tid pc' tid = pc' := Function.update_self ..
  have nearer : pc'.rank shared'.number (argp tid).clientId <
      (state.pcs tid).rank state.shared.number (argp tid).clientId := by
    refine rank_lt effect loose fun holds => ?_
    obtain ⟨place, _, _, ticket⟩ := orderly.held holds
    have positive := orderly.positive
    omega
  refine ⟨_, emitted, Threads.next_step stepped, ?_, ?_, ?_⟩
  · change Effect (argp tid) tid _ _ shared' (Function.update state.pcs tid pc' tid) emitted
    rwa [here]
  · exact fun other different => Function.update_of_ne different ..
  · change (Function.update state.pcs tid pc' tid).rank shared'.number (argp tid).clientId < _
    rwa [here]

omit [DecidableEq Tid] in
/-- The greatest ticket is known when an activation is about to draw. -/
theorem Orderly.greatest {queue : TicketQueue.State Tid} {max : Int}
    (orderly : Orderly argp state.shared state.pcs queue) (here : state.pcs tid = .draw max) :
    Greatest state.shared.number MAX_CLIENTS max := by
  have outline := orderly.outline tid
  rwa [here] at outline

/-- The owner of the mutex gives it back when it is left to run. -/
theorem unlocks {owner : Tid}
    (run : (threads argp).machine.Run (admissible argp) actions events state)
    (held : state.shared.mutex = some owner)
    (small : ∀ index, state.shared.number index < INT_MAX) :
    ∃ moves shown final, moves.length ≤ 1226 ∧
      (threads argp).machine.Path (admissible argp) state moves shown final ∧
      final.shared.mutex = none ∧ (final.pcs owner).unfinished = true ∧
      ∀ other, other ≠ owner → final.pcs other = state.pcs other := by
  let Holds (after : Threads.State Tid (Shared Tid) Pc) : Prop :=
    (∃ actions events, (threads argp).machine.Run (admissible argp) actions events after) ∧
    (after.shared.mutex = some owner ∨ after.shared.mutex = none) ∧
    (after.pcs owner).unfinished = true ∧
    ((after.pcs owner).drawn = true ∨ ∀ index, after.shared.number index < INT_MAX) ∧
    ∀ other, other ≠ owner → after.pcs other = state.pcs other
  have start : Holds state := by
    obtain ⟨queue, orderly, _⟩ := run_queue run
    exact ⟨⟨_, _, run⟩, .inl held, Pc.unfinished_of_locks ((orderly.mutex owner).mpr held),
      .inr small, fun _ _ => rfl⟩
  have onward : ∀ after, Holds after → ¬ after.shared.mutex = none → ∃ action next emitted,
      admissible argp after action ∧
      (threads argp).machine.next after action = some (next, emitted) ∧ Holds next ∧
      (next.pcs owner).rank next.shared.number (argp owner).clientId <
        (after.pcs owner).rank after.shared.number (argp owner).clientId := by
    rintro after ⟨⟨actions, events, run⟩, mutex, unfinished, room, still⟩ locked
    obtain ⟨queue, orderly, _⟩ := run_queue run
    have locks : (after.pcs owner).locks = true :=
      (orderly.mutex owner).mpr (mutex.resolve_right locked)
    obtain ⟨next, emitted, taken, effect, others, nearer⟩ :=
      advance run unfinished (Pc.not_stuck_of_locks locks)
    have permitted : admissible argp after owner := by
      refine admissible_of_unfinished unfinished fun max here => ?_
      have below := room.resolve_left (by rw [here]; simp [Pc.drawn])
      rcases (orderly.greatest here).attained with rfl | ⟨index, rfl⟩
      · decide
      · exact below index
    obtain ⟨kept, room'⟩ := effect.locked locks
    refine ⟨owner, next, emitted, permitted, taken, ⟨⟨_, _, run.step permitted taken⟩, ?_, ?_, ?_,
      ?_⟩, nearer⟩
    · rcases kept with ⟨same, _⟩ | ⟨free, _⟩
      · exact .inl (same.trans (mutex.resolve_right locked))
      · exact .inr free
    · exact kept.elim (fun locked => Pc.unfinished_of_locks locked.2) And.right
    · rcases room' with drawn | ⟨before, same⟩
      · exact .inl drawn
      · rw [same]
        exact .inr (room.resolve_left (by simp [before]))
    · exact fun other different => (others other different).trans (still other different)
  obtain ⟨moves, shown, final, few, path, ⟨_, _, unfinished, _, still⟩, free⟩ :=
    Machine.Path.reaches onward start
  exact ⟨moves, shown, final, few.trans (Pc.rank_le ..), path, free, unfinished, still⟩

/-- No other activation has a ticket before the own one, or the own one is gone. -/
def Foremost (argp : Tid → Request) (tid : Tid) (state : Threads.State Tid (Shared Tid) Pc) :
    Prop :=
  (state.pcs tid).holds = false ∧ (state.pcs tid).drawn = true ∨
    ∀ other, other ≠ tid → (state.pcs other).holds = true → (state.pcs tid).holds = true ∧
      state.shared.number (argp tid).clientId < state.shared.number (argp other).clientId

omit [DecidableEq Tid] in
theorem Orderly.first_of_head {queue : TicketQueue.State Tid}
    (orderly : Orderly argp state.shared state.pcs queue)
    (head : queue.line = [] ∨ queue.line.head? = some tid) : Foremost argp tid state := by
  refine .inr fun other different holds => ?_
  have member := (orderly.member other).mpr holds
  rcases head with empty | front
  · rw [empty] at member
    cases member
  · have here : queue.line[0]? = some tid := by rw [← List.head?_eq_getElem?, front]
    have own := orderly.tickets 0 tid here
    obtain ⟨place, found, _, ticket⟩ := orderly.held holds
    have later : place ≠ 0 := by
      rintro rfl
      exact different (Option.some.inj (found.symm.trans here))
    exact ⟨(orderly.member tid).mp (List.mem_of_getElem? here), by omega⟩

/-- Whoever is first is not stuck while nobody else has the mutex. -/
theorem Foremost.not_stuck (first : Foremost argp tid state)
    (run : (threads argp).machine.Run (admissible argp) actions events state)
    (mutex : state.shared.mutex = none ∨ state.shared.mutex = some tid) :
    ¬ (state.pcs tid).Stuck state.shared (argp tid).clientId := by
  obtain ⟨queue, orderly, _⟩ := run_queue run
  by_cases locks : (state.pcs tid).locks = true
  · exact Pc.not_stuck_of_locks locks
  have free : state.shared.mutex = none :=
    mutex.resolve_right fun held => locks ((orderly.mutex tid).mpr held)
  have quiet : ∀ index, state.shared.choosing index = 0 := by
    intro index
    by_contra set
    obtain ⟨other, chooses, _⟩ := choosing_of_run run index set
    have held := (orderly.mutex other).mp (Pc.locks_of_chooses chooses)
    rw [free] at held
    cases held
  by_cases holds : (state.pcs tid).holds = true
  · refine orderly.front_not_stuck free quiet ?_
    obtain ⟨place, found, inside, own⟩ := orderly.held holds
    have served : 0 < queue.line.length := by omega
    obtain ⟨leader, front⟩ : ∃ leader, queue.line[0]? = some leader :=
      ⟨_, List.getElem?_eq_getElem served⟩
    rw [List.head?_eq_getElem?, front]
    by_contra other
    have holder := (orderly.member _).mp (List.mem_of_getElem? front)
    have least := orderly.tickets 0 _ front
    obtain ⟨_, behind⟩ := (first.resolve_left (by simp [holds])) _ (by simpa using other) holder
    omega
  · exact not_stuck_of_no_ticket free (by simpa using holds)

omit [DecidableEq Tid] in
/-- Whoever is first draws a number only when nobody holds one. -/
theorem Foremost.permitted {queue : TicketQueue.State Tid} (first : Foremost argp tid state)
    (orderly : Orderly argp state.shared state.pcs queue)
    (unfinished : (state.pcs tid).unfinished = true) : admissible argp state tid := by
  refine admissible_of_unfinished unfinished fun max here => ?_
  have alone := first.resolve_left (by rw [here]; simp [Pc.drawn])
  rcases (orderly.greatest here).attained with rfl | ⟨index, rfl⟩
  · decide
  · rcases orderly.number_cases index with zero | ⟨_, other, found, _⟩
    · rw [zero]
      decide
    · have holds := (orderly.member other).mp (List.mem_of_getElem? found)
      have different : other ≠ tid := by
        rintro rfl
        rw [here] at holds
        cases holds
      have own := (alone other different holds).1
      rw [here] at own
      cases own

omit [DecidableEq Tid] in
/-- Whoever is first stays so while only it moves. -/
theorem Foremost.moves {after : Threads.State Tid (Shared Tid) Pc} {emitted : List (Event Tid)}
    (first : Foremost argp tid state)
    (effect : Effect (argp tid) tid state.shared (state.pcs tid) after.shared (after.pcs tid)
      emitted)
    (others : ∀ other, other ≠ tid → after.pcs other = state.pcs other) :
    Foremost argp tid after := by
  rcases effect.line with ⟨number, holds, drawn⟩ | ⟨none, before⟩ | past
  · rw [Foremost, number, holds, drawn]
    refine first.imp_right fun alone other different => ?_
    rw [others other different]
    exact alone other different
  · refine .inr fun other different holds => ?_
    rw [others other different] at holds
    have own := (first.resolve_left (by simp [before]) other different holds).1
    rw [none] at own
    cases own
  · exact .inl past

/-- Whoever is first is served and answered when it is left to run. -/
theorem Foremost.finishes (first : Foremost argp tid state)
    (run : (threads argp).machine.Run (admissible argp) actions events state)
    (free : state.shared.mutex = none) (unfinished : (state.pcs tid).unfinished = true) :
    ∃ moves shown final, moves.length ≤ 1226 ∧
      (threads argp).machine.Path (admissible argp) state moves shown final ∧
      final.shared.mutex = none ∧ final.pcs tid = .finished ∧
      ∀ other, other ≠ tid → final.pcs other = state.pcs other := by
  let Holds (after : Threads.State Tid (Shared Tid) Pc) : Prop :=
    (∃ actions events, (threads argp).machine.Run (admissible argp) actions events after) ∧
    (after.shared.mutex = none ∨ after.shared.mutex = some tid) ∧
    ((after.pcs tid).unfinished = true ∨ after.pcs tid = .finished) ∧ Foremost argp tid after ∧
    ∀ other, other ≠ tid → after.pcs other = state.pcs other
  have start : Holds state :=
    ⟨⟨_, _, run⟩, .inl free, .inl unfinished, first, fun _ _ => rfl⟩
  have onward : ∀ after, Holds after → ¬ after.pcs tid = .finished → ∃ action next emitted,
      admissible argp after action ∧
      (threads argp).machine.next after action = some (next, emitted) ∧ Holds next ∧
      (next.pcs tid).rank next.shared.number (argp tid).clientId <
        (after.pcs tid).rank after.shared.number (argp tid).clientId := by
    rintro after ⟨⟨actions, events, run⟩, mutex, begun, first, still⟩ running
    have unfinished := begun.resolve_right running
    obtain ⟨queue, orderly, _⟩ := run_queue run
    obtain ⟨next, emitted, taken, effect, others, nearer⟩ :=
      advance run unfinished (first.not_stuck run mutex)
    have permitted := first.permitted orderly unfinished
    refine ⟨tid, next, emitted, permitted, taken, ⟨⟨_, _, run.step permitted taken⟩, ?_,
      effect.begun, first.moves effect others, ?_⟩, nearer⟩
    · rcases effect.mutex with same | freed | locked
      · exact same ▸ mutex
      · exact .inl freed
      · exact .inr locked
    · exact fun other different => (others other different).trans (still other different)
  obtain ⟨moves, shown, final, few, path, ⟨⟨_, _, ended⟩, mutex, _, _, still⟩, done⟩ :=
    Machine.Path.reaches onward start
  obtain ⟨queue, orderly, _⟩ := run_queue ended
  have released : final.shared.mutex = none := by
    refine mutex.resolve_right fun held => ?_
    have locks := (orderly.mutex tid).mpr held
    rw [done] at locks
    cases locks
  exact ⟨moves, shown, final, few.trans (Pc.rank_le ..), path, released, done, still⟩

/-- The line is served from its front until nobody is before the activation. -/
theorem finishes_of_free {queue : TicketQueue.State Tid}
    (run : (threads argp).machine.Run (admissible argp) actions events state)
    (orderly : Orderly argp state.shared state.pcs queue) (free : state.shared.mutex = none)
    (unfinished : (state.pcs tid).unfinished = true) :
    ∃ moves shown final, moves.length ≤ 1226 * (queue.line.length + 1) ∧
      (threads argp).machine.Path (admissible argp) state moves shown final ∧
      final.pcs tid = .finished := by
  induction same : queue.line.length using Nat.strong_induction_on
    generalizing state queue actions events with
  | h count ih =>
    by_cases head : queue.line = [] ∨ queue.line.head? = some tid
    · obtain ⟨moves, shown, final, few, path, _, done, _⟩ :=
        (orderly.first_of_head head).finishes run free unfinished
      exact ⟨moves, shown, final, by omega, path, done⟩
    · obtain ⟨front, rest, line⟩ := List.exists_cons_of_ne_nil (fun empty => head (.inl empty))
      have different : tid ≠ front := by
        rintro rfl
        exact head (.inr (by rw [line]; rfl))
      have leads : queue.line.head? = some front := by rw [line]; rfl
      have served := Pc.unfinished_of_holds ((orderly.member front).mp (by simp [line]))
      obtain ⟨moves, shown, middle, few, path, freed, done, still⟩ :=
        (orderly.first_of_head (.inr leads)).finishes run free served
      obtain ⟨behind, orderly', _⟩ := run_queue (run.append path)
      have sub : behind.line ⊆ rest := by
        intro other member
        have holds := (orderly'.member other).mp member
        have apart : other ≠ front := by
          rintro rfl
          rw [done] at holds
          cases holds
        rw [still other apart, ← orderly.member, line] at holds
        exact (List.mem_cons.mp holds).resolve_left apart
      have less : behind.line.length ≤ rest.length := (orderly'.nodup.subperm sub).length_le
      have longer : queue.line.length = rest.length + 1 := by rw [line, List.length_cons]
      have waits : (middle.pcs tid).unfinished = true := by rwa [still tid different]
      obtain ⟨further, seen, final, fewer, onward, ended⟩ :=
        ih behind.line.length (by omega) (run.append path) orderly' freed waits rfl
      refine ⟨moves ++ further, _, final, ?_, path.append onward, ended⟩
      have bound : 1226 * (behind.line.length + 1) ≤ 1226 * count :=
        Nat.mul_le_mul_left _ (by omega)
      rw [List.length_append]
      omega

variable (tid) in
/-- From every state that can be reached, a request that has been begun can be answered,
within a number of steps that does not depend on the run. -/
theorem can_finish
    (run : (threads argp).machine.Run (admissible argp) actions events state)
    (unfinished : (state.pcs tid).unfinished = true)
    (small : ∀ index, state.shared.number index < INT_MAX) :
    ∃ moves shown final, moves.length ≤ 1226 * (MAX_CLIENTS + 2) ∧
      (threads argp).machine.Path (admissible argp) state moves shown final ∧
      final.pcs tid = .finished := by
  cases held : state.shared.mutex with
  | none =>
    obtain ⟨queue, orderly, _⟩ := run_queue run
    obtain ⟨moves, shown, final, few, path, done⟩ := finishes_of_free run orderly held unfinished
    have line := orderly.line_le
    have bound : 1226 * (queue.line.length + 1) ≤ 1226 * (MAX_CLIENTS + 2) :=
      Nat.mul_le_mul_left _ (by omega)
    exact ⟨moves, shown, final, few.trans bound, path, done⟩
  | some owner =>
    obtain ⟨first, seen, middle, short, before, free, goes, still⟩ := unlocks run held small
    have waits : (middle.pcs tid).unfinished = true := by
      by_cases same : tid = owner
      · subst same
        exact goes
      · rwa [still tid same]
    obtain ⟨queue, orderly, _⟩ := run_queue (run.append before)
    obtain ⟨moves, shown, final, few, path, done⟩ :=
      finishes_of_free (run.append before) orderly free waits
    have line := orderly.line_le
    have bound : 1226 * (queue.line.length + 1) ≤ 1226 * (MAX_CLIENTS + 1) :=
      Nat.mul_le_mul_left _ (by omega)
    refine ⟨first ++ moves, _, final, ?_, before.append path, done⟩
    rw [List.length_append]
    omega

/-- The request of client 1, which waits for that of client 0. -/
theorem can_finish_waiting : ∃ actions events state moves shown final,
    (threads pair).machine.Run (admissible pair) actions events state ∧
    Before state.shared.number (pair false).clientId 0 ∧
    moves.length ≤ 1226 * (MAX_CLIENTS + 2) ∧
    (threads pair).machine.Path (admissible pair) state moves shown final ∧
    final.pcs false = .finished := by
  obtain ⟨actions, shared, run, drawn⟩ := pair_drawn
  have run : (threads pair).machine.Run (admissible pair) actions drawnEvents
      ⟨shared, drawnPcs⟩ := run.weaken fun _ _ permitted => permitted.1
  have small : ∀ index, shared.number index < INT_MAX := by
    intro index
    rw [drawn.number]
    split
    · decide
    · split <;> decide
  have behind : Before shared.number (pair false).clientId 0 := by
    change Before shared.number 1 0
    simp only [Before, drawn.number]
    decide
  obtain ⟨moves, shown, final, few, path, done⟩ := can_finish false run rfl small
  exact ⟨actions, _, _, moves, shown, final, run, behind, few, path, done⟩

end OsLabs.Bakery
