import OsLabs.Bakery.Order

/-! That the activations of bakery_server.c never block each other for ever: the
mutex is held by somebody who can go on, or else the front of the line can. -/

namespace OsLabs.Bakery

/-- The activation has set its `choosing` flag and not cleared it. -/
def Pc.chooses : Pc → Bool
  | .scan _ _ | .scanTake _ | .draw _ | .clearChoosing => true
  | _ => false

/-- The request has arrived and has not been answered. -/
def Pc.unfinished : Pc → Bool
  | .arrive | .finished => false
  | _ => true

/-- The condition of the second loop of `wait_for_turn`. -/
def Before (number : Int → Int) (client : Int) (i : Nat) : Prop :=
  number i ≠ 0 ∧ (number i < number client ∨ number i = number client ∧ i < client)

variable {Tid : Type}

/-- Blocked on the mutex, or in a loop of `wait_for_turn` whose condition holds. -/
def Pc.Stuck (shared : Shared Tid) (client : Int) : Pc → Prop
  | .lock | .lockAgain _ => shared.mutex ≠ none
  | .waitChoosing _ i => shared.choosing i ≠ 0
  | .waitNonzero _ i | .waitLess _ i | .waitLessOwn _ i _ | .waitEqual _ i
  | .waitEqualOwn _ i _ => Before shared.number client i
  | _ => False

variable {argp : Tid → Request} {tid : Tid} {shared shared' : Shared Tid} {pc pc' : Pc}
variable {emitted : List (Event Tid)}

theorem Pc.locks_of_chooses (chooses : pc.chooses = true) : pc.locks = true := by
  cases pc <;> first | rfl | cases chooses

theorem Pc.unfinished_of_locks (locks : pc.locks = true) : pc.unfinished = true := by
  cases pc <;> first | rfl | cases locks

theorem Pc.unfinished_of_holds (holds : pc.holds = true) : pc.unfinished = true := by
  cases pc <;> first | rfl | cases holds

theorem Pc.not_stuck_of_locks (locks : pc.locks = true) : ¬ pc.Stuck shared client := by
  cases pc <;> first | exact id | cases locks

/-- An activation that is not stuck and not finished can take a step. -/
theorem step_of_not_stuck (unfinished : pc.unfinished = true)
    (free : ¬ pc.Stuck shared (argp tid).clientId) :
    ∃ after, step argp tid shared pc = some after := by
  cases pc with
  | lock | lockAgain ticket =>
    have unlocked : shared.mutex = none := not_not.mp free
    simp only [step, unlocked]
    exact ⟨_, rfl⟩
  | arrive | finished => cases unfinished
  | waitNonzero ticket i | waitEqualOwn ticket i value =>
    simp only [step]
    split <;> exact ⟨_, rfl⟩
  | _ => exact ⟨_, rfl⟩

/-- Who sets a `choosing` flag goes on to clear it. -/
theorem step_choosing (stepped : step argp tid shared pc = some (shared', pc', emitted))
    (index : Int) (set : shared'.choosing index ≠ 0) :
    pc'.chooses = true ∧ (argp tid).clientId = index ∨
      shared.choosing index ≠ 0 ∧
        (pc.chooses = true → (argp tid).clientId = index → pc'.chooses = true) := by
  cases step_effect stepped with
  | setChoosing =>
    by_cases own : index = (argp tid).clientId
    · exact .inl ⟨rfl, own.symm⟩
    · simp only [own, ↓reduceIte] at set
      exact .inr ⟨set, fun chooses => nomatch chooses⟩
  | greater | draw => exact .inr ⟨set, fun _ _ => rfl⟩
  | notGreater _ next | scanTake next => cases next <;> exact .inr ⟨set, fun _ _ => rfl⟩
  | clearChoosing =>
    by_cases own : index = (argp tid).clientId
    · simp [own] at set
    · simp only [own, ↓reduceIte] at set
      exact .inr ⟨set, fun _ same => absurd same.symm own⟩
  | _ => exact .inr ⟨set, fun chooses => nomatch chooses⟩

variable {pcs : Tid → Pc} {queue : TicketQueue.State Tid}

/-- No ticket is before the one at the front of the line. -/
theorem Orderly.not_before (orderly : Orderly argp shared pcs queue)
    (front : queue.line.head? = some tid) (i : Nat) :
    ¬ Before shared.number (argp tid).clientId i := by
  have first : queue.line[0]? = some tid := by rw [← List.head?_eq_getElem?, front]
  have own := orderly.tickets 0 tid first
  rintro ⟨nonzero, before⟩
  rcases orderly.number_cases i with zero | ⟨place, other, found, same, _, ticket⟩
  · exact nonzero zero
  · rcases before with less | ⟨equal, earlier⟩
    · omega
    · obtain rfl : place = 0 := by omega
      obtain rfl : tid = other := Option.some.inj (first.symm.trans found)
      omega

/-- The front of the line is not stuck while nobody has the mutex. -/
theorem Orderly.front_not_stuck (orderly : Orderly argp shared pcs queue)
    (free : shared.mutex = none) (quiet : ∀ index, shared.choosing index = 0)
    (front : queue.line.head? = some tid) : ¬ (pcs tid).Stuck shared (argp tid).clientId := by
  have least := orderly.not_before front
  generalize pcs tid = pc
  cases pc with
  | lock | lockAgain ticket => exact not_not.mpr free
  | waitChoosing ticket i => exact not_not.mpr (quiet i)
  | waitNonzero ticket i | waitLess ticket i | waitEqual ticket i => exact least i
  | waitLessOwn ticket i value | waitEqualOwn ticket i value => exact least i
  | _ => exact id

/-- Outside the line only the mutex can keep an activation waiting. -/
theorem not_stuck_of_no_ticket (free : shared.mutex = none) (none : pc.holds = false) :
    ¬ pc.Stuck shared client := by
  cases pc with
  | lock => exact not_not.mpr free
  | _ => first | exact id | cases none

variable [DecidableEq Tid]

/-- A flag is set only by an activation that is drawing its ticket. -/
theorem choosing_of_run {allowed : Threads.State Tid (Shared Tid) Pc → Tid → Prop}
    (run : (threads argp).machine.Run allowed actions events state) (index : Int)
    (set : state.shared.choosing index ≠ 0) :
    ∃ tid, (state.pcs tid).chooses = true ∧ (argp tid).clientId = index := by
  refine Threads.invariant (fun _ shared pcs => ∀ index, shared.choosing index ≠ 0 →
    ∃ tid, (pcs tid).chooses = true ∧ (argp tid).clientId = index) (fun _ set => absurd rfl set) ?_
    run index set
  intro events shared pcs tid shared' pc emitted chosen _ stepped index set
  have here : Function.update pcs tid pc tid = pc := Function.update_self ..
  rcases step_choosing stepped index set with ⟨chooses, own⟩ | ⟨before, goes⟩
  · exact ⟨tid, by rwa [here], own⟩
  · obtain ⟨other, chooses, own⟩ := chosen index before
    by_cases equal : other = tid
    · subst equal
      exact ⟨other, by rw [here]; exact goes chooses own, own⟩
    · exact ⟨other, by rwa [Function.update_of_ne equal], own⟩

/-- As long as an activation has not finished, one of them can go on. -/
theorem progress (run : (threads argp).machine.Run (admissible argp) actions events state)
    (tid : Tid) (unfinished : (state.pcs tid).unfinished = true) :
    ∃ other, (state.pcs other).unfinished = true ∧
      ¬ (state.pcs other).Stuck state.shared (argp other).clientId ∧
      ∃ after, (threads argp).machine.next state other = some after := by
  obtain ⟨queue, orderly, _⟩ := run_queue run
  suffices free : ∃ other, (state.pcs other).unfinished = true ∧
      ¬ (state.pcs other).Stuck state.shared (argp other).clientId by
    obtain ⟨other, running, loose⟩ := free
    obtain ⟨⟨shared, pc, emitted⟩, stepped⟩ := step_of_not_stuck running loose
    exact ⟨other, running, loose, _, Threads.next_step stepped⟩
  cases held : state.shared.mutex with
  | some owner =>
    have locks := (orderly.mutex owner).mpr held
    exact ⟨owner, Pc.unfinished_of_locks locks, Pc.not_stuck_of_locks locks⟩
  | none =>
    have quiet : ∀ index, state.shared.choosing index = 0 := by
      intro index
      by_contra set
      obtain ⟨other, chooses, _⟩ := choosing_of_run run index set
      have unlocked := orderly.owned.of_free held other
      rw [Pc.locks_of_chooses chooses] at unlocked
      cases unlocked
    cases line : queue.line with
    | nil =>
      have none : (state.pcs tid).holds = false := by
        by_contra holds
        have member := (orderly.member tid).mpr (by simpa using holds)
        rw [line] at member
        cases member
      exact ⟨tid, unfinished, not_stuck_of_no_ticket held none⟩
    | cons first rest =>
      have holds := (orderly.member first).mp (by simp [line])
      exact ⟨first, Pc.unfinished_of_holds holds,
        orderly.front_not_stuck held quiet (by simp [line])⟩

/-- While client 1 waits in the second loop for client 0. -/
theorem progress_waiting : ∃ actions events state,
    (threads pair).machine.Run (admissible pair) actions events state ∧
    (state.pcs false).Stuck state.shared (pair false).clientId ∧
    ∃ other, (state.pcs other).unfinished = true ∧
      ¬ (state.pcs other).Stuck state.shared (pair other).clientId := by
  obtain ⟨actions, shared, begun, drawn⟩ := pair_drawn
  have wait : Alone pair false drawnPcs shared (.waitChoosing 2 0) [] shared (.waitNonzero 2 0) :=
    .step rfl (by simp [step, drawn.choosing])
  obtain ⟨_, waiting⟩ := wait.path rfl
  have run := (begun.weaken fun _ _ permitted => permitted.1).append waiting
  have stuck : Before shared.number 1 0 := by
    simp only [Before, drawn.number]
    decide
  obtain ⟨other, running, loose, _⟩ := progress run false rfl
  exact ⟨_, _, _, run, stuck, other, running, loose⟩

end OsLabs.Bakery
