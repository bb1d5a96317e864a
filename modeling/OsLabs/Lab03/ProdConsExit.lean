import OsLabs.Lab03.ProdConsBuffer

/-! Leaving prod_cons.c: SIGINT clears the flag, or ends the `semop` that a child
sleeps in. A child that it reaches in between, after the test of the flag and
before its sleep, is not stopped by either. -/

namespace OsLabs.Lab03.ProdCons

variable {Pid : Type} {role : Pid → Role}

/-- No alarm; and a child that SIGINT has reached after the test of its flag finds
its token and the mutex, so that its start `semop` does not sleep. -/
def InTime (role : Pid → Role) (system : System Pid Shared Pc) : Action Pid → Prop
  | .exec pid => system.pcs pid = .entering false → (system.process pid).flag = false →
      system.shared.sem (role pid).takes ≠ 0 ∧ system.shared.sem .binary ≠ 0
  | .sigint _ => True
  | .alarm _ => False

instance (system : System Pid Shared Pc) (action : Action Pid) :
    Decidable (InTime role system action) :=
  match action with
  | .exec _ => inferInstanceAs (Decidable (_ → _ → _ ∧ _))
  | .sigint _ => inferInstanceAs (Decidable True)
  | .alarm _ => inferInstanceAs (Decidable False)

theorem noAlarm_of_inTime (system : System Pid Shared Pc) (action : Action Pid)
    (inTime : InTime role system action) : Program.noAlarm system action := by
  cases action with
  | exec _ | sigint _ => trivial
  | alarm _ => exact inTime

/-- Only a start `semop` that waits puts a child to sleep before its section. -/
theorem busy_of_asleep {shared : Shared} {emitted : List (Event Pid)}
    (stepped : step role pid shared flag pc = some (shared', .entering true, emitted)) :
    pc = .entering false ∧ (shared.sem (role pid).takes = 0 ∨ shared.sem .binary = 0) := by
  cases pc with
  | head => cases flag <;> simp [step] at stepped
  | entering asleep =>
    by_cases busy : shared.sem (role pid).takes = 0 ∨ shared.sem .binary = 0
    · have blocks := semop_start (role pid) shared
      rw [if_pos busy] at blocks
      cases asleep with
      | false => exact ⟨rfl, busy⟩
      | true => simp [step, call, blocks] at stepped
    · obtain ⟨token, mutex⟩ := not_or.mp busy
      rw [step_enter token mutex] at stepped
      simp at stepped
  | inside point =>
    have awake := awake_after_section (point.step pid shared.storage).2.1
    simp only [step, Option.some.injEq, Prod.mk.injEq] at stepped
    rw [stepped.2.1] at awake
    cases awake
  | leaving asleep =>
    simp only [step, call] at stepped
    split at stepped
    · simp at stepped
    · simp at stepped
    · simp at stepped
  | exited status => cases stepped

variable [DecidableEq Pid]

/-- A child that sleeps before its section has not received SIGINT yet. -/
theorem flag_of_asleep (run : (program role).machine.Run (InTime role) actions events system)
    (asleep : system.pcs pid = .entering true) : (system.process pid).flag = true := by
  refine Program.every_process
    (fun process => process.pc = Pc.entering true → process.flag = true)
    (fun here => Pc.noConfusion here) ?_ ?_ (fun _ permitted => absurd permitted id) run pid asleep
  · intro system pid shared pc emitted _ inTime stepped falls
    change pc = .entering true at falls
    subst falls
    obtain ⟨here, busy⟩ := busy_of_asleep stepped
    by_contra cleared
    obtain ⟨token, mutex⟩ := inTime here (by simpa using cleared)
    exact busy.elim token mutex
  · intro process _ stays
    change (if process.pc.asleep then Pc.exited 1 else process.pc) = .entering true at stays
    split at stays
    · cases stays
    · rename_i awake
      rw [stays] at awake
      exact absurd rfl awake

/-- A start `semop` that SIGINT has come too early for puts its caller to sleep,
with no SIGINT left to wake it. -/
theorem late_sleeps {system : System Pid Shared Pc} (alive : (system.process pid).alive = true)
    (late : ¬ InTime role system (.exec pid)) :
    ∃ after, (program role).machine.next system (.exec pid) = some (after, []) ∧
      after.pcs pid = .entering true ∧ (after.process pid).flag = false := by
  obtain ⟨here, cleared, unavailable⟩ : system.pcs pid = .entering false ∧
      (system.process pid).flag = false ∧
      ¬ (system.shared.sem (role pid).takes ≠ 0 ∧ system.shared.sem .binary ≠ 0) := by
    simpa [InTime] using late
  have busy : system.shared.sem (role pid).takes = 0 ∨ system.shared.sem .binary = 0 := by
    by_contra free
    obtain ⟨token, mutex⟩ := not_or.mp free
    exact unavailable ⟨token, mutex⟩
  have blocks := semop_start (role pid) system.shared
  rw [if_pos busy] at blocks
  have stepped : step role pid system.shared (system.process pid).flag (system.pcs pid) =
      some (system.shared, .entering true, []) := by
    simp [here, step, call, blocks]
  exact ⟨_, Program.next_exec alive stepped, by simp, by simpa [System.set] using cleared⟩

/-- A child that is not asleep and has not exited can take a step. -/
theorem awake_moves {system : System Pid Shared Pc} (alive : (system.process pid).alive = true)
    (awake : (system.pcs pid).asleep = false) (remains : (system.pcs pid).hasExited = false) :
    ∃ after emitted, (program role).machine.next system (.exec pid) = some (after, emitted) := by
  obtain ⟨⟨shared, pc, emitted⟩, stepped⟩ : ∃ result,
      step role pid system.shared (system.process pid).flag (system.pcs pid) = some result := by
    apply Option.ne_none_iff_exists'.mp
    cases here : system.pcs pid with
    | head | inside _ => exact Option.some_ne_none _
    | entering asleep | leaving asleep =>
      rw [here] at awake
      have sleepless : asleep = false := awake
      simp only [step, call, sleepless]
      split <;> simp
    | exited status =>
      rw [here] at remains
      cases remains
  exact ⟨_, emitted, Program.next_exec alive stepped⟩

/-- If SIGINT never comes between the test of a flag and a start `semop` that
sleeps, then it gets everybody out: once it has reached every child nobody
sleeps, and somebody can take a step until all have exited. -/
theorem sigint_ends_all [Fintype Pid]
    (run : (program role).machine.Run (InTime role) actions events system)
    (signalled : ∀ pid, (system.process pid).flag = false)
    (remaining : ∃ pid, (system.pcs pid).hasExited = false) :
    (∀ pid, (system.pcs pid).asleep = false) ∧
      ∃ pid after emitted,
        (program role).machine.next system (.exec pid) = some (after, emitted) := by
  obtain ⟨channel, consistent, _⟩ := run_channel run
  have awake : ∀ pid, (system.pcs pid).asleep = false := by
    intro pid
    cases here : system.pcs pid with
    | entering asleep =>
      cases asleep with
      | false => rfl
      | true =>
        have flag := flag_of_asleep run here
        rw [signalled pid] at flag
        cases flag
    | leaving asleep =>
      cases asleep with
      | false => rfl
      | true => exact absurd here (consistent.awake pid)
    | head | inside _ | exited _ => rfl
  obtain ⟨pid, remains⟩ := remaining
  have alive := Program.alive_of_noAlarm (run.weaken noAlarm_of_inTime) pid
  exact ⟨awake, pid, awake_moves alive (awake pid) remains⟩

/-- The producer has stored a letter when the consumer is interrupted after the test
of its flag: the consumer still gets it. -/
def storedInterrupts : List (Action Bool) :=
  List.replicate 12 (.exec true) ++ [.exec false, .sigint false, .sigint true, .exec false]

theorem sigint_ends_all_stored : ∃ events system,
    (program pair).machine.Run (InTime pair) storedInterrupts events system ∧
    ∃ pid after emitted,
      (program pair).machine.next system (.exec pid) = some (after, emitted) := by
  let test (system : System Bool Shared Pc) (action : Action Bool) : Bool :=
    decide (InTime pair system action)
  let view (system : System Bool Shared Pc) (_ : List (Event Bool)) :=
    ((system.process true).flag, (system.process false).flag, system.pcs true)
  obtain ⟨events, system, path, seen⟩ : ∃ events system,
      ((program pair).machine.restrict test).Run Machine.anything storedInterrupts events system ∧
      view system events = (false, false, .head) :=
    Machine.Path.ofView view storedInterrupts (fun _ _ _ => trivial) rfl
  have run : (program pair).machine.Run (InTime pair) storedInterrupts events system :=
    path.ofRestrict fun _ _ passed => of_decide_eq_true passed
  simp only [view, Prod.mk.injEq] at seen
  obtain ⟨producer, consumer, here⟩ := seen
  have signalled : ∀ pid, (system.process pid).flag = false := by
    rintro (_ | _)
    · exact consumer
    · exact producer
  have leaves := sigint_ends_all run signalled ⟨true, by rw [here]; rfl⟩
  exact ⟨events, system, run, leaves.2⟩

/-- The same interrupt when nothing has been stored; the producer is interrupted too
and leaves, and the consumer goes to sleep on the empty buffer. -/
def lateConsumer : List (Action Bool) :=
  [.exec false, .sigint false, .sigint true, .exec true, .exec false]

theorem late_consumer_stays : ∃ events system,
    (program pair).machine.Run Program.noAlarm lateConsumer events system ∧
    (∀ pid, (system.process pid).flag = false) ∧ (system.pcs false).hasExited = false ∧
    ∀ pid, (program pair).machine.next system (.exec pid) = none := by
  let view (system : System Bool Shared Pc) (_ : List (Event Bool)) :=
    ((system.process true).flag, (system.process false).flag, system.pcs false,
      ((program pair).machine.next system (.exec true)).isNone,
      ((program pair).machine.next system (.exec false)).isNone)
  obtain ⟨events, system, run, seen⟩ : ∃ events system,
      (program pair).machine.Run Program.noAlarm lateConsumer events system ∧
      view system events = (false, false, .entering true, true, true) :=
    Machine.Path.ofView view lateConsumer (by simp [lateConsumer, Program.noAlarm]) rfl
  simp only [view, Prod.mk.injEq, Option.isNone_iff_eq_none] at seen
  obtain ⟨producer, consumer, asleep, noProducer, noConsumer⟩ := seen
  refine ⟨events, system, run, ?_, by rw [asleep]; rfl, ?_⟩
  · rintro (_ | _)
    · exact consumer
    · exact producer
  · rintro (_ | _)
    · exact noConsumer
    · exact noProducer

end OsLabs.Lab03.ProdCons
