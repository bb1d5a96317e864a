import OsLabs.Lab03.WriterReaderExclusion

/-! Interrupts of writer_reader.c: a child leaves no count behind when a signal
ends it, because no signal ever ends it in its section. -/

namespace OsLabs.Lab03.WriterReader

variable {Pid : Type} [Fintype Pid] {role : Pid → Role}

/-- An end `semop` finds its caller counted, so that it neither waits nor fails. -/
theorem Guarded.finish_done (guarded : Guarded role shared pcs count)
    (here : pcs pid = .leaving asleep) :
    semop (role pid).finish shared.sem =
      .done (shared.set (role pid).active (shared.sem (role pid).active - 1)).sem := by
  have counted := guarded.active_pos pid (by rw [here]; rfl)
  rw [semop_finish, if_neg (Nat.ne_of_gt counted)]

theorem Guarded.awake_leaving (guarded : Guarded role shared pcs count)
    (here : pcs pid = .leaving asleep) : asleep = false := by
  cases asleep with
  | false => rfl
  | true => exact absurd here (guarded.awake pid)

/-- Nobody is counted once nobody is in a section. -/
theorem Guarded.sem_eq_zero (guarded : Guarded role shared pcs count)
    (outside : ∀ pid, (pcs pid).active = false) (num : Semaphore) : shared.sem num = 0 := by
  have nobody : ∀ kind, actives role kind pcs = 0 := fun kind =>
    tally_eq_zero.mpr fun pid => by simp [outside pid]
  cases num with
  | writeQueue => exact guarded.queues.write
  | readQueue => exact guarded.queues.read
  | activeWriter => exact (guarded.active .writer).trans (nobody .writer)
  | activeReaders => exact (guarded.active .reader).trans (nobody .reader)

variable [DecidableEq Pid]

/-- A signal that finds its receiver at an end `semop` only clears the flag. -/
theorem Guarded.sigint_leaving {system : System Pid Shared Pc}
    (guarded : Guarded role system.shared system.pcs count)
    (here : system.pcs pid = .leaving asleep)
    (taken : (program role).next system (.sigint pid) = some (after, emitted)) :
    after.shared = system.shared ∧ after.pcs = system.pcs := by
  cases Program.next_effect taken with
  | interrupt _ sleeping shared silent moved =>
    rw [here, guarded.awake_leaving here] at sleeping
    cases sleeping
  | handled _ awake shared silent moved => exact ⟨shared, moved⟩

/-- Interrupts leave no one counted: the semaphores always count the children in
their sections, an end `semop` neither waits nor fails, and all four semaphores
are back at zero when all children have exited. -/
theorem interrupts_leave_none
    (run : (program role).machine.Run Program.noAlarm actions events system) :
    system.shared.sem .activeWriter = actives role .writer system.pcs ∧
    system.shared.sem .activeReaders = actives role .reader system.pcs ∧
    system.shared.sem .writeQueue = 0 ∧ system.shared.sem .readQueue = 0 ∧
    (∀ pid asleep, system.pcs pid = .leaving asleep → asleep = false ∧
      (∃ sem, semop (role pid).finish system.shared.sem = .done sem) ∧
      (∀ after emitted,
        (program role).machine.next system (.sigint pid) = some (after, emitted) →
        after.shared = system.shared ∧ after.pcs = system.pcs)) ∧
    ((∀ pid, (system.pcs pid).hasExited = true) → ∀ num, system.shared.sem num = 0) := by
  obtain ⟨count, guarded⟩ := guarded_of_run run
  refine ⟨guarded.active .writer, guarded.active .reader, guarded.queues.write,
    guarded.queues.read, ?_, ?_⟩
  · intro pid asleep here
    exact ⟨guarded.awake_leaving here, ⟨_, guarded.finish_done here⟩,
      fun after emitted => guarded.sigint_leaving here⟩
  · intro ended
    apply guarded.sem_eq_zero
    intro pid
    have exited := ended pid
    cases here : system.pcs pid with
    | exited _ => rfl
    | head | entering _ | inside _ | leaving _ =>
      rw [here] at exited
      cases exited

/-- The reader is in its section when the writer blocks and is interrupted; the
reader is interrupted too, ends its section and leaves. -/
def bothInterrupted : List (Action Bool) :=
  List.replicate 2 (.exec false) ++ List.replicate 2 (.exec true) ++
    [.sigint true, .sigint false] ++ List.replicate 3 (.exec false)

theorem interrupts_leave_none_both : ∃ events system,
    (program pair).machine.Run Program.noAlarm bothInterrupted events system ∧
    system.pcs true = .exited 1 ∧ system.pcs false = .exited 0 ∧
    ∀ num, system.shared.sem num = 0 := by
  let view (system : System Bool Shared Pc) (_ : List (Event Bool)) :=
    (system.pcs true, system.pcs false)
  obtain ⟨events, system, run, seen⟩ : ∃ events system,
      (program pair).machine.Run Program.noAlarm bothInterrupted events system ∧
      view system events = (.exited 1, .exited 0) :=
    Machine.Path.ofView view bothInterrupted (by simp [bothInterrupted, Program.noAlarm]) rfl
  obtain ⟨writer, reader⟩ := Prod.mk.inj seen
  obtain ⟨_, _, _, _, _, released⟩ := interrupts_leave_none run
  refine ⟨events, system, run, writer, reader, released ?_⟩
  rintro (_ | _)
  · rw [reader]; rfl
  · rw [writer]; rfl

end OsLabs.Lab03.WriterReader
