import OsLabs.Lab03.BufferWinding
import OsLabs.Lab03.ProcessTreeRest
import OsLabs.Lab03.WriterReaderExclusion
import OsLabs.Lab03.WriterReaderWinding

/-! The two whole programs: prod_cons.c and writer_reader.c with their `main`, from the
first `fork` to the removal of the semaphores and the memory. -/

namespace OsLabs.Lab03

open ProcessTree

namespace ProdCons

def status? : Pc → Option Nat
  | .exited status => some status
  | .head | .entering _ | .inside _ | .leaving _ => none

/-- The two `semop` calls are accesses to the set, and a section works on the memory. -/
def object? : Pc → Option ProdConsMain.Object
  | .entering _ | .leaving _ => some .semid
  | .inside _ => some .shmid
  | .head | .exited _ => none

/-- if (i % 2 == 0) producer(semid, letter, storage, producep); -/
def childRole (i : Fin count) : Role := if i.val % 2 = 0 then .producer else .consumer

def code (count : Nat) : Code count Shared Pc (Event (Fin count)) where
  program := program childRole
  status := status?
  object := object?
  exits pc := by cases pc <;> rfl
  begins := rfl
  awake := rfl

variable {count : Nat} {state after : ProcessTree.State count Shared Pc}
variable {events told : List (ProcessTree.Event (Event (Fin count)))}

/-- Whoever forks, kills and waits in between: the children find their objects, `main`
reports of them what has become of them, and the letters arrive. -/
theorem whole_delivers (run : (machine (code count)).Run Machine.anything actions events state) :
    Told (code count) events state ∧ Delivers (shown events) state.system.shared.storage := by
  refine ⟨told_of_run run, ?_⟩
  obtain ⟨moves, own⟩ : ∃ moves, (program childRole).machine.Run Machine.anything moves
      (shown events) state.system :=
    children_run (fun _ _ _ => trivial) (fun _ _ => trivial) run
  obtain ⟨channel, consistent, history⟩ := run_channel own
  exact consistent.ledger.delivers history

/-- Two children; the consumer loads the first letter and is killed in its section, the
producer leaves because of SIGINT, and `main` is interrupted in `wait`. -/
def consumerKilled (producer consumer : Fin 2) : List (ProcessTree.Action 2) :=
  [.main (.pid 101), .main (.pid 102)] ++ List.replicate 12 (.child (.exec producer)) ++
    List.replicate 4 (.child (.exec consumer)) ++
    [.child (.alarm consumer), .child (.sigint producer), .child (.exec producer),
      .main .success, .main .success, .sigint, .main (.failure .EINTR), .main .success,
      .main (.pid 102), .main .success,
      .main (.pid 101), .main .success, .main (.failure .ECHILD), .main .success, .main .success,
      .main .success]

theorem whole_delivers_consumerKilled : ∃ events state,
    (machine (code 2)).Run Machine.anything (consumerKilled 0 1) events state ∧
    state.main.pc = .exited 0 ∧ (shown events).filterMap Event.load? = [(0, 'a'.toUInt8)] ∧
    ProdConsMain.reports (record events) 101 = [.exited 0] ∧
    ProdConsMain.reports (record events) 102 = [.signaled SIGALRM] ∧
    Told (code 2) events state := by
  let view (state : ProcessTree.State 2 Shared Pc)
      (events : List (ProcessTree.Event (Event (Fin 2)))) :=
    (state.main.pc, (shown events).filterMap Event.load?,
      ProdConsMain.reports (record events) 101, ProdConsMain.reports (record events) 102)
  obtain ⟨events, state, run, seen⟩ : ∃ events state,
      (machine (code 2)).Run Machine.anything (consumerKilled 0 1) events state ∧
      view state events = (.exited 0, [(0, 'a'.toUInt8)], [.exited 0], [.signaled SIGALRM]) :=
    Machine.Path.ofView view (consumerKilled 0 1) (fun _ _ _ => trivial) (by decide +kernel)
  simp only [view, Prod.mk.injEq] at seen
  obtain ⟨ended, loads, first, second⟩ := seen
  exact ⟨events, state, run, ended, loads, first, second, (whole_delivers run).1⟩

/-- Ctrl-C, once every child has been forked, leaves so many undisturbed steps. When none is
left the program has ended, or it hangs: `main` waits for children of one role that sleep
in their start `semop`, for tokens that nobody is going to give. -/
theorem whole_rests (run : (machine (code count)).Run NoAlarm actions events state)
    (past : forkedAll state.main.pc = true)
    (signalled : (code count).program.Signalled state.system)
    (path : (machine (code count)).Path Undisturbed state later told after) :
    later.length ≤ 18 * count + 5 ∧ (Resting (code count) after →
      after.system.shared.sem .binary = 1 ∧ (Finished (code count) (events ++ told) after ∨
        after.main.pc = .wait ∧ ∃ kind : Role, after.system.shared.sem kind.takes = 0 ∧
          after.system.shared.sem kind.gives = ELEMENTS ∧
          (∃ i, (after.system.pcs i).hasExited = false) ∧
          ∀ i, (after.system.pcs i).hasExited = false →
            childRole i = kind ∧ after.system.pcs i = .entering true)) := by
  have winding : (code count).program.Winds Pc.rank := winds childRole
  refine ⟨steps_bounded winding Pc.rank_le run past signalled path, fun resting => ?_⟩
  obtain ⟨still, ends⟩ := rests_after winding run past signalled path resting
  obtain ⟨moves, own⟩ : ∃ moves, (program childRole).machine.Run Program.noAlarm moves
      (shown (events ++ told)) after.system :=
    children_run_noAlarm (run.append (path.weaken noAlarm_of_undisturbed))
  obtain ⟨mutex, left⟩ := left_of_still own still
  refine ⟨mutex, ends.imp_right fun ⟨waits, i, going⟩ => ⟨waits, ?_⟩⟩
  have remains : (after.system.pcs i).hasExited = false := going
  rcases left with exited | ⟨kind, taken, given, sleeping⟩
  · rw [exited i] at remains
    cases remains
  · exact ⟨kind, taken, given, ⟨i, remains⟩, sleeping⟩

/-- Ctrl-C reaches the consumer after the test of its flag, and the others. -/
def consumerLate (producer consumer : Fin 2) : List (ProcessTree.Action 2) :=
  [.main (.pid 101), .main (.pid 102), .main .success, .child (.exec consumer),
    .child (.sigint consumer), .child (.sigint producer), .sigint]

/-- The producer exits and is waited for; the consumer goes to sleep. -/
def producerLeaves (producer consumer : Fin 2) : List (ProcessTree.Action 2) :=
  [.child (.exec producer), .child (.exec consumer), .main .success, .main (.pid 101),
    .main .success]

theorem whole_rests_consumerLate : ∃ events state told after,
    (machine (code 2)).Run NoAlarm (consumerLate 0 1) events state ∧
    (machine (code 2)).Path Undisturbed state (producerLeaves 0 1) told after ∧
    Resting (code 2) after ∧ after.main.pc = .wait ∧ after.system.pcs 1 = .entering true ∧
    after.system.shared.sem .binary = 1 := by
  let ready (state : ProcessTree.State 2 Shared Pc) : Bool :=
    forkedAll state.main.pc && decide (∀ i, (state.system.process i).flag = false)
  let rests (after : ProcessTree.State 2 Shared Pc) :=
    (after.main.pc, after.main.children.entries, after.system.pcs 1, after.running? 0,
      ((machine (code 2)).next after (.child (.exec 1))).isNone)
  obtain ⟨events, state, told, after, run, path, begun, seen⟩ : ∃ events state told after,
      (machine (code 2)).Run NoAlarm (consumerLate 0 1) events state ∧
      (machine (code 2)).Path Undisturbed state (producerLeaves 0 1) told after ∧
      ready state = true ∧ rests after = (.wait, [(102, none)], .entering true, none, true) :=
    Machine.Path.ofViews ready rests (consumerLate 0 1) (producerLeaves 0 1)
      (by simp [consumerLate, NoAlarm]) rfl
  simp only [ready, rests, Bool.and_eq_true, decide_eq_true_eq, Prod.mk.injEq,
    Option.isNone_iff_eq_none] at begun seen
  obtain ⟨past, cleared⟩ := begun
  obtain ⟨waits, entries, asleep, gone, stuck⟩ := seen
  have signalled : (code 2).program.Signalled state.system := fun i _ => cleared i
  have resting : Resting (code 2) after := by
    refine resting_of_calls (fun outcome undisturbed => ?_) (Fin.forall_fin_two.mpr ⟨?_, stuck⟩)
    · rcases outcome with _ | pid | errno
      · simp [ProdConsMain.mainStep, waits]
      · have table : after.main.children = ⟨[(102, none)]⟩ := congrArg Children.mk entries
        by_cases own : pid = 102 <;>
          simp [ProdConsMain.mainStep, waits, table, Children.lookup_cons, own]
      · obtain ⟨_, rfl⟩ := undisturbed
        simp [ProdConsMain.mainStep, waits, entries]
    · simp [machine, childStep, target, gone]
  exact ⟨events, state, told, after, run, path, resting, waits, asleep,
    ((whole_rests run past signalled path).2 resting).1⟩

end ProdCons

namespace WriterReader

def status? : Pc → Option Nat
  | .exited status => some status
  | .head | .entering _ | .inside _ | .leaving _ => none

/-- The two `semop` calls are accesses to the set, and a section works on the memory. -/
def object? : Pc → Option ProdConsMain.Object
  | .entering _ | .leaving _ => some .semid
  | .inside _ => some .shmid
  | .head | .exited _ => none

/-- if (i % 2 == 0) writer(semid, storage); -/
def childRole (i : Fin count) : Role := if i.val % 2 = 0 then .writer else .reader

def code (count : Nat) : Code count Shared Pc (Event (Fin count)) where
  program := program childRole
  status := status?
  object := object?
  exits pc := by cases pc <;> rfl
  begins := rfl
  awake := rfl

variable {count : Nat} {state after : ProcessTree.State count Shared Pc}
variable {events told : List (ProcessTree.Event (Event (Fin count)))}

/-- Whoever forks, kills and waits in between: the children find their objects, `main`
reports of them what has become of them, a writer is alone in its section, and a reader
reads the letter that the completed writer sections have left. -/
theorem whole_excludes (run : (machine (code count)).Run Machine.anything actions events state) :
    Told (code count) events state ∧
    (∀ writer other, childRole writer = .writer → (state.system.pcs writer).active = true →
      (state.system.pcs other).active = true → writer = other) ∧
    ∀ before reader value behind, shown events = before ++ .read reader value :: behind →
      value = letterAt (before.countP (Event.endsWrite childRole)) := by
  obtain ⟨moves, own⟩ : ∃ moves, (program childRole).machine.Run Machine.anything moves
      (shown events) state.system :=
    children_run (fun _ _ _ => trivial) (fun _ _ => trivial) run
  obtain ⟨_, _, number, followed, same, guarded⟩ :=
    (refines_register childRole Machine.anything).run own
  rw [List.filterMap_some] at same
  subst same
  refine ⟨told_of_run run, fun writer other => guarded.writer_alone, ?_⟩
  intro before reader value behind place
  rw [place, List.filterMap_append] at followed
  have letter := Register.read_eq followed rfl
  rwa [countP_access?] at letter

/-- The writer completes a section; the reader reads and is killed in its section, which
`main` reports. -/
def readerKilled (writer reader : Fin 2) : List (ProcessTree.Action 2) :=
  [.main (.pid 101), .main (.pid 102), .main .success] ++
    List.replicate 7 (.child (.exec writer)) ++ List.replicate 3 (.child (.exec reader)) ++
    [.child (.alarm reader), .main .success, .main (.pid 102), .main .success]

theorem whole_excludes_readerKilled : ∃ events state value,
    (machine (code 2)).Run Machine.anything (readerKilled 0 1) events state ∧
    .read 1 value ∈ shown events ∧ value = 'b'.toUInt8 ∧ (state.system.pcs 0).active = false ∧
    ProdConsMain.reports (record events) 102 = [.signaled SIGALRM] := by
  let view (state : ProcessTree.State 2 Shared Pc)
      (events : List (ProcessTree.Event (Event (Fin 2)))) :=
    (state.system.pcs 1, shown events, ProdConsMain.reports (record events) 102)
  let before : List (Event (Fin 2)) := [.issued 0, .admitted 0, .wrote 0 'b'.toUInt8,
    .finished 0, .issued 1, .admitted 1]
  obtain ⟨events, state, run, seen⟩ : ∃ events state,
      (machine (code 2)).Run Machine.anything (readerKilled 0 1) events state ∧
      view state events =
        (.leaving false, before ++ [.read 1 'b'.toUInt8], [.signaled SIGALRM]) :=
    Machine.Path.ofView view (readerKilled 0 1) (fun _ _ _ => trivial) (by decide +kernel)
  simp only [view, Prod.mk.injEq] at seen
  obtain ⟨reader, sight, reported⟩ := seen
  obtain ⟨_, alone, letters⟩ := whole_excludes run
  refine ⟨events, state, 'b'.toUInt8, run, ?_, letters before 1 _ [] sight, ?_, reported⟩
  · rw [sight]
    simp
  · by_contra active
    have same := alone 0 1 rfl (by simpa using active) (by rw [reader]; rfl)
    cases same

/-- Ctrl-C, once every child has been forked, ends the whole program after so many
undisturbed steps, with all four semaphores at zero when the set is removed. -/
theorem whole_winds_down (run : (machine (code count)).Run NoAlarm actions events state)
    (past : forkedAll state.main.pc = true)
    (signalled : (code count).program.Signalled state.system)
    (path : (machine (code count)).Path Undisturbed state later told after) :
    later.length ≤ 12 * count + 5 ∧ (Resting (code count) after →
      Finished (code count) (events ++ told) after ∧
        ∀ num, after.system.shared.sem num = 0) := by
  have winding : (code count).program.Winds Pc.rank := winds childRole
  refine ⟨steps_bounded winding Pc.rank_le run past signalled path, fun resting => ?_⟩
  obtain ⟨still, ends⟩ := rests_after winding run past signalled path resting
  obtain ⟨moves, own⟩ : ∃ moves, (program childRole).machine.Run Program.noAlarm moves
      (shown (events ++ told)) after.system :=
    children_run_noAlarm (run.append (path.weaken noAlarm_of_undisturbed))
  obtain ⟨exited, empty⟩ := empty_of_still own still
  rcases ends with finished | ⟨_, i, going⟩
  · exact ⟨finished, empty⟩
  · have remains : (after.system.pcs i).hasExited = false := going
    rw [exited i] at remains
    cases remains

/-- Ctrl-C finds the writer in its section and the reader asleep behind it. -/
def readerWaits (writer reader : Fin 2) : List (ProcessTree.Action 2) :=
  [.main (.pid 101), .main (.pid 102), .main .success] ++
    List.replicate 2 (.child (.exec writer)) ++ List.replicate 2 (.child (.exec reader)) ++
    [.child (.sigint writer), .child (.sigint reader), .sigint]

/-- The reader has exited; the writer ends its section and exits, and `main` waits for both. -/
def bothReported (writer : Fin 2) : List (ProcessTree.Action 2) :=
  List.replicate 6 (.child (.exec writer)) ++ [.main .success, .main (.pid 101), .main .success,
    .main (.pid 102), .main .success, .main (.failure .ECHILD), .main .success, .main .success,
    .main .success]

theorem whole_winds_down_readerWaits : ∃ events state told after,
    (machine (code 2)).Run NoAlarm (readerWaits 0 1) events state ∧
    (machine (code 2)).Path Undisturbed state (bothReported 0) told after ∧
    Resting (code 2) after ∧ Finished (code 2) (events ++ told) after := by
  let ready (state : ProcessTree.State 2 Shared Pc) : Bool :=
    forkedAll state.main.pc && decide (∀ i, (state.system.process i).flag = false)
  let rests (after : ProcessTree.State 2 Shared Pc) :=
    (after.main.pc, after.running? 0, after.running? 1)
  obtain ⟨events, state, told, after, run, path, begun, seen⟩ : ∃ events state told after,
      (machine (code 2)).Run NoAlarm (readerWaits 0 1) events state ∧
      (machine (code 2)).Path Undisturbed state (bothReported 0) told after ∧
      ready state = true ∧ rests after = (.exited 0, none, none) :=
    Machine.Path.ofViews ready rests (readerWaits 0 1) (bothReported 0)
      (by simp [readerWaits, NoAlarm]) rfl
  simp only [ready, rests, Bool.and_eq_true, decide_eq_true_eq, Prod.mk.injEq] at begun seen
  obtain ⟨past, cleared⟩ := begun
  obtain ⟨ended, gone, also⟩ := seen
  have signalled : (code 2).program.Signalled state.system := fun i _ => cleared i
  have resting : Resting (code 2) after := by
    refine resting_of_calls (fun outcome _ => ?_) (Fin.forall_fin_two.mpr ⟨?_, ?_⟩)
    · cases outcome <;> simp [ProdConsMain.mainStep, ended]
    · simp [machine, childStep, target, gone]
    · simp [machine, childStep, target, also]
  exact ⟨events, state, told, after, run, path, resting,
    ((whole_winds_down run past signalled path).2 resting).1⟩

end WriterReader

end OsLabs.Lab03
