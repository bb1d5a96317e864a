import OsLabs.Lab03.WriterReaderInvariant
import Mathlib.Data.Fintype.Basic

/-! Whether the waiting writers of writer_reader.c hold back new readers. Their
WRITE_QUEUE is raised within a call that changes nothing while it waits, so that
only a writer in its section does. -/

namespace OsLabs.Lab03.WriterReader

variable {Pid : Type} [DecidableEq Pid] {role : Pid → Role}

/-- A live writer is asleep in its start `semop`. -/
def WriterBlocked (role : Pid → Role) (system : System Pid Shared Pc) : Prop :=
  ∃ writer, role writer = .writer ∧ system.pcs writer = .entering true ∧
    (system.process writer).alive = true

/-- `between` is what a run has shown since a moment at which some writer was blocked, and
no writer has been admitted since that moment. -/
def SinceBlocked (role : Pid → Role) (actions : List (Action Pid))
    (between : List (Event Pid)) (system : System Pid Shared Pc) : Prop :=
  ∃ front later seen waiting, actions = front ++ later ∧
    (program role).machine.Run Machine.anything front seen waiting ∧ WriterBlocked role waiting ∧
    (program role).machine.Path Machine.anything waiting later between system ∧
    ∀ writer, role writer = .writer → .admitted writer ∉ between

/-- No reader that has called its start `semop` since such a moment is admitted. -/
def HoldsBack (role : Pid → Role) (actions : List (Action Pid)) : Prop :=
  ∀ front between system, front <+: actions → SinceBlocked role front between system →
    ∀ reader before behind, role reader = .reader → between = before ++ .issued reader :: behind →
      .admitted reader ∉ behind

/-- The next step of the reader is its start `semop`: the call of it, or the end of a wait
in a call that it has made since then. -/
def Late (between : List (Event Pid)) (system : System Pid Shared Pc) (reader : Pid) : Prop :=
  system.pcs reader = .entering false ∨
    system.pcs reader = .entering true ∧ .issued reader ∈ between

/-- Whenever it is a late reader's turn, some writer is in its section, or ACTIVE_READERS
is at the limit of the system. -/
def WriterInside (role : Pid → Role) (actions : List (Action Pid)) : Prop :=
  ∀ front between system reader, front ++ [.exec reader] <+: actions →
    SinceBlocked role front between system → role reader = .reader →
    Late between system reader →
    (∃ writer, role writer = .writer ∧ (system.pcs writer).active = true) ∨
      SEMVMX ≤ system.shared.sem .activeReaders

theorem SinceBlocked.run (since : SinceBlocked role actions between system) :
    ∃ events, (program role).machine.Run Machine.anything actions events system := by
  obtain ⟨front, later, seen, waiting, rfl, before, _, after, _⟩ := since
  exact ⟨_, before.append after⟩

/-- A further step that admits no writer. -/
theorem SinceBlocked.step (since : SinceBlocked role actions between system)
    (taken : (program role).machine.next system action = some (after, emitted))
    (silent : ∀ writer, role writer = .writer → .admitted writer ∉ emitted) :
    SinceBlocked role (actions ++ [action]) (between ++ emitted) after := by
  obtain ⟨front, later, seen, waiting, rfl, before, blocked, path, none⟩ := since
  refine ⟨front, later ++ [action], seen, waiting, List.append_assoc .., before, blocked,
    path.step trivial taken, fun writer writes member => ?_⟩
  rcases List.mem_append.mp member with old | new
  · exact none writer writes old
  · exact silent writer writes new

variable [Fintype Pid]

theorem queues_of_run
    (run : (program role).machine.Run Machine.anything actions events system) :
    Queues system.shared := by
  obtain ⟨_, guarded⟩ := guarded_of_run run
  exact guarded.queues

omit [DecidableEq Pid] in
/-- With no writer inside, ACTIVE_WRITER is at zero. -/
theorem Guarded.no_writer (guarded : Guarded role shared pcs count)
    (nobody : ¬ ∃ writer, role writer = .writer ∧ (pcs writer).active = true) :
    shared.sem .activeWriter = 0 := by
  refine (guarded.active .writer).trans (tally_eq_zero.mpr fun pid => ?_)
  by_contra inside
  exact nobody ⟨pid, by simpa using inside⟩

/-- A step that admits a child is its start `semop`, which has found its section free. -/
theorem next_admits (run : (program role).machine.Run Machine.anything actions events system)
    (taken : (program role).machine.next system action = some (after, emitted))
    (admitted : .admitted pid ∈ emitted) :
    action = .exec pid ∧ ∃ asleep, system.pcs pid = .entering asleep ∧
      (role pid).Free system.shared ∧ emitted = issues pid asleep ++ [.admitted pid] := by
  have stepping : (program role).next system action = some (after, emitted) := taken
  cases Program.next_effect stepping with
  | exec mover alive stepped moved =>
    obtain ⟨rfl, entering⟩ := free_of_admitted (queues_of_run run) stepped admitted
    exact ⟨rfl, entering⟩
  | interrupt | handled | killed =>
    simp_all

/-- A late reader is admitted when no writer is inside and there is room. -/
theorem next_enters (run : (program role).machine.Run Machine.anything actions events system)
    (taken : (program role).machine.next system (.exec pid) = some (after, emitted))
    (here : system.pcs pid = .entering asleep) (free : (role pid).Free system.shared) :
    emitted = issues pid asleep ++ [.admitted pid] := by
  have stepping : (program role).next system (.exec pid) = some (after, emitted) := taken
  cases Program.next_effect stepping with
  | exec _ alive stepped moved =>
    rw [here, show (program role).step = step role from rfl,
      step_enter (queues_of_run run) free] at stepped
    obtain ⟨_, _, rfl⟩ : _ ∧ _ ∧ _ := by simpa using stepped
    rfl

/-- A reader that is admitted after it has called was late when its turn came, and found
the section free. -/
theorem SinceBlocked.turn (since : SinceBlocked role actions between final)
    (place : between = (before ++ .issued reader :: ahead) ++ .admitted reader :: rest) :
    ∃ past told state, past ++ [.exec reader] <+: actions ∧ SinceBlocked role past told state ∧
      Late told state reader ∧ (role reader).Free state.shared ∧
      ∃ count, Guarded role state.shared state.pcs count := by
  obtain ⟨front, later, seen, waiting, rfl, run, blocked, path, none⟩ := since
  obtain ⟨past, told, state, action, after, emitted, early, late, remaining, way, _, taken, shown,
    split, rfl⟩ := path.emission place
  have reached := run.append way
  obtain ⟨rfl, asleep, here, free, same⟩ :=
    next_admits reached taken (show .admitted reader ∈ emitted by simp [shown])
  refine ⟨front ++ past, told, state, ⟨remaining, by simp⟩,
    ⟨front, past, seen, waiting, rfl, run, blocked, way, fun writer writes member => ?_⟩, ?_, free,
    guarded_of_run reached⟩
  · refine none writer writes ?_
    rw [place, split]
    simp [member]
  · cases asleep with
    | false => exact .inl here
    | true =>
      have first : early = [] := by
        cases early with
        | nil => rfl
        | cons head tail => simp [shown, issues] at same
      rw [first, List.append_nil] at split
      exact .inr ⟨here, by simp [← split]⟩

/-- WRITE_QUEUE never holds back a reader: the law holds of a run exactly when a writer in
its section does it instead. -/
theorem holdsBack_iff_writerInside
    (run : (program role).machine.Run Machine.anything actions events system) :
    HoldsBack role actions ↔ WriterInside role actions := by
  constructor
  · rintro holdsBack front between state reader ⟨back, parts⟩ since reads late
    by_contra unguarded
    obtain ⟨nobody, room⟩ := not_or.mp unguarded
    obtain ⟨seen, before⟩ := since.run
    obtain ⟨count, guarded⟩ := guarded_of_run before
    have free : (role reader).Free state.shared := by
      rw [reads]
      exact ⟨guarded.no_writer nobody, Nat.lt_of_not_le room⟩
    obtain ⟨_, after, _, _, path, _⟩ := run.split parts.symm
    obtain ⟨_, _, emitted, _, path, _, taken⟩ := path.finalStep
    obtain ⟨_, rfl⟩ := before.unique path
    have reached : ∀ asleep, state.pcs reader = .entering asleep →
        SinceBlocked role (front ++ [.exec reader])
          (between ++ (issues reader asleep ++ [.admitted reader])) after := by
      intro asleep here
      rw [← next_enters before taken here free]
      refine since.step taken fun writer writes member => ?_
      obtain ⟨same, _⟩ := next_admits before taken member
      cases same
      rw [reads] at writes
      cases writes
    rcases late with here | ⟨here, issued⟩
    · exact holdsBack _ _ _ ⟨back, parts⟩ (reached false here) reader between [.admitted reader]
        reads rfl (List.mem_singleton.mpr rfl)
    · obtain ⟨ahead, behind, rfl⟩ := List.append_of_mem issued
      exact holdsBack _ _ _ ⟨back, parts⟩ (reached true here) reader ahead
        (behind ++ [.admitted reader]) reads (by simp [issues]) (by simp)
  · rintro inside front between final ⟨back, parts⟩ since reader before behind reads place admitted
    obtain ⟨ahead, rest, rfl⟩ := List.append_of_mem admitted
    have cut : between = (before ++ .issued reader :: ahead) ++ .admitted reader :: rest := by
      rw [place]
      simp
    obtain ⟨past, told, state, turn, still, late, free, count, guarded⟩ := since.turn cut
    have within : past ++ [.exec reader] <+: actions := turn.trans ⟨back, parts⟩
    rw [reads] at free
    obtain ⟨writing, room⟩ := free
    rcases inside past told state reader within still reads late with
      ⟨writer, writes, active⟩ | full
    · have counted := guarded.active_pos writer active
      rw [writes] at counted
      exact absurd writing (Nat.ne_of_gt counted)
    · exact absurd room (Nat.not_lt_of_le full)

/-- A writer between two readers. -/
def trio : Fin 3 → Role
  | 0 => .reader
  | 1 => .writer
  | 2 => .reader

/-- The first reader is in its section, and the other one has passed the test of its flag,
when the writer blocks; then the other reader calls. -/
def overtaking : List (Action (Fin 3)) :=
  [.exec 0, .exec 0, .exec 2, .exec 1, .exec 1, .exec 2]

theorem overtaking_late : ∃ events system,
    (program trio).machine.Run Machine.anything overtaking events system ∧
    SinceBlocked trio overtaking [.issued 2, .admitted 2] system := by
  refine ⟨_, _, .ofExec overtaking (fun _ _ _ => trivial) rfl,
    ⟨[.exec 0, .exec 0, .exec 2, .exec 1, .exec 1], [.exec 2], _, _, rfl,
      .ofExec _ (fun _ _ _ => trivial) rfl, ⟨1, rfl, rfl, rfl⟩, .single trivial rfl, ?_⟩⟩
  rintro writer writes member
  obtain rfl : writer = 2 := by simpa using member
  cases writes

theorem overtaken : ∃ events system,
    (program trio).machine.Run Machine.anything overtaking events system ∧
    ¬ HoldsBack trio overtaking := by
  obtain ⟨events, system, run, since⟩ := overtaking_late
  exact ⟨events, system, run, fun holdsBack => holdsBack _ _ _ List.prefix_rfl since 2 []
    [.admitted 2] rfl rfl (List.mem_singleton.mpr rfl)⟩

/-- On that run no writer is inside when the late reader calls. -/
theorem holdsBack_iff_writerInside_overtaking : ∃ events system,
    (program trio).machine.Run Machine.anything overtaking events system ∧
    ¬ WriterInside trio overtaking := by
  obtain ⟨events, system, run, since⟩ := overtaking_late
  refine ⟨events, system, run, fun inside => ?_⟩
  exact (holdsBack_iff_writerInside run).mpr inside _ _ _ List.prefix_rfl since 2 []
    [.admitted 2] rfl rfl (List.mem_singleton.mpr rfl)

end OsLabs.Lab03.WriterReader
