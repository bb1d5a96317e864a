import OsLabs.Lab03.WriterReaderExclusion

/-! Kills of writer_reader.c: an alarm strikes a child wherever it is, and nothing
takes back the count that a child killed in its section leaves behind. -/

namespace OsLabs.Lab03.WriterReader

variable {Pid : Type}

/-- A child that has neither been killed nor exited. -/
def Live (role : Pid → Role) (system : System Pid Shared Pc) (pid : Pid) : Prop :=
  (program role).running (system.process pid) = true

/-- A child of a role was killed in its section. -/
def Abandoned (role : Pid → Role) (system : System Pid Shared Pc) (kind : Role) : Prop :=
  ∃ pid, role pid = kind ∧ (system.process pid).alive = false ∧ (system.pcs pid).active = true

/-- All live children are asleep in their start `semop`, behind a writer that was
killed in its section, or all of them writers, behind a reader that was. -/
def ShutOut (role : Pid → Role) (system : System Pid Shared Pc) : Prop :=
  (∀ pid, Live role system pid → system.pcs pid = .entering true) ∧
    (Abandoned role system .writer ∨
      (Abandoned role system .reader ∧ ∀ pid, Live role system pid → role pid = .writer))

variable {role : Pid → Role} {system : System Pid Shared Pc}

theorem live_iff : Live role system pid ↔
    (system.process pid).alive = true ∧ (system.pcs pid).hasExited = false := by
  rw [Live, Program.running, Bool.and_eq_true, Bool.not_eq_true']
  rfl

theorem Live.alive (live : Live role system pid) : (system.process pid).alive = true :=
  (live_iff.mp live).1

/-- A child in a section is live unless it was killed there. -/
theorem live_of_active (alive : (system.process pid).alive = true)
    (active : (system.pcs pid).active = true) : Live role system pid := by
  refine live_iff.mpr ⟨alive, ?_⟩
  cases here : system.pcs pid with
  | inside _ | leaving _ => rfl
  | head | entering _ | exited _ =>
    rw [here] at active
    cases active

/-- While all live children are asleep before their sections, a count is raised
exactly when a child was killed in its section. -/
theorem Guarded.counted_iff [Fintype Pid]
    (guarded : Guarded role system.shared system.pcs count)
    (waiting : ∀ pid, Live role system pid → system.pcs pid = .entering true) (kind : Role) :
    system.shared.sem kind.active ≠ 0 ↔ Abandoned role system kind := by
  rw [guarded.active kind]
  constructor
  · intro counted
    obtain ⟨pid, selected⟩ := exists_of_tally_pos (Nat.pos_of_ne_zero counted)
    obtain ⟨sameRole, active⟩ : role pid = kind ∧ (system.pcs pid).active = true := by
      simpa using selected
    refine ⟨pid, sameRole, ?_, active⟩
    by_contra alive
    rw [waiting pid (live_of_active (by simpa using alive) active)] at active
    cases active
  · rintro ⟨pid, sameRole, _, active⟩
    exact Nat.ne_of_gt (tally_pos pid (by simp [sameRole, active]))

variable [DecidableEq Pid]

/-- Some live child can take a step of its program. -/
def Moves (role : Pid → Role) (system : System Pid Shared Pc) : Prop :=
  ∃ pid after emitted, Live role system pid ∧
    (program role).machine.next system (.exec pid) = some (after, emitted)

/-- A live child that cannot step has gone to sleep in its start `semop`. -/
theorem Live.next_none_iff [Fintype Pid]
    (live : Live role system pid) (guarded : Guarded role system.shared system.pcs count) :
    (program role).machine.next system (.exec pid) = none ↔
      system.pcs pid = .entering true ∧ (system.shared.sem .activeWriter ≠ 0 ∨
        (role pid = .writer ∧ system.shared.sem .activeReaders ≠ 0)) := by
  rw [← semop_start_blocks_iff guarded.queues]
  obtain ⟨alive, unfinished⟩ := live_iff.mp live
  have stepping : (program role).machine.next system (.exec pid) = none ↔
      WriterReader.step role pid system.shared (system.process pid).flag (system.pcs pid) =
        none := by
    change (program role).next system (.exec pid) = none ↔ _
    simp only [Program.next, alive, ↓reduceIte, Option.map_eq_none_iff]
    rfl
  rw [stepping]
  cases here : system.pcs pid with
  | head => cases (system.process pid).flag <;> simp [WriterReader.step]
  | entering asleep =>
    cases outcome : semop (role pid).start system.shared.sem with
    | done _ | erange => simp [WriterReader.step, outcome]
    | blocks => simp [WriterReader.step, outcome]
  | inside point => simp [WriterReader.step]
  | leaving asleep =>
    have counted := guarded.active_pos pid (by rw [here]; rfl)
    rw [step_leave (Nat.ne_of_gt counted)]
    simp
  | exited status =>
    rw [here] at unfinished
    cases unfinished

theorem ShutOut.still [Fintype Pid] (shut : ShutOut role system) (live : Live role system pid)
    (guarded : Guarded role system.shared system.pcs count) :
    (program role).machine.next system (.exec pid) = none := by
  obtain ⟨waiting, behind⟩ := shut
  refine (live.next_none_iff guarded).mpr ⟨waiting pid live, ?_⟩
  rcases behind with writer | ⟨reader, writers⟩
  · exact .inl ((guarded.counted_iff waiting .writer).mpr writer)
  · exact .inr ⟨writers pid live, (guarded.counted_iff waiting .reader).mpr reader⟩

/-- The survivors of kills go on unless they are shut out: some live child can
take a step in exactly the other states. -/
theorem survivors_move_iff [Fintype Pid]
    (run : (program role).machine.Run Machine.anything actions events system)
    (survivor : ∃ pid, Live role system pid) : Moves role system ↔ ¬ ShutOut role system := by
  obtain ⟨count, guarded⟩ := guarded_of_run run
  constructor
  · rintro ⟨pid, after, emitted, live, taken⟩ shut
    rw [shut.still live guarded] at taken
    cases taken
  · intro passable
    by_contra still
    have stuck : ∀ pid, Live role system pid → system.pcs pid = .entering true ∧
        (system.shared.sem .activeWriter ≠ 0 ∨
          (role pid = .writer ∧ system.shared.sem .activeReaders ≠ 0)) := by
      intro pid live
      apply (live.next_none_iff guarded).mp
      by_contra enabled
      obtain ⟨⟨after, emitted⟩, taken⟩ := Option.ne_none_iff_exists'.mp enabled
      exact still ⟨pid, after, emitted, live, taken⟩
    have waiting : ∀ pid, Live role system pid → system.pcs pid = .entering true :=
      fun pid live => (stuck pid live).1
    refine passable ⟨waiting, ?_⟩
    by_cases writing : system.shared.sem .activeWriter = 0
    · have behindReader : ∀ pid, Live role system pid →
          role pid = .writer ∧ system.shared.sem .activeReaders ≠ 0 := fun pid live =>
        (stuck pid live).2.resolve_left (not_not.mpr writing)
      obtain ⟨pid, live⟩ := survivor
      exact .inr ⟨(guarded.counted_iff waiting .reader).mp (behindReader pid live).2,
        fun pid live => (behindReader pid live).1⟩
    · exact .inl ((guarded.counted_iff waiting .writer).mp writing)

/-- A reader is killed in its section; a writer that has not called its start
`semop` yet still can. -/
theorem survivors_move_iff_killed : ∃ events system,
    (program pair).machine.Run Machine.anything
      (List.replicate 2 (.exec false) ++ [.alarm false, .exec true]) events system ∧
    Abandoned pair system .reader ∧ Moves pair system := by
  let view (system : System Bool Shared Pc) (_ : List (Event Bool)) :=
    (system.pcs false, (system.process false).alive, system.pcs true,
      (program pair).running (system.process true))
  obtain ⟨events, system, run, seen⟩ : ∃ events system,
      (program pair).machine.Run Machine.anything
        (List.replicate 2 (.exec false) ++ [.alarm false, .exec true]) events system ∧
      view system events = (.inside .printReader, false, .entering false, true) :=
    Machine.Path.ofView view _ (fun _ _ _ => trivial) rfl
  simp only [view, Prod.mk.injEq] at seen
  obtain ⟨reader, killed, writer, live⟩ := seen
  refine ⟨events, system, run, ⟨false, rfl, killed, by rw [reader]; rfl⟩, ?_⟩
  apply (survivors_move_iff run ⟨true, live⟩).mpr
  rintro ⟨waiting, _⟩
  have asleep := waiting true live
  rw [writer] at asleep
  cases asleep

/-- The writer is killed in its section while the reader waits. -/
def writerKilled : List (Action Bool) :=
  List.replicate 2 (.exec true) ++ List.replicate 2 (.exec false) ++ [.alarm true]

/-- The reader is left asleep for good. -/
theorem killed_writer_blocks : ∃ events system,
    (program pair).machine.Run Machine.anything writerKilled events system ∧
    (∃ pid, Live pair system pid) ∧ ¬ Moves pair system := by
  let view (system : System Bool Shared Pc) (_ : List (Event Bool)) :=
    ((program pair).running (system.process true), (program pair).running (system.process false),
      ((program pair).machine.next system (.exec false)).isNone)
  obtain ⟨events, system, run, seen⟩ : ∃ events system,
      (program pair).machine.Run Machine.anything writerKilled events system ∧
      view system events = (false, true, true) :=
    Machine.Path.ofView view writerKilled (fun _ _ _ => trivial) rfl
  simp only [view, Prod.mk.injEq, Option.isNone_iff_eq_none] at seen
  obtain ⟨writer, reader, blocked⟩ := seen
  refine ⟨events, system, run, ⟨false, reader⟩, ?_⟩
  rintro ⟨_ | _, after, emitted, live, taken⟩
  · rw [blocked] at taken
    cases taken
  · rw [Live, writer] at live
    cases live

theorem live_of_exec
    (taken : (program role).machine.next system (.exec pid) = some (after, emitted)) :
    Live role system pid := by
  have stepping : (program role).next system (.exec pid) = some (after, emitted) := taken
  cases Program.next_effect stepping with
  | exec _ alive stepped moved =>
    refine live_iff.mpr ⟨alive, ?_⟩
    cases here : system.pcs pid with
    | exited _ =>
      rw [here] at stepped
      cases stepped
    | head | entering _ | inside _ | leaving _ => rfl

/-- A live child that ends changes nothing for the others. -/
theorem ShutOut.set (shut : ShutOut role system) (live : Live role system pid)
    (ended : (program role).running process = false) : ShutOut role (system.set pid process) := by
  have others : ∀ other, other ≠ pid →
      (system.set pid process).process other = system.process other := fun other different =>
    Function.update_of_ne different ..
  have survives : ∀ other, Live role (system.set pid process) other →
      other ≠ pid ∧ Live role system other := by
    intro other alive
    have different : other ≠ pid := by
      rintro rfl
      simp only [Live, System.set, Function.update_self, ended] at alive
      cases alive
    rw [Live, others other different] at alive
    exact ⟨different, alive⟩
  have abandoned : ∀ kind, Abandoned role system kind →
      Abandoned role (system.set pid process) kind := by
    rintro kind ⟨other, sameRole, killed, active⟩
    have different : other ≠ pid := by
      rintro rfl
      rw [live.alive] at killed
      cases killed
    refine ⟨other, sameRole, ?_, ?_⟩
    · rwa [others other different]
    · rwa [System.pcs, others other different]
  obtain ⟨waiting, behind⟩ := shut
  refine ⟨fun other alive => ?_, ?_⟩
  · obtain ⟨different, alive⟩ := survives other alive
    rw [System.pcs, others other different]
    exact waiting other alive
  · rcases behind with writer | ⟨reader, writers⟩
    · exact .inl (abandoned .writer writer)
    · exact .inr ⟨abandoned .reader reader, fun other alive =>
        writers other (survives other alive).2⟩

/-- A signal ends a live child that is shut out. -/
theorem ShutOut.signal (shut : ShutOut role system) (signal : ∀ pid, action ≠ .exec pid)
    (taken : (program role).machine.next system action = some (after, emitted)) :
    ShutOut role after := by
  cases action with
  | exec pid => exact absurd rfl (signal pid)
  | sigint pid =>
    simp only [Program.machine, Program.next, Option.ite_none_right_eq_some, Option.some.injEq,
      Prod.mk.injEq] at taken
    obtain ⟨live, rfl, _⟩ := taken
    have here : (system.process pid).pc = .entering true := shut.1 pid live
    refine shut.set live ?_
    rw [here]
    exact Bool.and_false _
  | alarm pid =>
    simp only [Program.machine, Program.next, Option.ite_none_right_eq_some, Option.some.injEq,
      Prod.mk.injEq] at taken
    obtain ⟨live, rfl, _⟩ := taken
    exact shut.set live rfl

/-- Children that are shut out stay so for good: only signals still reach them. -/
theorem shutOut_forever [Fintype Pid]
    (run : (program role).machine.Run Machine.anything actions events system)
    (shut : ShutOut role system)
    (path : (program role).machine.Path Machine.anything system later shown after) :
    ShutOut role after ∧ ∀ pid, .exec pid ∉ later := by
  induction path with
  | start => exact ⟨shut, fun _ => List.not_mem_nil⟩
  | @step later shown state action after emitted path permitted taken ih =>
    obtain ⟨shutThere, signals⟩ := ih
    obtain ⟨count, guarded⟩ := guarded_of_run (run.append path)
    have signal : ∀ pid, action ≠ .exec pid := by
      rintro pid rfl
      rw [shutThere.still (live_of_exec taken) guarded] at taken
      cases taken
    refine ⟨shutThere.signal signal taken, fun pid member => ?_⟩
    rcases List.mem_append.mp member with earlier | last
    · exact signals pid earlier
    · exact signal pid (List.mem_singleton.mp last).symm

end OsLabs.Lab03.WriterReader
