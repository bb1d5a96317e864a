import OsLabs.Lab03.WriterReaderWinding

/-! Getting into a section of writer_reader.c: without kills every child can always be
brought there, since those inside can be brought out; but nothing bounds how many readers
pass a writer that waits. -/

namespace OsLabs.Lab03.WriterReader

variable {Pid : Type} {role : Pid → Role}

/-- The steps to the end of a section. -/
def Pc.remaining : Pc → Nat
  | .inside point => 1 + point.rank
  | .leaving _ => 1
  | .head | .entering _ | .exited _ => 0

/-- The steps to the start `semop`, and the call itself. -/
def Pc.approach : Pc → Nat
  | .head => 2
  | .entering _ => 1
  | .inside _ | .leaving _ | .exited _ => 0

/-- What is left to do before a child is inside: its own steps, and those of the children
in their sections. -/
def Pc.detour [DecidableEq Pid] (pid other : Pid) (pc : Pc) : Nat :=
  if other = pid then pc.approach else pc.remaining

/-- The child is in its section, or has left the loop for one of the two other reasons: its
flag was cleared, or the readers inside are as many as a semaphore can count. -/
def Arrived (system : System Pid Shared Pc) (pid : Pid) : Prop :=
  (system.pcs pid).active = true ∨
    system.pcs pid = .exited 0 ∧ (system.process pid).flag = false ∨
    system.pcs pid = .exited 1 ∧ SEMVMX ≤ system.shared.sem .activeReaders

/-- A start `semop` that finds nobody in its way fails only at the limit. -/
theorem full_of_erange {role : Role} {shared : Shared} (queues : Queues shared)
    (busy : ¬ role.Free shared) (fails : semop role.start shared.sem ≠ .blocks) :
    SEMVMX ≤ shared.sem .activeReaders := by
  obtain ⟨idle, alone⟩ := not_or.mp (mt (semop_start_blocks_iff queues).mpr fails)
  have writing : shared.sem .activeWriter = 0 := not_not.mp idle
  cases role with
  | reader => exact Nat.le_of_not_lt fun room => busy ⟨writing, room⟩
  | writer =>
    refine absurd ⟨writing, ?_⟩ busy
    by_contra reading
    exact alone ⟨rfl, reading⟩

theorem Pc.remaining_next (next : Option Section) :
    (next.elim (.leaving false) Pc.inside).remaining = 1 + next.elim 0 Section.rank := by
  cases next <;> rfl

/-- A child in its section can go on, and comes nearer to its end. -/
theorem Guarded.remaining_lt [Fintype Pid] (guarded : Guarded role shared pcs count)
    (active : (pcs pid).active = true) (flag : Bool) : ∃ shared' pc emitted,
      WriterReader.step role pid shared flag (pcs pid) = some (shared', pc, emitted) ∧
      pc.remaining < (pcs pid).remaining := by
  have counted := guarded.active_pos pid active
  cases here : pcs pid with
  | inside point =>
    refine ⟨_, _, _, rfl, ?_⟩
    rw [Pc.remaining_next]
    exact Nat.add_lt_add_left (point.step_rank pid shared.var) 1
  | leaving asleep => exact ⟨_, _, _, step_leave (Nat.ne_of_gt counted) .., Nat.one_pos⟩
  | head | entering _ | exited _ =>
    rw [here] at active
    cases active

/-- Whoever a child waits for is in its section. -/
theorem Guarded.blocker [Fintype Pid] (guarded : Guarded role shared pcs count)
    (blocks : semop (role pid).start shared.sem = .blocks) :
    ∃ other, (pcs other).active = true := by
  have inside : ∀ kind : Role, shared.sem kind.active ≠ 0 → ∃ other, (pcs other).active = true := by
    intro kind counted
    rw [guarded.active kind] at counted
    obtain ⟨other, selected⟩ := exists_of_tally_pos (Nat.pos_of_ne_zero counted)
    exact ⟨other, (Bool.and_eq_true_iff.mp selected).2⟩
  rcases (semop_start_blocks_iff guarded.queues).mp blocks with writing | ⟨_, reading⟩
  · exact inside .writer writing
  · exact inside .reader reading

theorem Pc.detour_le [DecidableEq Pid] (pid other : Pid) (pc : Pc) : pc.detour pid other ≤ 6 := by
  unfold Pc.detour
  split
  · cases pc <;> simp [Pc.approach]
  · cases pc with
    | inside point =>
      have few := point.rank_le
      rw [Pc.remaining]
      omega
    | head | entering _ | leaving _ | exited _ => simp [Pc.remaining]

variable [Fintype Pid] [DecidableEq Pid] {system : System Pid Shared Pc}

/-- What all children together have left to do before one of them is inside. -/
def distance (pid : Pid) (pcs : Pid → Pc) : Nat :=
  Program.left (fun other pc => Pc.detour pid other pc) pcs

/-- A child that takes a step shortens the way, if the step shortens its own. -/
theorem moves_nearer (pid : Pid) (alive : (system.process mover).alive = true)
    (stepped : WriterReader.step role mover system.shared (system.process mover).flag
      (system.pcs mover) = some (shared, pc, emitted))
    (nearer : pc.detour pid mover < (system.pcs mover).detour pid mover) :
    ∃ after, (program role).machine.next system (.exec mover) = some (after, emitted) ∧
      after.shared = shared ∧ after.pcs = Function.update system.pcs mover pc ∧
      (∀ other, (after.process other).flag = (system.process other).flag) ∧
      distance pid after.pcs < distance pid system.pcs := by
  refine ⟨_, Program.next_exec alive stepped, rfl, Program.pcs_set _ _ _, fun other => ?_, ?_⟩
  · by_cases same : other = mover
    · subst same
      simp [System.set]
    · simp [System.set, same]
  · rw [Program.pcs_set]
    exact Program.left_update_lt (fun other pc => Pc.detour pid other pc) nearer

/-- Unless it has arrived, somebody brings a child nearer to its section. -/
theorem approaches (run : (program role).machine.Run Program.noAlarm actions events system)
    (going : (system.pcs pid).hasExited = false) (away : ¬ Arrived system pid) :
    ∃ mover after emitted,
      (program role).machine.next system (.exec mover) = some (after, emitted) ∧
      (Arrived after pid ∨ (after.pcs pid).hasExited = false) ∧
      distance pid after.pcs < distance pid system.pcs := by
  obtain ⟨count, guarded⟩ := guarded_of_run run
  have alive := Program.alive_of_noAlarm run
  cases here : system.pcs pid with
  | head =>
    cases flag : (system.process pid).flag with
    | true =>
      obtain ⟨after, taken, _, moved, _, nearer⟩ := moves_nearer pid (alive pid)
        (by rw [here, flag]; rfl) (by rw [here]; simp [Pc.detour, Pc.approach])
      exact ⟨pid, after, _, taken, .inr (by rw [moved, Function.update_self]; rfl), nearer⟩
    | false =>
      obtain ⟨after, taken, _, moved, flags, nearer⟩ := moves_nearer pid (alive pid)
        (by rw [here, flag]; rfl) (by rw [here]; simp [Pc.detour, Pc.approach])
      refine ⟨pid, after, _, taken, .inl (.inr (.inl ⟨?_, ?_⟩)), nearer⟩
      · rw [moved, Function.update_self]
        rfl
      · rw [flags, flag]
  | entering asleep =>
    by_cases free : (role pid).Free system.shared
    · obtain ⟨after, taken, _, moved, _, nearer⟩ := moves_nearer pid (alive pid)
        (by rw [here]; exact step_enter guarded.queues free _ _)
        (by rw [here]; simp [Pc.detour, Pc.approach])
      exact ⟨pid, after, _, taken, .inl (.inl (by rw [moved, Function.update_self]; rfl)), nearer⟩
    · by_cases blocks : semop (role pid).start system.shared.sem = .blocks
      · obtain ⟨other, active⟩ := guarded.blocker blocks
        have different : other ≠ pid := by
          rintro rfl
          rw [here] at active
          cases active
        obtain ⟨shared, pc, emitted, stepped, lower⟩ :=
          guarded.remaining_lt active (system.process other).flag
        obtain ⟨after, taken, _, moved, _, nearer⟩ := moves_nearer pid (alive other) stepped
          (by simpa [Pc.detour, different] using lower)
        refine ⟨other, after, _, taken, .inr ?_, nearer⟩
        rw [moved, Function.update_of_ne different.symm]
        exact going
      · have full := (semop_start_busy guarded.queues free).resolve_left blocks
        have stepped : WriterReader.step role pid system.shared (system.process pid).flag
            (.entering asleep) = some (system.shared, .exited 1, issues pid asleep) := by
          simp only [WriterReader.step, full]
        obtain ⟨after, taken, same, moved, _, nearer⟩ := moves_nearer pid (alive pid)
          (by rw [here]; exact stepped) (by rw [here]; simp [Pc.detour, Pc.approach])
        refine ⟨pid, after, _, taken, .inl (.inr (.inr ⟨?_, ?_⟩)), nearer⟩
        · rw [moved, Function.update_self]
        · rw [same]
          exact full_of_erange guarded.queues free blocks
  | inside point | leaving asleep => exact absurd (.inl (by rw [here]; rfl)) away
  | exited status =>
    rw [here] at going
    cases going

/-- Without kills, every child that has not exited can be brought into its section from
every state, in at most six steps for each child, unless its flag has been cleared or as
many readers are inside as a semaphore can count. -/
theorem can_enter (run : (program role).machine.Run Program.noAlarm actions events system)
    (going : (system.pcs pid).hasExited = false) :
    ∃ moves shown final, moves.length ≤ 6 * Fintype.card Pid ∧
      (program role).machine.Path Program.noSignal system moves shown final ∧
      Arrived final pid := by
  have onward : ∀ state : System Pid Shared Pc, (∃ actions events,
        (program role).machine.Run Program.noAlarm actions events state) ∧
        (Arrived state pid ∨ (state.pcs pid).hasExited = false) → ¬ Arrived state pid →
      ∃ action after emitted, Program.noSignal state action ∧
        (program role).machine.next state action = some (after, emitted) ∧
        ((∃ actions events, (program role).machine.Run Program.noAlarm actions events after) ∧
          (Arrived after pid ∨ (after.pcs pid).hasExited = false)) ∧
        distance pid after.pcs < distance pid state.pcs := by
    rintro state ⟨⟨_, _, run⟩, there⟩ away
    obtain ⟨mover, after, emitted, taken, kept, nearer⟩ :=
      approaches run (there.resolve_left away) away
    have permitted : Program.noAlarm state (.exec mover) := trivial
    exact ⟨.exec mover, after, emitted, trivial, taken, ⟨⟨_, _, run.step permitted taken⟩, kept⟩,
      nearer⟩
  obtain ⟨moves, shown, final, few, path, _, arrived⟩ :=
    Machine.Path.reaches onward ⟨⟨_, _, run⟩, .inr going⟩
  exact ⟨moves, shown, final, few.trans (Program.left_le (Pc.detour_le pid) _), path, arrived⟩

/-- A reader is inside, and a writer waits for it. -/
theorem can_enter_waiting : ∃ events system,
    (program pair).machine.Run Program.noAlarm
      [.exec false, .exec false, .exec true, .exec true] events system ∧
    system.pcs true = .entering true ∧ ∃ moves shown final, moves.length ≤ 12 ∧
      (program pair).machine.Path Program.noSignal system moves shown final ∧
      Arrived final true := by
  let view (system : System Bool Shared Pc) (_ : List (Event Bool)) := system.pcs true
  let actions : List (Action Bool) := [.exec false, .exec false, .exec true, .exec true]
  obtain ⟨events, system, run, asleep⟩ : ∃ events system,
      (program pair).machine.Run Program.noAlarm actions events system ∧
      view system events = .entering true :=
    Machine.Path.ofView view actions (by simp [actions, Program.noAlarm]) rfl
  have here : system.pcs true = .entering true := asleep
  exact ⟨events, system, run, here, can_enter run (by rw [here]; rfl)⟩

/-- A writer has gone to sleep in its start `semop` behind one reader that is inside, and
another reader is about to begin its loop. -/
structure Relay (system : System Pid Shared Pc) (holder other writer : Pid) : Prop where
  queues : Queues system.shared
  writing : system.shared.sem .activeWriter = 0
  reading : system.shared.sem .activeReaders = 1
  inside : system.process holder = ⟨.inside .printReader, true, true⟩
  outside : system.process other = ⟨.head, true, true⟩
  waiting : system.process writer = ⟨.entering true, true, true⟩

/-- Reads, and nothing of a writer. -/
structure Overtakes (role : Pid → Role) (events : List (Event Pid)) (number : Nat) : Prop where
  reads : events.countP (fun event => event matches .read ..) = number
  others : ∀ pid, role pid = .writer → .admitted pid ∉ events

omit [Fintype Pid] [DecidableEq Pid] in
theorem Overtakes.append (first : Overtakes role events number)
    (second : Overtakes role shown more) : Overtakes role (events ++ shown) (number + more) where
  reads := by rw [List.countP_append, first.reads, second.reads]
  others pid writes member :=
    (List.mem_append.mp member).elim (first.others pid writes) (second.others pid writes)

omit [Fintype Pid] in
/-- One step of a child that has its flag set. -/
theorem path_single {shared : Shared} {pc' : Pc} {emitted : List (Event Pid)}
    (here : system.process pid = ⟨pc, true, true⟩)
    (stepped : WriterReader.step role pid system.shared true pc = some (shared, pc', emitted)) :
    (program role).machine.Path Program.noSignal system [.exec pid] emitted
      ({ system with shared := shared }.set pid ⟨pc', true, true⟩) := by
  have alive : (system.process pid).alive = true := by rw [here]
  have taken : (program role).next system (.exec pid) = some _ := Program.next_exec alive (by
    rw [System.pcs, here]
    exact stepped)
  rw [here] at taken
  exact .single trivial taken

omit [Fintype Pid] in
/-- The reader that was about to begin comes in, and the other one goes out. -/
theorem Relay.pass (relay : Relay system holder other writer) (reads : role holder = .reader)
    (also : role other = .reader) (apart : holder ≠ other) (behind : writer ≠ holder)
    (aside : writer ≠ other) : ∃ moves shown after,
      (program role).machine.Path Program.noSignal system moves shown after ∧
      Overtakes role shown 1 ∧ Relay after other holder writer := by
  obtain ⟨queues, writing, reading, inside, outside, waiting⟩ := relay
  have free : (role other).Free system.shared := by
    rw [also]
    exact ⟨writing, by rw [reading]; decide⟩
  let entered := system.shared.set .activeReaders 2
  have enter : WriterReader.step role other system.shared true (.entering false) =
      some (entered, .inside .printReader, [.issued other, .admitted other]) := by
    rw [step_enter queues free, also]
    simp [Role.active, reading, entered, Role.entry, issues]
  have leave : WriterReader.step role holder entered true (.leaving false) =
      some (entered.set .activeReaders 1, .head, [.finished holder]) := by
    rw [step_leave (by rw [reads]; simp [Role.active, entered]), reads]
    simp [Role.active, entered]
  let begun := { system with shared := system.shared }.set other ⟨.entering false, true, true⟩
  let two := { begun with shared := entered }.set other ⟨.inside .printReader, true, true⟩
  let read := { two with shared := entered }.set holder ⟨.leaving false, true, true⟩
  have first : (program role).machine.Path Program.noSignal system [.exec other]
      [] begun := path_single outside rfl
  have second : (program role).machine.Path Program.noSignal begun [.exec other]
      [.issued other, .admitted other] two := path_single (by simp [begun, System.set]) enter
  have third : (program role).machine.Path Program.noSignal two [.exec holder]
      [.read holder entered.var] read :=
    path_single (by simpa [two, begun, System.set, apart] using inside) rfl
  have fourth : (program role).machine.Path Program.noSignal read [.exec holder]
      [.finished holder] _ := path_single (by simp [read, System.set]) leave
  refine ⟨_, _, _, ((first.append second).append third).append fourth, ?_, ?_⟩
  · refine ⟨rfl, fun pid writes member => ?_⟩
    have same : pid = other := by simpa using member
    rw [same, also] at writes
    cases writes
  · refine ⟨(queues.set .reader 2).set .reader 1, ?_, ?_, ?_, ?_, ?_⟩
    · simp [System.set, entered, writing]
    · simp [System.set]
    · simp [System.set, read, two, apart.symm]
    · simp [System.set]
    · simpa [System.set, read, two, begun, behind, aside] using waiting

omit [Fintype Pid] in
/-- From such a state on the two readers can relieve each other for ever. -/
theorem Relay.passes (relay : Relay system holder other writer) (reads : role holder = .reader)
    (also : role other = .reader) (apart : holder ≠ other) (behind : writer ≠ holder)
    (aside : writer ≠ other) (number : Nat) : ∃ moves shown after,
      (program role).machine.Path Program.noSignal system moves shown after ∧
      Overtakes role shown number ∧ after.pcs writer = .entering true := by
  induction number generalizing system holder other with
  | zero =>
    exact ⟨[], [], system, .start, ⟨rfl, fun _ _ => List.not_mem_nil⟩,
      congrArg Process.pc relay.waiting⟩
  | succ number ih =>
    obtain ⟨moves, shown, after, path, overtakes, next⟩ :=
      relay.pass reads also apart behind aside
    obtain ⟨more, others, final, rest, again, asleep⟩ :=
      ih next also reads apart.symm aside behind
    refine ⟨moves ++ more, shown ++ others, final, path.append rest, ?_, asleep⟩
    rw [Nat.add_comm]
    exact overtakes.append again

omit [Fintype Pid] in
/-- The first reader comes in, and the writer goes to sleep. -/
theorem relay_begins (reads : role holder = .reader) (writes : role writer = .writer)
    (apart : holder ≠ other) (behind : writer ≠ holder) (aside : writer ≠ other) :
    ∃ moves shown system, (program role).machine.Run Program.noSignal moves shown system ∧
      Relay system holder other writer := by
  let start : System Pid Shared Pc := (program role).machine.init
  have queues : Queues start.shared := ⟨rfl, rfl⟩
  have limit : 0 < SEMVMX := by decide
  have free : (role holder).Free start.shared := by
    rw [reads]
    exact ⟨rfl, limit⟩
  let entered := start.shared.set .activeReaders 1
  have enter : WriterReader.step role holder start.shared true (.entering false) =
      some (entered, .inside .printReader, [.issued holder, .admitted holder]) := by
    rw [step_enter queues free, reads]
    rfl
  have blocks : semop (role writer).start entered.sem = .blocks := by
    refine (semop_start_blocks_iff (queues.set .reader 1)).mpr (.inr ⟨writes, ?_⟩)
    simp [Role.active]
  have block : WriterReader.step role writer entered true (.entering false) =
      some (entered, .entering true, [.issued writer, .blocked writer]) := by
    simp [WriterReader.step, blocks]
  let begun := { start with shared := start.shared }.set holder ⟨.entering false, true, true⟩
  let one := { begun with shared := entered }.set holder ⟨.inside .printReader, true, true⟩
  let called := { one with shared := entered }.set writer ⟨.entering false, true, true⟩
  have first : (program role).machine.Path Program.noSignal start [.exec holder]
      [] begun := path_single rfl rfl
  have second : (program role).machine.Path Program.noSignal begun [.exec holder]
      [.issued holder, .admitted holder] one := path_single (by simp [begun, System.set]) enter
  have ready : one.process writer = ⟨.head, true, true⟩ := by
    simp only [one, begun, System.set, Function.update_of_ne behind]
    rfl
  have third : (program role).machine.Path Program.noSignal one [.exec writer]
      [] called := path_single ready rfl
  have fourth : (program role).machine.Path Program.noSignal called [.exec writer]
      [.issued writer, .blocked writer] _ := path_single (by simp [called, System.set]) block
  refine ⟨_, _, _, ((first.append second).append third).append fourth, ?_⟩
  refine ⟨queues.set .reader 1, rfl, rfl, ?_, ?_, ?_⟩
  · simp [System.set, called, one, behind.symm]
  · simp only [System.set, called, one, begun, Function.update_of_ne aside.symm,
      Function.update_of_ne apart.symm]
    rfl
  · simp [System.set]

omit [Fintype Pid] in
/-- Nothing bounds the readers that overtake a writer: with two readers, for every number
there is a run without signals in which a writer sleeps in its start `semop` while so many
letters are read, and no writer is admitted. -/
theorem writer_starves (reads : role first = .reader) (also : role second = .reader)
    (writes : role writer = .writer) (apart : first ≠ second) (number : Nat) :
    ∃ actions events waiting later shown final,
      (program role).machine.Run Program.noSignal actions events waiting ∧
      waiting.pcs writer = .entering true ∧
      (program role).machine.Path Program.noSignal waiting later shown final ∧
      Overtakes role shown number ∧ final.pcs writer = .entering true := by
  have behind : writer ≠ first := by
    rintro rfl
    rw [reads] at writes
    cases writes
  have aside : writer ≠ second := by
    rintro rfl
    rw [also] at writes
    cases writes
  obtain ⟨actions, events, waiting, run, relay⟩ := relay_begins reads writes apart behind aside
  obtain ⟨later, shown, final, path, overtakes, asleep⟩ :=
    relay.passes reads also apart behind aside number
  exact ⟨actions, events, waiting, later, shown, final, run,
    congrArg Process.pc relay.waiting, path, overtakes, asleep⟩

/-- Two readers and a writer. -/
def twoReaders : Option Bool → Role
  | some _ => .reader
  | none => .writer

theorem writer_starves_thousand : ∃ actions events waiting later shown final,
    (program twoReaders).machine.Run Program.noSignal actions events waiting ∧
    waiting.pcs none = .entering true ∧
    (program twoReaders).machine.Path Program.noSignal waiting later shown final ∧
    Overtakes twoReaders shown 1000 ∧ final.pcs none = .entering true := by
  have apart : some false ≠ some true := by decide
  exact writer_starves rfl rfl rfl apart 1000

end OsLabs.Lab03.WriterReader
