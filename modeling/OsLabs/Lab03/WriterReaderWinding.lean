import OsLabs.Lab03.WriterReaderInterrupts
import OsLabs.Lab03.WriterReaderKills
import OsLabs.Machine.Winding

/-! The end of writer_reader.c: once SIGINT has reached every child, all of them leave
after a bounded number of steps, whatever their order. -/

namespace OsLabs.Lab03.WriterReader

variable {Pid : Type} {role : Pid → Role}

/-- The accesses of a section that are left. -/
def Section.rank : Section → Nat
  | .printReader | .printWriter => 1
  | .wrapVar => 2
  | .testVar => 3
  | .storeIncrement _ => 4
  | .loadIncrement => 5

theorem Section.rank_le (point : Section) : point.rank ≤ 5 := by
  cases point <;> simp [Section.rank]

theorem Section.step_rank (point : Section) (pid : Pid) (var : UInt8) :
    (point.step pid var).2.1.elim 0 Section.rank < point.rank := by
  cases point with
  | testVar =>
    simp only [Section.step]
    split <;> decide
  | printReader | loadIncrement | storeIncrement _ | wrapVar | printWriter =>
    simp [Section.step, Section.rank]

/-- The steps to the exit of a child whose flag is cleared. -/
def Pc.rank : Pc → Nat
  | .exited _ => 0
  | .head => 1
  | .leaving asleep => 2 + (!asleep).toNat
  | .inside point => 3 + point.rank
  | .entering asleep => 9 + (!asleep).toNat

theorem Pc.rank_le (pc : Pc) : pc.rank ≤ 10 := by
  cases pc with
  | inside point =>
    have few := point.rank_le
    rw [Pc.rank]
    omega
  | entering asleep | leaving asleep => cases asleep <;> decide
  | head | exited _ => simp [Pc.rank]

theorem Pc.rank_next (next : Option Section) :
    (next.elim (.leaving false) Pc.inside).rank = 3 + next.elim 0 Section.rank := by
  cases next <;> rfl

/-- A child that does not find its flag set goes down to its exit. -/
theorem winds (role : Pid → Role) : (program role).Winds Pc.rank where
  interrupted _ := Nat.zero_le _
  ended {pid shared flag pc} exited := by
    cases pc with
    | exited _ => rfl
    | head | entering _ | inside _ | leaving _ => cases exited
  falls {pid shared pc shared' pc' emitted} stepped := by
    change WriterReader.step role pid shared false pc = some (shared', pc', emitted) at stepped
    cases pc with
    | head =>
      obtain ⟨_, rfl, _⟩ : _ ∧ _ ∧ _ := by simpa [WriterReader.step] using stepped
      exact Nat.one_pos
    | entering asleep =>
      simp only [WriterReader.step] at stepped
      split at stepped
      · obtain ⟨_, rfl, _⟩ : _ ∧ _ ∧ _ := by simpa using stepped
        have few := (role pid).entry.rank_le
        simp only [Pc.rank]
        omega
      · obtain ⟨rfl, _, rfl, _⟩ : _ ∧ _ ∧ _ ∧ _ := by simpa using stepped
        exact Nat.lt_succ_self 9
      · obtain ⟨_, rfl, _⟩ : _ ∧ _ ∧ _ := by simpa using stepped
        simp only [Pc.rank]
        omega
    | inside point =>
      simp only [WriterReader.step, Option.some.injEq, Prod.mk.injEq] at stepped
      obtain ⟨_, rfl, _⟩ := stepped
      rw [Pc.rank_next]
      exact Nat.add_lt_add_left (point.step_rank pid shared.var) 3
    | leaving asleep =>
      simp only [WriterReader.step] at stepped
      split at stepped
      · obtain ⟨_, rfl, _⟩ : _ ∧ _ ∧ _ := by simpa using stepped
        simp only [Pc.rank]
        omega
      · obtain ⟨rfl, _, rfl, _⟩ : _ ∧ _ ∧ _ ∧ _ := by simpa using stepped
        exact Nat.lt_succ_self 2
      · obtain ⟨_, rfl, _⟩ : _ ∧ _ ∧ _ := by simpa using stepped
        simp only [Pc.rank]
        omega
    | exited status => cases stepped

variable [Fintype Pid] [DecidableEq Pid]

/-- Without kills the children can only come to rest when all have exited. -/
theorem exited_of_still (run : (program role).machine.Run Program.noAlarm actions events system)
    (still : (program role).Still system) (pid : Pid) : (system.pcs pid).hasExited = true := by
  obtain ⟨count, guarded⟩ := guarded_of_run run
  have alive := Program.alive_of_noAlarm run
  by_contra going
  have live : ∀ {other}, (system.pcs other).hasExited = false → Live role system other :=
    fun going => live_iff.mpr ⟨alive _, going⟩
  have waiting : ∀ other, Live role system other → system.pcs other = .entering true :=
    fun other here => ((here.next_none_iff guarded).mp (still other)).1
  have unabandoned : ∀ kind, ¬ Abandoned role system kind := by
    rintro kind ⟨other, _, killed, _⟩
    rw [alive other] at killed
    cases killed
  have uncounted : ∀ kind : Role, system.shared.sem kind.active = 0 := fun kind =>
    not_not.mp (mt (guarded.counted_iff waiting kind).mp (unabandoned kind))
  have asleep := ((live (by simpa using going)).next_none_iff guarded).mp (still pid)
  rcases asleep.2 with writing | ⟨_, reading⟩
  · exact writing (uncounted .writer)
  · exact reading (uncounted .reader)

/-- When all have exited, the semaphores are back at zero. -/
theorem empty_of_still (run : (program role).machine.Run Program.noAlarm actions events system)
    (still : (program role).Still system) :
    (∀ pid, (system.pcs pid).hasExited = true) ∧ ∀ num, system.shared.sem num = 0 := by
  have ended := exited_of_still run still
  obtain ⟨count, guarded⟩ := guarded_of_run run
  refine ⟨ended, guarded.sem_eq_zero fun pid => ?_⟩
  have exited := ended pid
  cases here : system.pcs pid with
  | exited _ => rfl
  | head | entering _ | inside _ | leaving _ =>
    rw [here] at exited
    cases exited

/-- Once SIGINT has reached every child, no order of their steps is longer than ten for
each of them, and they only come to rest when all have exited, with all four semaphores
back at zero. -/
theorem sigint_winds_down
    (run : (program role).machine.Run Program.noAlarm actions events system)
    (signalled : (program role).Signalled system)
    (path : (program role).machine.Path Program.noAlarm system later shown after) :
    later.countP Action.isExec ≤ 10 * Fintype.card Pid ∧
      ((program role).Still after →
        (∀ pid, (after.pcs pid).hasExited = true) ∧ ∀ num, after.shared.sem num = 0) :=
  ⟨(winds role).execs_bounded Pc.rank_le signalled path, empty_of_still (run.append path)⟩

/-- The writer has entered its section and the reader is about to; SIGINT reaches both. -/
def bothSignalled : List (Action Bool) :=
  List.replicate 2 (.exec true) ++ [.exec false, .sigint true, .sigint false]

/-- The reader goes to sleep, the writer ends its section and leaves, then the reader. -/
def bothLeave : List (Action Bool) :=
  [.exec false] ++ List.replicate 6 (.exec true) ++ List.replicate 4 (.exec false)

theorem sigint_winds_down_both : ∃ events system shown after,
    (program pair).machine.Run Program.noAlarm bothSignalled events system ∧
    (program pair).machine.Path Program.noAlarm system bothLeave shown after ∧
    (∀ pid, (after.pcs pid).hasExited = true) ∧ ∀ num, after.shared.sem num = 0 := by
  let flags (system : System Bool Shared Pc) :=
    ((system.process true).flag, (system.process false).flag)
  let rests (after : System Bool Shared Pc) :=
    (((program pair).machine.next after (.exec true)).isNone,
      ((program pair).machine.next after (.exec false)).isNone)
  obtain ⟨events, system, shown, after, run, path, cleared, rest⟩ : ∃ events system shown after,
      (program pair).machine.Run Program.noAlarm bothSignalled events system ∧
      (program pair).machine.Path Program.noAlarm system bothLeave shown after ∧
      flags system = (false, false) ∧ rests after = (true, true) :=
    Machine.Path.ofViews flags rests bothSignalled bothLeave
      (by simp [bothSignalled, Program.noAlarm]) rfl
  simp only [flags, rests, Prod.mk.injEq, Option.isNone_iff_eq_none] at cleared rest
  have signalled : (program pair).Signalled system := by
    rintro (_ | _) _
    · exact cleared.2
    · exact cleared.1
  have still : (program pair).Still after := by
    rintro (_ | _)
    · exact rest.2
    · exact rest.1
  exact ⟨events, system, shown, after, run, path, (sigint_winds_down run signalled path).2 still⟩

end OsLabs.Lab03.WriterReader
