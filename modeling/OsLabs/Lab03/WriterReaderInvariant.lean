import OsLabs.Ipc.Register
import OsLabs.Lab03.WriterReader
import OsLabs.Machine.Tally

/-! The invariant of writer_reader.c: the semaphores count the children in their
sections, a writer is alone in its section, and its section changes the letter
to the next one. -/

namespace OsLabs.Lab03.WriterReader

/-- What holds of `*var` before an access, when `count` writers have finished. -/
def Section.Outline (count : Nat) (var : UInt8) : Section → Prop
  | .printReader => True
  | .loadIncrement => var = letterAt count
  | .storeIncrement value => value = letterAt count
  | .testVar => var = letterAt count + 1
  | .wrapVar => letterAt count + 1 = 'z'.toUInt8 + 1
  | .printWriter => var = letterAt (count + 1)

/-- The next access, or the end of the section, finds what it needs. -/
theorem Section.step_outline {point : Section} (pid : Pid) (writes : point.role = .writer)
    (outline : point.Outline count var) :
    match (point.step pid var : UInt8 × Option Section × List (Event Pid)) with
    | (var', some point', _) => point'.role = .writer ∧ point'.Outline count var'
    | (var', none, _) => var' = letterAt (count + 1) := by
  cases point with
  | printReader => cases writes
  | loadIncrement => exact ⟨rfl, outline⟩
  | storeIncrement value =>
    subst outline
    exact ⟨rfl, rfl⟩
  | testVar =>
    subst outline
    by_cases last : letterAt count + 1 = 'z'.toUInt8 + 1
    · simp only [Section.step, last, ↓reduceIte]
      exact ⟨rfl, last⟩
    · simp only [Section.step, last, ↓reduceIte]
      exact ⟨rfl, (letterAt_succ last).symm⟩
  | wrapVar => exact ⟨rfl, (letterAt_wrap outline).symm⟩
  | printWriter => exact outline

/-- The section of a reader is a single access. -/
theorem Section.step_reader {point : Section} (reads : point.role = .reader) (pid : Pid)
    (var : UInt8) : point.step pid var = (var, none, [.read pid var]) := by
  cases point with
  | printReader => rfl
  | loadIncrement | storeIncrement _ | testVar | wrapVar | printWriter => cases reads

/-- What holds of `*var` while a child is at a point of its program. -/
def Pc.Outline (role : Role) (count : Nat) (var : UInt8) : Pc → Prop
  | .inside point => point.role = role ∧ point.Outline count var
  | .leaving _ => role = .writer → var = letterAt (count + 1)
  | .head | .entering _ | .exited _ => True

theorem Pc.outline_of_not_active {pc : Pc} (outside : pc.active = false) (role : Role) (count : Nat)
    (var : UInt8) : pc.Outline role count var := by
  cases pc with
  | inside point => cases outside
  | leaving asleep => cases outside
  | head | entering _ | exited _ => trivial

/-- The accesses of the children, seen as those of a register: the update of a
writer takes effect with its end `semop`. -/
def Event.access? (role : Pid → Role) : Event Pid → Option (Register.Event UInt8)
  | .read _ value => some (.read value)
  | .finished pid => if role pid = .writer then some .wrote else none
  | .issued _ | .blocked _ | .admitted _ | .wrote _ _ => none

/-- A call is no access. -/
theorem access?_issues (role : Pid → Role) (pid : Pid) (asleep : Bool) :
    (issues pid asleep).filterMap (Event.access? role) = [] := by
  cases asleep <;> rfl

/-- The section of a writer accesses the register only when it has ended. -/
theorem Section.step_writer {point : Section} (writes : point.role = .writer) (pid : Pid)
    (var : UInt8) (role : Pid → Role) :
    (point.step pid var).2.2.filterMap (Event.access? role) = [] := by
  cases point with
  | printReader => cases writes
  | loadIncrement | storeIncrement _ | testVar | wrapVar | printWriter => rfl

variable {Pid : Type} [Fintype Pid]

/-- How many children of a role are in their sections. -/
def actives (role : Pid → Role) (kind : Role) (pcs : Pid → Pc) : Nat :=
  tally (fun pid pc => decide (role pid = kind) && pc.active) pcs

structure Guarded (role : Pid → Role) (shared : Shared) (pcs : Pid → Pc) (count : Nat) : Prop where
  queues : Queues shared
  active : ∀ kind, shared.sem kind.active = actives role kind pcs
  exclusive : shared.sem .activeWriter = 0 ∨
    (shared.sem .activeWriter = 1 ∧ shared.sem .activeReaders = 0)
  awake : ∀ pid, pcs pid ≠ .leaving true
  outline : ∀ pid, (pcs pid).Outline (role pid) count shared.var
  idle : shared.sem .activeWriter = 0 → shared.var = letterAt count

variable {role : Pid → Role} {shared : Shared} {pcs : Pid → Pc} {count : Nat}

namespace Guarded

theorem initial (role : Pid → Role) :
    Guarded role (program role).shared (fun _ => (program role).entry) 0 where
  queues := ⟨rfl, rfl⟩
  active kind := (tally_eq_zero.mpr fun _ => by simp [program, Pc.active]).symm
  exclusive := .inl rfl
  awake _ := by simp [program]
  outline _ := trivial
  idle _ := rfl

theorem active_pos (guarded : Guarded role shared pcs count) (pid : Pid)
    (active : (pcs pid).active = true) : 0 < shared.sem (role pid).active := by
  rw [guarded.active]
  exact tally_pos pid (by simp [active])

/-- A writer in its section is the only child in a section. -/
theorem writer_alone (guarded : Guarded role shared pcs count) (writes : role writer = .writer)
    (active : (pcs writer).active = true) (inside : (pcs other).active = true) :
    writer = other := by
  have writing := guarded.active_pos writer active
  rw [writes] at writing
  change 0 < shared.sem .activeWriter at writing
  rcases guarded.exclusive with none | ⟨one, noReaders⟩
  · omega
  · cases kind : role other with
    | reader =>
      have reading := guarded.active_pos other inside
      rw [kind] at reading
      change 0 < shared.sem .activeReaders at reading
      omega
    | writer =>
      have bound : actives role .writer pcs ≤ 1 := by
        rw [← guarded.active .writer]
        exact Nat.le_of_eq one
      exact eq_of_tally_le_one bound (by simp [writes, active]) (by simp [kind, inside])

/-- What a reader in its section sees. -/
theorem read_letter (guarded : Guarded role shared pcs count) (reads : role pid = .reader)
    (active : (pcs pid).active = true) : shared.var = letterAt count := by
  have reading := guarded.active_pos pid active
  rw [reads] at reading
  change 0 < shared.sem .activeReaders at reading
  rcases guarded.exclusive with idle | ⟨_, none⟩
  · exact guarded.idle idle
  · omega

variable [DecidableEq Pid]

theorem actives_update (role : Pid → Role) (kind : Role) (pcs : Pid → Pc) (pid : Pid) (pc : Pc) :
    actives role kind (Function.update pcs pid pc) +
        (decide (role pid = kind) && (pcs pid).active).toNat =
      actives role kind pcs + (decide (role pid = kind) && pc.active).toNat :=
  tally_update (fun pid (pc : Pc) => decide (role pid = kind) && pc.active) pcs pid pc

/-- A move that keeps a child inside or outside its section keeps the counts. -/
theorem active_same (guarded : Guarded role shared pcs count) (same : pc.active = (pcs pid).active)
    (kind : Role) :
    shared.sem kind.active = actives role kind (Function.update pcs pid pc) := by
  have moved := actives_update role kind pcs pid pc
  rw [same] at moved
  have counted := guarded.active kind
  omega

/-- A child is counted in or out by the semaphore of its role. -/
theorem active_set (guarded : Guarded role shared pcs count)
    (balance : value + (pcs pid).active.toNat = shared.sem (role pid).active + pc.active.toNat)
    (kind : Role) : (shared.set (role pid).active value).sem kind.active =
      actives role kind (Function.update pcs pid pc) := by
  have moved := actives_update role kind pcs pid pc
  have counted := guarded.active kind
  by_cases same : role pid = kind
  · subst same
    simp only [decide_true, Bool.true_and] at moved
    rw [Shared.sem_set, Function.update_self]
    omega
  · have apart : kind.active ≠ (role pid).active := by
      cases kind <;> cases other : role pid <;> simp [Role.active, other] at same ⊢
    simp only [same, decide_false, Bool.false_and] at moved
    rw [Shared.sem_set, Function.update_of_ne apart]
    omega

theorem awake_update (guarded : Guarded role shared pcs count) (awake : pc ≠ .leaving true) :
    ∀ other, Function.update pcs pid pc other ≠ .leaving true :=
  (Function.forall_update_iff pcs (fun _ pc => pc ≠ .leaving true)).mpr
    ⟨awake, fun other _ => guarded.awake other⟩

/-- While one child moves the letter or the count, the outlines of the others
stand if that child is a writer in its section or nothing has changed. -/
theorem outline_update (guarded : Guarded role shared pcs count)
    (outline : pc.Outline (role pid) count' var)
    (others : (role pid = .writer ∧ (pcs pid).active = true) ∨ (count' = count ∧ var = shared.var))
    (other : Pid) : (Function.update pcs pid pc other).Outline (role other) count' var := by
  refine (Function.forall_update_iff pcs
    (fun other pc => pc.Outline (role other) count' var)).mpr ⟨outline, ?_⟩ other
  intro other different
  rcases others with ⟨writes, active⟩ | ⟨rfl, rfl⟩
  · apply Pc.outline_of_not_active
    by_contra inside
    exact different (guarded.writer_alone writes active (by simpa using inside)).symm
  · exact guarded.outline other

/-- A move outside the section. -/
theorem outside (guarded : Guarded role shared pcs count) (before : (pcs pid).active = false)
    (after : pc.active = false) : Guarded role shared (Function.update pcs pid pc) count where
  queues := guarded.queues
  active := guarded.active_same (after.trans before.symm)
  exclusive := guarded.exclusive
  awake := guarded.awake_update (by rintro rfl; cases after)
  outline := guarded.outline_update (Pc.outline_of_not_active after ..) (.inr ⟨rfl, rfl⟩)
  idle := guarded.idle

/-- A child that finds its section free enters it. -/
theorem enter (guarded : Guarded role shared pcs count) (before : (pcs pid).active = false)
    (free : (role pid).Free shared) :
    Guarded role (shared.set (role pid).active (shared.sem (role pid).active + 1))
      (Function.update pcs pid (.inside (role pid).entry)) count := by
  have writing : shared.sem .activeWriter = 0 := by
    cases kind : role pid <;> rw [kind] at free <;> exact free.1
  have balance : shared.sem (role pid).active + 1 + (pcs pid).active.toNat =
      shared.sem (role pid).active + (Pc.inside (role pid).entry).active.toNat := by
    rw [before]
    rfl
  refine ⟨guarded.queues.set _ _, guarded.active_set balance, ?_, guarded.awake_update (by simp),
    guarded.outline_update ?_ (.inr ⟨rfl, rfl⟩), fun _ => guarded.idle writing⟩
  · cases kind : role pid with
    | reader =>
      left
      simpa [Role.active] using writing
    | writer =>
      rw [kind] at free
      right
      simpa [Role.active, writing] using free.2
  · have letter := guarded.idle writing
    cases role pid with
    | reader => exact ⟨rfl, trivial⟩
    | writer => exact ⟨rfl, letter⟩

/-- An access of the section. -/
theorem inside (guarded : Guarded role shared pcs count) (here : pcs pid = .inside point)
    (stepped : (point.step pid shared.var : UInt8 × Option Section × List (Event Pid)) =
      (var, next, emitted)) :
    Guarded role { shared with var := var }
      (Function.update pcs pid (next.elim (.leaving false) .inside)) count := by
  have active : (pcs pid).active = true := by rw [here]; rfl
  have stays : (next.elim (.leaving false) Pc.inside).active = true := by cases next <;> rfl
  obtain ⟨sameRole, outline⟩ : point.role = role pid ∧ point.Outline count shared.var := by
    simpa only [here, Pc.Outline] using guarded.outline pid
  have queues : Queues { shared with var := var } := ⟨guarded.queues.write, guarded.queues.read⟩
  refine ⟨queues, guarded.active_same (stays.trans active.symm), guarded.exclusive,
    guarded.awake_update (by cases next <;> simp), ?_, ?_⟩
  · cases kind : role pid with
    | reader =>
      rw [Section.step_reader (sameRole.trans kind)] at stepped
      obtain ⟨rfl, rfl, rfl⟩ := stepped
      exact guarded.outline_update (by simp [Pc.Outline, kind]) (.inr ⟨rfl, rfl⟩)
    | writer =>
      have kept := Section.step_outline pid (sameRole.trans kind) outline
      rw [stepped] at kept
      refine guarded.outline_update ?_ (.inl ⟨kind, active⟩)
      cases next with
      | none => exact fun _ => kept
      | some point' => exact ⟨kept.1.trans kind.symm, kept.2⟩
  · intro idle
    cases kind : role pid with
    | reader =>
      rw [Section.step_reader (sameRole.trans kind)] at stepped
      obtain ⟨rfl, rfl, rfl⟩ := stepped
      exact guarded.idle idle
    | writer =>
      have writing := guarded.active_pos pid active
      rw [kind] at writing
      exact absurd idle (Nat.ne_of_gt writing)

/-- An end `semop` counts its caller out; that of a writer ends its update. -/
theorem leave (guarded : Guarded role shared pcs count) (here : pcs pid = .leaving asleep) :
    Guarded role (shared.set (role pid).active (shared.sem (role pid).active - 1))
      (Function.update pcs pid .head) (if role pid = .writer then count + 1 else count) := by
  have active : (pcs pid).active = true := by rw [here]; rfl
  have counted := guarded.active_pos pid active
  have outline := guarded.outline pid
  rw [here] at outline
  have balance : shared.sem (role pid).active - 1 + (pcs pid).active.toNat =
      shared.sem (role pid).active + Pc.head.active.toNat := by
    rw [active]
    exact Nat.sub_add_cancel counted
  refine ⟨guarded.queues.set _ _, guarded.active_set balance, ?_, guarded.awake_update (by simp),
    ?_, ?_⟩
  · have exclusive := guarded.exclusive
    cases kind : role pid with
    | reader =>
      rw [kind] at counted
      change 0 < shared.sem .activeReaders at counted
      left
      simp [Role.active]
      omega
    | writer =>
      left
      simp [Role.active]
      omega
  · cases kind : role pid with
    | reader => exact guarded.outline_update trivial (.inr ⟨by simp, rfl⟩)
    | writer => exact guarded.outline_update trivial (.inl ⟨kind, active⟩)
  · cases kind : role pid with
    | reader =>
      intro idle
      exact guarded.idle (by simpa [kind, Role.active] using idle)
    | writer =>
      intro _
      exact outline kind

/-- Every step of the program keeps the invariant, and the register answers it. -/
theorem step (guarded : Guarded role shared pcs count)
    (stepped : WriterReader.step role pid shared flag (pcs pid) = some (shared', pc, emitted)) :
    ∃ moves count', (Register.machine letterAt).Path Machine.anything count moves
        (emitted.filterMap (Event.access? role)) count' ∧
      Guarded role shared' (Function.update pcs pid pc) count' := by
  cases here : pcs pid with
  | head =>
    have before : (pcs pid).active = false := by rw [here]; rfl
    rw [here] at stepped
    obtain ⟨rfl, rfl, rfl⟩ : _ ∧ _ ∧ _ := by simpa [WriterReader.step] using stepped
    exact ⟨[], count, .start, guarded.outside before (by cases flag <;> rfl)⟩
  | entering asleep =>
    have before : (pcs pid).active = false := by rw [here]; rfl
    rw [here] at stepped
    rcases enter_cases guarded.queues stepped with
      ⟨free, rfl, rfl, rfl⟩ | ⟨rfl, ⟨rfl, rfl⟩ | ⟨rfl, rfl⟩⟩
    · refine ⟨[], count, ?_, guarded.enter before free⟩
      rw [List.filterMap_append, access?_issues]
      exact .start
    · exact ⟨[], count, .start, guarded.outside before rfl⟩
    · refine ⟨[], count, ?_, guarded.outside before rfl⟩
      rw [access?_issues]
      exact .start
  | inside point =>
    rw [here] at stepped
    simp only [WriterReader.step, Option.some.injEq, Prod.mk.injEq] at stepped
    obtain ⟨rfl, rfl, rfl⟩ := stepped
    obtain ⟨sameRole, _⟩ : point.role = role pid ∧ point.Outline count shared.var := by
      simpa only [here, Pc.Outline] using guarded.outline pid
    cases kind : role pid with
    | reader =>
      have letter := guarded.read_letter kind (by rw [here]; rfl)
      have single := Section.step_reader (sameRole.trans kind) pid shared.var
      rw [single]
      have answer : (Register.machine letterAt).Path Machine.anything count [.read]
          [.read shared.var] count := .single trivial (by rw [letter]; rfl)
      exact ⟨[.read], count, answer, guarded.inside here single⟩
    | writer =>
      refine ⟨[], count, ?_, guarded.inside here rfl⟩
      rw [Section.step_writer (sameRole.trans kind)]
      exact .start
  | leaving asleep =>
    have counted : shared.sem (role pid).active ≠ 0 :=
      Nat.ne_of_gt (guarded.active_pos pid (by rw [here]; rfl))
    rw [here, step_leave counted] at stepped
    obtain ⟨rfl, rfl, rfl⟩ : _ ∧ _ ∧ _ := by simpa using stepped
    have left := guarded.leave here
    cases kind : role pid with
    | reader =>
      simp only [kind, reduceCtorEq, ↓reduceIte] at left
      refine ⟨[], count, ?_, left⟩
      simpa [Event.access?, kind] using Machine.Path.start
    | writer =>
      simp only [kind, ↓reduceIte] at left
      refine ⟨[.write], count + 1, ?_, left⟩
      have answer : (Register.machine letterAt).Path Machine.anything count [.write] [.wrote]
          (count + 1) := .single trivial rfl
      simpa [Event.access?, kind] using answer
  | exited status => simp [here, WriterReader.step] at stepped

end Guarded

/-- writer_reader.c refines an atomic register of letters: under every schedule,
with interrupts and kills anywhere. -/
theorem refines_register [DecidableEq Pid] (role : Pid → Role)
    (allowed : System Pid Shared Pc → Action Pid → Prop) :
    (program role).machine.Simulates allowed (Register.machine letterAt) Machine.anything
      (Event.access? role) some
      (fun system count => Guarded role system.shared system.pcs count) := by
  apply Program.simulates (fun shared pcs count => Guarded role shared pcs count)
  · exact Guarded.initial role
  · intro shared pcs count pid flag shared' pc emitted guarded stepped
    obtain ⟨moves, count', path, kept⟩ := guarded.step stepped
    exact ⟨moves, _, count', path, List.filterMap_some, kept⟩
  · intro shared pcs count pid guarded asleep
    cases here : pcs pid with
    | entering _ => exact guarded.outside (by rw [here]; rfl) rfl
    | leaving sleeping =>
      have sleeps : sleeping = true := by simpa [program, here, Pc.asleep] using asleep
      exact absurd (by rw [here, sleeps]) (guarded.awake pid)
    | head | inside _ | exited _ => simp [program, here, Pc.asleep] at asleep

theorem guarded_of_run [DecidableEq Pid] {allowed : System Pid Shared Pc → Action Pid → Prop}
    (run : (program role).machine.Run allowed actions events system) :
    ∃ count, Guarded role system.shared system.pcs count := by
  obtain ⟨_, _, count, _, _, guarded⟩ := (refines_register role allowed).run run
  exact ⟨count, guarded⟩

end OsLabs.Lab03.WriterReader
