import OsLabs.Lab03.ProdCons

/-! The invariant of prod_cons.c: its children keep the ledger, and nobody ever
sleeps in an end `semop`. -/

namespace OsLabs.Lab03.ProdCons

variable {Pid : Type} {pcs : Pid → Pc} {pc : Pc}

theorem stages_update [DecidableEq Pid] (pcs : Pid → Pc) (pid : Pid) (pc : Pc) :
    stages (Function.update pcs pid pc) = Function.update (stages pcs) pid pc.stage :=
  Function.comp_update ..

theorem awake_update [DecidableEq Pid] (awake : ∀ pid, pcs pid ≠ .leaving true)
    (kept : pc ≠ .leaving true) : ∀ other, Function.update pcs pid pc other ≠ .leaving true :=
  (Function.forall_update_iff pcs (fun _ pc => pc ≠ .leaving true)).mpr
    ⟨kept, fun other _ => awake other⟩

variable [Fintype Pid]

structure Consistent (role : Pid → Role) (shared : Shared) (pcs : Pid → Pc)
    (channel : Channel.State) : Prop where
  ledger : Ledger role (fun _ => 0) shared (stages pcs) channel
  awake : ∀ pid, pcs pid ≠ .leaving true

variable {role : Pid → Role} {shared : Shared} {channel : Channel.State}

theorem Consistent.initial (role : Pid → Role) :
    Consistent role (program role).shared (fun _ => (program role).entry) ⟨0, 0⟩ :=
  ⟨Ledger.initial role, fun _ => by simp [program]⟩

/-- Tokens are only ever held inside the section. -/
theorem holders_eq_criticals (pcs : Pid → Pc) : holders (stages pcs) = criticals (stages pcs) := by
  have same : ∀ pid, (stages pcs pid).holding = (stages pcs pid).critical := by
    intro pid
    change (pcs pid).stage.holding = (pcs pid).stage.critical
    cases pcs pid <;> rfl
  simp only [holders, criticals, tally, same]

theorem Consistent.sem_lt (consistent : Consistent role shared pcs channel) (num : Semaphore) :
    shared.sem num < SEMVMX :=
  Nat.lt_of_le_of_lt (consistent.ledger.sem_le num) (by decide)

variable [DecidableEq Pid]

/-- A move outside the section changes nothing that the ledger looks at. -/
theorem Consistent.outside (consistent : Consistent role shared pcs channel)
    (before : (pcs pid).stage = .idle) (after : pc.stage = .idle) :
    Consistent role shared (Function.update pcs pid pc) channel := by
  have same : stages (Function.update pcs pid pc) = stages pcs := by
    rw [stages_update, after, ← before]
    exact Function.update_eq_self pid (stages pcs)
  refine ⟨same ▸ consistent.ledger, awake_update consistent.awake ?_⟩
  rintro rfl
  cases after

/-- The start `semop` takes the token and the mutex. -/
theorem Consistent.enter (consistent : Consistent role shared pcs channel)
    (before : (pcs pid).stage = .idle) (token : shared.sem (role pid).takes ≠ 0)
    (binary : shared.sem .binary ≠ 0) :
    Consistent role ((shared.set (role pid).takes (shared.sem (role pid).takes - 1)).set .binary
        (shared.sem .binary - 1))
      (Function.update pcs pid (.inside (role pid).entry)) channel := by
  have other : Semaphore.binary ≠ (role pid).takes := by cases role pid <;> decide
  have reserved := consistent.ledger.take before token
  have same : (shared.set (role pid).takes (shared.sem (role pid).takes - 1)).sem .binary =
      shared.sem .binary := by simp [Function.update_of_ne other]
  have entered := reserved.enter (Function.update_self ..) (by rwa [same])
  rw [Function.update_idem, same] at entered
  refine ⟨?_, awake_update consistent.awake (by simp)⟩
  rw [stages_update]
  exact entered

/-- An access of the section. -/
theorem Consistent.inside (consistent : Consistent role shared pcs channel)
    (here : pcs pid = .inside point)
    (stepped : point.step pid shared.storage = (storage, next, emitted)) :
    Consistent role { shared with storage := storage }
      (Function.update pcs pid (next.elim (.leaving false) .inside)) (point.moves channel) := by
  have stage : stages pcs pid = .inside point := congrArg Pc.stage here
  refine ⟨?_, awake_update consistent.awake ?_⟩
  · rw [stages_update, show (next.elim (.leaving false) Pc.inside).stage =
      next.elim .closing .inside by cases next <;> rfl]
    exact consistent.ledger.inside stage stepped
  · cases next <;> simp

/-- The end `semop` gives the mutex and a token. -/
theorem Consistent.leave (consistent : Consistent role shared pcs channel)
    (here : pcs pid = .leaving asleep) :
    Consistent role ((shared.set .binary (shared.sem .binary + 1)).set (role pid).gives
        (shared.sem (role pid).gives + 1))
      (Function.update pcs pid .head) channel := by
  have stage : stages pcs pid = .closing := congrArg Pc.stage here
  have other : (role pid).gives ≠ Semaphore.binary := by cases role pid <;> decide
  have paying := consistent.ledger.leave stage
  have same : (shared.set .binary (shared.sem .binary + 1)).sem (role pid).gives =
      shared.sem (role pid).gives := by simp [Function.update_of_ne other]
  have paid := paying.pay (Function.update_self ..)
  rw [Function.update_idem, same] at paid
  refine ⟨?_, awake_update consistent.awake (by simp)⟩
  rw [stages_update]
  exact paid

/-- Every step of the program keeps the invariant, and the channel answers it. -/
theorem Consistent.step (consistent : Consistent role shared pcs channel)
    (stepped : step role pid shared flag (pcs pid) = some (shared', pc, emitted)) :
    ∃ moves channel', (Channel.machine ELEMENTS slotStream).Path Machine.anything channel moves
        (emitted.filterMap Event.traffic?) channel' ∧
      Consistent role shared' (Function.update pcs pid pc) channel' := by
  cases here : pcs pid with
  | head =>
    simp only [here, ProdCons.step, Option.some.injEq, Prod.mk.injEq] at stepped
    obtain ⟨rfl, rfl, rfl⟩ := stepped
    refine ⟨[], channel, .start, consistent.outside (by rw [here]; rfl) ?_⟩
    cases flag <;> rfl
  | entering asleep =>
    have before : (pcs pid).stage = .idle := by rw [here]; rfl
    rw [here] at stepped
    obtain ⟨rfl, ⟨token, binary, rfl, rfl⟩ | ⟨rfl, rfl⟩⟩ := enter_cases stepped
    · exact ⟨[], channel, .start, consistent.enter before token binary⟩
    · exact ⟨[], channel, .start, consistent.outside before rfl⟩
  | inside point =>
    simp only [here, ProdCons.step, Option.some.injEq, Prod.mk.injEq] at stepped
    obtain ⟨rfl, rfl, rfl⟩ := stepped
    have outline : point.Outline channel shared.storage := by
      have both := consistent.ledger.outline pid
      rw [show stages pcs pid = .inside point from congrArg Pc.stage here] at both
      exact both.2
    obtain ⟨moves, path⟩ := Section.step_traffic pid outline
    exact ⟨moves, point.moves channel, path, consistent.inside here rfl⟩
  | leaving asleep =>
    rw [here, step_leave (consistent.sem_lt _) (consistent.sem_lt _)] at stepped
    obtain ⟨rfl, rfl, rfl⟩ : _ ∧ _ ∧ _ := by simpa using stepped
    exact ⟨[], channel, .start, consistent.leave here⟩
  | exited status => simp [here, ProdCons.step] at stepped

/-- prod_cons.c refines the channel of letters: under every schedule, with
interrupts and kills anywhere, its slot accesses are traffic of the channel. -/
theorem refines_channel (role : Pid → Role)
    (allowed : System Pid Shared Pc → Action Pid → Prop) :
    (program role).machine.Simulates allowed (Channel.machine ELEMENTS slotStream)
      Machine.anything Event.traffic? some
      (fun system channel => Consistent role system.shared system.pcs channel) := by
  apply Program.simulates (fun shared pcs channel => Consistent role shared pcs channel)
  · exact Consistent.initial role
  · intro shared pcs channel pid flag shared' pc emitted consistent stepped
    obtain ⟨moves, channel', path, kept⟩ := consistent.step stepped
    exact ⟨moves, _, channel', path, List.filterMap_some, kept⟩
  · intro shared pcs channel pid consistent asleep
    cases here : pcs pid with
    | entering _ => exact consistent.outside (by rw [here]; rfl) rfl
    | leaving sleeping =>
      have sleeps : sleeping = true := by simpa [program, here, Pc.asleep] using asleep
      exact absurd (by rw [here, sleeps]) (consistent.awake pid)
    | head | inside _ | exited _ => simp [program, here, Pc.asleep] at asleep

end OsLabs.Lab03.ProdCons
