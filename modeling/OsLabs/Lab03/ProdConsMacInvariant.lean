import OsLabs.Lab03.ProdConsMac

/-! The children of prod_cons_mac.c keep the ledger of tokens, and what an
interrupted one does to it. -/

namespace OsLabs.Lab03.ProdConsMac

/-- A move that keeps the stage keeps all stages. -/
theorem stages_update_same [DecidableEq Pid] {pcs : Pid → Pc} (same : pc.stage = stages pcs pid) :
    stages (Function.update pcs pid pc) = stages pcs := by
  rw [stages_update, same, Function.update_eq_self]

theorem wait_cases {shared : Shared} {emitted : List (Event Pid)}
    (waited : wait num shared asleep next sleeping = some (shared', pc, emitted)) :
    emitted = [] ∧
      ((shared.sem num ≠ 0 ∧ shared' = shared.set num (shared.sem num - 1) ∧ pc = next) ∨
        (shared' = shared ∧ pc = sleeping)) := by
  unfold wait semWait at waited
  by_cases empty : shared.sem num = 0
  · simp only [empty, ↓reduceIte, Option.ite_none_left_eq_some, Option.some.injEq,
      Prod.mk.injEq] at waited
    obtain ⟨_, rfl, rfl, rfl⟩ := waited
    exact ⟨rfl, .inr ⟨rfl, rfl⟩⟩
  · simp only [empty, ↓reduceIte, Option.some.injEq, Prod.mk.injEq] at waited
    obtain ⟨rfl, rfl, rfl⟩ := waited
    exact ⟨rfl, .inl ⟨empty, rfl, rfl⟩⟩

theorem wait_done {shared : Shared} (token : shared.sem num ≠ 0) (asleep : Bool)
    (next sleeping : Pc) :
    (wait num shared asleep next sleeping : Option (Shared × Pc × List (Event Pid))) =
      some (shared.set num (shared.sem num - 1), next, []) := by
  simp only [wait, semWait, token, ↓reduceIte]

/-- A `sem_post` on a semaphore of this program never fails. -/
theorem post_done {shared : Shared} (small : shared.sem num ≤ ELEMENTS) (next : Pc) :
    (post num shared next : Option (Shared × Pc × List (Event Pid))) =
      some (shared.set num (shared.sem num + 1), next, []) := by
  have room : shared.sem num < SEM_VALUE_MAX := Nat.lt_of_le_of_lt small (by decide)
  simp only [post, semPost, room, ↓reduceIte]

variable {Pid : Type} [Fintype Pid] [DecidableEq Pid] {role : Pid → Role} {lost : Role → Nat}
variable {shared : Shared} {pcs : Pid → Pc} {channel : Channel.State}

/-- Every step of the program keeps the ledger, and the channel answers it. -/
theorem ledger_step (ledger : Ledger role lost shared (stages pcs) channel)
    (stepped : step role pid shared flag (pcs pid) = some (shared', pc, emitted)) :
    ∃ moves channel', (Channel.machine ELEMENTS slotStream).Path Machine.anything channel moves
        (emitted.filterMap Event.traffic?) channel' ∧
      Ledger role lost shared' (stages (Function.update pcs pid pc)) channel' := by
  cases here : pcs pid with
  | head =>
    simp only [here, step, Option.some.injEq, Prod.mk.injEq] at stepped
    obtain ⟨rfl, rfl, rfl⟩ := stepped
    have stage : stages pcs pid = .idle := congrArg Pc.stage here
    refine ⟨[], channel, .start, ?_⟩
    rw [stages_update_same (by rw [stage]; cases flag <;> rfl)]
    exact ledger
  | waitToken asleep =>
    have stage : stages pcs pid = .idle := congrArg Pc.stage here
    simp only [here, step] at stepped
    obtain ⟨rfl, ⟨token, rfl, rfl⟩ | ⟨rfl, rfl⟩⟩ := wait_cases stepped
    · refine ⟨[], channel, .start, ?_⟩
      rw [stages_update]
      exact ledger.take stage token
    · refine ⟨[], channel, .start, ?_⟩
      rw [stages_update_same (by rw [stage]; rfl)]
      exact ledger
  | waitBinary asleep =>
    have stage : stages pcs pid = .reserved := congrArg Pc.stage here
    simp only [here, step] at stepped
    obtain ⟨rfl, ⟨binary, rfl, rfl⟩ | ⟨rfl, rfl⟩⟩ := wait_cases stepped
    · refine ⟨[], channel, .start, ?_⟩
      rw [stages_update]
      exact ledger.enter stage binary
    · refine ⟨[], channel, .start, ?_⟩
      rw [stages_update_same (by rw [stage]; rfl)]
      exact ledger
  | inside point =>
    have stage : stages pcs pid = .inside point := congrArg Pc.stage here
    simp only [here, step, Option.some.injEq, Prod.mk.injEq] at stepped
    obtain ⟨rfl, rfl, rfl⟩ := stepped
    have outline : point.Outline channel shared.storage := by
      have both := ledger.outline pid
      rw [stage] at both
      exact both.2
    obtain ⟨moves, path⟩ := Section.step_traffic pid outline
    refine ⟨moves, point.moves channel, path, ?_⟩
    have next : ∀ next : Option Section,
        (next.elim .postBinary Pc.inside).stage = next.elim .closing .inside := by
      intro next
      cases next <;> rfl
    rw [stages_update, next]
    exact ledger.inside stage rfl
  | postBinary =>
    have stage : stages pcs pid = .closing := congrArg Pc.stage here
    rw [here, step, post_done (ledger.sem_le .binary)] at stepped
    obtain ⟨rfl, rfl, rfl⟩ : _ ∧ _ ∧ _ := by simpa using stepped
    refine ⟨[], channel, .start, ?_⟩
    rw [stages_update]
    exact ledger.leave stage
  | postToken =>
    have stage : stages pcs pid = .paying := congrArg Pc.stage here
    rw [here, step, post_done (ledger.sem_le _)] at stepped
    obtain ⟨rfl, rfl, rfl⟩ : _ ∧ _ ∧ _ := by simpa using stepped
    refine ⟨[], channel, .start, ?_⟩
    rw [stages_update]
    exact ledger.pay stage
  | exited status => simp [here, step] at stepped

/-- An interrupted `sem_wait` on a token leaves no trace in the ledger. -/
theorem ledger_interrupt_token (ledger : Ledger role lost shared (stages pcs) channel)
    (here : pcs pid = .waitToken asleep) :
    Ledger role lost shared (stages (Function.update pcs pid (.exited 1))) channel := by
  have stage : stages pcs pid = .idle := congrArg Pc.stage here
  rw [stages_update_same (by rw [stage]; rfl)]
  exact ledger

/-- An interrupted `sem_wait` on sem_binary loses the token already taken. -/
theorem ledger_interrupt_binary (ledger : Ledger role lost shared (stages pcs) channel)
    (here : pcs pid = .waitBinary asleep) :
    Ledger role (Function.update lost (role pid) (lost (role pid) + 1)) shared
      (stages (Function.update pcs pid (.exited 1))) channel := by
  rw [stages_update]
  exact ledger.lose (congrArg Pc.stage here)

/-- prod_cons_mac.c refines the channel of letters as well, with interrupts and
kills anywhere, whatever tokens they cost. -/
theorem refines_channel (role : Pid → Role)
    (allowed : System Pid Shared Pc → Action Pid → Prop) :
    (program role).machine.Simulates allowed (Channel.machine ELEMENTS slotStream)
      Machine.anything Event.traffic? some
      (fun system channel => ∃ lost,
        Ledger role lost system.shared (stages system.pcs) channel) := by
  apply Program.simulates
    (fun shared pcs channel => ∃ lost, Ledger role lost shared (stages pcs) channel)
  · exact ⟨fun _ => 0, Ledger.initial role⟩
  · rintro shared pcs channel pid flag shared' pc emitted ⟨lost, ledger⟩ stepped
    obtain ⟨moves, channel', path, kept⟩ := ledger_step ledger stepped
    exact ⟨moves, _, channel', path, List.filterMap_some, lost, kept⟩
  · rintro shared pcs channel pid ⟨lost, ledger⟩ asleep
    cases here : pcs pid with
    | waitToken _ => exact ⟨lost, ledger_interrupt_token ledger here⟩
    | waitBinary _ => exact ⟨_, ledger_interrupt_binary ledger here⟩
    | head | inside _ | postBinary | postToken | exited _ =>
      simp [program, here, Pc.asleep] at asleep

end OsLabs.Lab03.ProdConsMac
