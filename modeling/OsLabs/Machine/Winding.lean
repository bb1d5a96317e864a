import OsLabs.Machine.Program
import Mathlib.Algebra.Order.BigOperators.Group.Finset

/-! Programs that come to an end once SIGINT has cleared their flags: a rank of the
program points which every step without the flag lowers bounds all the steps that are
left, under every schedule and whatever signals follow. -/

namespace OsLabs

universe u v w x

variable {Pid : Type u} {Shared : Type v} {Pc : Type w} {Event : Type x}

/-- A step of the program, and not a signal. -/
def Action.isExec : Action Pid → Bool
  | .exec _ => true
  | .sigint _ | .alarm _ => false

namespace Program

variable {program : Program Pid Shared Pc Event} {rank : Pc → Nat}

/-- Without the flag every step leads down; an interrupted call does not lead up. -/
structure Winds (program : Program Pid Shared Pc Event) (rank : Pc → Nat) : Prop where
  falls : ∀ {pid shared pc shared' pc' emitted},
    program.step pid shared false pc = some (shared', pc', emitted) → rank pc' < rank pc
  interrupted : ∀ {pc}, program.asleep pc = true → rank program.interrupted ≤ rank pc
  ended : ∀ {pid shared flag pc}, program.exited pc = true →
    program.step pid shared flag pc = none

/-- A process that takes a step has not ended. -/
theorem Winds.running {shared : Shared} (winds : program.Winds rank) {process : Process Pc}
    (alive : process.alive = true)
    (stepped : program.step pid shared flag process.pc = some result) :
    program.running process = true := by
  rw [Program.running, alive, Bool.true_and, Bool.not_eq_true']
  by_contra exited
  rw [winds.ended (by simpa using exited)] at stepped
  cases stepped

/-- SIGINT has cleared the flag of every process that has not ended. -/
def Signalled (program : Program Pid Shared Pc Event) (system : System Pid Shared Pc) : Prop :=
  ∀ pid, program.running (system.process pid) = true → (system.process pid).flag = false

variable [DecidableEq Pid] {system : System Pid Shared Pc}

/-- No process can take a step of its program. -/
def Still (program : Program Pid Shared Pc Event) (system : System Pid Shared Pc) : Prop :=
  ∀ pid, program.machine.next system (.exec pid) = none

/-- A process that ends, or has its flag cleared, leaves the others signalled. -/
theorem Signalled.set (signalled : program.Signalled system) {process : Process Pc}
    (cleared : program.running process = true → process.flag = false) :
    program.Signalled (system.set pid process) := by
  refine (Function.forall_update_iff system.process
    fun _ process => program.running process = true → process.flag = false).mpr ⟨cleared, ?_⟩
  intro other _
  exact signalled other

/-- Nobody's flag is ever set again. -/
theorem Signalled.next (signalled : program.Signalled system) (winds : program.Winds rank)
    (taken : program.next system action = some (after, emitted)) : program.Signalled after := by
  cases action with
  | exec pid =>
    simp only [Program.next, Option.ite_none_right_eq_some, Option.map_eq_some_iff] at taken
    obtain ⟨alive, ⟨shared, pc, shown⟩, stepped, same⟩ := taken
    obtain ⟨rfl, rfl⟩ := Prod.mk.inj same
    have cleared := signalled pid (winds.running alive stepped)
    have others : program.Signalled { system with shared := shared } := signalled
    exact others.set fun _ => cleared
  | sigint pid =>
    simp only [Program.next, Option.ite_none_right_eq_some, Option.some.injEq,
      Prod.mk.injEq] at taken
    obtain ⟨_, rfl, _⟩ := taken
    exact signalled.set fun _ => rfl
  | alarm pid =>
    simp only [Program.next, Option.ite_none_right_eq_some, Option.some.injEq,
      Prod.mk.injEq] at taken
    obtain ⟨_, rfl, _⟩ := taken
    refine signalled.set fun running => ?_
    cases running

variable [Fintype Pid]

/-- How far all processes together are from their ends. -/
def left (rank : Pid → Pc → Nat) (pcs : Pid → Pc) : Nat := ∑ pid, rank pid (pcs pid)

theorem left_update_lt (rank : Pid → Pc → Nat) {pcs : Pid → Pc}
    (lower : rank pid pc < rank pid (pcs pid)) :
    left rank (Function.update pcs pid pc) < left rank pcs := by
  apply Finset.sum_lt_sum
  · intro other _
    by_cases same : other = pid
    · subst same
      simpa using lower.le
    · rw [Function.update_of_ne same]
  · exact ⟨pid, Finset.mem_univ pid, by simpa using lower⟩

theorem left_update_le (rank : Pid → Pc → Nat) {pcs : Pid → Pc}
    (lower : rank pid pc ≤ rank pid (pcs pid)) :
    left rank (Function.update pcs pid pc) ≤ left rank pcs := by
  apply Finset.sum_le_sum
  intro other _
  by_cases same : other = pid
  · subst same
    simpa using lower
  · rw [Function.update_of_ne same]

omit [DecidableEq Pid] in
/-- With one bound on all ranks, the distance is bounded by the processes. -/
theorem left_le {rank : Pid → Pc → Nat} {most : Nat} (bounded : ∀ pid pc, rank pid pc ≤ most)
    (pcs : Pid → Pc) : left rank pcs ≤ most * Fintype.card Pid := by
  have each := Finset.sum_le_card_nsmul Finset.univ (fun pid => rank pid (pcs pid)) most
    fun pid _ => bounded pid (pcs pid)
  simpa [left, Nat.mul_comm] using each

/-- Every step pays for itself, and signals cost nothing. -/
theorem Winds.next (winds : program.Winds rank) (signalled : program.Signalled system)
    (taken : program.next system action = some (after, emitted)) :
    action.isExec.toNat + left (fun _ => rank) after.pcs ≤ left (fun _ => rank) system.pcs := by
  cases next_effect taken with
  | exec pid alive stepped moved =>
    rw [signalled pid (winds.running alive stepped)] at stepped
    have lower := left_update_lt (fun _ => rank) (winds.falls stepped)
    rw [moved, Action.isExec, Bool.toNat_true]
    omega
  | interrupt pid asleep shared silent moved =>
    have lower := left_update_le (fun _ => rank) (winds.interrupted asleep)
    rw [moved, Action.isExec, Bool.toNat_false]
    omega
  | handled pid awake shared silent moved | killed pid shared silent moved =>
    rw [moved, Action.isExec, Bool.toNat_false]
    omega

/-- The steps of any continuation are paid for by the ranks. -/
theorem Winds.execs_le (winds : program.Winds rank) (signalled : program.Signalled system)
    (path : program.machine.Path allowed system later shown after) :
    program.Signalled after ∧
      later.countP Action.isExec + left (fun _ => rank) after.pcs ≤
        left (fun _ => rank) system.pcs := by
  induction path with
  | start => exact ⟨signalled, by simp⟩
  | @step later shown middle action after emitted path permitted taken ih =>
    obtain ⟨cleared, paid⟩ := ih
    have pays := winds.next cleared taken
    refine ⟨cleared.next winds taken, ?_⟩
    have counted : [action].countP Action.isExec = action.isExec.toNat := by
      cases action <;> rfl
    rw [List.countP_append, counted]
    omega

/-- So the steps left are bounded by the processes. -/
theorem Winds.execs_bounded (winds : program.Winds rank) {most : Nat}
    (bounded : ∀ pc, rank pc ≤ most)
    (signalled : program.Signalled system)
    (path : program.machine.Path allowed system later shown after) :
    later.countP Action.isExec ≤ most * Fintype.card Pid := by
  obtain ⟨_, paid⟩ := winds.execs_le signalled path
  have all := left_le (fun _ => bounded) system.pcs
  omega

end Program

end OsLabs
