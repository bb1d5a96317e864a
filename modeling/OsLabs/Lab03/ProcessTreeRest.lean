import OsLabs.Lab03.ProcessTreeRuns
import OsLabs.Machine.Winding

/-! The end of the whole programs when their steps are no longer disturbed: how many are
left, and where the children leave `main` when no step is left. -/

namespace OsLabs.Lab03.ProcessTree

open ProdConsMain (Pid Status Object terminations reports Consistent)

variable {count : Nat} {Shared Pc Shown : Type}
variable {code : Code count Shared Pc Shown} {state after : State count Shared Pc}
variable {events emitted : List (Event Shown)}

/-- Nobody is killed. -/
def NoAlarm (_ : State count Shared Pc) : Action count → Prop
  | .child (.alarm _) => False
  | _ => True

/-- No call of `main` fails but the last `wait`, and no signal arrives. -/
def Undisturbed (state : State count Shared Pc) : Action count → Prop
  | .main (.failure errno) => state.main.pc = .wait ∧ errno = .ECHILD
  | .main _ | .child (.exec _) => True
  | .sigint | .child (.sigint _) | .child (.alarm _) => False

instance (state : State count Shared Pc) (action : Action count) :
    Decidable (Undisturbed state action) :=
  match action with
  | .main (.failure errno) =>
    inferInstanceAs (Decidable (state.main.pc = .wait ∧ errno = .ECHILD))
  | .main .success | .main (.pid _) | .child (.exec _) => .isTrue trivial
  | .sigint | .child (.sigint _) | .child (.alarm _) => .isFalse id

/-- No such step is left. -/
def Resting (code : Code count Shared Pc Shown) (state : State count Shared Pc) : Prop :=
  ∀ action, Undisturbed state action → (machine code).next state action = none

theorem noAlarm_of_undisturbed (state : State count Shared Pc) (action : Action count)
    (undisturbed : Undisturbed state action) : NoAlarm state action := by
  cases action with
  | main | sigint => trivial
  | child action =>
    cases action with
    | exec | sigint => trivial
    | alarm => exact undisturbed

theorem resting_of_calls
    (calls : ∀ outcome, Undisturbed state (.main outcome) →
      ProdConsMain.mainStep count state.main outcome = none)
    (stuck : ∀ i, (machine code).next state (.child (.exec i)) = none) : Resting code state := by
  rintro (outcome | _ | action) undisturbed
  · change (ProdConsMain.mainStep count state.main outcome).map _ = none
    rw [calls outcome undisturbed]
    rfl
  · cases undisturbed
  · cases action with
    | exec i => exact stuck i
    | sigint | alarm => cases undisturbed

/-- Behind the fork loop, and not at `exit(1)`. -/
def forkedAll : ProdConsMain.Pc → Bool
  | .fork _ | .exited (_ + 1) => false
  | .loop | .wait | .semctl | .shmctl | .exited 0 => true

/-- The calls of `main` that are left, given the children that it has not waited for. -/
def mainRank (main : ProdConsMain.State) : Nat :=
  2 * main.children.entries.length +
    match main.pc with
    | .fork _ => 6
    | .loop => if main.wpid = -1 then 3 else 5
    | .wait => 4
    | .semctl => 2
    | .shmctl => 1
    | .exited _ => 0

def treeRank (rank : Pc → Nat) (state : State count Shared Pc) : Nat :=
  Program.left (fun _ => rank) state.system.pcs + mainRank state.main

/-- What is known of the table and of the objects in every state. -/
structure Tidy (state : State count Shared Pc) : Prop where
  listed : ∀ pid, state.main.children.lookup pid ≠ none → pid ∈ state.childPIDS
  few : state.main.children.entries.length ≤ state.childPIDS.length
  semid : state.main.pc = .shmctl ∨ state.main.pc = .exited 0 → state.main.present .semid = false
  shmid : state.main.pc = .exited 0 → state.main.present .shmid = false

/-- A call of `main` that neither creates a child nor ends `main` with 1. -/
theorem Tidy.calls (tidy : Tidy state)
    (unforked : ∀ i pid, state.main.pc = .fork i → outcome ≠ .pid pid)
    (stepped : ProdConsMain.mainStep count state.main outcome = some (main, told)) :
    Tidy { state with main := main } := by
  obtain ⟨listed, few, semid, shmid⟩ := tidy
  cases ProdConsMain.mainStep_effect stepped with
  | fork here => exact absurd rfl (unforked _ _ here)
  | @reap pid status here zombie =>
    refine ⟨fun other known => listed other fun unknown => known ?_, ?_, by simp, by simp⟩
    · rw [Children.lookup_reap, unknown, ite_self]
    · exact (List.length_filter_le _ _).trans few
  | semctl here =>
    exact ⟨listed, few, by simp [ProdConsMain.State.remove], by simp [ProdConsMain.State.remove]⟩
  | shmctl here =>
    have removed := semid (.inl here)
    exact ⟨listed, few, by simp [ProdConsMain.State.remove, removed],
      by simp [ProdConsMain.State.remove]⟩
  | forked | leave | enter | eintr | echild | exit =>
    exact ⟨listed, few, by simp [ProdConsMain.State.exit], by simp [ProdConsMain.State.exit]⟩

theorem Tidy.next (tidy : Tidy state)
    (taken : (machine code).next state action = some (after, emitted)) : Tidy after := by
  cases next_effect taken with
  | @fork i pid here room positive fresh =>
    refine ⟨fun other known => ?_, ?_, by simp, by simp⟩
    · rw [Children.lookup_fork] at known
      by_cases same : other = pid
      · simp [State.fork, same]
      · rw [if_neg same] at known
        exact List.mem_append_left _ (tidy.listed other known)
    · simpa [State.fork, Children.fork] using tidy.few
  | calls unforked stepped => exact tidy.calls unforked stepped
  | sigint | goes => exact ⟨tidy.listed, tidy.few, tidy.semid, tidy.shmid⟩
  | @ends action pid system shows status running =>
    refine ⟨fun other known => ?_, ?_, tidy.semid, tidy.shmid⟩
    · rw [Children.lookup_terminate] at known
      by_cases same : other = pid
      · subst same
        exact List.mem_of_getElem? (running?_eq_some.mp running).1
      · rw [if_neg same] at known
        exact tidy.listed other known
    · simpa [Children.terminate] using tidy.few

theorem tidy_of_run (run : (machine code).Run allowed actions events state) : Tidy state :=
  run.invariant (fun _ state => Tidy state)
    ⟨fun _ known => absurd rfl known, Nat.le_refl _, by simp [machine, ProdConsMain.machine],
      by simp [machine, ProdConsMain.machine]⟩
    fun _ _ _ _ _ tidy _ taken => tidy.next taken

/-- A child that takes a step of its program leaves the others signalled, and pays. -/
theorem exec_pays {rank : Pc → Nat} (winds : code.program.Winds rank)
    (consistent : Consistent (record events) state.main)
    (signalled : code.program.Signalled state.system)
    (running : state.running? (target (.exec i)) = some pid)
    (moved : code.moves state (.exec i) = some (system, shows)) :
    code.program.Signalled system ∧
      Program.left (fun _ => rank) system.pcs < Program.left (fun _ => rank) state.system.pcs := by
  rw [moves_eq_next consistent running] at moved
  have pays := winds.next signalled moved
  rw [OsLabs.Action.isExec, Bool.toNat_true] at pays
  exact ⟨signalled.next winds moved, by omega⟩

/-- An undisturbed call of `main` behind its fork loop. -/
theorem call_pays (past : forkedAll state.main.pc = true)
    (undisturbed : Undisturbed state (.main outcome))
    (stepped : ProdConsMain.mainStep count state.main outcome = some (main, told)) :
    forkedAll main.pc = true ∧ mainRank main < mainRank state.main := by
  cases ProdConsMain.mainStep_effect stepped with
  | fork here | forked here =>
    rw [here] at past
    cases past
  | leave here last =>
    simp [mainRank, here, last, forkedAll]
  | enter here =>
    have goes : state.main.wpid ≠ -1 := fun last => by
      simp [ProdConsMain.mainStep, here, last] at stepped
    simp [mainRank, here, goes, forkedAll]
  | eintr =>
    obtain ⟨_, same⟩ := undisturbed
    cases same
  | @reap pid status here zombie =>
    have fewer := Children.reap_lt zombie
    refine ⟨rfl, ?_⟩
    simp only [mainRank, here]
    split <;> omega
  | echild here => simp [mainRank, here, forkedAll]
  | semctl here | shmctl here =>
    simp [mainRank, here, forkedAll, ProdConsMain.State.remove]
  | exit =>
    obtain ⟨here, rfl⟩ := undisturbed
    simp [ProdConsMain.mainStep, here, ProdConsMain.State.exit] at stepped

/-- Every undisturbed step is paid for. -/
theorem step_pays {rank : Pc → Nat} (winds : code.program.Winds rank)
    (consistent : Consistent (record events) state.main)
    (past : forkedAll state.main.pc = true) (signalled : code.program.Signalled state.system)
    (undisturbed : Undisturbed state action)
    (taken : (machine code).next state action = some (after, emitted)) :
    forkedAll after.main.pc = true ∧ code.program.Signalled after.system ∧
      treeRank rank after < treeRank rank state := by
  cases next_effect taken with
  | fork here =>
    rw [here] at past
    cases past
  | calls unforked stepped =>
    obtain ⟨kept, pays⟩ := call_pays past undisturbed stepped
    exact ⟨kept, signalled, Nat.add_lt_add_left pays _⟩
  | sigint => exact absurd undisturbed id
  | @goes action pid system shows running moved =>
    cases action with
    | exec i =>
      obtain ⟨kept, pays⟩ := exec_pays winds consistent signalled running moved
      exact ⟨past, kept, Nat.add_lt_add_right pays _⟩
    | sigint | alarm => exact absurd undisturbed id
  | @ends action pid system shows status running moved =>
    cases action with
    | exec i =>
      obtain ⟨kept, pays⟩ := exec_pays winds consistent signalled running moved
      refine ⟨past, kept, ?_⟩
      simp only [treeRank, mainRank, Children.terminate, List.length_map]
      exact Nat.add_lt_add_right pays _
    | sigint | alarm => exact absurd undisturbed id

/-- So only so many steps are left. -/
theorem steps_le {rank : Pc → Nat} (winds : code.program.Winds rank)
    (run : (machine code).Run NoAlarm actions events state)
    (past : forkedAll state.main.pc = true) (signalled : code.program.Signalled state.system)
    (path : (machine code).Path Undisturbed state later told after) :
    forkedAll after.main.pc = true ∧ code.program.Signalled after.system ∧
      later.length + treeRank rank after ≤ treeRank rank state := by
  induction path with
  | start => exact ⟨past, signalled, Nat.le_of_eq (Nat.zero_add _)⟩
  | @step later told middle action after emitted path undisturbed taken ih =>
    obtain ⟨still, cleared, paid⟩ := ih
    have consistent := consistent_of_run (run.append (path.weaken noAlarm_of_undisturbed))
    obtain ⟨kept, signalled, pays⟩ := step_pays winds consistent still cleared undisturbed taken
    refine ⟨kept, signalled, ?_⟩
    rw [List.length_append, List.length_singleton]
    omega

/-- Behind the fork loop every child has its number. -/
theorem Paired.full (paired : Paired code events state) (past : forkedAll state.main.pc = true) :
    state.childPIDS.length = count := by
  have forks := paired.forks
  cases here : state.main.pc with
  | loop | wait | semctl | shmctl =>
    rw [here] at forks
    exact forks
  | exited status =>
    rw [here] at forks past
    cases status with
    | zero => exact forks
    | succ => cases past
  | fork i =>
    rw [here] at past
    cases past

theorem mainRank_le (tidy : Tidy state) (paired : Paired code events state)
    (past : forkedAll state.main.pc = true) : mainRank state.main ≤ 2 * count + 5 := by
  have few := tidy.few
  have full := paired.full past
  unfold mainRank
  cases here : state.main.pc with
  | fork i =>
    rw [here] at past
    cases past
  | loop =>
    dsimp only
    split <;> omega
  | wait | semctl | shmctl | exited _ =>
    dsimp only
    omega

theorem steps_bounded {rank : Pc → Nat} {most : Nat} (winds : code.program.Winds rank)
    (bounded : ∀ pc, rank pc ≤ most)
    (run : (machine code).Run NoAlarm actions events state)
    (past : forkedAll state.main.pc = true) (signalled : code.program.Signalled state.system)
    (path : (machine code).Path Undisturbed state later told after) :
    later.length ≤ (most + 2) * count + 5 := by
  obtain ⟨_, _, paid⟩ := steps_le winds run past signalled path
  have children := Program.left_le (fun _ => bounded) state.system.pcs
  have calls := mainRank_le (tidy_of_run run) (paired_of_run run) past
  rw [Fintype.card_fin] at children
  rw [treeRank, treeRank] at paid
  rw [Nat.add_mul]
  omega

/-- A child that is not running has come to its end. -/
theorem Paired.ended (paired : Paired code events state)
    (consistent : Consistent (record events) state.main)
    (here : state.childPIDS[i.val]? = some pid) (gone : state.running? i = none) :
    code.ending (state.system.process i) ≠ none := by
  intro going
  have ends := paired.ends i pid here
  have stage := consistent.stage pid
  have forked := paired.forked pid (List.mem_of_getElem? here)
  rw [going] at ends
  cases known : state.main.children.lookup pid with
  | none =>
    rw [known] at stage
    obtain ⟨status, ended, _⟩ := stage.accounted forked
    rw [ends] at ended
    cases ended
  | some child =>
    rw [known] at stage
    cases stage with
    | running =>
      have running := running?_eq_some.mpr ⟨here, known⟩
      rw [gone] at running
      cases running
    | zombie ended =>
      rw [ends] at ended
      cases ended

/-- Whoever has come to its end takes no step. -/
theorem next_of_ended {rank : Pc → Nat} (winds : code.program.Winds rank)
    (ended : code.ending (state.system.process i) ≠ none) :
    code.program.next state.system (.exec i) = none := by
  cases alive : (state.system.process i).alive with
  | false => simp [Program.next, alive]
  | true =>
    have exited : code.program.exited (state.system.pcs i) = true := by
      rw [code.exits, Option.isSome_iff_ne_none]
      simpa [Code.ending, alive, System.pcs] using ended
    have stuck : code.program.step i state.system.shared (state.system.process i).flag
        (state.system.process i).pc = none := winds.ended exited
    simp [Program.next, alive, stuck]

/-- When no step is left, no child can take one. -/
theorem still_of_resting {rank : Pc → Nat} (winds : code.program.Winds rank)
    (run : (machine code).Run allowed actions events state)
    (past : forkedAll state.main.pc = true) (resting : Resting code state) :
    code.program.Still state.system := by
  have paired := paired_of_run run
  have consistent := consistent_of_run run
  intro i
  change code.program.next state.system (.exec i) = none
  cases running : state.running? i with
  | none =>
    have here := List.getElem?_eq_getElem (i.isLt.trans_eq (paired.full past).symm)
    exact next_of_ended winds (paired.ended consistent here running)
  | some pid =>
    have own : state.running? (target (.exec i)) = some pid := running
    have none := resting (.child (.exec i)) trivial
    rw [← moves_eq_next consistent own]
    simpa [machine, childStep, own] using none

/-- A process that `main` knows and that has not terminated is a child that has not ended. -/
theorem unended_of_running (run : (machine code).Run allowed actions events state)
    (past : forkedAll state.main.pc = true)
    (running : state.main.children.lookup pid = some none) :
    ∃ i, code.ending (state.system.process i) = none := by
  have paired := paired_of_run run
  have member := (tidy_of_run run).listed pid (running ▸ Option.some_ne_none none)
  obtain ⟨i, bound, own⟩ := List.getElem_of_mem member
  have numbered : i < count := bound.trans_eq (paired.full past)
  have stage := (consistent_of_run run).stage pid
  have ends := paired.ends ⟨i, numbered⟩ pid (List.getElem?_eq_some_iff.mpr ⟨bound, own⟩)
  rw [running] at stage
  cases stage with
  | running unended =>
    rw [unended] at ends
    exact ⟨_, Option.toList_eq_nil_iff.mp ends.symm⟩

/-- When no step is left, `main` has ended or waits for a child that has not. -/
theorem rests (run : (machine code).Run allowed actions events state)
    (past : forkedAll state.main.pc = true) (resting : Resting code state) :
    state.main.pc = .exited 0 ∨
      state.main.pc = .wait ∧ ∃ i, code.ending (state.system.process i) = none := by
  have calls : ∀ outcome, Undisturbed state (.main outcome) →
      ProdConsMain.mainStep count state.main outcome = none := by
    intro outcome undisturbed
    simpa [machine, mainStep] using resting (.main outcome) undisturbed
  cases here : state.main.pc with
  | fork i =>
    rw [here] at past
    cases past
  | loop | semctl | shmctl =>
    have none := calls .success trivial
    simp [ProdConsMain.mainStep, here] at none
  | exited status =>
    rw [here] at past
    cases status with
    | zero => exact .inl rfl
    | succ => cases past
  | wait =>
    refine .inr ⟨rfl, ?_⟩
    cases entries : state.main.children.entries with
    | nil =>
      have none := calls (.failure .ECHILD) ⟨here, rfl⟩
      simp [ProdConsMain.mainStep, here, entries] at none
    | cons entry rest =>
      obtain ⟨pid, child⟩ := entry
      have known : state.main.children.lookup pid = some child := by
        simp [Children.lookup, entries]
      cases child with
      | some status =>
        have none := calls (.pid pid) trivial
        simp [ProdConsMain.mainStep, here, known] at none
      | none => exact unended_of_running run past known

/-- `main` has removed both objects and exited with 0, after it has reported every child
with the status of its exit. -/
structure Finished (code : Code count Shared Pc Shown) (events : List (Event Shown))
    (state : State count Shared Pc) : Prop where
  ended : state.main.pc = .exited 0
  removed : ∀ object, state.main.present object = false
  reported : ∀ i : Fin count, ∃ pid status, state.childPIDS[i.val]? = some pid ∧
    code.status (state.system.pcs i) = some status ∧
    reports (record events) pid = [.exited status]

/-- Without kills in the whole there are none among the children. -/
theorem children_run_noAlarm (run : (machine code).Run NoAlarm actions events state) :
    ∃ moves, code.program.machine.Run Program.noAlarm moves (shown events) state.system := by
  refine children_run (fun state action allows => ?_) (fun _ _ => trivial) run
  cases action with
  | exec | sigint => trivial
  | alarm => exact allows

theorem alive_of_noAlarm (run : (machine code).Run NoAlarm actions events state) (i : Fin count) :
    (state.system.process i).alive = true := by
  obtain ⟨moves, own⟩ := children_run_noAlarm run
  exact Program.alive_of_noAlarm own i

theorem finished_of_run (run : (machine code).Run NoAlarm actions events state)
    (ended : state.main.pc = .exited 0) : Finished code events state := by
  have tidy := tidy_of_run run
  have waited : state.main.pc.waited = true := by
    rw [ended]
    rfl
  obtain ⟨full, all⟩ := (told_of_run run).all waited
  refine ⟨ended, fun object => ?_, fun i => ?_⟩
  · cases object with
    | semid => exact tidy.semid (.inr ended)
    | shmid => exact tidy.shmid ended
  · have here := List.getElem?_eq_getElem (i.isLt.trans_eq full.symm)
    obtain ⟨status, ending, reported⟩ := all i _ here
    rw [Code.ending, alive_of_noAlarm run i, if_pos rfl, Option.map_eq_some_iff] at ending
    obtain ⟨status, exited, rfl⟩ := ending
    exact ⟨_, status, here, exited, reported⟩

/-- Where an undisturbed continuation comes to rest. -/
theorem rests_after {rank : Pc → Nat} (winds : code.program.Winds rank)
    (run : (machine code).Run NoAlarm actions events state)
    (past : forkedAll state.main.pc = true) (signalled : code.program.Signalled state.system)
    (path : (machine code).Path Undisturbed state later told after)
    (resting : Resting code after) : code.program.Still after.system ∧
      (Finished code (events ++ told) after ∨
        after.main.pc = .wait ∧ ∃ i, code.program.exited (after.system.pcs i) = false) := by
  have whole := run.append (path.weaken noAlarm_of_undisturbed)
  obtain ⟨behind, _⟩ := steps_le winds run past signalled path
  have ends := rests whole behind resting
  refine ⟨still_of_resting winds whole behind resting,
    ends.imp (finished_of_run whole) fun ⟨waits, i, going⟩ => ⟨waits, i, ?_⟩⟩
  rw [Code.ending, alive_of_noAlarm whole i, if_pos rfl, Option.map_eq_none_iff] at going
  rw [code.exits, System.pcs, going, Option.isSome_none]

end OsLabs.Lab03.ProcessTree
