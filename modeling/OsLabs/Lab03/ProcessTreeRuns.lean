import OsLabs.Lab03.ProcessTree

/-! The runs of the whole programs: nothing is taken away from a child that has not
terminated, so the children run as they do on their own, and `main` reports of each what
has become of it. -/

namespace OsLabs.Lab03.ProcessTree

open ProdConsMain (Pid Status Object terminations reports Consistent)

variable {count : Nat} {Shared Pc Shown : Type}
variable {code : Code count Shared Pc Shown} {state after : State count Shared Pc}
variable {events emitted : List (Event Shown)}

/-- How many children the loop has forked. -/
def Forks (count : Nat) : ProdConsMain.Pc → Nat → Prop
  | .fork i, number => number = i ∧ i ≤ count
  | .exited 1, _ => True
  | _, number => number = count

/-- The children of `main` are those of the loop, each with the end that its process has
come to. -/
structure Paired (code : Code count Shared Pc Shown) (events : List (Event Shown))
    (state : State count Shared Pc) : Prop where
  forks : Forks count state.main.pc state.childPIDS.length
  forked : ∀ pid ∈ state.childPIDS, .forked pid ∈ record events
  distinct : state.childPIDS.Nodup
  unstarted : ∀ i : Fin count, state.childPIDS.length ≤ i.val →
    state.system.process i = ⟨code.program.entry, true, true⟩
  ends : ∀ (i : Fin count) pid, state.childPIDS[i.val]? = some pid →
    terminations (record events) pid = (code.ending (state.system.process i)).toList

theorem ending_entry (code : Code count Shared Pc Shown) (flag : Bool) :
    code.ending ⟨code.program.entry, flag, true⟩ = none := by
  have begins := code.begins
  rw [code.exits] at begins
  simpa [Code.ending] using begins

/-- A signal or a step of one child changes no other. -/
theorem next_elsewhere {program : Program (Fin count) Shared Pc Shown}
    {system moved : System (Fin count) Shared Pc}
    (taken : program.next system action = some (moved, shows)) (other : i ≠ target action) :
    moved.process i = system.process i := by
  cases action with
  | exec pid =>
    simp only [Program.next, Option.ite_none_right_eq_some, Option.map_eq_some_iff] at taken
    obtain ⟨_, ⟨shared, pc, emitted⟩, _, same⟩ := taken
    obtain ⟨rfl, _⟩ := Prod.mk.inj same
    exact Function.update_of_ne other ..
  | sigint pid | alarm pid =>
    simp only [Program.next, Option.ite_none_right_eq_some, Option.some.injEq,
      Prod.mk.injEq] at taken
    obtain ⟨_, rfl, _⟩ := taken
    exact Function.update_of_ne other ..

theorem moves_elsewhere (moved : code.moves state action = some (system, shows))
    (other : i ≠ target action) : system.process i = state.system.process i := by
  unfold Code.moves at moved
  split at moved
  · obtain ⟨rfl, _⟩ := Prod.mk.inj (Option.some.inj moved)
    exact Function.update_of_ne other ..
  · exact next_elsewhere moved other

/-- What a child finds removed it has outlived: `main` waits for it first. -/
theorem moves_eq_next (consistent : Consistent (record events) state.main)
    (running : state.running? (target action) = some pid) :
    code.moves state action = code.program.next state.system action := by
  have lives := (running?_eq_some.mp running).2
  have sees := consistent.sees (lives ▸ Option.some_ne_none none) .semid
  simp [Code.moves, sees]

theorem terminations_used (pid other : Pid) (present : Object → Bool) (objects : List Object) :
    terminations (objects.map fun object => .used pid object (present object)) other = [] := by
  simp [terminations, ProdConsMain.Event.termination]

/-- Children with different numbers have different process ids. -/
theorem Paired.apart {i j : Nat} (paired : Paired code events state)
    (here : state.childPIDS[i]? = some pid) (there : state.childPIDS[j]? = some other)
    (different : i ≠ j) : other ≠ pid := by
  rintro rfl
  obtain ⟨bound, _⟩ := List.getElem?_eq_some_iff.mp here
  exact different ((List.getElem?_inj bound paired.distinct).mp (here.trans there.symm))

theorem Paired.mem_record (paired : Paired code events state)
    (member : pid ∈ state.childPIDS) (emitted : List (Event Shown)) :
    .forked pid ∈ record (events ++ emitted) := by
  rw [record_append]
  exact List.mem_append_left _ (paired.forked pid member)

/-- A step of a child, whose end is recorded if it comes to one. -/
theorem Paired.moved {system : System (Fin count) Shared Pc} (paired : Paired code events state)
    (consistent : Consistent (record events) state.main)
    (running : state.running? (target action) = some pid)
    (elsewhere : ∀ i, i ≠ target action → system.process i = state.system.process i)
    (pc : main.pc = state.main.pc)
    (ended : ∀ other, terminations (record emitted) other =
      if other = pid then (code.ending (system.process (target action))).toList else []) :
    Paired code (events ++ emitted) { state with main := main, system := system } := by
  obtain ⟨here, lives⟩ := running?_eq_some.mp running
  obtain ⟨bound, _⟩ := List.getElem?_eq_some_iff.mp here
  have before : terminations (record events) pid = [] := by
    have stage := consistent.stage pid
    rw [lives] at stage
    cases stage with
    | running unended => exact unended
  refine ⟨by simpa [pc] using paired.forks, fun pid member => paired.mem_record member _,
    paired.distinct, fun i late => ?_, fun i other there => ?_⟩
  · have apart : i ≠ target action := by
      rintro rfl
      exact absurd bound (Nat.not_lt.mpr late)
    exact (elsewhere i apart).trans (paired.unstarted i late)
  · rw [record_append, ProdConsMain.terminations_append, ended]
    by_cases same : i = target action
    · subst same
      obtain rfl : other = pid := Option.some.inj (there.symm.trans here)
      simp [before]
    · have apart := paired.apart here there fun number => same (Fin.ext number.symm)
      rw [if_neg apart, List.append_nil]
      exact (paired.ends i other there).trans (by rw [elsewhere i same])

/-- A call of `main` other than a `fork` that creates a child. -/
theorem Forks.calls (forks : Forks count main.pc number)
    (unforked : ∀ i pid, main.pc = .fork i → outcome ≠ .pid pid)
    (stepped : ProdConsMain.mainStep count main outcome = some (next, told)) :
    Forks count next.pc number ∧ ∀ pid, terminations told pid = [] := by
  cases ProdConsMain.mainStep_effect stepped with
  | fork here => exact absurd rfl (unforked _ _ here)
  | forked here =>
    rw [here] at forks
    obtain ⟨rfl, bound⟩ := forks
    have full : count ≤ number := by simpa [ProdConsMain.mainStep, here] using stepped
    exact ⟨Nat.le_antisymm bound full, fun _ => rfl⟩
  | exit => exact ⟨trivial, fun _ => rfl⟩
  | leave here | enter here | reap here | eintr here | echild here | semctl here | shmctl here =>
    rw [here] at forks
    exact ⟨forks, fun _ => rfl⟩

/-- The new child, which has not started yet, gets the flag of `main`. -/
theorem Paired.fork_system (paired : Paired code events state) (pid : Pid)
    (room : state.childPIDS.length < count) : (state.fork pid).system =
      state.system.set ⟨_, room⟩ ⟨code.program.entry, state.flag, true⟩ := by
  simp [State.fork, room, paired.unstarted ⟨_, room⟩ (Nat.le_refl _)]

/-- The process id of a new child has not been used before, since none is reaped yet. -/
theorem Paired.fresh (paired : Paired code events state)
    (consistent : Consistent (record events) state.main) (here : state.main.pc = .fork i)
    (fresh : state.main.children.lookup pid = none) :
    pid ∉ state.childPIDS ∧ terminations (record events) pid = [] := by
  have stage := consistent.stage pid
  rw [fresh] at stage
  cases stage with
  | unknown unforked unended =>
    exact ⟨fun member => unforked (paired.forked pid member), unended⟩
  | reaped accounted =>
    obtain ⟨_, _, reported⟩ := accounted
    rw [(consistent.forking _ here).1] at reported
    cases reported

/-- `fork` creates the child of the next number, which begins with the flag of `main`. -/
theorem Paired.fork (paired : Paired code events state)
    (consistent : Consistent (record events) state.main) (here : state.main.pc = .fork i)
    (room : i < count) (fresh : state.main.children.lookup pid = none)
    (pc : main.pc = .fork (i + 1)) :
    Paired code (events ++ [.main (.forked pid)]) { state.fork pid with main := main } := by
  have forks := paired.forks
  rw [here] at forks
  obtain ⟨rfl, _⟩ := forks
  obtain ⟨absent, unended⟩ := paired.fresh consistent here fresh
  have silent : ∀ other, terminations (record (events ++ [.main (.forked pid)])) other =
      terminations (record events) other := by
    intro other
    simp [ProdConsMain.Event.termination]
  refine ⟨?_, fun other member => ?_, ?_, fun j late => ?_, fun j other there => ?_⟩
  · rw [pc]
    exact ⟨List.length_append, room⟩
  · rcases List.mem_append.mp member with old | new
    · exact paired.mem_record old _
    · obtain rfl := List.mem_singleton.mp new
      simp
  · refine List.nodup_append.mpr ⟨paired.distinct, by simp, ?_⟩
    rintro other member _ new rfl
    exact absent (List.mem_singleton.mp new ▸ member)
  · have later : state.childPIDS.length + 1 ≤ j.val := by simpa [State.fork] using late
    have apart : j ≠ ⟨_, room⟩ := fun same => by
      rw [same] at later
      exact absurd later (Nat.not_succ_le_self _)
    simp only [paired.fork_system pid room, System.set, Function.update_of_ne apart]
    exact paired.unstarted j (Nat.le_of_succ_le later)
  · rw [silent]
    simp only [paired.fork_system pid room, System.set]
    have there : (state.childPIDS ++ [pid])[j.val]? = some other := there
    by_cases last : j = ⟨_, room⟩
    · subst last
      obtain rfl : pid = other := by simpa using there
      rw [Function.update_self, ending_entry, unended]
      rfl
    · have earlier : j.val < state.childPIDS.length := by
        obtain ⟨bound, _⟩ := List.getElem?_eq_some_iff.mp there
        have different : j.val ≠ state.childPIDS.length := fun same => last (Fin.ext same)
        rw [List.length_append, List.length_singleton] at bound
        omega
      rw [List.getElem?_append_left earlier] at there
      rw [Function.update_of_ne last]
      exact paired.ends j other there

theorem paired_init (code : Code count Shared Pc Shown) : Paired code [] (machine code).init where
  forks := ⟨rfl, Nat.zero_le _⟩
  forked pid member := absurd member List.not_mem_nil
  distinct := List.nodup_nil
  unstarted i _ := rfl
  ends i pid here := by simp [machine] at here

theorem Paired.next (paired : Paired code events state)
    (consistent : Consistent (record events) state.main)
    (taken : (machine code).next state action = some (after, emitted)) :
    Paired code (events ++ emitted) after := by
  cases next_effect taken with
  | fork here room positive fresh => exact paired.fork consistent here room fresh rfl
  | calls unforked stepped =>
    obtain ⟨forks, silent⟩ := paired.forks.calls unforked stepped
    refine ⟨forks, fun pid member => paired.mem_record member _, paired.distinct,
      paired.unstarted, fun i pid here => ?_⟩
    simpa [silent] using paired.ends i pid here
  | sigint =>
    rw [List.append_nil]
    exact ⟨paired.forks, paired.forked, paired.distinct, paired.unstarted, paired.ends⟩
  | goes running moved going =>
    refine paired.moved consistent running (fun _ => moves_elsewhere moved) rfl fun other => ?_
    simp [going, terminations_used]
  | @ends action pid system shows status running moved ended =>
    refine paired.moved consistent running (fun _ => moves_elsewhere moved) rfl fun other => ?_
    simp only [ended, record_append, record_used, record_child, record_single, List.append_nil,
      ProdConsMain.terminations_append, terminations_used, List.nil_append,
      ProdConsMain.terminations_single, ProdConsMain.Event.termination]
    by_cases same : pid = other <;> simp [same, Ne.symm]

theorem paired_of_run (run : (machine code).Run allowed actions events state) :
    Paired code events state := by
  induction run with
  | start => exact paired_init code
  | step run _ taken ih => exact ih.next (consistent_of_run run) taken

/-- A child runs as it does on its own; one that was forked when `main` had been
interrupted runs as if it were interrupted at once. -/
theorem children_run {permitted : System (Fin count) Shared Pc → OsLabs.Action (Fin count) → Prop}
    (sound : ∀ state action, allowed state (.child action) → permitted state.system action)
    (signals : ∀ system i, permitted system (.sigint i))
    (run : (machine code).Run allowed actions events state) :
    ∃ moves, code.program.machine.Run permitted moves (shown events) state.system := by
  induction run with
  | start => exact ⟨[], .start⟩
  | @step actions events state action after emitted run allows taken ih =>
    obtain ⟨moves, path⟩ := ih
    have consistent := consistent_of_run run
    have paired := paired_of_run run
    rw [shown_append]
    cases next_effect taken with
    | @fork i pid here room =>
      have forks := paired.forks
      rw [here] at forks
      obtain ⟨rfl, _⟩ := forks
      have unstarted := paired.unstarted ⟨_, room⟩ (Nat.le_refl _)
      simp only [paired.fork_system pid room, shown_single]
      cases flag : state.flag with
      | true =>
        have same : state.system.set ⟨_, room⟩ ⟨code.program.entry, true, true⟩ = state.system := by
          rw [← unstarted, System.set, Function.update_eq_self]
        rw [same, List.append_nil]
        exact ⟨moves, path⟩
      | false =>
        refine ⟨_, path.step (signals state.system ⟨_, room⟩) ?_⟩
        simp [Program.machine, Program.next, Program.running, unstarted, code.begins, code.awake]
    | calls | sigint => exact ⟨moves, by simpa using path⟩
    | @goes action pid system shows running moved | @ends action pid system shows _ running moved =>
      rw [moves_eq_next consistent running] at moved
      have longer := path.step (sound _ _ allows) moved
      exact ⟨_, by simpa using longer⟩

/-- What a run of a whole program tells of the children. -/
structure Told (code : Code count Shared Pc Shown) (events : List (Event Shown))
    (state : State count Shared Pc) : Prop where
  distinct : state.childPIDS.Nodup
  /-- No access to an object comes after its removal. -/
  used : ∀ pid object present, .used pid object present ∈ record events → present = true
  /-- `main` reports of a child only what has become of its process, and once. -/
  own : ∀ (i : Fin count) pid, state.childPIDS[i.val]? = some pid →
    reports (record events) pid <+: (code.ending (state.system.process i)).toList
  /-- Behind the wait loop all children have ended and been reported. -/
  all : state.main.pc.waited = true → state.childPIDS.length = count ∧
    ∀ (i : Fin count) pid, state.childPIDS[i.val]? = some pid → ∃ status,
      code.ending (state.system.process i) = some status ∧ reports (record events) pid = [status]

theorem Forks.waited (forks : Forks count pc number) (waited : pc.waited = true) :
    number = count := by
  cases pc with
  | semctl | shmctl => exact forks
  | exited status =>
    cases status with
    | zero => exact forks
    | succ => cases waited
  | fork | loop | wait => cases waited

theorem told_of_run (run : (machine code).Run allowed actions events state) :
    Told code events state := by
  have consistent := consistent_of_run run
  have paired := paired_of_run run
  refine ⟨paired.distinct, consistent.used, fun i pid here => ?_, fun waited =>
    ⟨paired.forks.waited waited, fun i pid here => ?_⟩⟩
  · rw [← paired.ends i pid here]
    exact (consistent.stage pid).once.1
  · have stage := consistent.stage pid
    rw [Children.lookup_of_entries_nil (consistent.emptied (.inl waited))] at stage
    obtain ⟨status, ended, reported⟩ := stage.accounted
      (paired.forked pid (List.mem_of_getElem? here))
    rw [paired.ends i pid here, Option.toList_eq_singleton_iff] at ended
    exact ⟨status, ended, reported⟩

end OsLabs.Lab03.ProcessTree
