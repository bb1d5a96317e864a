import OsLabs.Lab03.ProdConsMainInvariant
import OsLabs.Machine.Program

/-! prod_cons.c and writer_reader.c as whole programs, which are the same text from the
fork loop on: `main`, and the children that it forks, each of which runs its own loop
until it exits or is killed. -/

namespace OsLabs.Lab03.ProcessTree

open ProdConsMain (Pid Status Object)

def SIGALRM : Nat := 14

/-- What the rest of the program sees of the code of the children: when a child has come
to `exit`, and which object its next access is to. -/
structure Code (count : Nat) (Shared Pc Event : Type) where
  program : Program (Fin count) Shared Pc Event
  status : Pc → Option Nat
  object : Pc → Option Object
  exits : ∀ pc, program.exited pc = (status pc).isSome
  begins : program.exited program.entry = false
  awake : program.asleep program.entry = false

/-- `main` with its table of the children, the flag of its own process, the array that
the loop fills, and the children by their numbers in the loop. -/
structure State (count : Nat) (Shared Pc : Type) where
  main : ProdConsMain.State
  flag : Bool
  childPIDS : List Pid
  system : System (Fin count) Shared Pc

/-- `main` makes its next call or is interrupted, or a child moves, is interrupted or
killed. -/
inductive Action (count : Nat) where
  | main (outcome : ProdConsMain.Outcome)
  | sigint
  | child (action : OsLabs.Action (Fin count))

inductive Event (Shown : Type) where
  | main (event : ProdConsMain.Event)
  | child (event : Shown)

variable {count : Nat} {Shared Pc Shown : Type}

def target : OsLabs.Action (Fin count) → Fin count
  | .exec i | .sigint i | .alarm i => i

/-- The child has been forked and has not terminated. -/
def State.running? (state : State count Shared Pc) (i : Fin count) : Option Pid :=
  state.childPIDS[i.val]?.filter fun pid => state.main.children.lookup pid = some none

/-- What `wait` is going to report of the child. -/
def Code.ending (code : Code count Shared Pc Shown) (process : Process Pc) : Option Status :=
  if process.alive then (code.status process.pc).map .exited else some (.signaled SIGALRM)

/-- `childPIDS[i] = fork()`: the child has a copy of the flag. -/
def State.fork (state : State count Shared Pc) (pid : Pid) : State count Shared Pc :=
  let i := state.childPIDS.length
  { state with
    childPIDS := state.childPIDS ++ [pid]
    system := if bound : i < count then
        state.system.set ⟨i, bound⟩ { state.system.process ⟨i, bound⟩ with flag := state.flag }
      else state.system }

/-- What a call of `main` does outside of its own variables. -/
def State.called (state : State count Shared Pc) (outcome : ProdConsMain.Outcome) :
    State count Shared Pc :=
  match state.main.pc, outcome with
  | .fork _, .pid pid => state.fork pid
  | _, _ => state

def mainStep (state : State count Shared Pc) (outcome : ProdConsMain.Outcome) :
    Option (State count Shared Pc × List (Event Shown)) :=
  (ProdConsMain.mainStep count state.main outcome).map fun (main, emitted) =>
    ({ state.called outcome with main := main }, emitted.map .main)

/-- The object that the action of the child is an access to. -/
def Code.touched (code : Code count Shared Pc Shown) (state : State count Shared Pc) :
    OsLabs.Action (Fin count) → List Object
  | .exec i => (code.object (state.system.pcs i)).toList
  | .sigint _ | .alarm _ => []

/-- A `semop` on a set that has been removed fails, and the child exits with 1. Memory that
has been removed stays attached. -/
def Code.moves (code : Code count Shared Pc Shown) (state : State count Shared Pc)
    (action : OsLabs.Action (Fin count)) : Option (System (Fin count) Shared Pc × List Shown) :=
  if .semid ∈ code.touched state action ∧ state.main.present .semid = false then
    let i := target action
    some (state.system.set i { state.system.process i with pc := code.program.interrupted }, [])
  else code.program.next state.system action

/-- A child that has come to `exit` or was killed becomes a zombie of `main`. -/
def childStep (code : Code count Shared Pc Shown) (state : State count Shared Pc)
    (action : OsLabs.Action (Fin count)) :
    Option (State count Shared Pc × List (Event Shown)) :=
  (state.running? (target action)).bind fun pid =>
    (code.moves state action).map fun (system, shown) =>
      let used := (code.touched state action).map fun object =>
        Event.main (.used pid object (state.main.present object))
      match code.ending (system.process (target action)) with
      | none => ({ state with system := system }, used ++ shown.map .child)
      | some status =>
        let children := state.main.children.terminate pid status
        ({ state with main := { state.main with children := children }, system := system },
          used ++ shown.map .child ++ [.main (.terminated pid status)])

def machine (code : Code count Shared Pc Shown) :
    Machine (State count Shared Pc) (Action count) (Event Shown) where
  init := ⟨(ProdConsMain.machine count).init, true, [], code.program.machine.init⟩
  next state action :=
    match action with
    | .main outcome => mainStep state outcome
    | .sigint => some ({ state with flag := false }, [])
    | .child action => childStep code state action

def Event.main? : Event Shown → Option ProdConsMain.Event
  | .main event => some event
  | .child _ => none

def Event.child? : Event Shown → Option Shown
  | .child event => some event
  | .main _ => none

/-- What `main` and the system know of the run. -/
def record (events : List (Event Shown)) : List ProdConsMain.Event :=
  events.filterMap Event.main?

/-- What the children show of it. -/
def shown (events : List (Event Shown)) : List Shown := events.filterMap Event.child?

@[simp] theorem record_append (events emitted : List (Event Shown)) :
    record (events ++ emitted) = record events ++ record emitted := List.filterMap_append

@[simp] theorem shown_append (events emitted : List (Event Shown)) :
    shown (events ++ emitted) = shown events ++ shown emitted := List.filterMap_append

@[simp] theorem shown_nil : shown ([] : List (Event Shown)) = [] := rfl

@[simp] theorem record_main (events : List ProdConsMain.Event) :
    record (events.map .main : List (Event Shown)) = events := by
  simp [record, List.filterMap_map, Function.comp_def, Event.main?]

@[simp] theorem shown_main (events : List ProdConsMain.Event) :
    shown (events.map .main : List (Event Shown)) = [] := by
  simp [shown, List.filterMap_map, Function.comp_def, Event.child?]

@[simp] theorem record_single (event : ProdConsMain.Event) :
    record ([.main event] : List (Event Shown)) = [event] := rfl

@[simp] theorem shown_single (event : ProdConsMain.Event) :
    shown ([.main event] : List (Event Shown)) = [] := rfl

@[simp] theorem record_child (events : List Shown) : record (events.map .child) = [] := by
  simp [record, List.filterMap_map, Function.comp_def, Event.main?]

@[simp] theorem shown_child (events : List Shown) : shown (events.map .child) = events := by
  simp [shown, List.filterMap_map, Function.comp_def, Event.child?]

/-- What one step does. -/
inductive Effect (code : Code count Shared Pc Shown) (state : State count Shared Pc) :
    Action count → State count Shared Pc → List (Event Shown) → Prop where
  | fork (here : state.main.pc = .fork i) (room : i < count) (positive : 0 < pid)
    (fresh : state.main.children.lookup pid = none) :
    Effect code state (.main (.pid pid))
      { state.fork pid with
        main := { state.main with pc := .fork (i + 1), children := state.main.children.fork pid } }
      [.main (.forked pid)]
  | calls (unforked : ∀ i pid, state.main.pc = .fork i → outcome ≠ .pid pid)
    (stepped : ProdConsMain.mainStep count state.main outcome = some (main, told)) :
    Effect code state (.main outcome) { state with main := main } (told.map .main)
  | sigint : Effect code state .sigint { state with flag := false } []
  | goes (running : state.running? (target action) = some pid)
    (moved : code.moves state action = some (system, shows))
    (going : code.ending (system.process (target action)) = none) :
    Effect code state (.child action) { state with system := system }
      ((code.touched state action).map
        (fun object => .main (.used pid object (state.main.present object))) ++ shows.map .child)
  | ends (running : state.running? (target action) = some pid)
    (moved : code.moves state action = some (system, shows))
    (ended : code.ending (system.process (target action)) = some status) :
    Effect code state (.child action)
      { state with
        main := { state.main with children := state.main.children.terminate pid status }
        system := system }
      ((code.touched state action).map
        (fun object => .main (.used pid object (state.main.present object))) ++ shows.map .child ++
        [.main (.terminated pid status)])

variable {code : Code count Shared Pc Shown} {state after : State count Shared Pc}
variable {events emitted : List (Event Shown)}

theorem running?_eq_some {i : Fin count} :
    state.running? i = some pid ↔
      state.childPIDS[i.val]? = some pid ∧ state.main.children.lookup pid = some none := by
  simp [State.running?, Option.filter_eq_some_iff]

theorem called_of_unforked (unforked : ∀ i pid, state.main.pc = .fork i → outcome ≠ .pid pid) :
    state.called outcome = state := by
  unfold State.called
  split
  · next here => exact absurd rfl (unforked _ _ here)
  · rfl

theorem mainStep_effect (taken : mainStep state outcome = some (after, emitted)) :
    Effect code state (.main outcome) after emitted := by
  obtain ⟨⟨main, told⟩, stepped, same⟩ := Option.map_eq_some_iff.mp taken
  obtain ⟨rfl, rfl⟩ := Prod.mk.inj same
  by_cases forking : ∃ i pid, state.main.pc = .fork i ∧ outcome = .pid pid
  · obtain ⟨i, pid, here, rfl⟩ := forking
    simp only [ProdConsMain.mainStep, here] at stepped
    by_cases room : i < count
    · simp only [room, if_true, Option.ite_none_right_eq_some, Option.some.injEq,
        Prod.mk.injEq] at stepped
      obtain ⟨⟨positive, fresh⟩, rfl, rfl⟩ := stepped
      simp only [State.called, here, List.map_cons, List.map_nil]
      exact .fork here room positive fresh
    · simp [room] at stepped
  · have unforked : ∀ i pid, state.main.pc = .fork i → outcome ≠ .pid pid :=
      fun i pid here same => forking ⟨i, pid, here, same⟩
    rw [called_of_unforked unforked]
    exact .calls unforked stepped

theorem next_effect (taken : (machine code).next state action = some (after, emitted)) :
    Effect code state action after emitted := by
  cases action with
  | main outcome => exact mainStep_effect taken
  | sigint =>
    obtain ⟨rfl, rfl⟩ := Prod.mk.inj (Option.some.inj taken)
    exact .sigint
  | child action =>
    obtain ⟨pid, running, taken⟩ := Option.bind_eq_some_iff.mp taken
    obtain ⟨⟨system, shows⟩, moved, same⟩ := Option.map_eq_some_iff.mp taken
    cases ending : code.ending (system.process (target action)) with
    | none =>
      simp only [ending, Prod.mk.injEq] at same
      obtain ⟨rfl, rfl⟩ := same
      exact .goes running moved ending
    | some status =>
      simp only [ending, Prod.mk.injEq] at same
      obtain ⟨rfl, rfl⟩ := same
      exact .ends running moved ending

/-- A child reports its end as an exit or as a kill. -/
theorem terminates_of_ending (ended : code.ending process = some status) :
    status.terminates = true := by
  unfold Code.ending at ended
  split at ended
  · obtain ⟨_, _, rfl⟩ := Option.map_eq_some_iff.mp ended
    rfl
  · obtain rfl := Option.some.inj ended
    rfl

/-- The accesses of one step. -/
theorem uses_path (count : Nat) {main : ProdConsMain.State}
    (running : main.children.lookup pid = some none) (objects : List Object) :
    (ProdConsMain.machine count).Path Machine.anything main (objects.map (.use pid))
      (objects.map fun object => .used pid object (main.present object)) main := by
  induction objects with
  | nil => exact .start
  | cons object objects ih =>
    have taken : (ProdConsMain.machine count).next main (.use pid object) =
        some (main, [.used pid object (main.present object)]) := if_pos running
    exact .cons trivial taken ih

/-- What `main` sees of the accesses of one step, and what is shown. -/
@[simp] theorem record_used (pid : Pid) (present : Object → Bool) (objects : List Object) :
    record (objects.map fun object => .main (.used pid object (present object)) :
      List (Event Shown)) = objects.map fun object => .used pid object (present object) := by
  simp [record, List.filterMap_map, Function.comp_def, Event.main?]

@[simp] theorem shown_used (pid : Pid) (present : Object → Bool) (objects : List Object) :
    shown (objects.map fun object => .main (.used pid object (present object)) :
      List (Event Shown)) = [] := by
  simp [shown, List.filterMap_map, Function.comp_def, Event.child?]

/-- What the children do is, for `main`, an access or an end that it allows at any time. -/
theorem refines_main (code : Code count Shared Pc Shown) :
    (machine code).Simulates Machine.anything (ProdConsMain.machine count) Machine.anything
      Event.main? some (fun state main => state.main = main) where
  initial := rfl
  step := by
    rintro state action after emitted _ rfl _ taken
    simp only [List.filterMap_some]
    change ∃ moves told main, _ ∧ told = record emitted ∧ after.main = main
    cases next_effect taken with
    | @fork i pid here room positive fresh =>
      refine ⟨[.main (.pid pid)], _, _, .single trivial ?_, rfl, rfl⟩
      simp [ProdConsMain.machine, ProdConsMain.mainStep, here, room, positive, fresh, record,
        Event.main?]
    | @calls outcome main told unforked stepped =>
      exact ⟨[.main outcome], told, main, .single trivial stepped, by simp, rfl⟩
    | sigint => exact ⟨[], [], _, .start, rfl, rfl⟩
    | @goes action pid system shows running =>
      have path := uses_path count (running?_eq_some.mp running).2
        (code.touched state action)
      exact ⟨_, _, _, path, by simp, rfl⟩
    | @ends action pid system shows status running moved ended =>
      have lives := (running?_eq_some.mp running).2
      have taken : (ProdConsMain.machine count).next state.main (.terminate pid status) =
          some ({ state.main with children := state.main.children.terminate pid status },
            [.terminated pid status]) := if_pos ⟨lives, terminates_of_ending ended⟩
      have path := (uses_path count lives (code.touched state action)).step trivial taken
      exact ⟨_, _, _, path, by simp, rfl⟩

theorem consistent_of_run (run : (machine code).Run allowed actions events state) :
    ProdConsMain.Consistent (record events) state.main := by
  obtain ⟨_, told, _, followed, same, rfl⟩ :=
    (refines_main code).run (run.weaken fun _ _ _ => trivial)
  rw [List.filterMap_some] at same
  rw [record, ← same]
  exact ProdConsMain.consistent followed

end OsLabs.Lab03.ProcessTree
