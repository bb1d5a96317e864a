import OsLabs.Machine.Simulation
import Mathlib.Logic.Function.Basic

/-! Processes that run one program over shared memory until a flag of their own
is cleared. SIGINT is caught: its handler clears the flag, and a system call the
process sleeps in fails with EINTR. SIGALRM is not caught and kills. -/

namespace OsLabs

universe u v w x u' v' w' x'

/-- `step` is the next step of one process: it may read the flag, and it is
`none` while the process sleeps in a call or once it has exited. -/
structure Program (Pid : Type u) (Shared : Type v) (Pc : Type w) (Event : Type x) where
  shared : Shared
  entry : Pc
  step : Pid → Shared → Bool → Pc → Option (Shared × Pc × List Event)
  asleep : Pc → Bool
  exited : Pc → Bool
  interrupted : Pc

structure Process (Pc : Type w) where
  pc : Pc
  flag : Bool
  alive : Bool

structure System (Pid : Type u) (Shared : Type v) (Pc : Type w) where
  shared : Shared
  process : Pid → Process Pc

inductive Action (Pid : Type u) where
  | exec (pid : Pid)
  | sigint (pid : Pid)
  | alarm (pid : Pid)

variable {Pid : Type u} {Shared : Type v} {Pc : Type w} {Event : Type x} [DecidableEq Pid]

/-- The program points of all processes, killed ones included: a killed
process stays where it was. -/
def System.pcs (system : System Pid Shared Pc) (pid : Pid) : Pc := (system.process pid).pc

/-- Replace one process. -/
def System.set (system : System Pid Shared Pc) (pid : Pid) (process : Process Pc) :
    System Pid Shared Pc :=
  { system with process := Function.update system.process pid process }

namespace Program

/-- A process that can still receive a signal. -/
def running (program : Program Pid Shared Pc Event) (process : Process Pc) : Bool :=
  process.alive && !program.exited process.pc

def next (program : Program Pid Shared Pc Event) (system : System Pid Shared Pc) :
    Action Pid → Option (System Pid Shared Pc × List Event)
  | .exec pid =>
    let process := system.process pid
    if process.alive then
      (program.step pid system.shared process.flag process.pc).map
        fun (shared, pc, emitted) =>
          ({ system with shared := shared }.set pid { process with pc := pc }, emitted)
    else none
  | .sigint pid =>
    let process := system.process pid
    if program.running process then
      let pc := if program.asleep process.pc then program.interrupted else process.pc
      some (system.set pid { process with pc := pc, flag := false }, [])
    else none
  | .alarm pid =>
    let process := system.process pid
    if program.running process then
      some (system.set pid { process with alive := false }, [])
    else none

/-- All processes start at the entry with the flag set. One that has not been
forked yet is one that has not been scheduled yet. -/
def machine (program : Program Pid Shared Pc Event) :
    Machine (System Pid Shared Pc) (Action Pid) Event where
  init := ⟨program.shared, fun _ => ⟨program.entry, true, true⟩⟩
  next := program.next

/-- No process is killed. -/
def noAlarm (_ : System Pid Shared Pc) : Action Pid → Prop
  | .alarm _ => False
  | _ => True

instance (system : System Pid Shared Pc) (action : Action Pid) :
    Decidable (noAlarm system action) :=
  match action with
  | .alarm _ => .isFalse id
  | .exec _ | .sigint _ => .isTrue trivial

/-- No process receives a signal. -/
def noSignal (_ : System Pid Shared Pc) : Action Pid → Prop
  | .exec _ => True
  | _ => False

variable {program : Program Pid Shared Pc Event}

@[simp] theorem pcs_set (system : System Pid Shared Pc) (pid : Pid) (process : Process Pc) :
    (system.set pid process).pcs = Function.update system.pcs pid process.pc :=
  Function.comp_update Process.pc system.process pid process

omit [DecidableEq Pid] in
@[simp] theorem pcs_shared (system : System Pid Shared Pc) (shared : Shared) :
    ({ system with shared := shared } : System Pid Shared Pc).pcs = system.pcs := rfl

/-- What one step of the system does to the shared memory and the program
points: a step of a live process, the end of an interrupted call, or nothing. -/
inductive Effect (program : Program Pid Shared Pc Event) (system : System Pid Shared Pc)
    (after : System Pid Shared Pc) (emitted : List Event) : Action Pid → Prop where
  | exec (pid : Pid) (alive : (system.process pid).alive = true)
      (stepped : program.step pid system.shared (system.process pid).flag (system.pcs pid) =
        some (after.shared, pc, emitted))
      (moved : after.pcs = Function.update system.pcs pid pc) :
      Effect program system after emitted (.exec pid)
  | interrupt (pid : Pid) (asleep : program.asleep (system.pcs pid) = true)
      (shared : after.shared = system.shared) (silent : emitted = [])
      (moved : after.pcs = Function.update system.pcs pid program.interrupted) :
      Effect program system after emitted (.sigint pid)
  | handled (pid : Pid) (awake : program.asleep (system.pcs pid) = false)
      (shared : after.shared = system.shared) (silent : emitted = [])
      (moved : after.pcs = system.pcs) : Effect program system after emitted (.sigint pid)
  | killed (pid : Pid) (shared : after.shared = system.shared) (silent : emitted = [])
      (moved : after.pcs = system.pcs) : Effect program system after emitted (.alarm pid)

theorem next_effect (taken : program.next system action = some (after, emitted)) :
    Effect program system after emitted action := by
  cases action with
  | exec pid =>
    simp only [next, Option.ite_none_right_eq_some, Option.map_eq_some_iff] at taken
    obtain ⟨alive, ⟨shared, pc, shown⟩, stepped, same⟩ := taken
    obtain ⟨rfl, rfl⟩ := Prod.mk.inj same
    exact .exec pid alive stepped (by simp)
  | sigint pid =>
    simp only [next, Option.ite_none_right_eq_some, Option.some.injEq, Prod.mk.injEq] at taken
    obtain ⟨_, rfl, rfl⟩ := taken
    by_cases asleep : program.asleep (system.pcs pid) = true
    · refine .interrupt pid asleep rfl rfl ?_
      rw [System.pcs] at asleep
      simp [asleep]
    · have awake := Bool.eq_false_iff.mpr asleep
      refine .handled pid awake rfl rfl ?_
      rw [System.pcs] at awake
      simp only [awake, Bool.false_eq_true, ↓reduceIte, pcs_set]
      exact Function.update_eq_self pid system.pcs
  | alarm pid =>
    simp only [next, Option.ite_none_right_eq_some, Option.some.injEq, Prod.mk.injEq] at taken
    obtain ⟨_, rfl, rfl⟩ := taken
    refine .killed pid rfl rfl ?_
    rw [pcs_set]
    exact Function.update_eq_self pid system.pcs

theorem next_exec {system : System Pid Shared Pc} {shared : Shared} {pc : Pc}
    {emitted : List Event} (alive : (system.process pid).alive = true)
    (stepped : program.step pid system.shared (system.process pid).flag (system.pcs pid) =
      some (shared, pc, emitted)) :
    program.next system (.exec pid) =
      some ({ system with shared := shared }.set pid { system.process pid with pc := pc },
        emitted) := by
  rw [System.pcs] at stepped
  simp [next, alive, stepped, System.set]

/-- The induction rule for what every single process satisfies. -/
theorem every_process {allowed : System Pid Shared Pc → Action Pid → Prop}
    (Holds : Process Pc → Prop) (initial : Holds ⟨program.entry, true, true⟩)
    (exec : ∀ {system pid shared pc emitted}, Holds (system.process pid) →
      allowed system (.exec pid) →
      program.step pid system.shared (system.process pid).flag (system.pcs pid) =
        some (shared, pc, emitted) →
      Holds { system.process pid with pc := pc })
    (sigint : ∀ {process}, Holds process →
      Holds { process with
        pc := if program.asleep process.pc then program.interrupted else process.pc
        flag := false })
    (alarm : ∀ {system pid}, Holds (system.process pid) → allowed system (.alarm pid) →
      Holds { system.process pid with alive := false })
    (run : program.machine.Run allowed actions events system) (pid : Pid) :
    Holds (system.process pid) := by
  refine run.invariant (fun _ system => ∀ pid, Holds (system.process pid)) (fun _ => initial) ?_ pid
  intro events system action after emitted holds permitted taken
  have update : ∀ pid process, Holds process →
      ∀ other, Holds (Function.update system.process pid process other) := fun pid process kept =>
    (Function.forall_update_iff system.process (fun _ process => Holds process)).mpr
      ⟨kept, fun other _ => holds other⟩
  cases action with
  | exec pid =>
    simp only [machine, next, Option.ite_none_right_eq_some, Option.map_eq_some_iff] at taken
    obtain ⟨_, ⟨shared, pc, shown⟩, stepped, same⟩ := taken
    obtain ⟨rfl, rfl⟩ := Prod.mk.inj same
    exact update pid _ (exec (holds pid) permitted stepped)
  | sigint pid =>
    simp only [machine, next, Option.ite_none_right_eq_some, Option.some.injEq,
      Prod.mk.injEq] at taken
    obtain ⟨_, rfl, _⟩ := taken
    exact update pid _ (sigint (holds pid))
  | alarm pid =>
    simp only [machine, next, Option.ite_none_right_eq_some, Option.some.injEq,
      Prod.mk.injEq] at taken
    obtain ⟨_, rfl, _⟩ := taken
    exact update pid _ (alarm (holds pid) permitted)

/-- Without alarms nobody is ever dead. -/
theorem alive_of_noAlarm (run : program.machine.Run noAlarm actions events system) (pid : Pid) :
    (system.process pid).alive = true :=
  every_process (fun process => process.alive = true) rfl (fun alive _ _ => alive)
    (fun alive => alive) (fun _ permitted => absurd permitted id) run pid

/-- A relation with an abstract machine that only looks at the shared memory
and the program points is kept by every signal, as soon as the steps of the
program and the interruption of a sleeping process keep it. -/
theorem simulates {Shadow : Type u'} {Move : Type v'} {Shown : Type w'} {Seen : Type x'}
    {abstract : Machine Shadow Move Shown}
    {permitted : Shadow → Move → Prop} {see : Event → Option Seen} {view : Shown → Option Seen}
    {allowed : System Pid Shared Pc → Action Pid → Prop}
    (rel : Shared → (Pid → Pc) → Shadow → Prop)
    (initial : rel program.shared (fun _ => program.entry) abstract.init)
    (exec : ∀ {shared pcs shadow pid flag shared' pc emitted}, rel shared pcs shadow →
      program.step pid shared flag (pcs pid) = some (shared', pc, emitted) →
      ∃ moves shown shadow', abstract.Path permitted shadow moves shown shadow' ∧
        shown.filterMap view = emitted.filterMap see ∧
        rel shared' (Function.update pcs pid pc) shadow')
    (interrupt : ∀ {shared pcs shadow pid}, rel shared pcs shadow →
      program.asleep (pcs pid) = true →
      rel shared (Function.update pcs pid program.interrupted) shadow) :
    program.machine.Simulates allowed abstract permitted see view
      (fun system shadow => rel system.shared system.pcs shadow) where
  initial := initial
  step := by
    intro system action after emitted shadow related _ taken
    cases next_effect taken with
    | exec pid alive stepped moved => simpa only [moved] using exec related stepped
    | interrupt pid asleep shared silent moved =>
      refine ⟨[], [], shadow, .start, by simp [silent], ?_⟩
      simpa only [shared, moved] using interrupt related asleep
    | handled pid awake shared silent moved =>
      exact ⟨[], [], shadow, .start, by simp [silent], by simpa only [shared, moved] using related⟩
    | killed pid shared silent moved =>
      exact ⟨[], [], shadow, .start, by simp [silent], by simpa only [shared, moved] using related⟩

/-- A system that no signal has reached. -/
def quiet (shared : Shared) (pcs : Pid → Pc) : System Pid Shared Pc :=
  ⟨shared, fun pid => ⟨pcs pid, true, true⟩⟩

theorem next_quiet {shared shared' : Shared} {pcs : Pid → Pc} {pc : Pc} {emitted : List Event}
    (stepped : program.step pid shared true (pcs pid) = some (shared', pc, emitted)) :
    program.next (quiet shared pcs) (.exec pid) =
      some (quiet shared' (Function.update pcs pid pc), emitted) := by
  rw [next_exec rfl stepped]
  refine congrArg (fun system => some (system, emitted)) ?_
  simp only [System.set, quiet, System.mk.injEq, true_and]
  funext other
  by_cases same : other = pid
  · subst same
    simp
  · simp [same]

theorem quiet_step {shared : Shared} {pcs : Pid → Pc}
    (permitted : noSignal (quiet shared pcs) action)
    (taken : program.next (quiet shared pcs) action = some (after, emitted)) :
    ∃ pid shared' pc, program.step pid shared true (pcs pid) = some (shared', pc, emitted) ∧
      after = quiet shared' (Function.update pcs pid pc) := by
  cases action with
  | sigint pid => exact absurd permitted id
  | alarm pid => exact absurd permitted id
  | exec pid =>
    cases stepped : program.step pid shared true (pcs pid) with
    | none => simp [next, quiet, stepped] at taken
    | some result =>
      obtain ⟨shared', pc, shown⟩ := result
      rw [next_quiet stepped] at taken
      obtain ⟨rfl, rfl⟩ := Prod.mk.inj (Option.some.inj taken)
      exact ⟨pid, shared', pc, stepped, rfl⟩

/-- One step of a quiet system as a path. -/
theorem quiet_path {shared shared' : Shared} {pcs : Pid → Pc} {pc : Pc} {emitted : List Event}
    (stepped : program.step pid shared true (pcs pid) = some (shared', pc, emitted)) :
    program.machine.Path noSignal (quiet shared pcs) [.exec pid] emitted
      (quiet shared' (Function.update pcs pid pc)) :=
  .single trivial (next_quiet stepped)

/-- Two steps in a row of one process. -/
theorem quiet_path_two {shared middle after : Shared} {pcs : Pid → Pc} {between pc : Pc}
    {shown emitted : List Event}
    (first : program.step pid shared true (pcs pid) = some (middle, between, shown))
    (second : program.step pid middle true between = some (after, pc, emitted)) :
    program.machine.Path noSignal (quiet shared pcs) [.exec pid, .exec pid] (shown ++ emitted)
      (quiet after (Function.update pcs pid pc)) := by
  rw [← Function.update_self pid between pcs] at second
  have path := (quiet_path first).append (quiet_path second)
  rwa [Function.update_idem] at path

/-- Without signals, one program simulates another as soon as its steps answer
those of the other from related shared memories and program points. -/
theorem simulates_quiet {Shared' : Type u'} {Pc' : Type v'} {Event' : Type w'} {Seen : Type x'}
    {program' : Program Pid Shared' Pc' Event'} {see : Event → Option Seen}
    {view : Event' → Option Seen} (rel : Shared → (Pid → Pc) → Shared' → (Pid → Pc') → Prop)
    (initial : rel program.shared (fun _ => program.entry) program'.shared
      (fun _ => program'.entry))
    (answer : ∀ {shared pcs shared' pcs' pid after pc emitted}, rel shared pcs shared' pcs' →
      program.step pid shared true (pcs pid) = some (after, pc, emitted) →
      ∃ moves shown after' pcs'', program'.machine.Path noSignal (quiet shared' pcs') moves shown
          (quiet after' pcs'') ∧
        shown.filterMap view = emitted.filterMap see ∧
        rel after (Function.update pcs pid pc) after' pcs'') :
    program.machine.Simulates noSignal program'.machine noSignal see view
      (fun system system' => ∃ shared pcs shared' pcs', system = quiet shared pcs ∧
        system' = quiet shared' pcs' ∧ rel shared pcs shared' pcs') where
  initial := ⟨_, _, _, _, rfl, rfl, initial⟩
  step := by
    rintro _ action after emitted _ ⟨shared, pcs, shared', pcs', rfl, rfl, related⟩ permitted taken
    obtain ⟨pid, shared₁, pc, stepped, rfl⟩ := quiet_step permitted taken
    obtain ⟨moves, shown, shared₂, pcs₂, path, same, related'⟩ := answer related stepped
    exact ⟨moves, shown, _, path, same, _, _, _, _, rfl, rfl, related'⟩

end Program

end OsLabs
