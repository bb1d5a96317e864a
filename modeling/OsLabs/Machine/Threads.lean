import OsLabs.Machine.Simulation
import Mathlib.Logic.Function.Basic

/-! Threads that take turns on shared memory, one step of one thread at a time. -/

namespace OsLabs

universe u v w x u' v' w' x'

/-- `step` is the next step of one thread; it is `none` while the thread is
blocked or once it has ended. -/
structure Threads (Tid : Type u) (Shared : Type v) (Pc : Type w) (Event : Type x) where
  shared : Shared
  entry : Pc
  step : Tid → Shared → Pc → Option (Shared × Pc × List Event)

namespace Threads

structure State (Tid : Type u) (Shared : Type v) (Pc : Type w) where
  shared : Shared
  pcs : Tid → Pc

variable {Tid : Type u} {Shared : Type v} {Pc : Type w} {Event : Type x} [DecidableEq Tid]

def next (threads : Threads Tid Shared Pc Event) (state : State Tid Shared Pc) (tid : Tid) :
    Option (State Tid Shared Pc × List Event) :=
  (threads.step tid state.shared (state.pcs tid)).map fun (shared, pc, emitted) =>
    (⟨shared, Function.update state.pcs tid pc⟩, emitted)

/-- All threads start at the entry; one that has not been created yet is one that
has not been scheduled yet. -/
def machine (threads : Threads Tid Shared Pc Event) : Machine (State Tid Shared Pc) Tid Event where
  init := ⟨threads.shared, fun _ => threads.entry⟩
  next := threads.next

variable {threads : Threads Tid Shared Pc Event} {state : State Tid Shared Pc}

theorem next_cases (taken : threads.machine.next state tid = some (after, emitted)) :
    ∃ shared pc, threads.step tid state.shared (state.pcs tid) = some (shared, pc, emitted) ∧
      after = ⟨shared, Function.update state.pcs tid pc⟩ := by
  obtain ⟨⟨shared, pc, shown⟩, stepped, same⟩ := Option.map_eq_some_iff.mp taken
  obtain ⟨rfl, rfl⟩ := Prod.mk.inj same
  exact ⟨shared, pc, stepped, rfl⟩

theorem next_step {shared : Shared} {pc : Pc} {emitted : List Event}
    (stepped : threads.step tid state.shared (state.pcs tid) = some (shared, pc, emitted)) :
    threads.machine.next state tid =
      some (⟨shared, Function.update state.pcs tid pc⟩, emitted) := by
  change threads.next state tid = _
  simp [next, stepped]

/-- The same step when the other program points are kept apart. -/
theorem next_update {shared shared' : Shared} {pcs : Tid → Pc} {pc pc' : Pc} {emitted : List Event}
    (stepped : threads.step tid shared pc = some (shared', pc', emitted)) :
    threads.machine.next ⟨shared, Function.update pcs tid pc⟩ tid =
      some (⟨shared', Function.update pcs tid pc'⟩, emitted) := by
  have here : threads.step tid shared (Function.update pcs tid pc tid) =
      some (shared', pc', emitted) := by rwa [Function.update_self]
  rw [next_step here, Function.update_idem]

/-- A flag that a step leaves as it was for its own thread stays so for all. -/
theorem update_flag {pcs : Tid → Pc} (flag : Pc → Bool) (same : flag pc = flag (pcs tid))
    (other : Tid) : flag (Function.update pcs tid pc other) = flag (pcs other) := by
  by_cases equal : other = tid
  · subst equal
    rwa [Function.update_self]
  · rw [Function.update_of_ne equal]

variable {allowed : State Tid Shared Pc → Tid → Prop}

/-- The induction rule for an invariant of the shared memory and the program
points. -/
theorem invariant (Holds : List Event → Shared → (Tid → Pc) → Prop)
    (initial : Holds [] threads.shared (fun _ => threads.entry))
    (preserved : ∀ {events shared pcs tid shared' pc emitted}, Holds events shared pcs →
      allowed ⟨shared, pcs⟩ tid → threads.step tid shared (pcs tid) = some (shared', pc, emitted) →
      Holds (events ++ emitted) shared' (Function.update pcs tid pc))
    (run : threads.machine.Run allowed actions events state) :
    Holds events state.shared state.pcs := by
  refine run.invariant (fun events state => Holds events state.shared state.pcs) initial ?_
  intro events state tid after emitted holds permitted taken
  obtain ⟨shared, pc, stepped, rfl⟩ := next_cases taken
  exact preserved holds permitted stepped

/-- The rule for a simulation by an abstract machine. -/
theorem simulates {Shadow : Type u'} {Move : Type v'} {Shown : Type w'} {Seen : Type x'}
    {abstract : Machine Shadow Move Shown} {permitted : Shadow → Move → Prop}
    {see : Event → Option Seen} {view : Shown → Option Seen}
    (rel : Shared → (Tid → Pc) → Shadow → Prop)
    (initial : rel threads.shared (fun _ => threads.entry) abstract.init)
    (answer : ∀ {shared pcs shadow tid shared' pc emitted}, rel shared pcs shadow →
      allowed ⟨shared, pcs⟩ tid → threads.step tid shared (pcs tid) = some (shared', pc, emitted) →
      ∃ moves shown shadow', abstract.Path permitted shadow moves shown shadow' ∧
        shown.filterMap view = emitted.filterMap see ∧
        rel shared' (Function.update pcs tid pc) shadow') :
    threads.machine.Simulates allowed abstract permitted see view
      (fun state shadow => rel state.shared state.pcs shadow) where
  initial := initial
  step := by
    intro state tid after emitted shadow related permitted taken
    obtain ⟨shared, pc, stepped, rfl⟩ := next_cases taken
    exact answer related permitted stepped

/-- One thread goes from one point to another while the others stand still. -/
def Solo (threads : Threads Tid Shared Pc Event) (allowed : State Tid Shared Pc → Tid → Prop)
    (tid : Tid) (pcs : Tid → Pc) (shared : Shared) (pc : Pc) (events : List Event)
    (shared' : Shared) (pc' : Pc) : Prop :=
  ∃ count, threads.machine.Path allowed ⟨shared, Function.update pcs tid pc⟩
    (List.replicate count tid) events ⟨shared', Function.update pcs tid pc'⟩

variable {tid : Tid} {pcs : Tid → Pc} {shared shared' shared'' : Shared} {pc pc' pc'' : Pc}

theorem Solo.refl : Solo threads allowed tid pcs shared pc [] shared pc :=
  ⟨0, .start⟩

theorem Solo.trans (first : Solo threads allowed tid pcs shared pc events shared' pc')
    (second : Solo threads allowed tid pcs shared' pc' shown shared'' pc'') :
    Solo threads allowed tid pcs shared pc (events ++ shown) shared'' pc'' := by
  obtain ⟨count, path⟩ := first
  obtain ⟨more, rest⟩ := second
  refine ⟨count + more, ?_⟩
  rw [List.replicate_add]
  exact path.append rest

theorem Solo.single (permitted : allowed ⟨shared, Function.update pcs tid pc⟩ tid)
    (stepped : threads.step tid shared pc = some (shared', pc', events)) :
    Solo threads allowed tid pcs shared pc events shared' pc' :=
  ⟨1, .single permitted (next_update stepped)⟩

/-- A thread that goes alone from where it stands. -/
theorem Solo.path (solo : Solo threads allowed tid pcs shared pc events shared' pc')
    (here : pcs tid = pc) : ∃ actions, threads.machine.Path allowed ⟨shared, pcs⟩ actions events
      ⟨shared', Function.update pcs tid pc'⟩ := by
  obtain ⟨count, path⟩ := solo
  rw [← here, Function.update_eq_self] at path
  exact ⟨_, path⟩

/-- A restriction that a thread alone always meets does not restrict it. -/
theorem Solo.strengthen {stricter : State Tid Shared Pc → Tid → Prop}
    (solo : Solo threads allowed tid pcs shared pc events shared' pc')
    (met : ∀ shared pc, allowed ⟨shared, Function.update pcs tid pc⟩ tid →
      stricter ⟨shared, Function.update pcs tid pc⟩ tid) :
    Solo threads stricter tid pcs shared pc events shared' pc' := by
  obtain ⟨count, path⟩ := solo
  refine ⟨count, ?_⟩
  suffices strong : ∀ (count : Nat) (events : List Event) (state : State Tid Shared Pc),
      threads.machine.Path allowed ⟨shared, Function.update pcs tid pc⟩ (List.replicate count tid)
        events state →
      threads.machine.Path stricter ⟨shared, Function.update pcs tid pc⟩
        (List.replicate count tid) events state ∧
      ∃ shared' pc', state = ⟨shared', Function.update pcs tid pc'⟩ from
    (strong count events _ path).1
  intro count
  induction count with
  | zero =>
    intro events state path
    have nothing : threads.machine.Path allowed ⟨shared, Function.update pcs tid pc⟩ [] []
      ⟨shared, Function.update pcs tid pc⟩ := .start
    obtain ⟨rfl, rfl⟩ := path.unique nothing
    exact ⟨.start, shared, pc, rfl⟩
  | succ count ih =>
    intro events state path
    rw [List.replicate_succ'] at path ⊢
    obtain ⟨seen, middle, emitted, rfl, before, permitted, taken⟩ := path.finalStep
    obtain ⟨strict, shared', pc', rfl⟩ := ih seen middle before
    obtain ⟨after, pc'', _, rfl⟩ := next_cases taken
    exact ⟨strict.step (met shared' pc' permitted) taken, after, pc'', by rw [Function.update_idem]⟩

end Threads

end OsLabs
