import OsLabs.Machine.Run
import Mathlib.Data.Set.Basic

/-! Forward simulations between machines. A single step may be answered by any
number of steps, as long as what an observer sees of the two is the same. -/

namespace OsLabs.Machine

universe u v w u' v' w' x

variable {State : Type u} {Action : Type v} {Event : Type w}
variable {Shadow : Type u'} {Move : Type v'} {Shown : Type w'} {Seen : Type x}
variable {concrete : Machine State Action Event} {allowed : State → Action → Prop}
variable {abstract : Machine Shadow Move Shown} {permitted : Shadow → Move → Prop}
variable {see : Event → Option Seen} {view : Shown → Option Seen}
variable {rel : State → Shadow → Prop}

/-- `rel` relates the initial states, and every allowed step of `concrete` is
answered by a path of `abstract` that shows the observer the same. -/
structure Simulates (concrete : Machine State Action Event) (allowed : State → Action → Prop)
    (abstract : Machine Shadow Move Shown) (permitted : Shadow → Move → Prop)
    (see : Event → Option Seen) (view : Shown → Option Seen)
    (rel : State → Shadow → Prop) : Prop where
  initial : rel concrete.init abstract.init
  step : ∀ {state action after emitted shadow}, rel state shadow → allowed state action →
    concrete.next state action = some (after, emitted) →
    ∃ moves shown shadow', abstract.Path permitted shadow moves shown shadow' ∧
      shown.filterMap view = emitted.filterMap see ∧ rel after shadow'

theorem Simulates.run
    (simulation : Simulates concrete allowed abstract permitted see view rel)
    (run : concrete.Run allowed actions events state) :
    ∃ moves shown shadow, abstract.Run permitted moves shown shadow ∧
      shown.filterMap view = events.filterMap see ∧ rel state shadow := by
  induction run with
  | start => exact ⟨[], [], abstract.init, .start, rfl, simulation.initial⟩
  | step path permitted taken ih =>
    obtain ⟨moves, shown, shadow, followed, same, related⟩ := ih
    obtain ⟨more, extra, shadow', answer, sameStep, related'⟩ :=
      simulation.step related permitted taken
    exact ⟨moves ++ more, shown ++ extra, shadow', followed.append answer,
      by simp [same, sameStep], related'⟩

/-- What an observer can see of the finite runs. -/
def traces (machine : Machine State Action Event) (allowed : State → Action → Prop)
    (see : Event → Option Seen) : Set (List Seen) :=
  { trace | ∃ actions events state,
    machine.Run allowed actions events state ∧ events.filterMap see = trace }

theorem Simulates.traces_subset
    (simulation : Simulates concrete allowed abstract permitted see view rel) :
    concrete.traces allowed see ⊆ abstract.traces permitted view := by
  rintro trace ⟨actions, events, state, run, rfl⟩
  obtain ⟨moves, shown, shadow, followed, same, _⟩ := simulation.run run
  exact ⟨moves, shown, shadow, followed, same⟩

end OsLabs.Machine
