import Mathlib
import OsLabs.Machine.Run

/-! Processes that fork. What a process and its descendants are going to show is a
weight that a step divides up among the process, a new child and what it shows at once. -/

namespace OsLabs

universe u v w

/-- The step of a process, given how many have been created before it and how many there
are: where it goes on, and where its new child starts, if there is one. -/
structure Population (Pc : Type u) (Outcome : Type v) (Event : Type w) where
  entry : Pc
  step : Nat → Nat → Pc → Outcome → Option (Pc × Option Pc × List Event)

namespace Population

variable {Pc : Type u} {Outcome : Type v} {Event : Type w}

/-- The processes in the order in which they have been created. -/
def machine (population : Population Pc Outcome Event) :
    Machine (List Pc) (Nat × Outcome) Event where
  init := [population.entry]
  next state action :=
    state[action.1]?.bind fun pc =>
      (population.step action.1 state.length pc action.2).map
        fun (pc', child, emitted) => (state.set action.1 pc' ++ child.toList, emitted)

variable {population : Population Pc Outcome Event} {state after : List Pc}

theorem next_cases (taken : population.machine.next state action = some (after, emitted)) :
    ∃ pc pc' child, state[action.1]? = some pc ∧
      population.step action.1 state.length pc action.2 = some (pc', child, emitted) ∧
      after = state.set action.1 pc' ++ child.toList := by
  obtain ⟨pc, here, taken⟩ := Option.bind_eq_some_iff.mp taken
  obtain ⟨⟨pc', child, shown⟩, stepped, same⟩ := Option.map_eq_some_iff.mp taken
  obtain ⟨rfl, rfl⟩ := Prod.mk.inj same
  exact ⟨pc, pc', child, here, stepped, rfl⟩

/-- What all processes together are going to show. -/
def total (weight : Pc → Nat) (state : List Pc) : Nat := (state.map weight).sum

theorem total_append (weight : Pc → Nat) (front back : List Pc) :
    total weight (front ++ back) = total weight front + total weight back := by
  simp [total]

theorem total_set (weight : Pc → Nat) (here : state[i]? = some pc) (pc' : Pc) :
    total weight (state.set i pc') + weight pc = total weight state + weight pc' := by
  induction state generalizing i with
  | nil => cases here
  | cons first rest ih =>
    cases i with
    | zero =>
      obtain rfl : first = pc := by simpa using here
      simp only [total, List.set_cons_zero, List.map_cons, List.sum_cons]
      omega
    | succ i =>
      have behind := ih (by simpa using here)
      simp only [total, List.set_cons_succ, List.map_cons, List.sum_cons] at behind ⊢
      omega

theorem total_eq_zero (ended : ∀ pc ∈ state, weight pc = 0) : total weight state = 0 := by
  refine List.sum_eq_zero fun value member => ?_
  obtain ⟨pc, listed, rfl⟩ := List.mem_map.mp member
  exact ended pc listed

/-- What has been shown. -/
def worths (worth : Event → Nat) (events : List Event) : Nat := (events.map worth).sum

/-- What is worth one, counted. -/
theorem worths_toNat (counts : Event → Bool) (events : List Event) :
    worths (fun event => (counts event).toNat) events = events.countP counts := by
  induction events with
  | nil => rfl
  | cons event events ih =>
    simp only [worths, List.map_cons, List.sum_cons, List.countP_cons] at ih ⊢
    rw [ih]
    cases counts event <;> simp [Nat.add_comm]

theorem worths_congr {worth other : Event → Nat}
    (same : ∀ event ∈ events, worth event = other event) :
    worths worth events = worths other events := by
  rw [worths, List.map_congr_left same, worths]

theorem worths_le {worth other : Event → Nat}
    (less : ∀ event ∈ events, worth event ≤ other event) :
    worths worth events ≤ worths other events := List.sum_le_sum less

/-- If no step creates or loses weight, no run does. -/
theorem weight_kept {weight : Pc → Nat} {worth : Event → Nat}
    (divides : ∀ index count pc outcome pc' child emitted,
      population.step index count pc outcome = some (pc', child, emitted) →
      weight pc' + total weight child.toList + worths worth emitted = weight pc)
    (run : population.machine.Run allowed actions events state) :
    total weight state + worths worth events = weight population.entry := by
  refine run.invariant
    (fun events state => total weight state + worths worth events = weight population.entry) ?_ ?_
  · simp [machine, total, worths]
  · intro events state action after emitted holds _ taken
    obtain ⟨pc, pc', child, here, stepped, rfl⟩ := next_cases taken
    have divided := divides _ _ _ _ _ _ _ stepped
    have moved := total_set weight here pc'
    simp only [total_append, worths, List.map_append, List.sum_append] at holds divided ⊢
    omega

end Population

end OsLabs
