import Mathlib.Data.List.Infix

/-! Machines whose steps are picked by a scheduler, and their finite runs. A
program model instantiates `Machine`; a law about every interleaving is a
statement about every run. -/

namespace OsLabs

universe u v w x

/-- `next state action` is `none` when the action is not enabled. The list
holds the events which the step makes visible. -/
structure Machine (State : Type u) (Action : Type v) (Event : Type w) where
  init : State
  next : State → Action → Option (State × List Event)

namespace Machine

variable {State : Type u} {Action : Type v} {Event : Type w}

/-- Finite executions from one state, every step of which is allowed in the
state before it. -/
inductive Path (machine : Machine State Action Event) (allowed : State → Action → Prop)
    (origin : State) : List Action → List Event → State → Prop where
  | start : Path machine allowed origin [] [] origin
  | step (path : Path machine allowed origin actions events state)
      (permitted : allowed state action)
      (taken : machine.next state action = some (after, emitted)) :
      Path machine allowed origin (actions ++ [action]) (events ++ emitted) after

/-- A path from the initial state. -/
abbrev Run (machine : Machine State Action Event) (allowed : State → Action → Prop) :
    List Action → List Event → State → Prop :=
  machine.Path allowed machine.init

/-- No restriction on the schedule. -/
def anything : State → Action → Prop := fun _ _ => True

variable {machine : Machine State Action Event} {allowed stricter : State → Action → Prop}

theorem Path.single (permitted : allowed state action)
    (taken : machine.next state action = some (after, emitted)) :
    machine.Path allowed state [action] emitted after := by
  simpa using Path.step .start permitted taken

theorem Path.append (first : machine.Path allowed origin actions events middle)
    (second : machine.Path allowed middle moves shown final) :
    machine.Path allowed origin (actions ++ moves) (events ++ shown) final := by
  induction second with
  | start => simpa using first
  | step path permitted taken ih =>
    rw [← List.append_assoc, ← List.append_assoc]
    exact ih.step permitted taken

theorem Path.cons (permitted : allowed origin action)
    (taken : machine.next origin action = some (middle, emitted))
    (rest : machine.Path allowed middle actions events final) :
    machine.Path allowed origin (action :: actions) (emitted ++ events) final :=
  (Path.single permitted taken).append rest

theorem Path.weaken (path : machine.Path stricter origin actions events final)
    (weaker : ∀ state action, stricter state action → allowed state action) :
    machine.Path allowed origin actions events final := by
  induction path with
  | start => exact .start
  | step path permitted taken ih => exact ih.step (weaker _ _ permitted) taken

/-- The induction behind every safety law: what the start satisfies and every
allowed step preserves holds at the end of every path. -/
theorem Path.invariant (Holds : List Event → State → Prop)
    (path : machine.Path allowed origin actions events final)
    (initial : Holds [] origin)
    (preserved : ∀ events state action after emitted, Holds events state →
      allowed state action → machine.next state action = some (after, emitted) →
      Holds (events ++ emitted) after) :
    Holds events final := by
  induction path with
  | start => exact initial
  | step path permitted taken ih => exact preserved _ _ _ _ _ ih permitted taken

/-- What can always be brought nearer to the end can be brought there. -/
theorem Path.reaches {Holds Done : State → Prop} {rank : State → Nat}
    (advance : ∀ state, Holds state → ¬ Done state → ∃ action after emitted,
      allowed state action ∧ machine.next state action = some (after, emitted) ∧ Holds after ∧
      rank after < rank state)
    (holds : Holds origin) : ∃ moves shown final, moves.length ≤ rank origin ∧
      machine.Path allowed origin moves shown final ∧ Holds final ∧ Done final := by
  induction left : rank origin using Nat.strong_induction_on generalizing origin with
  | h bound ih =>
    by_cases done : Done origin
    · exact ⟨[], [], origin, Nat.zero_le _, .start, holds, done⟩
    · obtain ⟨action, after, emitted, permitted, taken, kept, nearer⟩ := advance origin holds done
      obtain ⟨moves, shown, final, few, path, held, ended⟩ :=
        ih (rank after) (left ▸ nearer) kept rfl
      have more : (action :: moves).length ≤ bound := by
        rw [List.length_cons]
        omega
      exact ⟨action :: moves, _, final, more, .cons permitted taken path, held, ended⟩

/-- Cut a path after any prefix of its schedule. -/
theorem Path.split (path : machine.Path allowed origin actions events final)
    (parts : actions = front ++ back) :
    ∃ seen middle shown, events = seen ++ shown ∧
      machine.Path allowed origin front seen middle ∧
      machine.Path allowed middle back shown final := by
  induction path generalizing back with
  | start =>
    obtain ⟨rfl, rfl⟩ := List.nil_eq_append_iff.mp parts
    exact ⟨[], origin, [], rfl, .start, .start⟩
  | @step actions events state action after emitted path permitted taken ih =>
    rcases List.eq_nil_or_concat back with rfl | ⟨init, last, rfl⟩
    · rw [List.append_nil] at parts
      subst parts
      exact ⟨_, after, [], by simp, path.step permitted taken, .start⟩
    · rw [List.concat_eq_append, ← List.append_assoc] at parts
      obtain ⟨same, sameLast⟩ := List.append_inj' parts rfl
      cases sameLast
      obtain ⟨seen, middle, shown, joined, before, behind⟩ := ih same
      exact ⟨seen, middle, shown ++ emitted, by rw [joined, List.append_assoc], before,
        by simpa using behind.step permitted taken⟩

/-- The last step of a path. -/
theorem Path.finalStep (path : machine.Path allowed origin (front ++ [action]) events final) :
    ∃ seen state emitted, events = seen ++ emitted ∧
      machine.Path allowed origin front seen state ∧ allowed state action ∧
      machine.next state action = some (final, emitted) := by
  generalize parts : front ++ [action] = actions at path
  cases path with
  | start => simp at parts
  | step path permitted taken =>
    obtain ⟨rfl, same⟩ := List.append_inj' parts rfl
    cases same
    exact ⟨_, _, _, rfl, path, permitted, taken⟩

/-- Every event of a path was emitted by one of its steps, after exactly the
events that precede it. -/
theorem Path.emission (path : machine.Path allowed origin actions events final)
    (place : events = before ++ event :: behind) :
    ∃ past seen state action after emitted early late rest,
      machine.Path allowed origin past seen state ∧ allowed state action ∧
      machine.next state action = some (after, emitted) ∧
      emitted = early ++ event :: late ∧ before = seen ++ early ∧
      actions = past ++ action :: rest := by
  induction path generalizing behind with
  | start => simp at place
  | @step actions events state action after emitted path permitted taken ih =>
    rcases List.append_eq_append_iff.mp place with ⟨early, seen, rest⟩ | ⟨late, seen, rest⟩
    · exact ⟨actions, events, state, action, after, emitted, early, behind, [], path, permitted,
        taken, rest, seen, rfl⟩
    · cases late with
      | nil =>
        refine ⟨actions, events, state, action, after, emitted, [], behind, [], path, permitted,
          taken, ?_, ?_, rfl⟩
        · simpa using rest.symm
        · simpa using seen.symm
      | cons head late =>
        obtain ⟨rfl, _⟩ := List.cons_eq_cons.mp (by simpa using rest)
        obtain ⟨past, seen, state', action', after', emitted', early, late, rest, run, allowed,
          taken', shown, before, parts⟩ := ih seen
        exact ⟨past, seen, state', action', after', emitted', early, late, rest ++ [action], run,
          allowed, taken', shown, before, by simp [parts]⟩

/-- When no other event is emitted along with it, the step comes right after the
events that precede it. -/
theorem Path.soleEmission (path : machine.Path allowed origin actions events final)
    (place : events = before ++ event :: behind)
    (sole : ∀ state action after emitted, machine.next state action = some (after, emitted) →
      event ∈ emitted → emitted = [event]) :
    ∃ past state action after, machine.Path allowed origin past before state ∧
      machine.next state action = some (after, [event]) := by
  obtain ⟨past, seen, state, action, after, emitted, early, late, rest, path, _, taken, shown,
    rfl, _⟩ := path.emission place
  obtain rfl : emitted = [event] := sole state action after emitted taken (by simp [shown])
  have first : early = [] := by
    cases early with
    | nil => rfl
    | cons head tail => simp at shown
  rw [first, List.append_nil]
  exact ⟨past, state, action, after, path, taken⟩

/-- A schedule that is executed rather than proved about. -/
def exec (machine : Machine State Action Event) :
    State → List Action → Option (State × List Event)
  | state, [] => some (state, [])
  | state, action :: actions => do
    let (middle, emitted) ← machine.next state action
    let (final, events) ← machine.exec middle actions
    return (final, emitted ++ events)

/-- Executing a schedule whose actions are allowed in every state gives a path. -/
theorem Path.ofExec (actions : List Action)
    (permitted : ∀ action ∈ actions, ∀ state, allowed state action)
    (executed : machine.exec origin actions = some (final, events)) :
    machine.Path allowed origin actions events final := by
  induction actions generalizing origin events with
  | nil =>
    obtain ⟨rfl, rfl⟩ : origin = final ∧ [] = events := by simpa [exec] using executed
    exact .start
  | cons action actions ih =>
    cases taken : machine.next origin action with
    | none => simp [exec, taken] at executed
    | some result =>
      obtain ⟨middle, emitted⟩ := result
      cases rest : machine.exec middle actions with
      | none => simp [exec, taken, rest] at executed
      | some outcome =>
        obtain ⟨last, shown⟩ := outcome
        obtain ⟨rfl, rfl⟩ : last = final ∧ emitted ++ shown = events := by
          simpa [exec, taken, rest] using executed
        exact .cons (permitted action (by simp) origin) taken
          (ih (fun other member => permitted other (by simp [member])) rest)

/-- The same, when only a view of the outcome is computed. -/
theorem Path.ofView {View : Type x} {seen : View} (view : State → List Event → View)
    (actions : List Action)
    (permitted : ∀ action ∈ actions, ∀ state, allowed state action)
    (executed : (machine.exec origin actions).map (fun outcome => view outcome.1 outcome.2) =
      some seen) :
    ∃ events final, machine.Path allowed origin actions events final ∧
      view final events = seen := by
  obtain ⟨⟨final, events⟩, result, same⟩ := Option.map_eq_some_iff.mp executed
  exact ⟨events, final, .ofExec actions permitted result, same⟩

/-- A machine that refuses the actions which fail a test. -/
def restrict (machine : Machine State Action Event) (test : State → Action → Bool) :
    Machine State Action Event where
  init := machine.init
  next state action := if test state action then machine.next state action else none

/-- A run of it is a run in which every action has passed the test. -/
theorem Path.ofRestrict {test : State → Action → Bool}
    (path : (machine.restrict test).Path stricter origin actions events final)
    (sound : ∀ state action, test state action = true → allowed state action) :
    machine.Path allowed origin actions events final := by
  induction path with
  | start => exact .start
  | @step _ _ state action _ _ _ _ taken ih =>
    cases tested : test state action with
    | false => simp [restrict, tested] at taken
    | true => exact ih.step (sound state action tested) (by simpa [restrict, tested] using taken)

/-- A path and a continuation of it that are executed, with a view of the end of each. -/
theorem Path.ofViews {View View' : Type x} {seen : View} {seen' : View'}
    [∀ state action, Decidable (stricter state action)] (view : State → View)
    (view' : State → View') (actions later : List Action)
    (permitted : ∀ action ∈ actions, ∀ state, allowed state action)
    (executed : ((machine.exec origin actions).bind fun middle =>
      ((machine.restrict fun state action => decide (stricter state action)).exec middle.1
        later).map fun final => (view middle.1, view' final.1)) = some (seen, seen')) :
    ∃ events state told after, machine.Path allowed origin actions events state ∧
      machine.Path stricter state later told after ∧ view state = seen ∧ view' after = seen' := by
  obtain ⟨⟨state, events⟩, begun, executed⟩ := Option.bind_eq_some_iff.mp executed
  obtain ⟨⟨after, told⟩, continued, same⟩ := Option.map_eq_some_iff.mp executed
  obtain ⟨rfl, rfl⟩ := Prod.mk.inj same
  have path : (machine.restrict fun state action => decide (stricter state action)).Path anything
      state later told after := .ofExec later (fun _ _ _ => trivial) continued
  exact ⟨events, state, told, after, .ofExec actions permitted begun,
    path.ofRestrict fun _ _ => of_decide_eq_true, rfl, rfl⟩

theorem exec_snoc (executed : machine.exec origin actions = some (middle, events))
    (taken : machine.next middle action = some (after, emitted)) :
    machine.exec origin (actions ++ [action]) = some (after, events ++ emitted) := by
  induction actions generalizing origin events with
  | nil =>
    obtain ⟨rfl, rfl⟩ : origin = middle ∧ [] = events := by simpa [exec] using executed
    simp [exec, taken]
  | cons first rest ih =>
    simp only [exec, Option.bind_eq_bind, Option.bind_eq_some_iff] at executed
    obtain ⟨⟨next, shown⟩, stepped, ⟨⟨last, more⟩, followed, same⟩⟩ := executed
    obtain ⟨rfl, rfl⟩ : last = middle ∧ shown ++ more = events := by simpa using same
    simp [exec, stepped, ih followed]

/-- A machine is deterministic once its schedule is fixed. -/
theorem Path.executed (path : machine.Path allowed origin actions events final) :
    machine.exec origin actions = some (final, events) := by
  induction path with
  | start => rfl
  | step _ _ taken ih => exact exec_snoc ih taken

theorem Path.unique (first : machine.Path allowed origin actions events final)
    (second : machine.Path stricter origin actions shown last) :
    events = shown ∧ final = last := by
  have same := Option.some.inj (first.executed.symm.trans second.executed)
  exact ⟨(Prod.mk.inj same).2, (Prod.mk.inj same).1⟩

end Machine

end OsLabs
