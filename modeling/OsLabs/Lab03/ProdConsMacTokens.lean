import OsLabs.Lab03.ProdConsMacInvariant

/-! Whether the interrupted processes of prod_cons_mac.c give their tokens back.
One that is blocked in the second `sem_wait` does not. -/

namespace OsLabs.Lab03.ProdConsMac

variable {Pid : Type} [Fintype Pid]

/-- Every token is on a semaphore or with a process that has not exited; once
all have exited, the semaphores account for the buffer. -/
structure Balanced (events : List (Event Pid)) (system : System Pid Shared Pc) : Prop where
  conserved : system.shared.sem .empty + system.shared.sem .full +
    holders (stages system.pcs) = ELEMENTS
  atRest : (∀ pid, (system.pcs pid).hasExited = true) →
    system.shared.sem .empty + system.shared.sem .full = ELEMENTS ∧
    (events.filterMap Event.load?).length + system.shared.sem .full =
      (events.filterMap Event.store?).length

/-- No SIGINT arrives at a process that is blocked in sem_wait(sem_binary). -/
def undisturbed (system : System Pid Shared Pc) : Action Pid → Prop
  | .sigint pid => system.pcs pid ≠ .waitBinary true
  | _ => True

variable {role : Pid → Role}

/-- With all tokens in the ledger the account is balanced. -/
theorem balanced_of_ledger
    (ledger : Ledger role (fun _ => 0) system.shared (stages system.pcs) channel)
    (stores : (events.filterMap Event.store?).length = channel.stored)
    (loads : (events.filterMap Event.load?).length = channel.loaded) :
    Balanced events system := by
  have conserved := ledger.tokens
  refine ⟨conserved, fun exited => ?_⟩
  have unheld : holders (stages system.pcs) = 0 := by
    apply tally_eq_zero.mpr
    intro pid
    change (system.pcs pid).stage.holding = false
    cases here : system.pcs pid with
    | exited _ => rfl
    | _ =>
      have gone := exited pid
      rw [here] at gone
      cases gone
  have items := ledger.items
  rw [claimed_eq_zero role unheld] at items
  change _ + _ + 0 + 0 = _ at items
  change _ + _ + _ + 0 = _ at conserved
  omega

variable [DecidableEq Pid]

/-- Runs in which nobody is disturbed keep every token in the ledger. -/
theorem ledger_of_undisturbed
    (run : (program role).machine.Run
      (fun system action => Program.noAlarm system action ∧ undisturbed system action)
      actions events system) :
    ∃ channel, Ledger role (fun _ => 0) system.shared (stages system.pcs) channel ∧
      Channel.History ELEMENTS slotStream (events.filterMap Event.traffic?) channel := by
  refine run.invariant (fun events system => ∃ channel,
    Ledger role (fun _ => 0) system.shared (stages system.pcs) channel ∧
      Channel.History ELEMENTS slotStream (events.filterMap Event.traffic?) channel)
    ⟨_, Ledger.initial role, .initial⟩ ?_
  rintro events system action after emitted ⟨channel, ledger, history⟩ ⟨_, kept⟩ taken
  cases Program.next_effect taken with
  | exec pid alive stepped moved =>
    obtain ⟨moves, channel', path, ledger'⟩ := ledger_step ledger stepped
    refine ⟨channel', by rwa [moved], ?_⟩
    rw [List.filterMap_append]
    exact history.path path
  | interrupt pid asleep shared silent moved =>
    refine ⟨channel, ?_, by rwa [silent, List.append_nil]⟩
    rw [shared, moved]
    cases here : system.pcs pid with
    | waitToken _ => exact ledger_interrupt_token ledger here
    | waitBinary sleeping =>
      have sleeps : sleeping = true := by simpa [program, here, Pc.asleep] using asleep
      exact absurd (here.trans (by rw [sleeps])) kept
    | head | inside _ | postBinary | postToken | exited _ =>
      simp [program, here, Pc.asleep] at asleep
  | handled pid awake shared silent moved =>
    exact ⟨channel, by rwa [shared, moved], by rwa [silent, List.append_nil]⟩
  | killed pid shared silent moved =>
    exact ⟨channel, by rwa [shared, moved], by rwa [silent, List.append_nil]⟩

theorem balanced_of_undisturbed
    (run : (program role).machine.Run
      (fun system action => Program.noAlarm system action ∧ undisturbed system action)
      actions events system) :
    Balanced events system := by
  obtain ⟨channel, ledger, history⟩ := ledger_of_undisturbed run
  apply balanced_of_ledger ledger
  · have stores := congrArg List.length history.stores
    rw [storedItem?_traffic?] at stores
    simpa using stores
  · have loads := congrArg List.length history.loads
    rw [loadedItem?_traffic?] at loads
    simpa using loads

/-- A signal that ends a wait on sem_binary takes a token out of the account. -/
theorem disturbed_unbalanced (before : Balanced events system)
    (disturbed : ¬ undisturbed system action)
    (taken : (program role).next system action = some (after, emitted)) :
    ¬ Balanced (events ++ emitted) after := by
  intro balanced
  cases Program.next_effect taken with
  | exec pid => exact disturbed trivial
  | killed pid => exact disturbed trivial
  | handled pid awake =>
    have here : system.pcs pid = .waitBinary true := not_not.mp disturbed
    rw [here] at awake
    cases awake
  | interrupt pid asleep shared silent moved =>
    have here : system.pcs pid = .waitBinary true := not_not.mp disturbed
    have held : holders (stages after.pcs) + 1 = holders (stages system.pcs) := by
      rw [moved, stages_update]
      have lost : holders (Function.update (stages system.pcs) pid Stage.idle) +
          (stages system.pcs pid).holding.toNat =
        holders (stages system.pcs) + Stage.idle.holding.toNat := tally_update ..
      have stage : stages system.pcs pid = .reserved := congrArg Pc.stage here
      rw [stage] at lost
      exact lost
    have sum := before.conserved
    have sum' := balanced.conserved
    rw [shared] at sum'
    omega

/-- The tokens stay balanced all along a run exactly when no SIGINT arrives at a
process that is blocked in sem_wait(sem_binary). -/
theorem balanced_iff_undisturbed
    (run : (program role).machine.Run Program.noAlarm actions events system) :
    (∀ front seen middle, front <+: actions →
      (program role).machine.Run Program.noAlarm front seen middle → Balanced seen middle) ↔
    (program role).machine.Run
      (fun system action => Program.noAlarm system action ∧ undisturbed system action)
      actions events system := by
  constructor
  · intro balanced
    induction run with
    | start => exact .start
    | @step actions events system action after emitted path permitted taken ih =>
      have front : actions <+: actions ++ [action] := List.prefix_append ..
      have undisturbed : undisturbed system action := by
        by_contra disturbed
        exact disturbed_unbalanced (balanced _ _ _ front path) disturbed taken
          (balanced _ _ _ List.prefix_rfl (path.step permitted taken))
      refine (ih fun earlier seen middle before => ?_).step ⟨permitted, undisturbed⟩ taken
      exact balanced earlier seen middle (before.trans front)
  · rintro quiet front seen middle ⟨back, whole⟩ early
    obtain ⟨seen', middle', _, _, earlyQuiet, _⟩ := quiet.split whole.symm
    obtain ⟨rfl, rfl⟩ := early.unique earlyQuiet
    exact balanced_of_undisturbed earlyQuiet

/-- The consumer blocks in sem_wait(sem_full) and is interrupted there. -/
def interruptedEarly : List (Action Bool) := [.exec false, .exec false, .sigint false]

theorem balanced_iff_undisturbed_early : ∃ events system,
    (program pair).machine.Run Program.noAlarm interruptedEarly events system ∧
    system.pcs false = .exited 1 ∧ Balanced events system := by
  obtain ⟨events, system, quiet, exited⟩ : ∃ events system, (program pair).machine.Run
      (fun system action => Program.noAlarm system action ∧ undisturbed system action)
      interruptedEarly events system ∧ system.pcs false = .exited 1 :=
    ⟨_, _, ((Machine.Path.start.step ⟨trivial, trivial⟩ rfl).step ⟨trivial, trivial⟩ rfl).step
      ⟨trivial, Pc.noConfusion⟩ rfl, rfl⟩
  have run := quiet.weaken (fun _ _ => And.left)
  exact ⟨events, system, run, exited,
    (balanced_iff_undisturbed run).mpr quiet _ _ _ List.prefix_rfl run⟩

/-- The producer stores its first letter and enters its next section; the
consumer takes the token of that letter, blocks in sem_wait(sem_binary) and is
interrupted there. The producer then ends its section and exits. -/
def interruptedLate : List (Action Bool) :=
  List.replicate 17 (.exec true) ++ List.replicate 3 (.exec false) ++
    [.sigint false, .sigint true] ++ List.replicate 12 (.exec true)

/-- One token is gone for good, and one letter stays that sem_full does not count. -/
theorem interrupted_unbalanced : ∃ events system,
    (program pair).machine.Run Program.noAlarm interruptedLate events system ∧
    (∀ pid, (system.pcs pid).hasExited = true) ∧
    system.shared.sem .empty + system.shared.sem .full + 1 = ELEMENTS ∧
    (events.filterMap Event.load?).length + system.shared.sem .full + 1 =
      (events.filterMap Event.store?).length ∧
    ¬ Balanced events system := by
  let view (system : System Bool Shared Pc) (events : List (Event Bool)) :=
    (system.pcs true, system.pcs false, system.shared.sem .empty, system.shared.sem .full,
      (events.filterMap Event.load?).length, (events.filterMap Event.store?).length)
  obtain ⟨events, system, run, seen⟩ : ∃ events system,
      (program pair).machine.Run Program.noAlarm interruptedLate events system ∧
      view system events = (.exited 0, .exited 1, 30, 1, 0, 2) :=
    Machine.Path.ofView view interruptedLate (by simp [interruptedLate, Program.noAlarm]) rfl
  simp only [view, Prod.mk.injEq] at seen
  obtain ⟨producer, consumer, empty, full, loads, stores⟩ := seen
  have exited : ∀ pid, (system.pcs pid).hasExited = true := by
    intro pid
    cases pid
    · rw [consumer]
      rfl
    · rw [producer]
      rfl
  refine ⟨events, system, run, exited, by rw [empty, full]; rfl, by omega, ?_⟩
  intro balanced
  have rest := (balanced.atRest exited).2
  omega

end OsLabs.Lab03.ProdConsMac
