import OsLabs.Lab03.ProdConsInvariant
import Mathlib.Data.Nat.ModEq

/-! What prod_cons.c guarantees: the letters arrive in order, and the
semaphores account for every token, so that the children cannot all block. -/

namespace OsLabs.Lab03.ProdCons

variable {Pid : Type} [Fintype Pid] {role : Pid → Role}

/-- A child in its section always has a step that does not put it to sleep. -/
theorem Consistent.critical_moves (consistent : Consistent role shared pcs channel)
    (critical : (pcs pid).stage.critical = true) (flag : Bool) :
    ∃ shared' pc emitted, ProdCons.step role pid shared flag (pcs pid) =
      some (shared', pc, emitted) ∧ pc.asleep = false := by
  cases here : pcs pid with
  | inside point => exact ⟨_, _, _, rfl, awake_after_section _⟩
  | leaving asleep =>
    exact ⟨_, _, _, step_leave (consistent.sem_lt _) (consistent.sem_lt _) .., rfl⟩
  | head | entering _ | exited _ =>
    rw [here] at critical
    cases critical

/-- When nobody is in a section, a child that has not exited moves on as soon
as the token of its role is there. -/
theorem Consistent.idle_moves (consistent : Consistent role shared pcs channel)
    (nobody : criticals (stages pcs) = 0) (token : shared.sem (role pid).takes ≠ 0)
    (unfinished : (pcs pid).hasExited = false) (flag : Bool) :
    ∃ shared' pc emitted, ProdCons.step role pid shared flag (pcs pid) =
      some (shared', pc, emitted) ∧ pc.asleep = false := by
  have mutex := consistent.ledger.mutex
  have outside : (pcs pid).stage.critical = false := tally_eq_zero.mp nobody pid
  cases here : pcs pid with
  | head =>
    refine ⟨_, _, _, rfl, ?_⟩
    cases flag <;> rfl
  | entering asleep =>
    exact ⟨_, _, _, step_enter token (by omega) .., rfl⟩
  | inside _ | leaving _ =>
    rw [here] at outside
    cases outside
  | exited status => simp [here, Pc.hasExited] at unfinished

variable [DecidableEq Pid]

/-- Where a run of the program leaves the channel, and what has passed it. -/
theorem run_channel {allowed : System Pid Shared Pc → Action Pid → Prop}
    (run : (program role).machine.Run allowed actions events system) :
    ∃ channel, Consistent role system.shared system.pcs channel ∧
      Channel.History ELEMENTS slotStream (events.filterMap Event.traffic?) channel := by
  obtain ⟨moves, shown, channel, followed, same, consistent⟩ :=
    (refines_channel role allowed).run run
  rw [List.filterMap_some] at same
  subst same
  exact ⟨channel, consistent, Channel.History.ofRun followed⟩

/-- The bounded buffer delivers every letter once, in order and unharmed. The
accesses are the pairs of offset and value of the slot loads and stores. -/
theorem buffer_delivers
    (run : (program role).machine.Run Machine.anything actions events system) :
    let stores := events.filterMap Event.store?
    let loads := events.filterMap Event.load?
    (∀ (number place : Nat) (value : UInt8), loads[number]? = some (place, value) →
      value = 'a'.toUInt8 + UInt8.ofNat (number % 26) ∧ stores[number]? = some (place, value)) ∧
    loads.length ≤ stores.length ∧ stores.length ≤ loads.length + ELEMENTS ∧
    (∀ access ∈ stores ++ loads, access.1 < ELEMENTS) ∧
    (∀ (number place : Nat) (value : UInt8), loads.length ≤ number →
      stores[number]? = some (place, value) → system.shared.storage.slots place = value) := by
  obtain ⟨channel, consistent, history⟩ := run_channel run
  have delivers := consistent.ledger.delivers history
  exact ⟨delivers.inOrder, delivers.available, delivers.bounded, delivers.inside, delivers.unread⟩

/-- The producer stores its first letter and leaves; the consumer loads it and
is killed in its section. -/
def firstLetter : List (Action Bool) :=
  List.replicate 12 (.exec true) ++ List.replicate 4 (.exec false) ++ [.alarm false]

theorem buffer_delivers_first : ∃ events system,
    (program pair).machine.Run Machine.anything firstLetter events system ∧
    events.filterMap Event.load? = [(0, 'a'.toUInt8)] ∧
    (events.filterMap Event.store?)[0]? = some (0, 'a'.toUInt8) := by
  obtain ⟨events, system, run, loads⟩ : ∃ events system,
      (program pair).machine.Run Machine.anything firstLetter events system ∧
      events.filterMap Event.load? = [(0, 'a'.toUInt8)] :=
    Machine.Path.ofView (fun _ events => events.filterMap Event.load?) firstLetter
      (fun _ _ _ => trivial) rfl
  have delivered := (buffer_delivers run).1 0 0 'a'.toUInt8 (by rw [loads]; rfl)
  exact ⟨events, system, run, loads, delivered.2⟩

/-- A child that has not exited. -/
def unfinished (role : Pid → Role) (pcs : Pid → Pc) (kind : Role) : Prop :=
  ∃ pid, role pid = kind ∧ (pcs pid).hasExited = false

/-- Tokens are conserved, the idle buffer is accounted for, and while both
roles are present somebody can move on, whatever SIGINTs were delivered. -/
theorem tokens_conserved
    (run : (program role).machine.Run Program.noAlarm actions events system) :
    let sem := system.shared.sem
    let storage := system.shared.storage
    let stores := events.filterMap Event.store?
    let loads := events.filterMap Event.load?
    let inSection := criticals (stages system.pcs)
    sem .binary + inSection = 1 ∧
    sem .empty + sem .full + inSection = ELEMENTS ∧
    (inSection = 0 → loads.length + sem .full = stores.length ∧
      storage.producep ≡ storage.consumep + sem .full [MOD ELEMENTS]) ∧
    (unfinished role system.pcs .producer → unfinished role system.pcs .consumer →
      ∃ pid after emitted, (program role).machine.next system (.exec pid) = some (after, emitted) ∧
        (after.pcs pid).asleep = false) := by
  obtain ⟨channel, consistent, history⟩ := run_channel run
  have stores := history.stores
  have loads := history.loads
  rw [storedItem?_traffic?] at stores
  rw [loadedItem?_traffic?] at loads
  have alive := Program.alive_of_noAlarm run
  have ledger := consistent.ledger
  have tokens := ledger.tokens
  rw [holders_eq_criticals] at tokens
  refine ⟨ledger.mutex, tokens, ?_, ?_⟩
  · intro nobody
    have unclaimed : claimed role (stages system.pcs) = 0 :=
      claimed_eq_zero role (by rw [holders_eq_criticals, nobody])
    have items := ledger.items
    rw [unclaimed] at items
    have settled := ledger.idle nobody
    refine ⟨by simp only [stores, loads, List.length_map, List.length_range]; omega, ?_⟩
    rw [settled.producep, settled.consumep, ← items]
    change _ % _ = _ % _
    rw [Nat.mod_mod, Nat.mod_add_mod, Nat.add_zero, Nat.add_comm]
  · intro ⟨producer, isProducer, producing⟩ ⟨consumer, isConsumer, consuming⟩
    suffices moves : ∃ pid shared' pc emitted,
        step role pid system.shared (system.process pid).flag (system.pcs pid) =
          some (shared', pc, emitted) ∧ pc.asleep = false by
      obtain ⟨pid, shared', pc, emitted, stepped, awake⟩ := moves
      exact ⟨pid, _, emitted, Program.next_exec (alive pid) stepped, by simpa using awake⟩
    rcases Nat.eq_zero_or_pos (criticals (stages system.pcs)) with nobody | some
    · have present : 0 < ELEMENTS := by decide
      by_cases room : system.shared.sem .empty = 0
      · refine ⟨consumer, consistent.idle_moves nobody ?_ consuming _⟩
        rw [isConsumer]
        change system.shared.sem .full ≠ 0
        omega
      · refine ⟨producer, consistent.idle_moves nobody ?_ producing _⟩
        rwa [isProducer]
    · obtain ⟨pid, critical⟩ := exists_of_tally_pos some
      exact ⟨pid, consistent.critical_moves critical _⟩

/-- The producer stores its first letter and leaves; the consumer is interrupted
before it starts. -/
def firstDeposit : List (Action Bool) := List.replicate 12 (.exec true) ++ [.sigint false]

theorem tokens_conserved_deposit : ∃ events system,
    (program pair).machine.Run Program.noAlarm firstDeposit events system ∧
    system.shared.sem .empty + 1 = ELEMENTS ∧
    ∃ pid after emitted, (program pair).machine.next system (.exec pid) = some (after, emitted) ∧
      (after.pcs pid).asleep = false := by
  let view (system : System Bool Shared Pc) (_ : List (Event Bool)) :=
    (system.pcs true, system.pcs false, system.shared.sem .full,
      criticals (stages system.pcs))
  obtain ⟨events, system, run, seen⟩ : ∃ events system,
      (program pair).machine.Run Program.noAlarm firstDeposit events system ∧
      view system events = (.head, .head, 1, 0) :=
    Machine.Path.ofView view firstDeposit (by simp [firstDeposit, Program.noAlarm]) rfl
  simp only [view, Prod.mk.injEq] at seen
  obtain ⟨producer, consumer, full, nobody⟩ := seen
  obtain ⟨_, tokens, _, moves⟩ := tokens_conserved run
  refine ⟨events, system, run, by omega, ?_⟩
  exact moves ⟨true, rfl, by rw [producer]; rfl⟩ ⟨false, rfl, by rw [consumer]; rfl⟩

end OsLabs.Lab03.ProdCons
