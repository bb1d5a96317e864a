import OsLabs.Lab03.ProdConsMacTokens
import Mathlib.Data.Fintype.Option

/-! What is left to prod_cons_mac.c when its children are interrupted while they hold a
token: the letters still arrive in order, and the others go on as long as not every
token is lost. -/

namespace OsLabs.Lab03.ProdConsMac

variable {Pid : Type} [Fintype Pid] {role : Pid → Role} {lost : Role → Nat}
variable {shared : Shared} {pcs : Pid → Pc} {channel : Channel.State}

/-- The exit of a child whose `sem_wait` was interrupted. -/
def Pc.failed : Pc → Bool
  | .exited status => status = 1
  | _ => false

/-- How many children have exited in that way. -/
def failures (pcs : Pid → Pc) : Nat := tally (fun _ => Pc.failed) pcs

theorem section_awake (next : Option Section) :
    (next.elim Pc.postBinary Pc.inside).asleep = false := by
  cases next <;> rfl

/-- A child with a token that does not wait for the binary semaphore in vain goes on. -/
theorem holder_moves (ledger : Ledger role lost shared (stages pcs) channel)
    (holding : (pcs pid).stage.holding = true)
    (turn : (pcs pid).stage.critical = true ∨ criticals (stages pcs) = 0) (flag : Bool) :
    ∃ shared' pc emitted, step role pid shared flag (pcs pid) = some (shared', pc, emitted) ∧
      pc.asleep = false := by
  cases here : pcs pid with
  | waitBinary asleep =>
    have nobody : criticals (stages pcs) = 0 := by
      rcases turn with critical | nobody
      · rw [here] at critical
        cases critical
      · exact nobody
    have mutex := ledger.mutex
    have free : shared.sem .binary ≠ 0 := by omega
    exact ⟨_, _, _, wait_done free .., rfl⟩
  | inside point => exact ⟨_, _, _, rfl, section_awake _⟩
  | postBinary => exact ⟨_, _, _, post_done (ledger.sem_le _) _, rfl⟩
  | postToken => exact ⟨_, _, _, post_done (ledger.sem_le _) _, rfl⟩
  | head | waitToken _ | exited _ =>
    rw [here] at holding
    cases holding

omit [Fintype Pid] in
/-- A child without a token goes on if there is one for it. -/
theorem idle_moves (unheld : (pcs pid).stage.holding = false)
    (token : shared.sem (role pid).takes ≠ 0) (unfinished : (pcs pid).hasExited = false)
    (flag : Bool) : ∃ shared' pc emitted,
      step role pid shared flag (pcs pid) = some (shared', pc, emitted) ∧ pc.asleep = false := by
  cases here : pcs pid with
  | head =>
    refine ⟨_, _, _, rfl, ?_⟩
    cases flag <;> rfl
  | waitToken asleep => exact ⟨_, _, _, wait_done token .., rfl⟩
  | waitBinary _ | inside _ | postBinary | postToken =>
    rw [here] at unheld
    cases unheld
  | exited status =>
    rw [here] at unfinished
    cases unfinished

/-- With a token left somebody goes on. -/
theorem somebody_moves (ledger : Ledger role lost shared (stages pcs) channel)
    (left : lost .producer + lost .consumer < ELEMENTS)
    (unfinished : ∀ kind, ∃ pid, role pid = kind ∧ (pcs pid).hasExited = false)
    (flags : Pid → Bool) : ∃ pid shared' pc emitted,
      step role pid shared (flags pid) (pcs pid) = some (shared', pc, emitted) ∧
      pc.asleep = false := by
  rcases Nat.eq_zero_or_pos (criticals (stages pcs)) with nobody | some
  · rcases Nat.eq_zero_or_pos (holders (stages pcs)) with unheld | held
    · have idle : ∀ pid, (pcs pid).stage.holding = false := tally_eq_zero.mp unheld
      have tokens := ledger.tokens
      by_cases room : shared.sem .empty = 0
      · obtain ⟨pid, isConsumer, going⟩ := unfinished .consumer
        have token : shared.sem (role pid).takes ≠ 0 := by
          rw [isConsumer]
          change shared.sem .full ≠ 0
          omega
        exact ⟨pid, idle_moves (idle pid) token going _⟩
      · obtain ⟨pid, isProducer, going⟩ := unfinished .producer
        have token : shared.sem (role pid).takes ≠ 0 := by rwa [isProducer]
        exact ⟨pid, idle_moves (idle pid) token going _⟩
    · obtain ⟨pid, holding⟩ := exists_of_tally_pos held
      exact ⟨pid, holder_moves ledger holding (.inr nobody) _⟩
  · obtain ⟨pid, critical⟩ := exists_of_tally_pos some
    have holding : (pcs pid).stage.holding = true := by
      change (stages pcs pid).holding = true
      cases here : stages pcs pid with
      | inside _ | closing => rfl
      | idle | reserved | paying =>
        rw [here] at critical
        cases critical
    exact ⟨pid, holder_moves ledger holding (.inl critical) _⟩

variable [DecidableEq Pid]

theorem failures_update (pcs : Pid → Pc) (pid : Pid) (pc : Pc) :
    failures (Function.update pcs pid pc) + (pcs pid).failed.toNat =
      failures pcs + pc.failed.toNat :=
  tally_update (fun _ => Pc.failed) pcs pid pc

/-- Only a child that was interrupted has lost a token, and it has lost one at most. -/
theorem lost_le_failures
    (run : (program role).machine.Run allowed actions events system) :
    ∃ channel lost, Ledger role lost system.shared (stages system.pcs) channel ∧
      lost .producer + lost .consumer ≤ failures system.pcs := by
  refine run.invariant (fun _ system => ∃ channel lost,
    Ledger role lost system.shared (stages system.pcs) channel ∧
      lost .producer + lost .consumer ≤ failures system.pcs)
    ⟨_, _, Ledger.initial role, Nat.zero_le _⟩ ?_
  rintro events system action after emitted ⟨channel, lost, ledger, few⟩ _ taken
  cases Program.next_effect taken with
  | exec pid alive stepped moved =>
    rename_i pc _
    obtain ⟨_, channel', _, ledger'⟩ := ledger_step ledger stepped
    have running : (system.pcs pid).failed = false := by
      cases here : system.pcs pid with
      | exited status => simp [program, step, here] at stepped
      | _ => rfl
    have moves := failures_update system.pcs pid pc
    rw [running, ← moved] at moves
    refine ⟨channel', lost, by rwa [moved], ?_⟩
    simp only [Bool.toNat_false] at moves
    omega
  | interrupt pid asleep shared silent moved =>
    have moves := failures_update system.pcs pid (.exited 1)
    have running : (system.pcs pid).failed = false := by
      change (system.pcs pid).asleep = true at asleep
      generalize system.pcs pid = pc at asleep
      cases pc <;> first | rfl | cases asleep
    have gone : after.pcs = Function.update system.pcs pid (.exited 1) := moved
    rw [running, ← gone] at moves
    simp only [Bool.toNat_false, Pc.failed, decide_true, Bool.toNat_true] at moves
    rw [shared, gone]
    cases here : system.pcs pid with
    | waitToken _ =>
      refine ⟨channel, lost, ledger_interrupt_token ledger here, ?_⟩
      rw [← gone]
      omega
    | waitBinary _ =>
      refine ⟨channel, _, ledger_interrupt_binary ledger here, ?_⟩
      rw [← gone]
      cases role pid <;> simp <;> omega
    | head | inside _ | postBinary | postToken | exited _ =>
      simp [program, here, Pc.asleep] at asleep
  | handled pid awake shared silent moved =>
    exact ⟨channel, lost, by rwa [shared, moved], by rwa [moved]⟩
  | killed pid shared silent moved =>
    exact ⟨channel, lost, by rwa [shared, moved], by rwa [moved]⟩

/-- Whatever tokens are lost with interrupted children, and whoever is killed, no letter
is lost, repeated or changed before it is loaded. -/
theorem letters_delivered (run : (program role).machine.Run allowed actions events system) :
    Delivers events system.shared.storage := by
  obtain ⟨moves, shown, channel, followed, same, lost, ledger⟩ :=
    (refines_channel role allowed).run run
  have history := Channel.History.ofRun followed
  rw [List.filterMap_some] at same
  subst same
  exact ledger.delivers history

/-- A producer and two consumers, the first of which is `some false`. -/
def trio : Option Bool → Role
  | none => .producer
  | some _ => .consumer

/-- The first consumer is interrupted while the producer has the binary semaphore, and is
gone with its token; the second one loads a letter and is killed in its section. -/
def tokenLost : List (Action (Option Bool)) :=
  List.replicate 17 (.exec none) ++ List.replicate 3 (.exec (some false)) ++
    [.sigint (some false)] ++ List.replicate 11 (.exec none) ++
    List.replicate 5 (.exec (some true)) ++ [.alarm (some true)]

theorem letters_delivered_tokenLost : ∃ events system,
    (program trio).machine.Run Machine.anything tokenLost events system ∧
    system.shared.sem .full = 0 ∧ events.filterMap Event.load? = [(0, 'a'.toUInt8)] ∧
    Delivers events system.shared.storage := by
  let view (system : System (Option Bool) Shared Pc) (events : List (Event (Option Bool))) :=
    (system.shared.sem .full, events.filterMap Event.load?)
  obtain ⟨events, system, run, seen⟩ : ∃ events system,
      (program trio).machine.Run Machine.anything tokenLost events system ∧
      view system events = (0, [(0, 'a'.toUInt8)]) :=
    Machine.Path.ofView view tokenLost (fun _ _ _ => trivial) (by decide +kernel)
  obtain ⟨full, loads⟩ := Prod.mk.inj seen
  exact ⟨events, system, run, full, loads, letters_delivered run⟩

/-- As long as fewer children have exited with an error than there are tokens, those of
the two roles that have not exited are never all blocked, whatever SIGINTs were sent. -/
theorem moves_of_few_failures
    (run : (program role).machine.Run Program.noAlarm actions events system)
    (few : failures system.pcs < ELEMENTS)
    (unfinished : ∀ kind, ∃ pid, role pid = kind ∧ (system.pcs pid).hasExited = false) :
    ∃ pid after emitted, (program role).machine.next system (.exec pid) = some (after, emitted) ∧
      (after.pcs pid).asleep = false := by
  obtain ⟨channel, lost, ledger, bound⟩ := lost_le_failures run
  have alive := Program.alive_of_noAlarm run
  obtain ⟨pid, shared', pc, emitted, stepped, awake⟩ :=
    somebody_moves ledger (by omega) unfinished fun pid => (system.process pid).flag
  exact ⟨pid, _, emitted, Program.next_exec (alive pid) stepped, by simpa using awake⟩

/-- The token of the only letter is lost with the first consumer. -/
theorem moves_of_few_failures_lost : ∃ actions events system,
    (program trio).machine.Run Program.noAlarm actions events system ∧
    system.pcs (some false) = .exited 1 ∧ system.shared.sem .full = 0 ∧
    ∃ pid after emitted, (program trio).machine.next system (.exec pid) = some (after, emitted) ∧
      (after.pcs pid).asleep = false := by
  let view (system : System (Option Bool) Shared Pc) (_ : List (Event (Option Bool))) :=
    (system.pcs none, system.pcs (some false), system.pcs (some true), system.shared.sem .full,
      failures system.pcs)
  let actions : List (Action (Option Bool)) := List.replicate 17 (.exec none) ++
    List.replicate 3 (.exec (some false)) ++ [.sigint (some false)]
  obtain ⟨events, system, run, seen⟩ : ∃ events system,
      (program trio).machine.Run Program.noAlarm actions events system ∧
      view system events = (.inside .printLetter, .exited 1, .head, 0, 1) :=
    Machine.Path.ofView view actions (by simp [actions, Program.noAlarm]) rfl
  simp only [view, Prod.mk.injEq] at seen
  obtain ⟨producer, interrupted, consumer, full, few⟩ := seen
  refine ⟨actions, events, system, run, interrupted, full, ?_⟩
  refine moves_of_few_failures run (by rw [few]; decide) fun kind => ?_
  cases kind with
  | producer => exact ⟨none, rfl, by rw [producer]; rfl⟩
  | consumer => exact ⟨some true, rfl, by rw [consumer]; rfl⟩

end OsLabs.Lab03.ProdConsMac
