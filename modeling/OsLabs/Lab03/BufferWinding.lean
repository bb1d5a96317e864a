import OsLabs.Lab03.ProdConsExit
import OsLabs.Lab03.ProdConsMacBuffer
import OsLabs.Machine.Winding

/-! The end of prod_cons.c and prod_cons_mac.c: once SIGINT has reached every child, only a
bounded number of steps is left, and whoever does not exit sleeps for a token that
nobody will give. -/

namespace OsLabs.Lab03

variable {Pid : Type}

/-- The accesses of a section that are left. -/
def Section.rank : Section → Nat
  | .wrapProducep | .wrapConsumep => 1
  | .testProducep | .testConsumep => 2
  | .wrapLetter | .storeAdvance _ => 3
  | .testLetter | .loadAdvance => 4
  | .storeIncrement _ | .loadSlot _ => 5
  | .loadIncrement | .loadConsumep => 6
  | .storeSlot .. => 7
  | .loadLetter _ => 8
  | .storeProducep _ => 9
  | .loadProducep => 10
  | .printLetter => 11

theorem Section.rank_le (point : Section) : point.rank ≤ 11 := by
  cases point <;> simp [Section.rank]

theorem Section.step_rank (point : Section) (pid : Pid) (storage : Storage) :
    (point.step pid storage).2.1.elim 0 Section.rank < point.rank := by
  cases point with
  | testLetter | testProducep | testConsumep =>
    simp only [Section.step]
    split <;> decide
  | printLetter | loadProducep | storeProducep _ | loadLetter _ | storeSlot _ _ | loadIncrement
  | storeIncrement _ | wrapLetter | wrapProducep | loadConsumep | loadSlot _ | loadAdvance
  | storeAdvance _ | wrapConsumep => simp [Section.step, Section.rank]

theorem Stage.holding_of_critical {stage : Stage} (critical : stage.critical = true) :
    stage.holding = true := by
  cases stage with
  | inside _ | closing => rfl
  | idle | reserved | paying => cases critical

theorem Role.takes_of_ne {mine other : Role} (different : mine ≠ other) :
    mine.takes = other.gives := by
  cases mine <;> cases other <;> first | rfl | exact absurd rfl different

namespace ProdCons

/-- The steps to the exit of a child whose flag is cleared. -/
def Pc.rank : Pc → Nat
  | .exited _ => 0
  | .head => 1
  | .leaving asleep => 2 + (!asleep).toNat
  | .inside point => 3 + point.rank
  | .entering asleep => 15 + (!asleep).toNat

theorem Pc.rank_le (pc : Pc) : pc.rank ≤ 16 := by
  cases pc with
  | inside point =>
    have few := point.rank_le
    rw [Pc.rank]
    omega
  | entering asleep | leaving asleep => cases asleep <;> decide
  | head | exited _ => simp [Pc.rank]

theorem Pc.rank_next (next : Option Section) :
    (next.elim (.leaving false) Pc.inside).rank = 3 + next.elim 0 Section.rank := by
  cases next <;> rfl

theorem call_rank {shared : Shared} {next sleeping here : Pc} {emitted : List (Event Pid)}
    (forward : next.rank < here.rank) (sleeps : asleep = false → sleeping.rank < here.rank)
    (stepped : call ops shared asleep next sleeping = some (shared', pc, emitted)) :
    pc.rank < here.rank := by
  unfold call at stepped
  split at stepped
  · obtain ⟨_, rfl, _⟩ : _ ∧ _ ∧ _ := by simpa using stepped
    exact forward
  · obtain ⟨awake, _, rfl, _⟩ : _ ∧ _ ∧ _ ∧ _ := by simpa using stepped
    exact sleeps awake
  · obtain ⟨_, rfl, _⟩ : _ ∧ _ ∧ _ := by simpa using stepped
    exact Nat.zero_lt_of_lt forward

/-- A child that does not find its flag set goes down to its exit. -/
theorem winds (role : Pid → Role) : (program role).Winds Pc.rank where
  interrupted _ := Nat.zero_le _
  ended {pid shared flag pc} exited := by
    cases pc with
    | exited _ => rfl
    | head | entering _ | inside _ | leaving _ => cases exited
  falls {pid shared pc shared' pc' emitted} stepped := by
    change ProdCons.step role pid shared false pc = some (shared', pc', emitted) at stepped
    cases pc with
    | head =>
      obtain ⟨_, rfl, _⟩ : _ ∧ _ ∧ _ := by simpa [ProdCons.step] using stepped
      exact Nat.one_pos
    | entering asleep =>
      refine call_rank ?_ ?_ stepped
      · have few := (role pid).entry.rank_le
        simp only [Pc.rank]
        omega
      · rintro rfl
        exact Nat.lt_succ_self 15
    | inside point =>
      simp only [ProdCons.step, Option.some.injEq, Prod.mk.injEq] at stepped
      obtain ⟨_, rfl, _⟩ := stepped
      rw [Pc.rank_next]
      exact Nat.add_lt_add_left (point.step_rank pid shared.storage) 3
    | leaving asleep =>
      refine call_rank ?_ ?_ stepped
      · simp only [Pc.rank]
        omega
      · rintro rfl
        exact Nat.lt_succ_self 2
    | exited status => cases stepped

variable {role : Pid → Role} [Fintype Pid] [DecidableEq Pid]

/-- When nobody can take a step, whoever has not exited sleeps in its start `semop`, for
a token that is not there. -/
theorem asleep_of_still {system : System Pid Shared Pc}
    (consistent : Consistent role system.shared system.pcs channel)
    (alive : ∀ pid, (system.process pid).alive = true) (still : (program role).Still system) :
    criticals (stages system.pcs) = 0 ∧ ∀ pid, (system.pcs pid).hasExited = false →
      system.pcs pid = .entering true ∧ system.shared.sem (role pid).takes = 0 := by
  have stuck : ∀ {pid shared pc emitted}, step role pid system.shared (system.process pid).flag
      (system.pcs pid) ≠ some (shared, pc, emitted) := by
    intro pid shared pc emitted stepped
    have moves := still pid
    rw [show (program role).machine.next system (.exec pid) = some _ from
      Program.next_exec (alive pid) stepped] at moves
    cases moves
  have nobody : criticals (stages system.pcs) = 0 := by
    refine tally_eq_zero.mpr fun pid => Bool.eq_false_iff.mpr fun critical => ?_
    obtain ⟨_, _, _, stepped, _⟩ :=
      consistent.critical_moves critical (system.process pid).flag
    exact stuck stepped
  refine ⟨nobody, fun pid going => ⟨?_, ?_⟩⟩
  · have asleep : (system.pcs pid).asleep = true := by
      by_contra awake
      obtain ⟨after, emitted, taken⟩ := awake_moves (alive pid) (by simpa using awake) going
      rw [still pid] at taken
      cases taken
    cases here : system.pcs pid with
    | entering sleeping =>
      rw [here] at asleep
      exact congrArg Pc.entering asleep
    | leaving sleeping =>
      rw [here] at asleep
      exact absurd (here.trans (congrArg Pc.leaving asleep)) (consistent.awake pid)
    | head | inside _ | exited _ =>
      rw [here] at asleep
      cases asleep
  · by_contra token
    obtain ⟨_, _, _, stepped, _⟩ :=
      consistent.idle_moves nobody token going (system.process pid).flag
    exact stuck stepped

/-- Where the children of prod_cons.c come to rest: nobody is in a section, and whoever has
not exited is of the one role that is out of tokens. -/
theorem left_of_still (run : (program role).machine.Run Program.noAlarm actions events system)
    (still : (program role).Still system) : system.shared.sem .binary = 1 ∧
      ((∀ pid, (system.pcs pid).hasExited = true) ∨
        ∃ kind : Role, system.shared.sem kind.takes = 0 ∧
          system.shared.sem kind.gives = ELEMENTS ∧
          ∀ pid, (system.pcs pid).hasExited = false →
            role pid = kind ∧ system.pcs pid = .entering true) := by
  obtain ⟨channel, consistent, _⟩ := run_channel run
  have alive := Program.alive_of_noAlarm run
  obtain ⟨nobody, asleep⟩ := asleep_of_still consistent alive still
  have mutex := consistent.ledger.mutex
  have tokens := consistent.ledger.tokens
  rw [holders_eq_criticals, nobody] at tokens
  refine ⟨by omega, ?_⟩
  by_cases ended : ∀ pid, (system.pcs pid).hasExited = true
  · exact .inl ended
  · obtain ⟨sleeper, going⟩ := not_forall.mp ended
    have lacking := (asleep sleeper (by simpa using going)).2
    have complement : system.shared.sem (role sleeper).gives = ELEMENTS := by
      cases kind : role sleeper <;> simp only [kind, Role.takes, Role.gives] at lacking ⊢ <;> omega
    refine .inr ⟨role sleeper, lacking, complement, fun pid going => ?_⟩
    obtain ⟨here, none⟩ := asleep pid going
    refine ⟨?_, here⟩
    by_contra other
    rw [Role.takes_of_ne other, complement] at none
    cases none

/-- Once SIGINT has reached every child of prod_cons.c, no order of their steps is longer
than sixteen for each of them. When they come to rest the mutex is free, and those that
have not exited are of one role, asleep in their start `semop`: consumers when every
letter has been loaded, producers when no slot is free. -/
theorem sigint_leaves_sleepers
    (run : (program role).machine.Run Program.noAlarm actions events system)
    (signalled : (program role).Signalled system)
    (path : (program role).machine.Path Program.noAlarm system later shown after) :
    later.countP Action.isExec ≤ 16 * Fintype.card Pid ∧
      ((program role).Still after → after.shared.sem .binary = 1 ∧
        ((∀ pid, (after.pcs pid).hasExited = true) ∨
          ∃ kind : Role, after.shared.sem kind.takes = 0 ∧
            after.shared.sem kind.gives = ELEMENTS ∧
            ∀ pid, (after.pcs pid).hasExited = false →
              role pid = kind ∧ after.pcs pid = .entering true)) :=
  ⟨(winds role).execs_bounded Pc.rank_le signalled path, left_of_still (run.append path)⟩

/-- SIGINT reaches the consumer after the test of its flag, then the producer. -/
def signalledEarly : List (Action Bool) := [.exec false, .sigint false, .sigint true]

theorem sigint_leaves_sleepers_early : ∃ events system shown after,
    (program pair).machine.Run Program.noAlarm signalledEarly events system ∧
    (program pair).machine.Path Program.noAlarm system [.exec true, .exec false] shown after ∧
    (after.pcs false).hasExited = false ∧ after.shared.sem .binary = 1 := by
  let flags (system : System Bool Shared Pc) :=
    ((system.process true).flag, (system.process false).flag)
  let rests (after : System Bool Shared Pc) :=
    (after.pcs false, ((program pair).machine.next after (.exec true)).isNone,
      ((program pair).machine.next after (.exec false)).isNone)
  obtain ⟨events, system, shown, after, run, path, cleared, rest⟩ : ∃ events system shown after,
      (program pair).machine.Run Program.noAlarm signalledEarly events system ∧
      (program pair).machine.Path Program.noAlarm system [.exec true, .exec false] shown after ∧
      flags system = (false, false) ∧ rests after = (.entering true, true, true) :=
    Machine.Path.ofViews flags rests signalledEarly [.exec true, .exec false]
      (by simp [signalledEarly, Program.noAlarm]) rfl
  simp only [flags, rests, Prod.mk.injEq, Option.isNone_iff_eq_none] at cleared rest
  have signalled : (program pair).Signalled system := by
    rintro (_ | _) _
    · exact cleared.2
    · exact cleared.1
  have still : (program pair).Still after := by
    rintro (_ | _)
    · exact rest.2.2
    · exact rest.2.1
  have ends := (sigint_leaves_sleepers run signalled path).2 still
  exact ⟨events, system, shown, after, run, path, by rw [rest.1]; rfl, ends.1⟩

end ProdCons

namespace ProdConsMac

/-- The steps to the exit of a child whose flag is cleared. -/
def Pc.rank : Pc → Nat
  | .exited _ => 0
  | .head => 1
  | .postToken => 2
  | .postBinary => 3
  | .inside point => 3 + point.rank
  | .waitBinary asleep => 15 + (!asleep).toNat
  | .waitToken asleep => 17 + (!asleep).toNat

theorem Pc.rank_le (pc : Pc) : pc.rank ≤ 18 := by
  cases pc with
  | inside point =>
    have few := point.rank_le
    rw [Pc.rank]
    omega
  | waitToken asleep | waitBinary asleep => cases asleep <;> decide
  | head | postBinary | postToken | exited _ => simp [Pc.rank]

theorem Pc.rank_next (next : Option Section) :
    (next.elim .postBinary Pc.inside).rank = 3 + next.elim 0 Section.rank := by
  cases next <;> rfl

theorem wait_rank {shared : Shared} {next sleeping here : Pc} {emitted : List (Event Pid)}
    (forward : next.rank < here.rank) (sleeps : asleep = false → sleeping.rank < here.rank)
    (stepped : wait num shared asleep next sleeping = some (shared', pc, emitted)) :
    pc.rank < here.rank := by
  unfold wait at stepped
  split at stepped
  · obtain ⟨_, rfl, _⟩ : _ ∧ _ ∧ _ := by simpa using stepped
    exact forward
  · obtain ⟨awake, _, rfl, _⟩ : _ ∧ _ ∧ _ ∧ _ := by simpa using stepped
    exact sleeps awake

theorem post_rank {shared : Shared} {next here : Pc} {emitted : List (Event Pid)}
    (forward : next.rank < here.rank)
    (stepped : post num shared next = some (shared', pc, emitted)) : pc.rank < here.rank := by
  unfold post at stepped
  split at stepped
  · obtain ⟨_, rfl, _⟩ : _ ∧ _ ∧ _ := by simpa using stepped
    exact forward
  · obtain ⟨_, rfl, _⟩ : _ ∧ _ ∧ _ := by simpa using stepped
    exact Nat.zero_lt_of_lt forward

/-- A child that does not find its flag set goes down to its exit. -/
theorem winds (role : Pid → Role) : (program role).Winds Pc.rank where
  interrupted _ := Nat.zero_le _
  ended {pid shared flag pc} exited := by
    cases pc with
    | exited _ => rfl
    | head | waitToken _ | waitBinary _ | inside _ | postBinary | postToken => cases exited
  falls {pid shared pc shared' pc' emitted} stepped := by
    change ProdConsMac.step role pid shared false pc = some (shared', pc', emitted) at stepped
    cases pc with
    | head =>
      obtain ⟨_, rfl, _⟩ : _ ∧ _ ∧ _ := by simpa [ProdConsMac.step] using stepped
      exact Nat.one_pos
    | waitToken asleep =>
      refine wait_rank ?_ ?_ stepped
      · simp only [Pc.rank, Bool.not_false, Bool.toNat_true]
        omega
      · rintro rfl
        exact Nat.lt_succ_self 17
    | waitBinary asleep =>
      refine wait_rank ?_ ?_ stepped
      · have few := (role pid).entry.rank_le
        simp only [Pc.rank]
        omega
      · rintro rfl
        exact Nat.lt_succ_self 15
    | inside point =>
      simp only [ProdConsMac.step, Option.some.injEq, Prod.mk.injEq] at stepped
      obtain ⟨_, rfl, _⟩ := stepped
      rw [Pc.rank_next]
      exact Nat.add_lt_add_left (point.step_rank pid shared.storage) 3
    | postBinary =>
      refine post_rank ?_ stepped
      exact Nat.lt_succ_self 2
    | postToken =>
      refine post_rank ?_ stepped
      exact Nat.lt_succ_self 1
    | exited status => cases stepped

variable {role : Pid → Role}

theorem awake_step (awake : pc.asleep = false) (going : pc.hasExited = false) (pid : Pid)
    (shared : Shared) (flag : Bool) : step role pid shared flag pc ≠ none := by
  cases pc with
  | head | inside _ => exact Option.some_ne_none _
  | waitToken asleep | waitBinary asleep =>
    have sleepless : asleep = false := awake
    simp only [step, wait, sleepless]
    split <;> simp
  | postBinary | postToken =>
    simp only [step, post]
    split <;> simp
  | exited status => cases going

variable [Fintype Pid] [DecidableEq Pid]

/-- When nobody can take a step, whoever has not exited sleeps before it has a token, for
one that is not there. -/
theorem asleep_of_still {system : System Pid Shared Pc}
    (ledger : Ledger role lost system.shared (stages system.pcs) channel)
    (alive : ∀ pid, (system.process pid).alive = true) (still : (program role).Still system) :
    criticals (stages system.pcs) = 0 ∧ holders (stages system.pcs) = 0 ∧
      ∀ pid, (system.pcs pid).hasExited = false →
        system.pcs pid = .waitToken true ∧ system.shared.sem (role pid).takes = 0 := by
  have stuck : ∀ pid, step role pid system.shared (system.process pid).flag (system.pcs pid) =
      none := by
    intro pid
    by_contra enabled
    obtain ⟨⟨_, _, _⟩, stepped⟩ := Option.ne_none_iff_exists'.mp enabled
    have moves := still pid
    rw [show (program role).machine.next system (.exec pid) = some _ from
      Program.next_exec (alive pid) stepped] at moves
    cases moves
  have goes : ∀ {pid}, ¬ ∃ shared' pc emitted, step role pid system.shared
      (system.process pid).flag (system.pcs pid) = some (shared', pc, emitted) ∧
      pc.asleep = false := by
    rintro pid ⟨_, _, _, stepped, _⟩
    rw [stuck pid] at stepped
    cases stepped
  have nobody : criticals (stages system.pcs) = 0 :=
    tally_eq_zero.mpr fun pid => Bool.eq_false_iff.mpr fun critical =>
      goes (holder_moves ledger (Stage.holding_of_critical critical) (.inl critical) _)
  have unheld : holders (stages system.pcs) = 0 :=
    tally_eq_zero.mpr fun pid => Bool.eq_false_iff.mpr fun holding =>
      goes (holder_moves ledger holding (.inr nobody) _)
  refine ⟨nobody, unheld, fun pid going => ⟨?_, ?_⟩⟩
  · have idle : (system.pcs pid).stage.holding = false := tally_eq_zero.mp unheld pid
    have asleep : (system.pcs pid).asleep = true := by
      by_contra awake
      exact awake_step (by simpa using awake) going pid _ _ (stuck pid)
    cases here : system.pcs pid with
    | waitToken sleeping =>
      rw [here] at asleep
      exact congrArg Pc.waitToken asleep
    | waitBinary _ | postBinary | postToken | inside _ =>
      rw [here] at idle
      cases idle
    | head | exited _ =>
      rw [here] at asleep
      cases asleep
  · by_contra token
    exact goes (idle_moves (tally_eq_zero.mp unheld pid) token going _)

/-- Once SIGINT has reached every child of prod_cons_mac.c, no order of their steps is
longer than eighteen for each of them. When they come to rest sem_binary is free, and
those that have not exited sleep in their first `sem_wait`, for a token that is not
there; only if all tokens are lost can both roles be among them. -/
theorem sigint_leaves_waiting
    (run : (program role).machine.Run Program.noAlarm actions events system)
    (signalled : (program role).Signalled system)
    (path : (program role).machine.Path Program.noAlarm system later shown after) :
    later.countP Action.isExec ≤ 18 * Fintype.card Pid ∧
      ((program role).Still after → after.shared.sem .binary = 1 ∧
        (∀ pid, (after.pcs pid).hasExited = false →
          after.pcs pid = .waitToken true ∧ after.shared.sem (role pid).takes = 0) ∧
        (failures after.pcs < ELEMENTS → ∀ left right, (after.pcs left).hasExited = false →
          (after.pcs right).hasExited = false → role left = role right)) := by
  refine ⟨(winds role).execs_bounded Pc.rank_le signalled path, fun still => ?_⟩
  obtain ⟨channel, lost, ledger, bound⟩ := lost_le_failures (run.append path)
  have alive := Program.alive_of_noAlarm (run.append path)
  obtain ⟨nobody, unheld, asleep⟩ := asleep_of_still ledger alive still
  have mutex := ledger.mutex
  have tokens := ledger.tokens
  refine ⟨by omega, asleep, fun few left right remains stays => ?_⟩
  by_contra other
  have mine := (asleep left remains).2
  have yours := (asleep right stays).2
  rw [Role.takes_of_ne other] at mine
  cases kind : role right <;> simp only [kind, Role.takes, Role.gives] at mine yours <;> omega

/-- The first consumer is interrupted with a token while the producer has sem_binary, and
SIGINT reaches the producer there and the other consumer before its first `sem_wait`. -/
def signalledInside : List (Action (Option Bool)) :=
  List.replicate 17 (.exec none) ++ List.replicate 3 (.exec (some false)) ++
    [.sigint (some false), .exec (some true), .sigint none, .sigint (some true)]

/-- The other consumer sleeps until the producer has given its token, and both leave. -/
def allLeave : List (Action (Option Bool)) :=
  [.exec (some true)] ++ List.replicate 12 (.exec none) ++ List.replicate 10 (.exec (some true))

theorem sigint_leaves_waiting_inside : ∃ events system shown after,
    (program trio).machine.Run Program.noAlarm signalledInside events system ∧
    (program trio).machine.Path Program.noAlarm system allLeave shown after ∧
    failures after.pcs = 1 ∧ after.shared.sem .binary = 1 := by
  let flags (system : System (Option Bool) Shared Pc) :=
    ((system.process none).flag, (system.process (some false)).flag,
      (system.process (some true)).flag)
  let rests (after : System (Option Bool) Shared Pc) :=
    (failures after.pcs, ((program trio).machine.next after (.exec none)).isNone,
      ((program trio).machine.next after (.exec (some false))).isNone,
      ((program trio).machine.next after (.exec (some true))).isNone)
  obtain ⟨events, system, shown, after, run, path, cleared, rest⟩ : ∃ events system shown after,
      (program trio).machine.Run Program.noAlarm signalledInside events system ∧
      (program trio).machine.Path Program.noAlarm system allLeave shown after ∧
      flags system = (false, false, false) ∧ rests after = (1, true, true, true) :=
    Machine.Path.ofViews flags rests signalledInside allLeave
      (by simp [signalledInside, Program.noAlarm]) (by decide +kernel)
  simp only [flags, rests, Prod.mk.injEq, Option.isNone_iff_eq_none] at cleared rest
  obtain ⟨producer, first, second⟩ := cleared
  obtain ⟨failed, producerRests, firstRests, secondRests⟩ := rest
  have signalled : (program trio).Signalled system := by
    rintro (_ | _ | _) _
    · exact producer
    · exact first
    · exact second
  have still : (program trio).Still after := by
    rintro (_ | _ | _)
    · exact producerRests
    · exact firstRests
    · exact secondRests
  have ends := (sigint_leaves_waiting run signalled path).2 still
  exact ⟨events, system, shown, after, run, path, failed, ends.1⟩

end ProdConsMac

end OsLabs.Lab03
