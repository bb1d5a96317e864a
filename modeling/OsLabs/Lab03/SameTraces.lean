import OsLabs.Lab03.ProdConsInvariant
import OsLabs.Lab03.ProdConsMacInvariant

/-! prod_cons_mac.c and prod_cons.c implement the same buffer: without signals,
what one of them can print, the other can print too. -/

namespace OsLabs.Lab03

variable {Pid : Type}

/-- A printed line. -/
inductive Line (Pid : Type) where
  | put (pid : Pid) (value : UInt8)
  | get (pid : Pid) (value : UInt8)

def Event.line? : Event Pid → Option (Line Pid)
  | .put pid value => some (.put pid value)
  | .get pid value => some (.get pid value)
  | _ => none

/-- A token between a semaphore of prod_cons_mac.c and its child: taken before
the mutex, or not given back yet. prod_cons.c still, or already, counts it. -/
def Stage.inTransit (role : Role) (num : Semaphore) : Stage → Bool
  | .reserved => decide (role.takes = num)
  | .paying => decide (role.gives = num)
  | .idle | .inside _ | .closing => false

theorem Stage.holding_of_inTransit {stage : Stage} (moving : stage.inTransit role num = true) :
    stage.holding = true := by
  cases stage with
  | reserved | paying => rfl
  | idle | inside _ | closing => cases moving

/-- Where a child of prod_cons.c stands that has printed the same lines. -/
def ProdConsMac.Pc.joined : ProdConsMac.Pc → ProdCons.Pc
  | .head | .postToken => .head
  | .waitToken _ | .waitBinary _ => .entering false
  | .inside point => .inside point
  | .postBinary => .leaving false
  | .exited status => .exited status

/-- Where a child of prod_cons_mac.c stands that has printed the same lines. -/
def ProdCons.Pc.separated : ProdCons.Pc → ProdConsMac.Pc
  | .head => .head
  | .entering _ => .waitToken false
  | .inside point => .inside point
  | .leaving _ => .postBinary
  | .exited status => .exited status

variable [Fintype Pid] {role : Pid → Role}

def transits (role : Pid → Role) (num : Semaphore) (stages : Pid → Stage) : Nat :=
  tally (fun pid => Stage.inTransit (role pid) num) stages

/-- prod_cons.c counts the tokens in transit on the semaphores. -/
structure Joined (role : Pid → Role) (shared : Shared) (pcs : Pid → ProdConsMac.Pc)
    (shared' : Shared) (pcs' : Pid → ProdCons.Pc) : Prop where
  ledger : ∃ channel, Ledger role (fun _ => 0) shared (ProdConsMac.stages pcs) channel
  storage : shared'.storage = shared.storage
  sem : ∀ num, shared'.sem num = shared.sem num + transits role num (ProdConsMac.stages pcs)
  pcs : pcs' = ProdConsMac.Pc.joined ∘ pcs

variable {shared shared' after after' : Shared} {pcs : Pid → ProdConsMac.Pc}
variable {pcs' : Pid → ProdCons.Pc}

/-- Neither count of a semaphore comes near the limits of the system. -/
theorem Joined.sem_lt (joined : Joined role shared pcs shared' pcs') (num : Semaphore) :
    shared'.sem num < SEMVMX := by
  obtain ⟨channel, ledger⟩ := joined.ledger
  have moving : transits role num (ProdConsMac.stages pcs) ≤ holders (ProdConsMac.stages pcs) :=
    tally_le fun _ => Stage.holding_of_inTransit
  have tokens := ledger.tokens
  have small := ledger.sem_le num
  have limit : ELEMENTS + ELEMENTS < SEMVMX := by decide
  rw [joined.sem]
  omega

theorem Joined.initial (role : Pid → Role) :
    Joined role (ProdConsMac.program role).shared (fun _ => .head)
      (ProdCons.program role).shared (fun _ => .head) := by
  refine ⟨⟨_, Ledger.initial role⟩, rfl, fun num => ?_, rfl⟩
  have none : transits role num (ProdConsMac.stages fun _ => .head) = 0 :=
    tally_eq_zero.mpr fun _ => rfl
  rw [none]
  rfl

/-- A `semop` of prod_cons.c is two calls in a row of prod_cons_mac.c. -/
structure Separated (role : Pid → Role) (shared : Shared) (pcs : Pid → ProdCons.Pc)
    (shared' : Shared) (pcs' : Pid → ProdConsMac.Pc) : Prop where
  consistent : ∃ channel, ProdCons.Consistent role shared pcs channel
  shared : shared' = shared
  pcs : pcs' = ProdCons.Pc.separated ∘ pcs

theorem Separated.initial (role : Pid → Role) :
    Separated role (ProdCons.program role).shared (fun _ => .head)
      (ProdConsMac.program role).shared (fun _ => .head) :=
  ⟨⟨_, ProdCons.Consistent.initial role⟩, rfl, rfl⟩

variable [DecidableEq Pid] {pid : Pid} {pc : ProdConsMac.Pc} {emitted : List (Event Pid)}

/-- A step keeps the relation when what it does to the semaphores balances. -/
theorem Joined.move (joined : Joined role shared pcs shared' pcs')
    (stepped : ProdConsMac.step role pid shared true (pcs pid) = some (after, pc, emitted))
    (storage : after'.storage = after.storage)
    (sem : ∀ num, after'.sem num + shared.sem num +
        ((pcs pid).stage.inTransit (role pid) num).toNat =
      shared'.sem num + after.sem num + (pc.stage.inTransit (role pid) num).toNat) :
    Joined role after (Function.update pcs pid pc) after' (Function.update pcs' pid pc.joined) := by
  obtain ⟨channel, ledger⟩ := joined.ledger
  obtain ⟨_, channel', _, ledger'⟩ := ProdConsMac.ledger_step ledger stepped
  refine ⟨⟨channel', ledger'⟩, storage, fun num => ?_, ?_⟩
  · have moved : transits role num (Function.update (ProdConsMac.stages pcs) pid pc.stage) +
          ((pcs pid).stage.inTransit (role pid) num).toNat =
        transits role num (ProdConsMac.stages pcs) +
          (pc.stage.inTransit (role pid) num).toNat := tally_update ..
    have before := joined.sem num
    have balance := sem num
    rw [ProdConsMac.stages_update]
    omega
  · rw [joined.pcs, Function.comp_update]

/-- The same when prod_cons.c does not move. -/
theorem Joined.stutter (joined : Joined role shared pcs shared' pcs')
    (stepped : ProdConsMac.step role pid shared true (pcs pid) = some (after, pc, emitted))
    (same : pc.joined = (pcs pid).joined) (storage : after.storage = shared.storage)
    (sem : ∀ num, shared.sem num + ((pcs pid).stage.inTransit (role pid) num).toNat =
      after.sem num + (pc.stage.inTransit (role pid) num).toNat) :
    Joined role after (Function.update pcs pid pc) shared' pcs' := by
  have unmoved : Function.update pcs' pid pc.joined = pcs' := by
    rw [same, joined.pcs]
    exact Function.update_eq_self pid _
  have moved := joined.move stepped (joined.storage.trans storage.symm) (fun num => by
    have balance := sem num
    omega)
  rwa [unmoved] at moved

/-- Every step of prod_cons_mac.c is answered by prod_cons.c, which takes both
semaphores when the mutex is taken and gives both back when the mutex is given. -/
theorem Joined.answer (joined : Joined role shared pcs shared' pcs')
    (stepped : ProdConsMac.step role pid shared true (pcs pid) = some (after, pc, emitted)) :
    ∃ moves shown after' pcs'', (ProdCons.program role).machine.Path Program.noSignal
        (Program.quiet shared' pcs') moves shown (Program.quiet after' pcs'') ∧
      shown.filterMap Event.line? = emitted.filterMap Event.line? ∧
      Joined role after (Function.update pcs pid pc) after' pcs'' := by
  have stands : pcs' pid = (pcs pid).joined := by rw [joined.pcs, Function.comp_apply]
  obtain ⟨channel, ledger⟩ := joined.ledger
  have taken := stepped
  cases here : pcs pid with
  | head =>
    simp only [here, ProdConsMac.step, ↓reduceIte, Option.some.injEq, Prod.mk.injEq] at taken
    obtain ⟨rfl, rfl, rfl⟩ := taken
    have answered : ProdCons.step role pid shared' true (pcs' pid) =
        some (shared', .entering false, []) := by
      rw [stands, here]
      rfl
    exact ⟨_, [], _, _, Program.quiet_path answered, rfl,
      joined.move stepped joined.storage fun num => by rw [here]; rfl⟩
  | waitToken asleep =>
    simp only [here, ProdConsMac.step] at taken
    obtain ⟨rfl, ⟨token, rfl, rfl⟩ | ⟨rfl, rfl⟩⟩ := ProdConsMac.wait_cases taken
    · refine ⟨[], [], _, _, .start, rfl, joined.stutter stepped (by rw [here]; rfl) rfl ?_⟩
      intro num
      by_cases same : (role pid).takes = num
      · subst same
        simp [here, ProdConsMac.Pc.stage, Stage.inTransit]
        omega
      · simp [here, ProdConsMac.Pc.stage, Stage.inTransit, same, Ne.symm same]
    · exact ⟨[], [], _, _, .start, rfl,
        joined.stutter stepped (by rw [here]; rfl) rfl fun num => by rw [here]; rfl⟩
  | waitBinary asleep =>
    simp only [here, ProdConsMac.step] at taken
    obtain ⟨rfl, ⟨binary, rfl, rfl⟩ | ⟨rfl, rfl⟩⟩ := ProdConsMac.wait_cases taken
    · have moving : 0 < transits role (role pid).takes (ProdConsMac.stages pcs) := by
        apply tally_pos pid
        change (pcs pid).stage.inTransit _ _ = true
        simp [here, ProdConsMac.Pc.stage, Stage.inTransit]
      have token : shared'.sem (role pid).takes ≠ 0 := by
        rw [joined.sem]
        omega
      have mutex : shared'.sem .binary ≠ 0 := by
        rw [joined.sem]
        omega
      have answered := ProdCons.step_enter token mutex true false
      rw [← show pcs' pid = .entering false by rw [stands, here]; rfl] at answered
      refine ⟨_, [], _, _, Program.quiet_path answered, rfl,
        joined.move stepped joined.storage fun num => ?_⟩
      cases num <;> cases kind : role pid <;>
        simp [here, kind, ProdConsMac.Pc.stage, Stage.inTransit, Role.takes] at token mutex ⊢ <;>
        omega
    · exact ⟨[], [], _, _, .start, rfl,
        joined.stutter stepped (by rw [here]; rfl) rfl fun num => by rw [here]; rfl⟩
  | inside point =>
    simp only [here, ProdConsMac.step, Option.some.injEq, Prod.mk.injEq] at taken
    obtain ⟨rfl, rfl, rfl⟩ := taken
    have answered : (ProdCons.program role).step pid shared' true (pcs' pid) =
        some ({ shared' with storage := (point.step pid shared.storage).1 },
          (point.step pid shared.storage).2.1.elim (.leaving false) .inside,
          (point.step pid shared.storage).2.2) := by
      rw [stands, here, ← joined.storage]
      rfl
    have next : ∀ next : Option Section,
        (next.elim .postBinary ProdConsMac.Pc.inside).joined =
          next.elim (.leaving false) .inside ∧
        ∀ num, (next.elim .postBinary ProdConsMac.Pc.inside).stage.inTransit (role pid) num =
          false := by
      intro next
      cases next <;> exact ⟨rfl, fun _ => rfl⟩
    have path := Program.quiet_path answered
    rw [← (next _).1] at path
    refine ⟨_, _, _, _, path, rfl, joined.move stepped rfl fun num => ?_⟩
    rw [(next _).2, here]
    rfl
  | postBinary =>
    rw [here, ProdConsMac.step, ProdConsMac.post_done (ledger.sem_le .binary)] at taken
    obtain ⟨rfl, rfl, rfl⟩ : _ ∧ _ ∧ _ := by simpa using taken
    have answered := ProdCons.step_leave (joined.sem_lt .binary) (joined.sem_lt (role pid).gives)
      true false
    rw [← show pcs' pid = .leaving false by rw [stands, here]; rfl] at answered
    refine ⟨_, [], _, _, Program.quiet_path answered, rfl,
      joined.move stepped joined.storage fun num => ?_⟩
    cases num <;> cases kind : role pid <;>
      simp [here, ProdConsMac.Pc.stage, Stage.inTransit, Role.gives] <;> omega
  | postToken =>
    rw [here, ProdConsMac.step, ProdConsMac.post_done (ledger.sem_le _)] at taken
    obtain ⟨rfl, rfl, rfl⟩ : _ ∧ _ ∧ _ := by simpa using taken
    refine ⟨[], [], _, _, .start, rfl, joined.stutter stepped (by rw [here]; rfl) rfl ?_⟩
    intro num
    cases num <;> cases kind : role pid <;>
      simp [here, ProdConsMac.Pc.stage, Stage.inTransit, Role.gives]
  | exited status => simp [here, ProdConsMac.step] at taken

theorem Separated.move {pcs : Pid → ProdCons.Pc} {pcs' : Pid → ProdConsMac.Pc}
    {pc : ProdCons.Pc} (separated : Separated role shared pcs shared' pcs')
    (stepped : ProdCons.step role pid shared true (pcs pid) = some (after, pc, emitted)) :
    Separated role after (Function.update pcs pid pc) after
      (Function.update pcs' pid pc.separated) := by
  obtain ⟨channel, consistent⟩ := separated.consistent
  obtain ⟨_, channel', _, consistent'⟩ := consistent.step stepped
  exact ⟨⟨channel', consistent'⟩, rfl, by rw [separated.pcs, Function.comp_update]⟩

omit [Fintype Pid] in
/-- `sem_wait` twice. -/
theorem mac_enter {pcs' : Pid → ProdConsMac.Pc} (here : pcs' pid = .waitToken false)
    (token : shared.sem (role pid).takes ≠ 0) (binary : shared.sem .binary ≠ 0) :
    (ProdConsMac.program role).machine.Path Program.noSignal (Program.quiet shared pcs')
      [.exec pid, .exec pid] []
      (Program.quiet ((shared.set (role pid).takes (shared.sem (role pid).takes - 1)).set .binary
        (shared.sem .binary - 1)) (Function.update pcs' pid (.inside (role pid).entry))) := by
  have other : Semaphore.binary ≠ (role pid).takes := by cases role pid <;> decide
  have free : (shared.set (role pid).takes (shared.sem (role pid).takes - 1)).sem .binary =
      shared.sem .binary := by simp [Function.update_of_ne other]
  have first : (ProdConsMac.program role).step pid shared true (pcs' pid) =
      some (shared.set (role pid).takes (shared.sem (role pid).takes - 1),
        .waitBinary false, []) := by
    rw [here]
    exact ProdConsMac.wait_done token ..
  rw [← free] at binary ⊢
  exact Program.quiet_path_two first (ProdConsMac.wait_done binary ..)

omit [Fintype Pid] in
/-- `sem_post` twice. -/
theorem mac_leave {pcs' : Pid → ProdConsMac.Pc} (here : pcs' pid = .postBinary)
    (small : ∀ num, shared.sem num ≤ ELEMENTS) :
    (ProdConsMac.program role).machine.Path Program.noSignal (Program.quiet shared pcs')
      [.exec pid, .exec pid] []
      (Program.quiet ((shared.set .binary (shared.sem .binary + 1)).set (role pid).gives
        (shared.sem (role pid).gives + 1)) (Function.update pcs' pid .head)) := by
  have other : (role pid).gives ≠ Semaphore.binary := by cases role pid <;> decide
  have same : (shared.set .binary (shared.sem .binary + 1)).sem (role pid).gives =
      shared.sem (role pid).gives := by simp [Function.update_of_ne other]
  have first : (ProdConsMac.program role).step pid shared true (pcs' pid) =
      some (shared.set .binary (shared.sem .binary + 1), .postToken, []) := by
    rw [here]
    exact ProdConsMac.post_done (small .binary) _
  have room := small (role pid).gives
  rw [← same] at room ⊢
  exact Program.quiet_path_two first (ProdConsMac.post_done room _)

/-- Every step of prod_cons.c is answered by prod_cons_mac.c. -/
theorem Separated.answer {pcs : Pid → ProdCons.Pc} {pcs' : Pid → ProdConsMac.Pc}
    {pc : ProdCons.Pc} (separated : Separated role shared pcs shared' pcs')
    (stepped : ProdCons.step role pid shared true (pcs pid) = some (after, pc, emitted)) :
    ∃ moves shown after' pcs'', (ProdConsMac.program role).machine.Path Program.noSignal
        (Program.quiet shared' pcs') moves shown (Program.quiet after' pcs'') ∧
      shown.filterMap Event.line? = emitted.filterMap Event.line? ∧
      Separated role after (Function.update pcs pid pc) after' pcs'' := by
  have stands : pcs' pid = (pcs pid).separated := by rw [separated.pcs, Function.comp_apply]
  have moved := separated.move stepped
  obtain ⟨channel, consistent⟩ := separated.consistent
  obtain rfl := separated.shared
  cases here : pcs pid with
  | head =>
    simp only [here, ProdCons.step, ↓reduceIte, Option.some.injEq, Prod.mk.injEq] at stepped
    obtain ⟨rfl, rfl, rfl⟩ := stepped
    have answered : ProdConsMac.step role pid shared' true (pcs' pid) =
        some (shared', .waitToken false, []) := by
      rw [stands, here]
      rfl
    exact ⟨_, [], _, _, Program.quiet_path answered, rfl, moved⟩
  | entering asleep =>
    rw [here] at stepped
    obtain ⟨rfl, ⟨token, binary, rfl, rfl⟩ | ⟨rfl, rfl⟩⟩ := ProdCons.enter_cases stepped
    · exact ⟨_, [], _, _, mac_enter (by rw [stands, here]; rfl) token binary, rfl, moved⟩
    · have unmoved : Function.update pcs' pid (ProdConsMac.Pc.waitToken false) = pcs' := by
        rw [show ProdConsMac.Pc.waitToken false = pcs' pid by rw [stands, here]; rfl]
        exact Function.update_eq_self pid pcs'
      exact ⟨[], [], _, _, .start, rfl, unmoved ▸ moved⟩
  | inside point =>
    simp only [here, ProdCons.step, Option.some.injEq, Prod.mk.injEq] at stepped
    obtain ⟨rfl, rfl, rfl⟩ := stepped
    have next : ∀ next : Option Section,
        (next.elim (.leaving false) ProdCons.Pc.inside).separated =
          next.elim .postBinary .inside := by
      intro next
      cases next <;> rfl
    have answered : (ProdConsMac.program role).step pid shared' true (pcs' pid) =
        some ({ shared' with storage := (point.step pid shared'.storage).1 },
          (point.step pid shared'.storage).2.1.elim .postBinary .inside,
          (point.step pid shared'.storage).2.2) := by
      rw [stands, here]
      rfl
    rw [next] at moved
    exact ⟨_, _, _, _, Program.quiet_path answered, rfl, moved⟩
  | leaving asleep =>
    rw [here, ProdCons.step_leave (consistent.sem_lt _) (consistent.sem_lt _)] at stepped
    obtain ⟨rfl, rfl, rfl⟩ : _ ∧ _ ∧ _ := by simpa using stepped
    exact ⟨_, [], _, _, mac_leave (by rw [stands, here]; rfl) consistent.ledger.sem_le, rfl,
      moved⟩
  | exited status => simp [here, ProdCons.step] at stepped

/-- Without signals the two programs print the same lines in the same orders. -/
theorem same_traces (role : Pid → Role) :
    (ProdConsMac.program role).machine.traces Program.noSignal Event.line? =
      (ProdCons.program role).machine.traces Program.noSignal Event.line? := by
  apply Set.Subset.antisymm
  · exact (Program.simulates_quiet (Joined role) (Joined.initial role)
      Joined.answer).traces_subset
  · exact (Program.simulates_quiet (Separated role) (Separated.initial role)
      Separated.answer).traces_subset

end OsLabs.Lab03
