import OsLabs.RpcCalc.Effect

/-! The hand-over from `calculate_thread` to `calculate_1_svc`: the value is not
lost, the caller is not left asleep, and the worker is done with the shared data
before the caller destroys it. -/

namespace OsLabs.RpcCalc

universe u

namespace CallerPc

def locks : CallerPc → Bool
  | .test | .wait | .unlock => true
  | .malloc | .fill | .mutexInit | .condInit | .create | .lock | .asleep | .load | .cleanUp _ _
  | .returning | .finished => false

/-- What is left to undo. -/
def toUndo : CallerPc → List Teardown
  | .malloc | .fill | .mutexInit | .condInit | .create | .lock | .test | .wait | .asleep | .unlock
  | .load => everything
  | .cleanUp calls _ => calls
  | .returning | .finished => []

end CallerPc

variable {Num : Type u}

namespace WorkerPc

def locks : WorkerPc Num → Bool
  | .setDone | .signal | .unlock => true
  | .absent | .dispatch | .testZero | .loadFirst _ | .loadSecond _ _ | .store _ | .lock
  | .finished => false

/-- `is_done` has been set. -/
def done : WorkerPc Num → Bool
  | .signal | .unlock | .finished => true
  | .absent | .dispatch | .testZero | .loadFirst _ | .loadSecond _ _ | .store _ | .lock
  | .setDone => false

/-- The condition has been signalled. -/
def signalled : WorkerPc Num → Bool
  | .unlock | .finished => true
  | .absent | .dispatch | .testZero | .loadFirst _ | .loadSecond _ _ | .store _ | .lock
  | .setDone | .signal => false

/-- How far the value has got. -/
def Outline (arith : Arithmetic Num) (argp : CALCULATOR_ARGS Num) (data : ThreadData Num) :
    WorkerPc Num → Prop
  | .absent | .dispatch => True
  | .testZero => outcome arith argp =
      if arith.nonzero argp.arg2 then arith.div argp.arg1 argp.arg2 else arith.zero
  | .loadFirst operation => outcome arith argp = operation.apply arith argp.arg1 argp.arg2
  | .loadSecond operation left => outcome arith argp = operation.apply arith left argp.arg2
  | .store value => outcome arith argp = value
  | .lock | .setDone | .signal | .unlock | .finished => outcome arith argp = data.result

end WorkerPc

/-- What the shared data hold once they have been filled in. -/
structure Filled (argp : CALCULATOR_ARGS Num) (data : ThreadData Num) : Prop where
  op : data.op = argp.op
  arg1 : data.arg1 = argp.arg1
  arg2 : data.arg2 = argp.arg2

/-- What holds at a point of the worker. -/
structure Working (arith : Arithmetic Num) (argp : CALCULATOR_ARGS Num) (data : ThreadData Num)
    (pc : WorkerPc Num) : Prop where
  filled : Filled argp data
  isDone : data.isDone ≠ 0 ↔ pc.done = true
  outline : pc.Outline arith argp data

/-- How far the worker is while the caller is at a point of its program. -/
def CallerPc.Meets (arith : Arithmetic Num) (argp : CALCULATOR_ARGS Num) (worker : WorkerPc Num)
    (data : ThreadData Num) (result : Num) : CallerPc → Prop
  | .malloc | .fill => worker = .absent
  | .mutexInit | .condInit | .create => worker = .absent ∧ Filled argp data ∧ data.isDone = 0
  | .lock | .test => worker ≠ .absent
  | .wait => worker ≠ .absent ∧ data.isDone = 0
  | .asleep => worker ≠ .absent ∧ worker.signalled = false
  | .unlock | .load => worker = .finished
  | .cleanUp _ true => worker = .absent
  | .cleanUp _ false => worker = .finished ∧ result = outcome arith argp
  | .returning | .finished =>
    worker = .absent ∨ worker = .finished ∧ result = outcome arith argp

structure Consistent (arith : Arithmetic Num) (argp : CALCULATOR_ARGS Num) (state : State Num) :
    Prop where
  callerLocks : state.mutex = some .caller ↔ state.caller.locks = true
  workerLocks : state.mutex = some .worker ↔ state.worker.locks = true
  meets : state.caller.Meets arith argp state.worker state.data state.result
  working : state.worker ≠ .absent → Working arith argp state.data state.worker

variable {arith : Arithmetic Num} {argp : CALCULATOR_ARGS Num} {failures : Failures}
variable {state after : State Num} {emitted : List (Event Num)}

theorem dispatched_outline (arith : Arithmetic Num) (argp : CALCULATOR_ARGS Num)
    (data : ThreadData Num) : (dispatched arith argp.op).Outline arith argp data := by
  unfold dispatched
  split_ifs with add sub mul div
  · change outcome arith argp = arith.add argp.arg1 argp.arg2
    rw [outcome, if_pos add]
  · change outcome arith argp = arith.sub argp.arg1 argp.arg2
    rw [outcome, if_neg add, if_pos sub]
  · change outcome arith argp = arith.mul argp.arg1 argp.arg2
    rw [outcome, if_neg add, if_neg sub, if_pos mul]
  · change outcome arith argp =
      if arith.nonzero argp.arg2 then arith.div argp.arg1 argp.arg2 else arith.zero
    rw [outcome, if_neg add, if_neg sub, if_neg mul, if_pos div]
  · change outcome arith argp = arith.zero
    rw [outcome, if_neg add, if_neg sub, if_neg mul, if_neg div]

/-- The steps that read the data keep the worker before the mutex. -/
theorem Computes.early (next : Computes arith data pc pc') :
    (pc ≠ .absent ∧ pc ≠ .finished ∧ pc.locks = false ∧ pc.done = false) ∧
      pc' ≠ .absent ∧ pc'.locks = false ∧ pc'.done = false ∧ pc'.signalled = false := by
  cases next with
  | dispatch =>
    unfold dispatched
    split_ifs <;> simp [WorkerPc.locks, WorkerPc.done, WorkerPc.signalled]
  | nonzero | zero | loadFirst | loadSecond =>
    simp [WorkerPc.locks, WorkerPc.done, WorkerPc.signalled]

theorem Computes.outline (next : Computes arith data pc pc') (filled : Filled argp data)
    (outline : pc.Outline arith argp data) : pc'.Outline arith argp data := by
  cases next with
  | dispatch =>
    rw [filled.op]
    exact dispatched_outline arith argp data
  | nonzero divides =>
    rw [filled.arg2] at divides
    simpa [WorkerPc.Outline, Operation.apply, divides] using outline
  | zero refuses =>
    rw [filled.arg2] at refuses
    simpa [WorkerPc.Outline, refuses] using outline
  | loadFirst operation =>
    change outcome arith argp = operation.apply arith data.arg1 argp.arg2
    rw [filled.arg1]
    exact outline
  | loadSecond operation left =>
    change outcome arith argp = operation.apply arith left data.arg2
    rw [filled.arg2]
    exact outline

theorem Prepares.meets (next : Prepares pc pc')
    (meets : pc.Meets arith argp worker data result) :
    worker = .absent ∧ pc'.Meets arith argp worker data result ∧ pc.locks = false ∧
      pc'.locks = false := by
  cases next with
  | malloc | mallocFailed => exact ⟨meets, meets, rfl, rfl⟩
  | mutexInit | condInit => exact ⟨meets.1, meets, rfl, rfl⟩
  | mutexInitFailed | condInitFailed | createFailed => exact ⟨meets.1, meets.1, rfl, rfl⟩

theorem State.locked_eq_none (blocked : state.locked role = none) : state.mutex ≠ none := by
  intro free
  simp [State.locked, free] at blocked

theorem calculate1Svc_eq_none (stuck : calculate1Svc arith argp failures state = none) :
    state.caller = .finished ∨ state.caller = .asleep ∨
      (state.caller = .lock ∧ state.mutex ≠ none) := by
  unfold calculate1Svc at stuck
  cases here : state.caller with
  | finished => exact .inl rfl
  | asleep => exact .inr (.inl rfl)
  | lock =>
    simp only [here, Option.map_eq_none_iff] at stuck
    exact .inr (.inr ⟨rfl, State.locked_eq_none stuck⟩)
  | create =>
    simp only [here] at stuck
    split at stuck <;> cases stuck
  | cleanUp calls failed => cases calls <;> simp [here] at stuck
  | malloc | fill | mutexInit | condInit | test | wait | unlock | load | returning =>
    simp [here] at stuck

theorem calculateThread_eq_none (stuck : calculateThread arith state = none) :
    state.worker = .absent ∨ state.worker = .finished ∨
      (state.worker = .lock ∧ state.mutex ≠ none) := by
  unfold calculateThread at stuck
  cases here : state.worker with
  | absent => exact .inl rfl
  | finished => exact .inr (.inl rfl)
  | lock =>
    simp only [here, Option.map_eq_none_iff] at stuck
    exact .inr (.inr ⟨rfl, State.locked_eq_none stuck⟩)
  | dispatch | testZero | loadFirst operation | loadSecond operation left | store value | setDone
  | signal | unlock => simp [here] at stuck

namespace Consistent

theorem initial (arith : Arithmetic Num) (argp : CALCULATOR_ARGS Num) (failures : Failures) :
    Consistent arith argp (machine arith argp failures).init where
  callerLocks := by simp [machine, CallerPc.locks]
  workerLocks := by simp [machine, WorkerPc.locks]
  meets := rfl
  working present := absurd rfl present

/-- A step of the caller that leaves the data and the mutex alone. -/
theorem move (consistent : Consistent arith argp state) (locks : pc.locks = state.caller.locks)
    (meets : pc.Meets arith argp state.worker state.data result) :
    Consistent arith argp { state with caller := pc, result := result } where
  callerLocks := consistent.callerLocks.trans (by rw [locks])
  workerLocks := consistent.workerLocks
  meets := meets
  working := consistent.working

/-- A step of the worker that leaves the mutex alone. -/
theorem work (consistent : Consistent arith argp state) (locks : pc.locks = state.worker.locks)
    (meets : state.caller.Meets arith argp pc data state.result)
    (working : Working arith argp data pc) :
    Consistent arith argp { state with worker := pc, data := data } where
  callerLocks := consistent.callerLocks
  workerLocks := consistent.workerLocks.trans (by rw [locks])
  meets := meets
  working _ := working

/-- While the worker is between its creation and its end, the caller waits for it. -/
theorem waiting (consistent : Consistent arith argp state) (present : state.worker ≠ .absent)
    (busy : state.worker ≠ .finished) :
    state.caller = .lock ∨ state.caller = .test ∨
      (state.caller = .wait ∧ state.data.isDone = 0) ∨
      (state.caller = .asleep ∧ state.worker.signalled = false) := by
  have meets := consistent.meets
  cases here : state.caller with
  | lock => exact .inl rfl
  | test => exact .inr (.inl rfl)
  | wait =>
    rw [here] at meets
    exact .inr (.inr (.inl ⟨rfl, meets.2⟩))
  | asleep =>
    rw [here] at meets
    exact .inr (.inr (.inr ⟨rfl, meets.2⟩))
  | malloc | fill =>
    rw [here] at meets
    exact absurd meets present
  | mutexInit | condInit | create =>
    rw [here] at meets
    exact absurd meets.1 present
  | unlock | load =>
    rw [here] at meets
    exact absurd meets busy
  | cleanUp calls failed =>
    rw [here] at meets
    cases failed with
    | true => exact absurd meets present
    | false => exact absurd meets.1 busy
  | returning | finished =>
    rw [here] at meets
    rcases meets with gone | ⟨ended, _⟩
    · exact absurd gone present
    · exact absurd ended busy

/-- A step of the worker before it signals does not concern the caller, unless it
sets `is_done`. -/
theorem kept (consistent : Consistent arith argp state) (present : state.worker ≠ .absent)
    (busy : state.worker ≠ .finished) (stays : pc ≠ .absent) (silent : pc.signalled = false)
    (isDone : state.caller = .wait → data.isDone = state.data.isDone) :
    state.caller.Meets arith argp pc data state.result := by
  rcases consistent.waiting present busy with here | here | ⟨here, unset⟩ | ⟨here, _⟩
  · rw [here]
    exact stays
  · rw [here]
    exact stays
  · have same := isDone here
    rw [here]
    exact ⟨stays, same.trans unset⟩
  · rw [here]
    exact ⟨stays, silent⟩

/-- While the worker has the mutex, the caller is outside, awake or asleep. -/
theorem outside (consistent : Consistent arith argp state) (locks : state.worker.locks = true) :
    state.caller = .lock ∨ (state.caller = .asleep ∧ state.worker.signalled = false) := by
  have owner := consistent.workerLocks.mpr locks
  have out : ¬ state.caller.locks = true := by
    rw [← consistent.callerLocks, owner]
    decide
  have present : state.worker ≠ .absent := by
    intro gone
    rw [gone] at locks
    cases locks
  have busy : state.worker ≠ .finished := by
    intro ended
    rw [ended] at locks
    cases locks
  rcases consistent.waiting present busy with here | here | ⟨here, _⟩ | here
  · exact .inl here
  · exact absurd (by rw [here]; rfl) out
  · exact absurd (by rw [here]; rfl) out
  · exact .inr here

/-- What holds at the point where the worker is. -/
theorem at_worker (consistent : Consistent arith argp state) (here : state.worker = pc)
    (present : pc ≠ .absent) : Working arith argp state.data pc := by
  subst here
  exact consistent.working present

/-- A caller that has the mutex and sees `is_done` finds the worker gone. -/
theorem workerEnded (consistent : Consistent arith argp state) (present : state.worker ≠ .absent)
    (locks : state.caller.locks = true) (set : state.data.isDone ≠ 0) :
    state.worker = .finished := by
  have done := (consistent.working present).isDone.mp set
  have out : ¬ state.worker.locks = true := by
    rw [← consistent.workerLocks, consistent.callerLocks.mpr locks]
    decide
  cases here : state.worker with
  | finished => rfl
  | signal | unlock =>
    rw [here] at out
    exact absurd rfl out
  | absent | dispatch | testZero | loadFirst _ | loadSecond _ _ | store _ | lock | setDone =>
    rw [here] at done
    cases done

/-- The caller gives up the mutex and falls asleep before `is_done` is set. -/
theorem sleep (consistent : Consistent arith argp state) (here : state.caller = .wait) :
    Consistent arith argp { state with mutex := none, caller := .asleep } := by
  have meets := consistent.meets
  rw [here] at meets
  obtain ⟨present, unset⟩ := meets
  have owner := consistent.callerLocks.mpr (by rw [here]; rfl)
  have out := consistent.workerLocks
  have early := (consistent.working present).isDone
  rw [owner] at out
  refine ⟨by simp [CallerPc.locks], by simpa using out, ⟨present, ?_⟩, consistent.working⟩
  cases worker : state.worker with
  | unlock | finished =>
    rw [worker] at early
    exact absurd unset (early.mpr rfl)
  | absent | dispatch | testZero | loadFirst _ | loadSecond _ _ | store _ | lock | setDone
  | signal => rfl

theorem setDone (consistent : Consistent arith argp state) (here : state.worker = .setDone) :
    Consistent arith argp
      { state with worker := .signal, data := { state.data with isDone := 1 } } := by
  obtain ⟨⟨op, arg1, arg2⟩, _, outline⟩ := consistent.at_worker here (by simp)
  have met :
      state.caller.Meets arith argp .signal { state.data with isDone := 1 } state.result := by
    refine consistent.kept (by simp [here]) (by simp [here]) (by simp) rfl fun waits => ?_
    rcases consistent.outside (by rw [here]; rfl) with other | ⟨other, _⟩
    · rw [other] at waits
      cases waits
    · rw [other] at waits
      cases waits
  exact consistent.work (by rw [here]; rfl) met
    ⟨⟨op, arg1, arg2⟩, by simp [WorkerPc.done], outline⟩

/-- A caller that sleeps is woken up, and no caller is left asleep. -/
theorem signal (consistent : Consistent arith argp state) (here : state.worker = .signal) :
    Consistent arith argp
      { state with caller := state.caller.woken, worker := .unlock } := by
  obtain ⟨filled, isDone, outline⟩ := consistent.at_worker here (by simp)
  have owner := consistent.workerLocks.mpr (by rw [here]; rfl)
  have awake : state.caller.woken = .lock := by
    rcases consistent.outside (by rw [here]; rfl) with other | ⟨other, _⟩
    · rw [other]
      rfl
    · rw [other]
      rfl
  refine ⟨?_, ?_, ?_, fun _ => ⟨filled, isDone, outline⟩⟩
  · rw [awake, owner]
    simp [CallerPc.locks]
  · exact consistent.workerLocks.trans (by rw [here]; rfl)
  · rw [awake]
    simp [CallerPc.Meets]

/-- Every step keeps the caller and the worker consistent. -/
theorem step (consistent : Consistent arith argp state)
    (effect : Effect arith argp state action after emitted) : Consistent arith argp after := by
  have meets := consistent.meets
  cases effect with
  | prepares next =>
    obtain ⟨_, met, before, behind⟩ := next.meets meets
    exact consistent.move (behind.trans before.symm) met
  | fill here =>
    rw [here] at meets
    have gone : state.worker = .absent := meets
    exact ⟨consistent.callerLocks.trans (by rw [here]; rfl), consistent.workerLocks,
      ⟨gone, ⟨rfl, rfl, rfl⟩, rfl⟩, fun present => absurd gone present⟩
  | create here =>
    rw [here] at meets
    obtain ⟨gone, filled, unset⟩ := meets
    have stays : WorkerPc.dispatch ≠ (.absent : WorkerPc Num) := by simp
    refine ⟨consistent.callerLocks.trans (by rw [here]; rfl),
      consistent.workerLocks.trans (by rw [gone]; rfl), stays, fun _ => ?_⟩
    exact ⟨filled, by simp [unset, WorkerPc.done], trivial⟩
  | lock here free =>
    rw [here] at meets
    refine ⟨by simp [CallerPc.locks], ?_, meets, consistent.working⟩
    have out := consistent.workerLocks
    rw [free] at out
    simpa using out
  | notDone here waits =>
    rw [here] at meets
    exact consistent.move (by rw [here]; rfl) ⟨meets, waits⟩
  | done here set =>
    rw [here] at meets
    exact consistent.move (by rw [here]; rfl) (consistent.workerEnded meets (by rw [here]; rfl) set)
  | wait here => exact consistent.sleep here
  | unlock here =>
    rw [here] at meets
    have gone : state.worker = .finished := meets
    exact ⟨by simp [CallerPc.locks], by simp [gone, WorkerPc.locks], gone, consistent.working⟩
  | load here =>
    rw [here] at meets
    have gone : state.worker = .finished := meets
    have outline := (consistent.working (by simp [gone])).outline
    rw [gone] at outline
    exact consistent.move (by rw [here]; rfl) ⟨gone, outline.symm⟩
  | tearDown here =>
    rw [here] at meets
    refine consistent.move (by rw [here]; rfl) ?_
    rename_i failed
    cases failed <;> exact meets
  | @leave failed here =>
    rw [here] at meets
    refine consistent.move (by rw [here]; rfl) ?_
    cases failed with
    | true => exact .inl meets
    | false => exact .inr meets
  | «return» here =>
    rw [here] at meets
    exact consistent.move (by rw [here]; rfl) meets
  | computes next =>
    obtain ⟨⟨present, busy, locks, early⟩, stays, locks', early', silent⟩ := next.early
    have working := consistent.working present
    refine consistent.work (locks'.trans locks.symm)
      (consistent.kept present busy stays silent fun _ => rfl) ⟨working.filled, ?_,
      next.outline working.filled working.outline⟩
    rw [working.isDone, early, early']
  | store here =>
    obtain ⟨⟨op, arg1, arg2⟩, isDone, outline⟩ := consistent.at_worker here (by simp)
    exact consistent.work (by rw [here]; rfl)
      (consistent.kept (by simp [here]) (by simp [here]) (by simp) rfl fun _ => rfl)
      ⟨⟨op, arg1, arg2⟩, isDone, outline⟩
  | workerLock here free =>
    obtain ⟨filled, isDone, outline⟩ := consistent.at_worker here (by simp)
    have out := consistent.callerLocks
    rw [free] at out
    exact ⟨by simpa using out, by simp [WorkerPc.locks],
      consistent.kept (by simp [here]) (by simp [here]) (by simp) rfl fun _ => rfl,
      fun _ => ⟨filled, isDone, outline⟩⟩
  | setDone here => exact consistent.setDone here
  | signal here => exact consistent.signal here
  | workerUnlock here =>
    obtain ⟨filled, isDone, outline⟩ := consistent.at_worker here (by simp)
    have outside : state.caller = .lock := by
      rcases consistent.outside (by rw [here]; rfl) with other | ⟨_, silent⟩
      · exact other
      · rw [here] at silent
        cases silent
    refine ⟨?_, by simp [WorkerPc.locks], ?_, fun _ => ⟨filled, isDone, outline⟩⟩
    · rw [outside]
      simp [CallerPc.locks]
    · rw [outside]
      simp [CallerPc.Meets]
  | spurious here =>
    rw [here] at meets
    exact consistent.move (by rw [here]; rfl) meets.1

theorem ofRun (run : (machine arith argp failures).Run Machine.anything actions events state) :
    Consistent arith argp state :=
  run.invariant (fun _ state => Consistent arith argp state) (.initial arith argp failures)
    fun _ _ _ _ _ consistent _ taken => consistent.step (next_effect taken)

/-- When neither thread can go on, the caller has returned. -/
theorem ends (consistent : Consistent arith argp state)
    (caller : calculate1Svc arith argp failures state = none)
    (worker : calculateThread arith state = none) : state.caller = .finished := by
  have taken : state.mutex ≠ none → state.worker.locks = false → state.caller.locks = true := by
    intro held out
    cases owner : state.mutex with
    | none => exact absurd owner held
    | some role =>
      cases role with
      | caller => exact consistent.callerLocks.mp owner
      | worker =>
        rw [consistent.workerLocks.mp owner] at out
        cases out
  have out : state.worker.locks = false := by
    rcases calculateThread_eq_none worker with here | here | ⟨here, _⟩
    · rw [here]
      rfl
    · rw [here]
      rfl
    · rw [here]
      rfl
  rcases calculate1Svc_eq_none caller with here | here | ⟨here, held⟩
  · exact here
  · have meets := consistent.meets
    rw [here] at meets
    obtain ⟨present, silent⟩ := meets
    rcases calculateThread_eq_none worker with gone | ended | ⟨_, held⟩
    · exact absurd gone present
    · rw [ended] at silent
      cases silent
    · have locks := taken held out
      rw [here] at locks
      cases locks
  · have locks := taken held out
    rw [here] at locks
    cases locks

end Consistent

/-- The calls that have undone something. -/
def Event.undone? : Event Num → Option Teardown
  | .tornDown call => some call
  | .created | .touched | .returned _ => none

def undone (events : List (Event Num)) : List Teardown := events.filterMap Event.undone?

/-- What the events say about the state that has been reached. -/
structure Shown (events : List (Event Num)) (state : State Num) : Prop where
  created : .created ∈ events ↔ state.worker ≠ .absent
  ordered : (undone events ++ state.caller.toUndo).Sublist everything
  complete : state.worker ≠ .absent → undone events ++ state.caller.toUndo = everything
  returned : ∀ value, .returned value ∈ events ↔ state.caller = .finished ∧ value = state.result

/-- A bound on the steps that are left, spurious wake-ups aside. -/
def CallerPc.remaining : CallerPc → Nat
  | .malloc => 16
  | .fill => 15
  | .mutexInit => 14
  | .condInit => 13
  | .create => 12
  | .lock => 11
  | .test => 10
  | .wait => 9
  | .asleep => 8
  | .unlock => 7
  | .load => 6
  | .cleanUp calls _ => 2 + calls.length
  | .returning => 1
  | .finished => 0

def WorkerPc.remaining : WorkerPc Num → Nat
  | .absent => 10
  | .dispatch => 9
  | .testZero => 8
  | .loadFirst _ => 7
  | .loadSecond _ _ => 6
  | .store _ => 5
  | .lock => 4
  | .setDone => 3
  | .signal => 2
  | .unlock => 1
  | .finished => 0

/-- A signal may cost the caller one more round of its loop. -/
def State.remaining (state : State Num) : Nat :=
  state.caller.remaining + 4 * state.worker.remaining

theorem Prepares.remaining (next : Prepares pc pc') : pc'.remaining < pc.remaining := by
  cases next <;> decide

theorem Computes.remaining (next : Computes arith data pc pc') :
    pc'.remaining < pc.remaining := by
  cases next with
  | dispatch =>
    unfold dispatched
    split_ifs <;> simp [WorkerPc.remaining]
  | nonzero | zero | loadFirst | loadSecond => simp [WorkerPc.remaining]

theorem CallerPc.woken_remaining (pc : CallerPc) : pc.woken.remaining ≤ pc.remaining + 3 := by
  cases pc <;> simp [CallerPc.woken, CallerPc.remaining]

/-- Only a spurious wake-up puts off the end. -/
theorem Effect.remaining (effect : Effect arith argp state action after emitted)
    (consistent : Consistent arith argp state) :
    after.remaining + 1 ≤ state.remaining + 4 * [action].count .spurious := by
  have meets := consistent.meets
  unfold State.remaining
  cases effect with
  | prepares next =>
    have less := next.remaining
    simp only [List.count_singleton]
    omega
  | computes next =>
    have less := next.remaining
    simp only [List.count_singleton]
    omega
  | create here =>
    rw [here] at meets
    simp [here, meets.1, CallerPc.remaining, WorkerPc.remaining]
  | signal here =>
    have woken := state.caller.woken_remaining
    simp only [here, WorkerPc.remaining, List.count_singleton]
    omega
  | tearDown here | leave here =>
    simp only [here, CallerPc.remaining, List.length_cons, List.length_nil]
    omega
  | spurious here =>
    simp only [here, CallerPc.remaining, List.count_singleton_self]
    omega
  | fill here | lock here free | notDone here waits | done here set | wait here | unlock here
  | load here | «return» here =>
    simp only [here, CallerPc.remaining, everything, List.length_cons, List.length_nil]
    omega
  | store here | workerLock here free | setDone here | workerUnlock here =>
    simp [here, WorkerPc.remaining]

theorem undone_append (events emitted : List (Event Num)) :
    undone (events ++ emitted) = undone events ++ undone emitted := List.filterMap_append

namespace Shown

theorem initial (arith : Arithmetic Num) (argp : CALCULATOR_ARGS Num) (failures : Failures) :
    Shown [] (machine arith argp failures).init where
  created := by simp [machine]
  ordered := List.Sublist.refl _
  complete present := absurd rfl present
  returned _ := by simp [machine]

/-- A step that shows nothing but an access of the worker. -/
theorem move (shown : Shown events state) (quiet : undone emitted = [])
    (others : ∀ event ∈ emitted, event = .touched)
    (present : after.worker = .absent ↔ state.worker = .absent)
    (toUndo : after.caller.toUndo.Sublist state.caller.toUndo)
    (kept : state.worker ≠ .absent → after.caller.toUndo = state.caller.toUndo)
    (running : state.caller ≠ .finished) (on : after.caller ≠ .finished) :
    Shown (events ++ emitted) after where
  created := by
    have silent : .created ∉ emitted := fun member => by cases others _ member
    rw [List.mem_append, shown.created]
    simp [silent, present]
  ordered := by
    rw [undone_append, quiet, List.append_nil]
    exact (List.Sublist.append_left toUndo _).trans shown.ordered
  complete here := by
    have before := present.not.mp here
    rw [undone_append, quiet, List.append_nil, kept before]
    exact shown.complete before
  returned value := by
    have silent : .returned value ∉ emitted := fun member => by cases others _ member
    rw [List.mem_append, shown.returned]
    simp [silent, running, on]

/-- A step of the worker, before which the caller has undone nothing. -/
theorem work (shown : Shown events state) (consistent : Consistent arith argp state)
    (present : state.worker ≠ .absent) (busy : state.worker ≠ .finished)
    (stays : after.worker ≠ .absent)
    (kept : after.caller = state.caller ∨ after.caller = state.caller.woken) :
    Shown (events ++ [.touched]) after := by
  have running : state.caller ≠ .finished ∧ after.caller ≠ .finished ∧
      after.caller.toUndo = state.caller.toUndo := by
    rcases consistent.waiting present busy with here | here | ⟨here, _⟩ | ⟨here, _⟩ <;>
      rcases kept with kept | kept <;> rw [kept, here] <;>
        exact ⟨by simp, by simp [CallerPc.woken], rfl⟩
  obtain ⟨running, on, same⟩ := running
  exact shown.move rfl (by simp) (by simp [present, stays]) (same ▸ List.Sublist.refl _)
    (fun _ => same) running on

theorem step (shown : Shown events state) (consistent : Consistent arith argp state)
    (effect : Effect arith argp state action after emitted) : Shown (events ++ emitted) after := by
  have meets := consistent.meets
  cases effect with
  | @prepares pc next =>
    obtain ⟨gone, _⟩ := next.meets meets
    have fewer : pc.toUndo.Sublist state.caller.toUndo ∧ state.caller ≠ .finished ∧
        pc ≠ .finished := by
      generalize state.caller = before at next
      cases next <;> exact ⟨by decide, by simp, by simp⟩
    obtain ⟨fewer, running, on⟩ := fewer
    exact shown.move rfl (by simp) Iff.rfl fewer (fun present => absurd gone present) running on
  | fill here | lock here free | notDone here waits | done here set | wait here | unlock here
  | load here | leave here | spurious here =>
    exact shown.move rfl (by simp) Iff.rfl (by rw [here]; exact List.Sublist.refl _)
      (fun _ => by rw [here]; rfl) (by simp [here]) (by simp)
  | create here =>
    rw [here] at meets
    have ordered := shown.ordered
    rw [here] at ordered
    have nothing : undone events = [] := by
      have short := ordered.length_le
      simpa [CallerPc.toUndo, everything] using short
    refine ⟨by simp, ?_, fun _ => ?_, fun value => ?_⟩
    · rw [undone_append, nothing]
      exact List.Sublist.refl _
    · rw [undone_append, nothing]
      rfl
    · simp [shown.returned, here]
  | @tearDown call calls failed here =>
    have joined : undone (events ++ [.tornDown call]) ++ calls =
        undone events ++ state.caller.toUndo := by
      rw [undone_append, here, List.append_assoc]
      rfl
    refine ⟨by simpa using shown.created, ?_, fun present => ?_, fun value => ?_⟩
    · exact joined ▸ shown.ordered
    · exact joined.trans (shown.complete present)
    · simp [shown.returned, here]
  | «return» here =>
    have same : undone (events ++ [.returned state.result]) ++ CallerPc.finished.toUndo =
        undone events ++ state.caller.toUndo := by
      rw [undone_append, here]
      exact List.append_nil _
    refine ⟨by simpa using shown.created, ?_, fun present => ?_, fun value => ?_⟩
    · exact same ▸ shown.ordered
    · exact same.trans (shown.complete present)
    · simp [shown.returned, here]
  | computes next =>
    obtain ⟨⟨present, busy, _⟩, stays, _⟩ := next.early
    exact shown.work consistent present busy stays (.inl rfl)
  | store here | workerLock here free | setDone here | workerUnlock here =>
    exact shown.work consistent (by simp [here]) (by simp [here]) (by simp) (.inl rfl)
  | signal here =>
    exact shown.work consistent (by simp [here]) (by simp [here]) (by simp) (.inr rfl)

theorem ofRun (run : (machine arith argp failures).Run Machine.anything actions events state) :
    Shown events state := by
  refine (run.invariant (fun events state => Consistent arith argp state ∧ Shown events state)
    ⟨.initial arith argp failures, .initial arith argp failures⟩ ?_).2
  intro events state action after emitted holds _ taken
  have effect := next_effect taken
  exact ⟨holds.1.step effect, holds.2.step holds.1 effect⟩

end Shown

/-- What the worker touches is still there. -/
theorem Shown.untouched (shown : Shown events state) (consistent : Consistent arith argp state)
    (effect : Effect arith argp state action after emitted) (touched : .touched ∈ emitted) :
    emitted = [.touched] ∧ undone events = [] := by
  have busy : emitted = [.touched] ∧ state.worker ≠ .absent ∧ state.worker ≠ .finished := by
    cases effect with
    | computes next =>
      obtain ⟨⟨present, busy, _⟩, _⟩ := next.early
      exact ⟨rfl, present, busy⟩
    | store here | workerLock here free | setDone here | signal here | workerUnlock here =>
      exact ⟨rfl, by simp [here], by simp [here]⟩
    | _ => simp at touched
  obtain ⟨same, present, running⟩ := busy
  refine ⟨same, ?_⟩
  have whole : state.caller.toUndo = everything := by
    rcases consistent.waiting present running with here | here | ⟨here, _⟩ | ⟨here, _⟩ <;>
      rw [here] <;> rfl
  have complete := shown.complete present
  rw [whole] at complete
  simpa using complete

/-- The caller is woken up once too early, while the worker computes. -/
def tooEarly : List Action :=
  List.replicate 8 .caller ++ [.worker, .spurious] ++ List.replicate 3 .caller ++
    List.replicate 7 .worker ++ List.replicate 9 .caller

end OsLabs.RpcCalc
