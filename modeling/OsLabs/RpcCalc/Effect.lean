import OsLabs.RpcCalc.Server

/-! What one step of the caller or the worker does. The invariants are proved from
this, so that none of them has to unfold the two programs. -/

namespace OsLabs.RpcCalc

universe u

variable {Num : Type u}

/-- The calls before the hand-over that change nothing but the program point. -/
inductive Prepares : CallerPc → CallerPc → Prop where
  | malloc : Prepares .malloc .fill
  | mallocFailed : Prepares .malloc (.cleanUp [] true)
  | mutexInit : Prepares .mutexInit .condInit
  | mutexInitFailed : Prepares .mutexInit (.cleanUp [.free] true)
  | condInit : Prepares .condInit .create
  | condInitFailed : Prepares .condInit (.cleanUp [.mutexDestroy, .free] true)
  | createFailed : Prepares .create (.cleanUp everything true)

/-- The steps of the worker that read the data only. -/
inductive Computes (arith : Arithmetic Num) (data : ThreadData Num) :
    WorkerPc Num → WorkerPc Num → Prop where
  | dispatch : Computes arith data .dispatch (dispatched arith data.op)
  | nonzero (divides : arith.nonzero data.arg2 = true) :
    Computes arith data .testZero (.loadFirst .div)
  | zero (refuses : arith.nonzero data.arg2 = false) :
    Computes arith data .testZero (.store arith.zero)
  | loadFirst (operation : Operation) :
    Computes arith data (.loadFirst operation) (.loadSecond operation data.arg1)
  | loadSecond (operation : Operation) (left : Num) :
    Computes arith data (.loadSecond operation left)
      (.store (operation.apply arith left data.arg2))

/-- What one step does. -/
inductive Effect (arith : Arithmetic Num) (argp : CALCULATOR_ARGS Num) (state : State Num) :
    Action → State Num → List (Event Num) → Prop where
  | prepares (next : Prepares state.caller pc) :
    Effect arith argp state .caller { state with caller := pc } []
  | fill (here : state.caller = .fill) :
    Effect arith argp state .caller { state with
      data := ⟨argp.op, argp.arg1, argp.arg2, arith.zero, 0⟩, caller := .mutexInit } []
  | create (here : state.caller = .create) :
    Effect arith argp state .caller { state with caller := .lock, worker := .dispatch } [.created]
  | lock (here : state.caller = .lock) (free : state.mutex = none) :
    Effect arith argp state .caller { state with mutex := some .caller, caller := .test } []
  | notDone (here : state.caller = .test) (waits : state.data.isDone = 0) :
    Effect arith argp state .caller { state with caller := .wait } []
  | done (here : state.caller = .test) (ended : state.data.isDone ≠ 0) :
    Effect arith argp state .caller { state with caller := .unlock } []
  | wait (here : state.caller = .wait) :
    Effect arith argp state .caller { state with mutex := none, caller := .asleep } []
  | unlock (here : state.caller = .unlock) :
    Effect arith argp state .caller { state with mutex := none, caller := .load } []
  | load (here : state.caller = .load) :
    Effect arith argp state .caller
      { state with result := state.data.result, caller := .cleanUp everything false } []
  | tearDown (here : state.caller = .cleanUp (call :: calls) failed) :
    Effect arith argp state .caller { state with caller := .cleanUp calls failed }
      [.tornDown call]
  | leave (here : state.caller = .cleanUp [] failed) :
    Effect arith argp state .caller { state with
      result := if failed then arith.zero else state.result, caller := .returning } []
  | return (here : state.caller = .returning) :
    Effect arith argp state .caller { state with caller := .finished } [.returned state.result]
  | computes (next : Computes arith state.data state.worker pc) :
    Effect arith argp state .worker { state with worker := pc } [.touched]
  | store (here : state.worker = .store value) :
    Effect arith argp state .worker
      { state with data := { state.data with result := value }, worker := .lock } [.touched]
  | workerLock (here : state.worker = .lock) (free : state.mutex = none) :
    Effect arith argp state .worker { state with mutex := some .worker, worker := .setDone }
      [.touched]
  | setDone (here : state.worker = .setDone) :
    Effect arith argp state .worker
      { state with data := { state.data with isDone := 1 }, worker := .signal } [.touched]
  | signal (here : state.worker = .signal) :
    Effect arith argp state .worker
      { state with caller := state.caller.woken, worker := .unlock } [.touched]
  | workerUnlock (here : state.worker = .unlock) :
    Effect arith argp state .worker { state with mutex := none, worker := .finished } [.touched]
  | spurious (here : state.caller = .asleep) :
    Effect arith argp state .spurious { state with caller := .lock } []

variable {arith : Arithmetic Num} {argp : CALCULATOR_ARGS Num} {failures : Failures}
variable {state after : State Num} {emitted : List (Event Num)}

theorem State.locked_eq_some (taken : state.locked role = some after) :
    state.mutex = none ∧ after = { state with mutex := some role } := by
  unfold State.locked at taken
  split at taken
  · exact ⟨‹_›, (Option.some.inj taken).symm⟩
  · cases taken

theorem calculate1Svc_effect
    (taken : calculate1Svc arith argp failures state = some (after, emitted)) :
    Effect arith argp state .caller after emitted := by
  unfold calculate1Svc at taken
  cases here : state.caller with
  | malloc =>
    obtain ⟨rfl, rfl⟩ : _ ∧ _ := by simpa [here] using taken
    refine .prepares ?_
    rw [here]
    split
    · exact .mallocFailed
    · exact .malloc
  | mutexInit =>
    obtain ⟨rfl, rfl⟩ : _ ∧ _ := by simpa [here] using taken
    refine .prepares ?_
    rw [here]
    split
    · exact .mutexInitFailed
    · exact .mutexInit
  | condInit =>
    obtain ⟨rfl, rfl⟩ : _ ∧ _ := by simpa [here] using taken
    refine .prepares ?_
    rw [here]
    split
    · exact .condInitFailed
    · exact .condInit
  | create =>
    simp only [here] at taken
    split at taken
    · obtain ⟨rfl, rfl⟩ : _ ∧ _ := by simpa using taken
      exact .prepares (here ▸ .createFailed)
    · obtain ⟨rfl, rfl⟩ : _ ∧ _ := by simpa using taken
      exact .create here
  | lock =>
    simp only [here] at taken
    obtain ⟨locked, lock, same⟩ := Option.map_eq_some_iff.mp taken
    obtain ⟨free, rfl⟩ := State.locked_eq_some lock
    obtain ⟨rfl, rfl⟩ := Prod.mk.inj same
    exact .lock here free
  | test =>
    obtain ⟨rfl, rfl⟩ : _ ∧ _ := by simpa [here] using taken
    split
    · exact .notDone here ‹_›
    · exact .done here ‹_›
  | cleanUp calls failed =>
    cases calls with
    | nil =>
      obtain ⟨rfl, rfl⟩ : _ ∧ _ := by simpa [here] using taken
      exact .leave here
    | cons call calls =>
      obtain ⟨rfl, rfl⟩ : _ ∧ _ := by simpa [here] using taken
      exact .tearDown here
  | fill | wait | unlock | load | returning =>
    obtain ⟨rfl, rfl⟩ : _ ∧ _ := by simpa [here] using taken
    constructor
    exact here
  | asleep | finished => simp [here] at taken

theorem calculateThread_effect (taken : calculateThread arith state = some (after, emitted)) :
    Effect arith argp state .worker after emitted := by
  unfold calculateThread at taken
  cases here : state.worker with
  | testZero =>
    obtain ⟨rfl, rfl⟩ : _ ∧ _ := by simpa [here] using taken
    refine .computes ?_
    rw [here]
    cases divides : arith.nonzero state.data.arg2 with
    | true => exact .nonzero divides
    | false => exact .zero divides
  | lock =>
    simp only [here] at taken
    obtain ⟨locked, lock, same⟩ := Option.map_eq_some_iff.mp taken
    obtain ⟨free, rfl⟩ := State.locked_eq_some lock
    obtain ⟨rfl, rfl⟩ := Prod.mk.inj same
    exact .workerLock here free
  | dispatch | loadFirst operation | loadSecond operation left =>
    obtain ⟨rfl, rfl⟩ : _ ∧ _ := by simpa [here] using taken
    refine .computes ?_
    rw [here]
    constructor
  | store value =>
    obtain ⟨rfl, rfl⟩ : _ ∧ _ := by simpa [here] using taken
    exact .store here
  | setDone =>
    obtain ⟨rfl, rfl⟩ : _ ∧ _ := by simpa [here] using taken
    exact .setDone here
  | signal =>
    obtain ⟨rfl, rfl⟩ : _ ∧ _ := by simpa [here] using taken
    exact .signal here
  | unlock =>
    obtain ⟨rfl, rfl⟩ : _ ∧ _ := by simpa [here] using taken
    exact .workerUnlock here
  | absent | finished => simp [here] at taken

theorem next_effect
    (taken : (machine arith argp failures).next state action = some (after, emitted)) :
    Effect arith argp state action after emitted := by
  cases action with
  | caller => exact calculate1Svc_effect taken
  | worker => exact calculateThread_effect taken
  | spurious =>
    simp only [machine, next] at taken
    split at taken
    · obtain ⟨rfl, rfl⟩ : _ ∧ _ := by simpa using taken
      exact .spurious ‹_›
    · cases taken

end OsLabs.RpcCalc
