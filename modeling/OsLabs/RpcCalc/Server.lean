import OsLabs.Machine.Run

/-! RPC/calc/calculator_server.c: `calculate_1_svc` hands its arguments to a
detached `calculate_thread` and waits on a condition for the result, with every
mutex and condition call and every access to the shared data a step of its own. -/

namespace OsLabs.RpcCalc

universe u

/-- The operations on `float` that the server uses, kept abstract. -/
structure Arithmetic (Num : Type u) where
  add : Num → Num → Num
  sub : Num → Num → Num
  mul : Num → Num → Num
  div : Num → Num → Num
  /-- 0.0 -/
  zero : Num
  /-- `!= 0.0` -/
  nonzero : Num → Bool

def ADD : Int := 0

def SUB : Int := 1

def MUL : Int := 2

def DIV : Int := 3

structure CALCULATOR_ARGS (Num : Type u) where
  op : Int
  arg1 : Num
  arg2 : Num

/-- `thread_data_t`, less its mutex and condition. -/
structure ThreadData (Num : Type u) where
  op : Int
  arg1 : Num
  arg2 : Num
  result : Num
  isDone : Int

inductive Operation where
  | add
  | sub
  | mul
  | div
deriving DecidableEq

/-- The two threads, as owners of the mutex. -/
inductive Role where
  | caller
  | worker
deriving DecidableEq

/-- What is undone before `calculate_1_svc` returns. -/
inductive Teardown where
  | mutexDestroy
  | condDestroy
  | free
deriving DecidableEq

/-- The points of `calculate_1_svc`. A thread that has been woken in
`pthread_cond_wait` is at `lock` again; `failed` says that a call before the
hand-over has failed. -/
inductive CallerPc where
  | malloc
  | fill
  | mutexInit
  | condInit
  | create
  | lock
  | test
  | wait
  | asleep
  | unlock
  | load
  | cleanUp (calls : List Teardown) (failed : Bool)
  | returning
  | finished
deriving DecidableEq

/-- The points of `calculate_thread`. -/
inductive WorkerPc (Num : Type u) where
  | absent
  | dispatch
  | testZero
  | loadFirst (operation : Operation)
  | loadSecond (operation : Operation) (left : Num)
  | store (value : Num)
  | lock
  | setDone
  | signal
  | unlock
  | finished
deriving DecidableEq

/-- `touched` is an access of the worker to the data, its mutex or its condition. -/
inductive Event (Num : Type u) where
  | created
  | touched
  | tornDown (call : Teardown)
  | returned (value : Num)
deriving DecidableEq

/-- Which of the calls before the hand-over fail. -/
structure Failures where
  malloc : Bool
  mutexInit : Bool
  condInit : Bool
  create : Bool

structure State (Num : Type u) where
  caller : CallerPc
  worker : WorkerPc Num
  data : ThreadData Num
  mutex : Option Role
  /-- The static object of `calculate_1_svc`. -/
  result : Num

/-- A step of one of the threads, or a spurious wake-up of the caller. -/
inductive Action where
  | caller
  | worker
  | spurious
deriving DecidableEq

variable {Num : Type u}

def Operation.apply (arith : Arithmetic Num) : Operation → Num → Num → Num
  | .add => arith.add
  | .sub => arith.sub
  | .mul => arith.mul
  | .div => arith.div

/-- `switch (data->op)`. -/
def dispatched (arith : Arithmetic Num) (op : Int) : WorkerPc Num :=
  if op = ADD then .loadFirst .add
  else if op = SUB then .loadFirst .sub
  else if op = MUL then .loadFirst .mul
  else if op = DIV then .testZero
  else .store arith.zero

def State.locked (state : State Num) (role : Role) : Option (State Num) :=
  match state.mutex with
  | none => some { state with mutex := some role }
  | some _ => none

/-- The calls that undo the initialisation of the data. -/
def everything : List Teardown := [.mutexDestroy, .condDestroy, .free]

/-- `calculate_1_svc`. -/
def calculate1Svc (arith : Arithmetic Num) (argp : CALCULATOR_ARGS Num) (failures : Failures)
    (state : State Num) : Option (State Num × List (Event Num)) :=
  match state.caller with
  | .malloc =>
    some ({ state with caller := if failures.malloc then .cleanUp [] true else .fill }, [])
  | .fill =>
    some ({ state with
      data := ⟨argp.op, argp.arg1, argp.arg2, arith.zero, 0⟩, caller := .mutexInit }, [])
  | .mutexInit =>
    some ({ state with
      caller := if failures.mutexInit then .cleanUp [.free] true else .condInit }, [])
  | .condInit =>
    some ({ state with
      caller := if failures.condInit then .cleanUp [.mutexDestroy, .free] true else .create }, [])
  | .create =>
    if failures.create then some ({ state with caller := .cleanUp everything true }, [])
    else some ({ state with caller := .lock, worker := .dispatch }, [.created])
  | .lock => (state.locked .caller).map fun state => ({ state with caller := .test }, [])
  -- while (!data->is_done) pthread_cond_wait(&data->cond, &data->mutex);
  | .test => some ({ state with caller := if state.data.isDone = 0 then .wait else .unlock }, [])
  | .wait => some ({ state with mutex := none, caller := .asleep }, [])
  | .asleep => none
  | .unlock => some ({ state with mutex := none, caller := .load }, [])
  | .load =>
    some ({ state with result := state.data.result, caller := .cleanUp everything false }, [])
  | .cleanUp (call :: calls) failed =>
    some ({ state with caller := .cleanUp calls failed }, [.tornDown call])
  | .cleanUp [] failed =>
    some ({ state with
      result := if failed then arith.zero else state.result, caller := .returning }, [])
  | .returning => some ({ state with caller := .finished }, [.returned state.result])
  | .finished => none

/-- A thread that is blocked in `pthread_cond_wait` wakes up. -/
def CallerPc.woken : CallerPc → CallerPc
  | .asleep => .lock
  | pc => pc

/-- `calculate_thread`. -/
def calculateThread (arith : Arithmetic Num) (state : State Num) :
    Option (State Num × List (Event Num)) :=
  match state.worker with
  | .absent => none
  | .dispatch => some ({ state with worker := dispatched arith state.data.op }, [.touched])
  -- if (data->arg2 != 0.0)
  | .testZero =>
    some ({ state with
      worker := if arith.nonzero state.data.arg2 then .loadFirst .div else .store arith.zero },
      [.touched])
  | .loadFirst operation =>
    some ({ state with worker := .loadSecond operation state.data.arg1 }, [.touched])
  | .loadSecond operation left =>
    some ({ state with worker := .store (operation.apply arith left state.data.arg2) }, [.touched])
  | .store value =>
    some ({ state with data := { state.data with result := value }, worker := .lock }, [.touched])
  | .lock => (state.locked .worker).map fun state => ({ state with worker := .setDone }, [.touched])
  | .setDone =>
    some ({ state with data := { state.data with isDone := 1 }, worker := .signal }, [.touched])
  | .signal => some ({ state with caller := state.caller.woken, worker := .unlock }, [.touched])
  | .unlock => some ({ state with mutex := none, worker := .finished }, [.touched])
  | .finished => none

def next (arith : Arithmetic Num) (argp : CALCULATOR_ARGS Num) (failures : Failures)
    (state : State Num) : Action → Option (State Num × List (Event Num))
  | .caller => calculate1Svc arith argp failures state
  | .worker => calculateThread arith state
  | .spurious =>
    if state.caller = .asleep then some ({ state with caller := .lock }, []) else none

/-- One call of the procedure; `malloc` has not been called yet. -/
def machine (arith : Arithmetic Num) (argp : CALCULATOR_ARGS Num) (failures : Failures) :
    Machine (State Num) Action (Event Num) where
  init := ⟨.malloc, .absent, ⟨0, arith.zero, arith.zero, arith.zero, 0⟩, none, arith.zero⟩
  next := next arith argp failures

/-- The value that `calculate_thread` computes. -/
def outcome (arith : Arithmetic Num) (argp : CALCULATOR_ARGS Num) : Num :=
  if argp.op = ADD then arith.add argp.arg1 argp.arg2
  else if argp.op = SUB then arith.sub argp.arg1 argp.arg2
  else if argp.op = MUL then arith.mul argp.arg1 argp.arg2
  else if argp.op = DIV then
    if arith.nonzero argp.arg2 then arith.div argp.arg1 argp.arg2 else arith.zero
  else arith.zero

end OsLabs.RpcCalc
