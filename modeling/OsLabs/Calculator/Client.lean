import OsLabs.Calculator.Server
import OsLabs.Machine.Threads

/-! calculator_client.c: the threads of `run_multithreaded_client`. Each has a
handle of its own, but the stub `calculator_proc_1` of calculator_clnt.c decodes
every reply into one static object. -/

namespace OsLabs.Calculator

universe u v

/-- What happens to a request that `clnt_call` sends. -/
inductive Delivery where
  | requestLost
  | replyLost
  | answered
deriving DecidableEq

/-- The network: whether `clnt_create` gives a thread its handle, and how its
calls end. -/
structure Network (Tid : Type v) where
  creates : Tid → Bool
  delivery : Tid → Nat → Delivery

/-- The two static objects: `clnt_res` of the stub and `result` of the server. -/
structure Shared (Num : Type u) where
  clntRes : CALCULATOR Num
  result : CALCULATOR Num

/-- The points of a thread; `i` counts its requests, `reply` is on its way. -/
inductive Pc (Num : Type u) where
  | create
  | clear (i : Nat)
  | call (i : Nat)
  | decode (i : Nat) (reply : CALCULATOR Num)
  | read (i : Nat)
  | finished

inductive Event (Tid : Type v) (Num : Type u) where
  | failed (tid : Tid) (i : Nat)
  | received (tid : Tid) (i : Nat) (value : Num)
deriving DecidableEq

variable {Tid : Type v} {Num : Type u}

/-- The loop head of `client_thread_func`. -/
def Pc.loop (i : Nat) : Pc Num :=
  if i < 3 then .clear i else .finished

/-- One step of `client_thread_func`; `request tid i` is what it has put into
its `request` in round `i`. -/
def step (arith : Arithmetic Num) (request : Tid → Nat → CALCULATOR Num)
    (network : Network Tid) (tid : Tid) (shared : Shared Num) :
    Pc Num → Option (Shared Num × Pc Num × List (Event Tid Num))
  | .create => some (shared, if network.creates tid then .loop 0 else .finished, [])
  -- memset((char *)&clnt_res, 0, sizeof(clnt_res));
  | .clear i => some ({ shared with clntRes := .zeroed arith }, .call i, [])
  -- The server handles one request at a time, up to the encoding of its reply.
  | .call i =>
    let result := calculatorProc1Svc arith (request tid i) shared.result
    match network.delivery tid i with
    | .requestLost => some (shared, .loop (i + 1), [.failed tid i])
    | .replyLost => some ({ shared with result := result }, .loop (i + 1), [.failed tid i])
    | .answered => some ({ shared with result := result }, .decode i result, [])
  | .decode i reply => some ({ shared with clntRes := reply }, .read i, [])
  -- printf("... Received result ...", response->result); response is &clnt_res
  | .read i => some (shared, .loop (i + 1), [.received tid i shared.clntRes.result])
  | .finished => none

def threads (arith : Arithmetic Num) (request : Tid → Nat → CALCULATOR Num)
    (network : Network Tid) : Threads Tid (Shared Num) (Pc Num) (Event Tid Num) where
  shared := ⟨.zeroed arith, .zeroed arith⟩
  entry := .create
  step := step arith request network

/-- About to clear `clnt_res` or to decode into it. -/
def Pc.stores : Pc Num → Bool
  | .clear _ | .decode _ _ => true
  | _ => false

/-- Has decoded its reply and not read it yet. -/
def Pc.unread : Pc Num → Bool
  | .read _ => true
  | _ => false

end OsLabs.Calculator
