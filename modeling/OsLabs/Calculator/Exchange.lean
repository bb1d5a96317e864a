import OsLabs.Calculator.Client
import OsLabs.Rpc.Clnt
import OsLabs.Rpc.Exchange

/-! The calculator as a whole: the threads of calculator_client.c, each of which calls the
stub of calculator_clnt.c with a handle of its own, `calculator_prog_1` of
calculator_svc.c, and the network in between. Others may call the server as well. -/

namespace OsLabs.Calculator

open Xdr

universe u v w

variable {Num : Type u}

def CALCULATOR_PROC : Nat := 1

def xdr_CALCULATOR (float : FloatBits Num) : Proc (CALCULATOR Num) :=
  (xdrInt.field CALCULATOR.op fun objp op => { objp with op := op }).andThen <|
  ((xdrFloat float).field CALCULATOR.arg1 fun objp arg1 => { objp with arg1 := arg1 }).andThen <|
  ((xdrFloat float).field CALCULATOR.arg2 fun objp arg2 => { objp with arg2 := arg2 }).andThen
  ((xdrFloat float).field CALCULATOR.result fun objp result => { objp with result := result })

section Service

variable (arith : Arithmetic Num) (float : FloatBits Num) (buffers : Rpc.Buffers)

/-- `calculator_prog_1`; all that a call leaves behind is the static `result`. -/
def calculatorProg1 (result : CALCULATOR Num) (call : Rpc.CallBody) :
    CALCULATOR Num × Option Rpc.ReplyBody :=
  if call.proc = Rpc.NULLPROC then (result, some (buffers.sendreply xdrVoid ()))
  else if call.proc = CALCULATOR_PROC then
    match buffers.decode (xdr_CALCULATOR float) call.arguments (.zeroed arith) with
    | none => (result, some .garbageArgs)
    | some argp =>
      let result := calculatorProc1Svc arith argp result
      (result, some (buffers.sendreply (xdr_CALCULATOR float) result))
  else (result, some .procUnavail)

def service : Rpc.Service (CALCULATOR Num) Empty Rpc.CallBody Rpc.ReplyBody where
  init := .zeroed arith
  take := calculatorProg1 arith float buffers
  work _ move := move.elim

end Service

/-- Handles that carry any calls, one after the other; what becomes of a reply is left to
the owner of the handle. -/
def handles (Client : Type v) :
    Rpc.Caller Client Unit Rpc.CallBody Rpc.CallBody Rpc.ReplyBody Empty where
  init _ := ()
  ask _ body := some ((), body)
  resume _ _ := ((), [])

/-- The points of a thread, in `client_thread_func` and in the stub. -/
inductive Point where
  | create
  | clear (i : Nat)
  | call (i : Nat)
  | waiting (i : Nat)
  | decode (i : Nat) (reply : Rpc.ReplyBody)
  | read (i : Nat)
  | finished
deriving DecidableEq

/-- The loop head of `client_thread_func`. -/
def Point.loop (i : Nat) : Point := if i < 3 then .clear i else .finished

/-- The handles of the threads of one process, and those of others. -/
abbrev Handle (Tid : Type v) (Other : Type w) := Tid ⊕ Other

structure Whole (Tid : Type v) (Other : Type w) (Num : Type u) where
  network : Rpc.State (Handle Tid Other) (CALCULATOR Num) Unit Rpc.CallBody Rpc.ReplyBody
  /-- The static object of the stub. -/
  clntRes : CALCULATOR Num
  points : Tid → Point

/-- A thread goes on by itself, with a reply, or without one; or else something happens
elsewhere. -/
inductive Action (Tid : Type v) (Other : Type w) where
  | run (tid : Tid)
  | accept (tid : Tid) (index : Nat)
  | giveUp (tid : Tid)
  | elsewhere (action : Rpc.Action Other Empty Rpc.CallBody)

variable {Tid : Type v} {Other : Type w}

/-- What happens at the handles of others, and in the server. -/
def outside : Rpc.Action Other Empty Rpc.CallBody →
    Rpc.Action (Handle Tid Other) Empty Rpc.CallBody
  | .ask client body => .ask (.inr client) body
  | .deliver index => .deliver index
  | .work move => .work move
  | .accept client index => .accept (.inr client) index
  | .giveUp client => .giveUp (.inr client)

variable [DecidableEq Tid] [DecidableEq Other]

def Whole.go (whole : Whole Tid Other Num) (tid : Tid) (point : Point) : Whole Tid Other Num :=
  { whole with points := Function.update whole.points tid point }

section Step

variable (arith : Arithmetic Num) (float : FloatBits Num) (sender receiver : Rpc.Buffers)

/-- The handles, the server and what lies between them. -/
def exchange : Machine
    (Rpc.State (Handle Tid Other) (CALCULATOR Num) Unit Rpc.CallBody Rpc.ReplyBody)
    (Rpc.Action (Handle Tid Other) Empty Rpc.CallBody)
    (Rpc.Event (Handle Tid Other) Rpc.CallBody Rpc.ReplyBody Empty) :=
  Rpc.machine (service arith float receiver) (handles (Handle Tid Other))

/-- A step of the network, after which a thread may go on. -/
def Whole.transmit (whole : Whole Tid Other Num)
    (action : Rpc.Action (Handle Tid Other) Empty Rpc.CallBody) : Option (Whole Tid Other Num) :=
  ((exchange arith float receiver).next whole.network action).map fun (network, _) =>
    { whole with network := network }

/-- One step; `request tid i` is what a thread has put into its `request` in round `i`,
`creates` says whose `clnt_create` succeeds. -/
def Whole.next (request : Tid → Nat → CALCULATOR Num) (creates : Tid → Bool)
    (whole : Whole Tid Other Num) :
    Action Tid Other → Option (Whole Tid Other Num × List (Event Tid Num))
  | .run tid =>
    match whole.points tid with
    | .create => some (whole.go tid (if creates tid then .loop 0 else .finished), [])
    -- memset((char *)&clnt_res, 0, sizeof(clnt_res));
    | .clear i => some ({ whole with clntRes := .zeroed arith }.go tid (.call i), [])
    -- clnt_call
    | .call i =>
      match sender.encode (xdr_CALCULATOR float) (request tid i) with
      | none => some (whole.go tid (.loop (i + 1)), [.failed tid i])
      | some arguments =>
        (whole.transmit arith float receiver (.ask (.inl tid) ⟨CALCULATOR_PROC, arguments⟩)).map
          fun whole => (whole.go tid (.waiting i), [])
    | .decode i reply =>
      match sender.result (xdr_CALCULATOR float) whole.clntRes (some reply) with
      | none => some (whole.go tid (.loop (i + 1)), [.failed tid i])
      | some object => some ({ whole with clntRes := object }.go tid (.read i), [])
    -- printf("... Received result ...", response->result); response is &clnt_res
    | .read i =>
      some (whole.go tid (.loop (i + 1)), [.received tid i whole.clntRes.result])
    | .waiting _ | .finished => none
  | .accept tid index =>
    match whole.points tid, whole.network.replies[index]? with
    | .waiting i, some (_, reply) =>
      (whole.transmit arith float receiver (.accept (.inl tid) index)).map
        fun whole => (whole.go tid (.decode i reply), [])
    | _, _ => none
  | .giveUp tid =>
    match whole.points tid with
    | .waiting i => (whole.transmit arith float receiver (.giveUp (.inl tid))).map
        fun whole => (whole.go tid (.loop (i + 1)), [.failed tid i])
    | _ => none
  | .elsewhere action => (whole.transmit arith float receiver (outside action)).map (·, [])

def whole (request : Tid → Nat → CALCULATOR Num) (creates : Tid → Bool) :
    Machine (Whole Tid Other Num) (Action Tid Other) (Event Tid Num) where
  init := ⟨(exchange arith float receiver).init, .zeroed arith, fun _ => .create⟩
  next := Whole.next arith float sender receiver request creates

end Step

/-- About to clear `clnt_res` or to decode into it. -/
def Point.stores : Point → Bool
  | .clear _ | .decode _ _ => true
  | _ => false

/-- Has decoded its reply and not read it yet. -/
def Point.unread : Point → Bool
  | .read _ => true
  | _ => false

end OsLabs.Calculator
