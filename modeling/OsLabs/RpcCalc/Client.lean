import OsLabs.Rpc.Clnt
import OsLabs.Rpc.Exchange
import OsLabs.RpcCalc.Server

/-! RPC/calc as a whole: the client loop of calculator_client.c, which asks for one
random operation after the other, and `calculator_prog_1` of calculator_svc.c, which
has `calculate_1_svc` hand each of them to a thread. -/

namespace OsLabs.RpcCalc

open Xdr

universe u v

variable {Num : Type u}

def CALCULATE : Nat := 1

def xdr_CALCULATOR_ARGS (float : FloatBits Num) : Proc (CALCULATOR_ARGS Num) :=
  (xdrInt.field CALCULATOR_ARGS.op fun objp op => { objp with op := op }).andThen <|
  ((xdrFloat float).field CALCULATOR_ARGS.arg1 fun objp arg1 => { objp with arg1 := arg1 }).andThen
  ((xdrFloat float).field CALCULATOR_ARGS.arg2 fun objp arg2 => { objp with arg2 := arg2 })

def CALCULATOR_ARGS.zeroed (arith : Arithmetic Num) : CALCULATOR_ARGS Num :=
  ⟨0, arith.zero, arith.zero⟩

/-- The server between two datagrams, or in the middle of a call. -/
structure Server (Num : Type u) where
  /-- The static object of `calculate_1_svc`. -/
  result : Num
  /-- The calls that have returned. -/
  returned : Nat
  current : Option (CALCULATOR_ARGS Num × State Num)

section Service

variable (arith : Arithmetic Num) (float : FloatBits Num) (buffers : Rpc.Buffers)

/-- `calculator_prog_1`, up to the call of `calculate_1_svc`. -/
def calculatorProg1 (server : Server Num) (call : Rpc.CallBody) :
    Server Num × Option Rpc.ReplyBody :=
  if call.proc = Rpc.NULLPROC then (server, some (buffers.sendreply xdrVoid ()))
  else if call.proc = CALCULATE then
    match buffers.decode (xdr_CALCULATOR_ARGS float) call.arguments (.zeroed arith) with
    | none => (server, some .garbageArgs)
    | some argp =>
      let entry := (machine arith argp ⟨false, false, false, false⟩).init
      ({ server with current := some (argp, { entry with result := server.result }) }, none)
  else (server, some .procUnavail)

/-- A step of one of the two threads; `failures` says which calls fail in which call
of the procedure. -/
def Server.work (failures : Nat → Failures) (server : Server Num) (action : Action) :
    Option (Server Num × Option Rpc.ReplyBody) :=
  match server.current with
  | none => none
  | some (argp, state) =>
    (next arith argp (failures server.returned) state action).map fun (state, _) =>
      if state.caller = .finished then
        (⟨state.result, server.returned + 1, none⟩,
          some (buffers.sendreply (xdrFloat float) state.result))
      else ({ server with current := some (argp, state) }, none)

def service (failures : Nat → Failures) :
    Rpc.Service (Server Num) Action Rpc.CallBody Rpc.ReplyBody where
  init := ⟨arith.zero, 0, none⟩
  take := calculatorProg1 arith float buffers
  work := Server.work arith float buffers failures

end Service

/-- What `rand` makes a round of the client's loop do. -/
structure Draw (Num : Type u) where
  arg1 : Num
  operation : Operation
  arg2 : Num
deriving DecidableEq

/-- `switch (op_char)`. -/
def Operation.op : Operation → Int
  | .add => ADD
  | .sub => SUB
  | .mul => MUL
  | .div => DIV

def Draw.args (draw : Draw Num) : CALCULATOR_ARGS Num := ⟨draw.operation.op, draw.arg1, draw.arg2⟩

/-- "Результат: %.2f %c %.2f = %.2f" and "call failed". -/
inductive Line (Num : Type u) where
  | result (draw : Draw Num) (value : Num)
  | failed
deriving DecidableEq

/-- `calculator_prog_1` of the client; `args` and `op_char` keep what has been drawn. -/
def caller (Client : Type v) (arith : Arithmetic Num) (float : FloatBits Num)
    (buffers : Rpc.Buffers) :
    Rpc.Caller Client (Option (Draw Num)) (Draw Num) Rpc.CallBody Rpc.ReplyBody (Line Num) where
  init _ := none
  ask _ draw := (buffers.encode (xdr_CALCULATOR_ARGS float) draw.args).map fun arguments =>
    (some draw, ⟨CALCULATE, arguments⟩)
  resume
    | none, _ => (none, [])
    | some draw, answer =>
      match buffers.result (xdrFloat float) arith.zero answer with
      | none => (some draw, [.failed])
      | some value => (some draw, [.result draw value])

/-- Clients and the server, with the network between them. -/
def exchange (Client : Type v) [DecidableEq Client] (arith : Arithmetic Num)
    (float : FloatBits Num) (sender receiver : Rpc.Buffers) (failures : Nat → Failures) :
    Machine (Rpc.State Client (Server Num) (Option (Draw Num)) Rpc.CallBody Rpc.ReplyBody)
      (Rpc.Action Client Action (Draw Num))
      (Rpc.Event Client Rpc.CallBody Rpc.ReplyBody (Line Num)) :=
  Rpc.machine (service arith float receiver failures) (caller Client arith float sender)

end OsLabs.RpcCalc
