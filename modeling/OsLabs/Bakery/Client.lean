import OsLabs.Bakery.Service
import OsLabs.Bakery.Xdr
import OsLabs.Rpc.Clnt
import OsLabs.Rpc.Exchange

/-! The bakery as a whole: bakery_client.c sends nine requests that `rand` picks from
two tables, bakery_svc.c decodes them for the only thread of the server and encodes the
static response that the thread has filled in. -/

namespace OsLabs.Bakery

open Xdr

universe u

def SUBMIT_REQUEST : Nat := 1

def GET_TICKET_NUMBER : Nat := 2

def GET_QUEUE_POSITION : Nat := 3

/-- `strcpy` of a text that fits: its terminator follows, and what was behind that stays. -/
def strcpy {size : Nat} (array : Vector UInt8 size) (text : List UInt8) : Vector UInt8 size :=
  Vector.ofFn fun i => (text ++ [0])[i.val]?.getD array[i.val]

/-- The process of the server: the thread, and the array in its static response. -/
structure Process where
  server : Server
  status : Vector UInt8 100

section Service

variable (buffers : Rpc.Buffers)

/-- The call that a message makes, with its argument if `svc_getargs` decodes one. -/
def callOf (body : Rpc.CallBody) : Call :=
  if body.proc = Rpc.NULLPROC then .null
  else if body.proc = SUBMIT_REQUEST then
    .submitRequest (buffers.decode xdr_BAKERY_REQUEST body.arguments .zeroed)
  else if body.proc = GET_TICKET_NUMBER then
    .getTicketNumber (buffers.decode xdrInt body.arguments 0)
  else if body.proc = GET_QUEUE_POSITION then
    .getQueuePosition (buffers.decode xdrInt body.arguments 0)
  else .unknown

/-- What `svc_sendreply` and its like send. -/
def replyOf (status : Vector UInt8 100) : ServerEvent → Option Rpc.ReplyBody
  | .activation (.replied _ response) =>
    some (buffers.sendreply xdr_BAKERY_RESPONSE
      ⟨response.clientId, response.ticketNumber, response.queuePosition, status⟩)
  | .answered value => some (buffers.sendreply xdrInt value)
  | .sentVoid => some (buffers.sendreply xdrVoid ())
  | .noproc => some .procUnavail
  | .undecodable => some .garbageArgs
  | .activation _ | .slept => none

/-- `strcpy(result.status, buffer)`, in the step that fills the status in. -/
def Process.statusNext (process : Process) : Vector UInt8 100 :=
  match process.server.current with
  | some (request, .fillStatus ticket) =>
    strcpy process.status (snprintf 200 (message request ticket))
  | _ => process.status

def bakeryService : Rpc.Service Process Unit Rpc.CallBody Rpc.ReplyBody where
  init := ⟨service.init, Vector.replicate 100 0⟩
  take process body :=
    let (server, events) := bakeryProg1 process.server (callOf buffers body)
    ({ process with server := server }, events.findSome? (replyOf buffers process.status))
  work process _ :=
    process.server.go.map fun (server, events) =>
      (⟨server, process.statusNext⟩, events.findSome? (replyOf buffers process.statusNext))

end Service

def requestTypes : List String := ["Buy", "Order", "Reserve", "Pickup", "Cancel"]

def details : List String :=
  ["bread", "croissant", "cake", "birthday cake", "baguette", "muffin", "donut"]

/-- The two loop variables, and the variable `request`. -/
structure Loop where
  clientId : Nat
  reqNum : Nat
  request : Request

/-- `type_index` and `detail_index`. -/
structure Picks where
  typeIndex : Fin requestTypes.length
  detailIndex : Fin details.length

/-- "Response for client %d: %s (ticket %d, position %d)", after the request that has
been shown as sent, and "RPC call failed". -/
inductive Line where
  | response (sent : Request) (response : BAKERY_RESPONSE)
  | failed

/-- `req_num++`, and `client_id++` after the third request. -/
def Loop.advance (loop : Loop) : Loop :=
  if loop.reqNum < 3 then { loop with reqNum := loop.reqNum + 1 }
  else { loop with clientId := loop.clientId + 1, reqNum := 1 }

/-- `request` filled in; what the strings leave of the arrays stays. -/
def Loop.fill (loop : Loop) (picks : Picks) : Request where
  clientId := loop.clientId
  requestType := strcpy loop.request.requestType (ascii (requestTypes.get picks.typeIndex))
  details := strcpy loop.request.details (ascii (details.get picks.detailIndex))

/-- bakery_client.c; `request` is not initialised. -/
def bakeryClient (Client : Type u) (uninitialised : Client → Request) (buffers : Rpc.Buffers) :
    Rpc.Caller Client Loop Picks Rpc.CallBody Rpc.ReplyBody Line where
  init client := ⟨1, 1, uninitialised client⟩
  ask loop picks :=
    if loop.clientId ≤ 3 then
      (buffers.encode xdr_BAKERY_REQUEST (loop.fill picks)).map fun arguments =>
        ({ loop with request := loop.fill picks }, ⟨SUBMIT_REQUEST, arguments⟩)
    else none
  resume loop answer :=
    (loop.advance, [match buffers.result xdr_BAKERY_RESPONSE .zeroed answer with
      | some response => .response loop.request response
      | none => .failed])

/-- Client processes and the server, with the network between them. -/
def exchange (Client : Type u) [DecidableEq Client] (uninitialised : Client → Request)
    (sender receiver : Rpc.Buffers) :
    Machine (Rpc.State Client Process Loop Rpc.CallBody Rpc.ReplyBody)
      (Rpc.Action Client Unit Picks) (Rpc.Event Client Rpc.CallBody Rpc.ReplyBody Line) :=
  Rpc.machine (bakeryService receiver) (bakeryClient Client uninitialised sender)

end OsLabs.Bakery
