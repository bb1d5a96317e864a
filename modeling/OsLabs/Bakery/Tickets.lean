import OsLabs.Bakery.Client
import OsLabs.Rpc.Order
import Mathlib.Tactic.SplitIfs

/-! The numbers of `get_ticket_number_1_svc`. Any programs may call the stubs of
bakery_clnt.c in any order, each of them one call after the other; until the static counter
is full, a number is nobody else's, and greater than the numbers that were known when it was
asked for. -/

namespace OsLabs.Bakery

open Xdr

universe u

deriving instance DecidableEq for Request

deriving instance DecidableEq for BAKERY_RESPONSE

/-- A call of a stub with its argument. -/
inductive Stub where
  | submitRequest (argp : Request)
  | getTicketNumber (argp : Int)
  | getQueuePosition (argp : Int)
deriving DecidableEq

/-- What `clnt_res` holds, where the stub does not return `NULL`. -/
inductive ClntRes where
  | response (response : BAKERY_RESPONSE)
  | number (value : Int)
deriving DecidableEq

/-- The server checks nothing of this: that the id is an index of its arrays, that the
strings end within theirs, and that the status of ticket 1, the only one that it hands out,
fits into `result.status`. -/
def Stub.contained : Stub → Bool
  | .submitRequest argp =>
    0 ≤ argp.clientId ∧ argp.clientId < MAX_CLIENTS ∧ 0 ∈ argp.requestType.toList ∧
      0 ∈ argp.details.toList ∧ (message argp 1).length < 100
  | .getTicketNumber _ | .getQueuePosition _ => true

section Stubs

variable (buffers : Rpc.Buffers)

def Stub.call : Stub → Option Rpc.CallBody
  | .submitRequest argp => (buffers.encode xdr_BAKERY_REQUEST argp).map (⟨SUBMIT_REQUEST, ·⟩)
  | .getTicketNumber argp => (buffers.encode xdrInt argp).map (⟨GET_TICKET_NUMBER, ·⟩)
  | .getQueuePosition argp => (buffers.encode xdrInt argp).map (⟨GET_QUEUE_POSITION, ·⟩)

def Stub.clntRes (answer : Option Rpc.ReplyBody) : Stub → Option ClntRes
  | .submitRequest _ => (buffers.result xdr_BAKERY_RESPONSE .zeroed answer).map .response
  | .getTicketNumber _ | .getQueuePosition _ => (buffers.result xdrInt 0 answer).map .number

/-- Programs that call the stubs, each of them one call after the other: the static object
of a stub is the program's own, and no second thread of it calls the stub meanwhile. -/
def stubs (Client : Type u) :
    Rpc.Caller Client (Option Stub) Stub Rpc.CallBody Rpc.ReplyBody (Stub × Option ClntRes) where
  init _ := none
  ask _ stub := (stub.call buffers).map (some stub, ·)
  resume stub answer := (none, stub.toList.map fun stub => (stub, stub.clntRes buffers answer))

/-- The number that `get_ticket_number_1` returns. -/
def ticket (body : Rpc.CallBody) (reply : Rpc.ReplyBody) : Option Int :=
  if body.proc = GET_TICKET_NUMBER then buffers.result xdrInt 0 (some reply) else none

end Stubs

/-- Programs at one end, the server at the other. -/
def stubExchange (Client : Type u) [DecidableEq Client] (sender receiver : Rpc.Buffers) :
    Machine (Rpc.State Client Process (Option Stub) Rpc.CallBody Rpc.ReplyBody)
      (Rpc.Action Client Unit Stub)
      (Rpc.Event Client Rpc.CallBody Rpc.ReplyBody (Stub × Option ClntRes)) :=
  Rpc.machine (bakeryService receiver) (stubs sender Client)

def Process.ticketNumber (process : Process) : Int := process.server.ticketNumber

/-- `result++` does not overflow. -/
def Roomy (process : Process) : Prop := process.ticketNumber < INT_MAX

/-- `result++` does not overflow, and no request makes the server write outside its arrays. -/
def Harmless {Client : Type u}
    (network : Rpc.State Client Process (Option Stub) Rpc.CallBody Rpc.ReplyBody) :
    Rpc.Action Client Unit Stub → Prop
  | .ask _ stub => stub.contained = true
  | .deliver _ | .work _ => Roomy network.server
  | .accept _ _ | .giveUp _ => True

theorem whileLow_of_harmless {Client : Type u}
    (network : Rpc.State Client Process (Option Stub) Rpc.CallBody Rpc.ReplyBody)
    (action : Rpc.Action Client Unit Stub) (harmless : Harmless network action) :
    Rpc.whileLow Roomy network action := by
  cases action with
  | deliver | work => exact harmless
  | ask | accept | giveUp => trivial

/-- The counter is an `int`, and what takes time is a request. -/
def Counting (process : Process) (handling : Option Rpc.CallBody) : Prop :=
  -2147483648 ≤ process.ticketNumber ∧ ∀ body ∈ handling, body.proc = SUBMIT_REQUEST

theorem int32_ge (value : Int) : -2147483648 ≤ int32 value := by
  have bound := Int.le_bmod (x := value) (m := 4294967296) (by decide)
  simpa [int32, UInt32.size] using bound

theorem int32_succ (low : -2147483648 ≤ value) (room : value < INT_MAX) :
    int32 (value + 1) = value + 1 := by
  unfold INT_MAX at room
  refine Int.bmod_eq_of_le ?_ ?_ <;> simp only [UInt32.size] <;> omega

theorem ticket_none (buffers : Rpc.Buffers)
    (other : body.proc ≠ GET_TICKET_NUMBER ∨ reply = .garbageArgs) :
    ticket buffers body reply = none := by
  rcases other with other | rfl
  · exact if_neg other
  · unfold ticket
    split <;> rfl

/-- A step that leaves the counter alone and gives out no number. -/
theorem climbs_of_silent {process after : Process}
    (kept : after.ticketNumber = process.ticketNumber)
    (silent : ∀ reply ∈ answer, ticket buffers body reply = none) :
    Rpc.Climbs Process.ticketNumber (ticket buffers) body process (after, answer) := by
  refine ⟨Int.le_of_eq kept.symm, fun reply given value shown => ?_⟩
  rw [silent reply given] at shown
  cases shown

/-- The number that is sent is the one that arrives. -/
theorem ticket_sendreply (sender receiver : Rpc.Buffers) (proc : body.proc = GET_TICKET_NUMBER)
    (int : int32 value = value) :
    ticket sender body (receiver.sendreply xdrInt value) = some value := by
  have same : value.bmod 4294967296 = value := int
  rw [ticket, if_pos proc, receiver.sendreply_eq xdrInt_follows _ (by decide), Rpc.Buffers.result,
    sender.decode_write xdrInt_follows, read_write_int, same]

/-- What becomes of a call that the server takes. -/
inductive Takes (receiver : Rpc.Buffers) (process : Process) (body : Rpc.CallBody) :
    Process × Option Rpc.ReplyBody → Prop where
  | counts (proc : body.proc = GET_TICKET_NUMBER)
      (counted : result = int32 (process.ticketNumber + 1)) :
      Takes receiver process body
        ({ process with server := { process.server with ticketNumber := result } },
          some (receiver.sendreply xdrInt result))
  | begins (proc : body.proc = SUBMIT_REQUEST) (current : Option (Request × Pc)) :
      Takes receiver process body
        ({ process with server := { process.server with current := current } }, none)
  | answers (reply : Rpc.ReplyBody)
      (other : body.proc ≠ GET_TICKET_NUMBER ∨ reply = .garbageArgs) :
      Takes receiver process body (process, some reply)

theorem callOf_proc (receiver : Rpc.Buffers) (body : Rpc.CallBody) :
    match callOf receiver body with
    | .submitRequest _ => body.proc = SUBMIT_REQUEST
    | .getTicketNumber _ => body.proc = GET_TICKET_NUMBER
    | .null | .getQueuePosition _ | .unknown => body.proc ≠ GET_TICKET_NUMBER := by
  unfold callOf
  split_ifs with null submit number position
  · rw [null]
    decide
  · exact submit
  · exact number
  · exact number
  · exact number

theorem takes (receiver : Rpc.Buffers) (process : Process) (body : Rpc.CallBody) :
    Takes receiver process body ((bakeryService receiver).take process body) := by
  have proc := callOf_proc receiver body
  simp only [bakeryService]
  cases called : callOf receiver body with
  | null =>
    rw [called] at proc
    exact .answers _ (.inl proc)
  | submitRequest argument =>
    rw [called] at proc
    cases argument with
    | none => exact .answers _ (.inr rfl)
    | some request => exact .begins proc _
  | getTicketNumber argument =>
    rw [called] at proc
    cases argument with
    | none => exact .answers _ (.inr rfl)
    | some argp => exact .counts proc rfl
  | getQueuePosition argument =>
    rw [called] at proc
    cases argument with
    | none => exact .answers _ (.inr rfl)
    | some argp => exact .answers _ (.inl proc)
  | unknown =>
    rw [called] at proc
    exact .answers _ (.inl proc)

/-- The steps for a request leave the counter alone. -/
theorem work_ticketNumber (receiver : Rpc.Buffers) (process : Process) (move : Unit)
    (works : (bakeryService receiver).work process move = some result) :
    result.1.ticketNumber = process.ticketNumber := by
  obtain ⟨⟨server, events⟩, goes, rfl⟩ := Option.map_eq_some_iff.mp works
  unfold Server.go at goes
  split at goes
  · cases goes
  · obtain ⟨⟨shared, pc, emitted⟩, _, same⟩ := Option.map_eq_some_iff.mp goes
    obtain ⟨rfl, rfl⟩ := Prod.mk.inj same
    rfl

theorem service_counts (receiver : Rpc.Buffers) :
    (bakeryService receiver).Serves Counting (fun _ => True) (fun _ _ => True) where
  init := by
    refine ⟨?_, by simp⟩
    change (-2147483648 : Int) ≤ 0
    decide
  take process body counting _ := by
    have effect := takes receiver process body
    generalize (bakeryService receiver).take process body = outcome at effect
    cases effect with
    | counts proc counted =>
      refine ⟨⟨?_, by simp⟩, trivial⟩
      rw [counted]
      exact int32_ge _
    | begins proc current => exact ⟨counting.1, by simp [proc]⟩
    | answers reply other => exact ⟨counting, trivial⟩
  work process body move result counting works := by
    have kept := work_ticketNumber receiver process move works
    obtain ⟨after, answer⟩ := result
    have low : -2147483648 ≤ after.ticketNumber := by
      rw [kept]
      exact counting.1
    cases answer with
    | none => exact ⟨low, counting.2⟩
    | some reply => exact ⟨⟨low, by simp⟩, trivial⟩

theorem service_numbers (sender receiver : Rpc.Buffers) :
    (bakeryService receiver).Numbers Counting (fun _ => True) Roomy Process.ticketNumber
      (ticket sender) where
  take process body counting _ roomy := by
    have effect := takes receiver process body
    generalize (bakeryService receiver).take process body = outcome at effect
    cases effect with
    | counts proc counted =>
      have next := int32_succ counting.1 roomy
      refine ⟨?_, fun reply given value shown => ?_⟩
      · rw [counted, next]
        exact Int.le_of_lt (Int.lt_succ _)
      · obtain rfl := Option.some.inj given
        rw [counted, ticket_sendreply sender receiver proc (by rw [next, next])] at shown
        obtain rfl := Option.some.inj shown
        refine ⟨?_, Int.le_of_eq counted.symm⟩
        rw [next]
        exact Int.lt_succ _
    | begins proc current => exact climbs_of_silent rfl (by simp)
    | answers reply other =>
      refine climbs_of_silent rfl fun given same => ?_
      obtain rfl := Option.some.inj same
      exact ticket_none sender other
  work process body move result counting _ works := by
    refine climbs_of_silent (work_ticketNumber receiver process move works) fun reply _ => ?_
    refine ticket_none sender (.inl ?_)
    rw [counting.2 body rfl]
    decide

section Runs

variable {Client : Type u} [DecidableEq Client] {sender receiver : Rpc.Buffers}

/-- A number that is asked for is greater than every number that has been returned by
then, to whomever. -/
theorem tickets_rise
    (run : (stubExchange Client sender receiver).Run Harmless actions events network)
    (place : events = before ++ .asked second request :: behind)
    (first : .accepted call body reply ∈ before) (one : ticket sender body reply = some lower)
    (last : .accepted second request answer ∈ events)
    (other : ticket sender request answer = some upper) : lower < upper := by
  have low := run.weaken whileLow_of_harmless
  unfold stubExchange at low
  exact Rpc.number_lt (service_counts receiver) (stubs sender Client).shows_anything
    (service_numbers sender receiver) low place first one last other

/-- One program asks after the other, and the request of the first is delivered again in
between. -/
def inTurn : List (Rpc.Action Bool Unit Stub) :=
  [.ask true (.getTicketNumber 5), .deliver 0, .accept true 0, .deliver 0,
    .ask false (.getTicketNumber 5), .deliver 1, .accept false 2]

def askedTicket : Rpc.CallBody := ⟨GET_TICKET_NUMBER, [0, 0, 0, 5]⟩

def gotTicket (value : UInt8) : Rpc.ReplyBody := .success [0, 0, 0, value]

def logInTurn : List (Rpc.Event Bool Rpc.CallBody Rpc.ReplyBody (Stub × Option ClntRes)) :=
  [.asked ⟨true, 1⟩ askedTicket, .answered ⟨true, 1⟩ askedTicket (gotTicket 1),
    .accepted ⟨true, 1⟩ askedTicket (gotTicket 1),
    .shown true (.getTicketNumber 5, some (.number 1)),
    .answered ⟨true, 1⟩ askedTicket (gotTicket 2), .asked ⟨false, 1⟩ askedTicket,
    .answered ⟨false, 1⟩ askedTicket (gotTicket 3), .accepted ⟨false, 1⟩ askedTicket (gotTicket 3),
    .shown false (.getTicketNumber 5, some (.number 3))]

theorem run_inTurn : ∃ network, (stubExchange Bool .datagram .datagram).Run Harmless
    inTurn logInTurn network := by
  let test (network : Rpc.State Bool Process (Option Stub) Rpc.CallBody Rpc.ReplyBody) :
      Rpc.Action Bool Unit Stub → Bool
    | .ask _ stub => stub.contained
    | _ => decide (network.server.ticketNumber < INT_MAX)
  obtain ⟨events, network, path, rfl⟩ : ∃ events network,
      ((stubExchange Bool .datagram .datagram).restrict test).Run Machine.anything inTurn events
        network ∧ events = logInTurn :=
    Machine.Path.ofView (fun _ events => events) inTurn (fun _ _ _ => trivial) (by decide +kernel)
  refine ⟨network, path.ofRestrict fun state action passed => ?_⟩
  cases action with
  | ask client stub => exact passed
  | deliver | work =>
    have low : state.server.ticketNumber < INT_MAX := of_decide_eq_true passed
    exact low
  | accept | giveUp => trivial

theorem tickets_rise_inTurn : ∃ network,
    (stubExchange Bool .datagram .datagram).Run Harmless inTurn logInTurn network ∧
    ticket .datagram askedTicket (gotTicket 1) = some 1 ∧
    ticket .datagram askedTicket (gotTicket 3) = some 3 ∧ (1 : Int) < 3 := by
  obtain ⟨network, run⟩ := run_inTurn
  have one : ticket .datagram askedTicket (gotTicket 1) = some 1 := by decide +kernel
  have other : ticket .datagram askedTicket (gotTicket 3) = some 3 := by decide +kernel
  have cut : logInTurn =
      logInTurn.take 5 ++ .asked ⟨false, 1⟩ askedTicket :: logInTurn.drop 6 := rfl
  have first : .accepted ⟨true, 1⟩ askedTicket (gotTicket 1) ∈ logInTurn.take 5 := by decide
  have last : .accepted ⟨false, 1⟩ askedTicket (gotTicket 3) ∈ logInTurn := by decide
  exact ⟨network, run, one, other, tickets_rise run cut first one last other⟩

/-- Nobody gets the number of somebody else. -/
theorem tickets_differ
    (run : (stubExchange Client sender receiver).Run Harmless actions events network)
    (first : .accepted call body reply ∈ events) (one : ticket sender body reply = some value)
    (last : .accepted second request answer ∈ events)
    (other : ticket sender request answer = some value) : call = second := by
  have low := run.weaken whileLow_of_harmless
  unfold stubExchange at low
  exact Rpc.number_ne (service_counts receiver) (stubs sender Client).shows_anything
    (service_numbers sender receiver) low first one last other

theorem tickets_differ_inTurn : ∃ network,
    (stubExchange Bool .datagram .datagram).Run Harmless inTurn logInTurn network ∧
    ticket .datagram askedTicket (gotTicket 1) = some 1 ∧
    (⟨true, 1⟩ : Rpc.Call Bool) = ⟨true, 1⟩ := by
  obtain ⟨network, run⟩ := run_inTurn
  have one : ticket .datagram askedTicket (gotTicket 1) = some 1 := by decide +kernel
  have got : .accepted ⟨true, 1⟩ askedTicket (gotTicket 1) ∈ logInTurn := by decide
  exact ⟨network, run, one, tickets_differ run got one got one⟩

end Runs

end OsLabs.Bakery
