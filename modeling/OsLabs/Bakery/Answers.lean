import OsLabs.Bakery.Client
import OsLabs.Bakery.Status

/-! What bakery_client.c prints. The message is put together from two strings of the
request, copied into the static array, and carried back in 400 bytes: nothing of it is
lost, and it is about the request that was sent. -/

namespace OsLabs.Bakery

open Xdr

universe u

theorem toList_strcpy {size : Nat} (array : Vector UInt8 size) (text : List UInt8)
    (fits : text.length < size) :
    (strcpy array text).toList = text ++ 0 :: array.toList.drop (text.length + 1) := by
  apply List.ext_getElem?
  intro i
  by_cases inside : i < size
  · have here : (strcpy array text).toList[i]? = some ((text ++ [0])[i]?.getD array[i]) := by
      rw [List.getElem?_eq_getElem (by simpa using inside)]
      simp [strcpy]
    rw [here]
    rcases Nat.lt_trichotomy i text.length with front | rfl | behind
    · simp [front, List.getElem?_append]
    · simp
    · obtain ⟨j, rfl⟩ : ∃ j, i = text.length + (j + 1) := ⟨i - (text.length + 1), by omega⟩
      have beyond : (text ++ [0])[text.length + (j + 1)]? = none := by simp
      rw [beyond, List.getElem?_append_right (Nat.le_add_right _ _), Nat.add_sub_cancel_left,
        List.getElem?_cons_succ, List.getElem?_drop, Nat.add_right_comm, Nat.add_assoc]
      simp [inside]
  · have first : (strcpy array text).toList.length ≤ i := by simpa using inside
    rw [List.getElem?_eq_none first, List.getElem?_eq_none]
    simp
    omega

theorem cString_strcpy {size : Nat} (array : Vector UInt8 size) (text : List UInt8)
    (fits : text.length < size) (clean : 0 ∉ text) : cString (strcpy array text) = text := by
  rw [cString, toList_strcpy array text fits, List.takeWhile_append_of_pos]
  · simp
  · intro byte member
    have nonzero : byte ≠ 0 := fun zero => clean (zero ▸ member)
    simpa using nonzero

/-- A request as `Loop.fill` makes it. -/
structure Sent (request : Request) (kind detail : String) (client : Nat) : Prop where
  fromTypes : kind ∈ requestTypes
  fromDetails : detail ∈ details
  ranged : 1 ≤ client ∧ client ≤ 3
  clientId : request.clientId = client
  requestType : cString request.requestType = ascii kind
  details : cString request.details = ascii detail

theorem short_requestTypes : ∀ kind ∈ requestTypes, (ascii kind).length ≤ 7 ∧ 0 ∉ ascii kind := by
  decide +kernel

theorem short_details : ∀ detail ∈ details, (ascii detail).length ≤ 13 ∧ 0 ∉ ascii detail := by
  decide +kernel

/-- One digit, and no terminator in it. -/
theorem short_client (client : Nat) (ranged : 1 ≤ client ∧ client ≤ 3) :
    (ascii (toString (client : Int))).length = 1 ∧ 0 ∉ ascii (toString (client : Int)) := by
  obtain rfl | rfl | rfl : client = 1 ∨ client = 2 ∨ client = 3 := by omega
  all_goals decide +kernel

/-- The message about such a request is a string of at most 69 characters. -/
theorem Sent.message (sent : Sent request kind detail client) :
    (message request 1).length ≤ 69 ∧ 0 ∉ message request 1 := by
  have one : (ascii (toString (1 : Int))).length = 1 ∧ 0 ∉ ascii (toString (1 : Int)) := by
    decide +kernel
  have text : 0 ∉ ascii "Request '" ∧ 0 ∉ ascii ": " ∧ 0 ∉ ascii "' processed for client " ∧
      0 ∉ ascii " with ticket " := by decide +kernel
  have types := short_requestTypes kind sent.fromTypes
  have items := short_details detail sent.fromDetails
  have digit := short_client client sent.ranged
  refine ⟨?_, ?_⟩
  · rw [length_message, sent.requestType, sent.details, sent.clientId, printed, printed, digit.1,
      one.1]
    omega
  · simp only [Bakery.message, sent.requestType, sent.details, sent.clientId, List.mem_append,
      not_or]
    exact ⟨⟨⟨⟨⟨⟨⟨text.1, types.2⟩, text.2.1⟩, items.2⟩, text.2.2.1⟩, digit.2⟩, text.2.2.2⟩, one.2⟩

/-- The response to a request, with the whole message. -/
structure Answers (request : Request) (response : BAKERY_RESPONSE) : Prop where
  clientId : response.clientId = request.clientId
  ticketNumber : response.ticketNumber = 1
  queuePosition : response.queuePosition = 1
  status : cString response.status = message request 1

/-- The status has been filled in. -/
def Pc.stored : Pc → Bool
  | .lockAgain _ | .release _ | .unlockAgain _ | .reply _ => true
  | _ => false

/-- How the handling of a request is going that a client has sent. -/
structure Handles (request : Request) (process : Process) (pc : Pc) : Prop where
  first : First request process.server.shared pc
  status : pc.stored = true → cString process.status = message request 1

/-- The server is idle, or handles a request that a client has sent. -/
def Serving (process : Process) : Option Rpc.CallBody → Prop
  | none => process.server.current = none ∧ Idle process.server.shared
  | some body => ∃ request pc kind detail client, Sent request kind detail client ∧
      body = ⟨SUBMIT_REQUEST, requestLayout.write request⟩ ∧
      process.server.current = some (request, pc) ∧ pc ≠ .finished ∧ Handles request process pc

def Admits (body : Rpc.CallBody) : Prop :=
  ∃ request kind detail client, Sent request kind detail client ∧
    body = ⟨SUBMIT_REQUEST, requestLayout.write request⟩

/-- The reply to a request carries the response to it. -/
def Right (body : Rpc.CallBody) (reply : Rpc.ReplyBody) : Prop :=
  ∃ request response kind detail client, Sent request kind detail client ∧
    body = ⟨SUBMIT_REQUEST, requestLayout.write request⟩ ∧
    reply = .success (responseLayout.write response) ∧ Answers request response

theorem Sent.int (sent : Sent request kind detail client) :
    int32 request.clientId = request.clientId := by
  rw [sent.clientId]
  obtain ⟨low, high⟩ := sent.ranged
  obtain rfl | rfl | rfl : client = 1 ∨ client = 2 ∨ client = 3 := by omega
  all_goals decide

theorem Sent.unique (sent : Sent request kind detail client)
    (other : Sent request' kind' detail' client')
    (same : requestLayout.write request = requestLayout.write request') : request = request' := by
  have back := read_write_request request .zeroed sent.int
  rw [same, read_write_request request' .zeroed other.int] at back
  exact back.symm

theorem Answers.read_write (answers : Answers request response)
    (sent : Sent request kind detail client) (old : BAKERY_RESPONSE) :
    responseLayout.read (responseLayout.write response) old = response := by
  have one : int32 1 = 1 := by decide
  refine read_write_response response old ?_ ?_ ?_
  · rw [answers.clientId, sent.int]
  · rw [answers.ticketNumber, one]
  · rw [answers.queuePosition, one]

theorem callOf_sent (buffers : Rpc.Buffers) (sent : Sent request kind detail client) :
    callOf buffers ⟨SUBMIT_REQUEST, requestLayout.write request⟩ =
      .submitRequest (some request) := by
  have decoded := buffers.decode_write xdr_BAKERY_REQUEST_follows request .zeroed
  rw [read_write_request _ _ sent.int] at decoded
  simp [callOf, decoded, SUBMIT_REQUEST, Rpc.NULLPROC]

/-- A step either replies and ends the activation, or does neither. -/
theorem replies_of_effect
    (effect : Effect request () shared pc shared' pc' emitted) :
    (∃ ticket, pc = .reply ticket ∧ pc' = .finished ∧ shared' = shared ∧
      emitted = [.replied () shared.result]) ∨
    pc' ≠ .finished ∧ ∀ response, .replied () response ∉ emitted := by
  cases effect with
  | reply ticket => exact .inl ⟨ticket, rfl, rfl, rfl, rfl⟩
  | notGreater _ next | scanTake next => cases next <;> exact .inr ⟨by simp, by simp⟩
  | zero _ next | notEqual _ next => cases next <;> exact .inr ⟨by simp, by simp⟩
  | _ => exact .inr ⟨by simp, by simp⟩

/-- The status is what `fillStatus` has stored. -/
theorem stored_of_effect (effect : Effect request () shared pc shared' pc' emitted)
    (stored : pc'.stored = true) : pc.stored = true ∨ ∃ ticket, pc = .fillStatus ticket := by
  cases effect with
  | fillStatus ticket => exact .inr ⟨ticket, rfl⟩
  | lockAgain | release | unlockAgain => exact .inl rfl
  | notGreater _ next | scanTake next => cases next <;> cases stored
  | zero _ next | notEqual _ next => cases next <;> cases stored
  | _ => cases stored

theorem Handles.step {process : Process} (handles : Handles request process pc)
    (current : process.server.current = some (request, pc))
    (sent : Sent request kind detail client)
    (stepped : Bakery.step (fun _ => request) () process.server.shared pc =
      some (shared', pc', emitted)) (after : Option (Request × Pc)) :
    Handles request
      ⟨{ process.server with shared := shared', current := after }, process.statusNext⟩ pc' := by
  refine ⟨handles.first.step stepped, fun stored => ?_⟩
  rcases stored_of_effect (step_effect stepped) stored with before | ⟨ticket, rfl⟩
  · have same : process.statusNext = process.status := by
      rw [Process.statusNext, current]
      cases pc with
      | fillStatus ticket => cases before
      | _ => rfl
    rw [same]
    exact handles.status before
  · obtain rfl : ticket = 1 := handles.first.ticketOne ticket rfl
    have short := sent.message.1
    have whole : snprintf 200 (message request 1) = message request 1 :=
      (snprintf_eq_self_iff 200 _).mpr (by omega)
    have fits : (message request 1).length < 100 := by omega
    have copied : process.statusNext = strcpy process.status (message request 1) := by
      simp only [Process.statusNext, current, whole]
    rw [copied]
    exact cString_strcpy process.status _ fits sent.message.2

theorem reply_sent (buffers : Rpc.Buffers) (response : Response) (status : Vector UInt8 100) :
    replyOf buffers status (.activation (.replied () response)) =
      some (.success (responseLayout.write
        ⟨response.clientId, response.ticketNumber, response.queuePosition, status⟩)) := by
  rw [replyOf, buffers.sendreply_eq xdr_BAKERY_RESPONSE_follows _ (by decide)]

/-- Nothing is sent in any other step. -/
theorem silent_reply (buffers : Rpc.Buffers) (status : Vector UInt8 100)
    {emitted : List (Event Unit)} (silent : ∀ response, .replied () response ∉ emitted) :
    ((if usleeps pc pc' then [.slept] else []) ++ emitted.map .activation :
      List ServerEvent).findSome? (replyOf buffers status) = none := by
  rw [List.findSome?_eq_none_iff]
  intro event member
  rcases List.mem_append.mp member with slept | shown
  · split at slept
    · obtain rfl := List.mem_singleton.mp slept
      rfl
    · cases slept
  · obtain ⟨event, listed, rfl⟩ := List.mem_map.mp shown
    cases event with
    | replied tid response => exact absurd listed (silent response)
    | _ => rfl

theorem service_serves (buffers : Rpc.Buffers) :
    (bakeryService buffers).Serves Serving Admits Right where
  init := ⟨rfl, rfl, fun _ => rfl, fun _ => rfl⟩
  take process body idle admits := by
    obtain ⟨request, kind, detail, client, sent, rfl⟩ := admits
    simp only [bakeryService, callOf_sent buffers sent, bakeryProg1, List.findSome?_nil]
    exact ⟨request, .arrive, kind, detail, client, sent, rfl, rfl, by simp,
      idle.2.first request, fun stored => absurd stored (by decide)⟩
  work process body move result serving works := by
    obtain ⟨request, pc, kind, detail, client, sent, rfl, current, running, handles⟩ := serving
    simp only [bakeryService, Server.go, current] at works
    obtain ⟨⟨server, events⟩, goes, rfl⟩ := Option.map_eq_some_iff.mp works
    obtain ⟨⟨shared', pc', emitted⟩, stepped, same⟩ := Option.map_eq_some_iff.mp goes
    obtain ⟨rfl, rfl⟩ := Prod.mk.inj same
    have effect : Effect request () process.server.shared pc shared' pc' emitted :=
      step_effect stepped
    rcases replies_of_effect effect with ⟨ticket, rfl, rfl, rfl, rfl⟩ | ⟨runs, silent⟩
    · have ends := (handles.step current sent stepped none).first.idle
      obtain rfl : ticket = 1 := handles.first.ticketOne ticket rfl
      obtain ⟨clientId, ticketNumber, queuePosition⟩ := handles.first.filled
      have kept : process.statusNext = process.status := by simp only [Process.statusNext, current]
      have replied := reply_sent buffers process.server.shared.result process.status
      rw [kept]
      simp only [usleeps, Bool.false_eq_true, if_false, List.nil_append, List.map_cons,
        List.map_nil, List.findSome?_cons, replied]
      exact ⟨⟨rfl, ends⟩, request, _, kind, detail, client, sent, rfl, rfl, clientId, ticketNumber,
        queuePosition, handles.status rfl⟩
    · have next := handles.step current sent stepped (some (request, pc'))
      rw [silent_reply buffers process.statusNext silent]
      simp only [if_neg runs]
      exact ⟨request, pc', kind, detail, client, sent, rfl, rfl, runs, next⟩

theorem Loop.fill_sent (loop : Loop) (picks : Picks)
    (ranged : 1 ≤ loop.clientId ∧ loop.clientId ≤ 3) :
    Sent (loop.fill picks) (requestTypes.get picks.typeIndex) (details.get picks.detailIndex)
      loop.clientId := by
  have kind := List.get_mem requestTypes picks.typeIndex
  have detail := List.get_mem details picks.detailIndex
  have types := short_requestTypes _ kind
  have items := short_details _ detail
  exact ⟨kind, detail, ranged, rfl, cString_strcpy _ _ (by omega) types.2,
    cString_strcpy _ _ (by omega) items.2⟩

/-- A response that is printed is the one to the request that has been printed. -/
def Line.Good : Line → Prop
  | .response sent given => ∃ kind detail client, Sent sent kind detail client ∧
      Answers sent given
  | .failed => True

theorem client_shows (Client : Type u) (uninitialised : Client → Request)
    (buffers : Rpc.Buffers) : (bakeryClient Client uninitialised buffers).Shows
      (fun loop => 1 ≤ loop.clientId) Admits Right Line.Good where
  init _ := Nat.le_refl 1
  asks before picks after body least asked := by
    simp only [bakeryClient] at asked
    split at asked
    · rename_i most
      have sent := before.fill_sent picks ⟨least, most⟩
      rw [buffers.encode_eq xdr_BAKERY_REQUEST_follows _ (by decide)] at asked
      obtain ⟨rfl, rfl⟩ := Prod.mk.inj (Option.some.inj asked)
      exact ⟨_, _, _, _, sent, rfl⟩
    · cases asked
  resumes before picks after body answer least asked right := by
    simp only [bakeryClient] at asked
    split at asked
    · rename_i most
      have sent := before.fill_sent picks ⟨least, most⟩
      rw [buffers.encode_eq xdr_BAKERY_REQUEST_follows _ (by decide)] at asked
      obtain ⟨rfl, rfl⟩ := Prod.mk.inj (Option.some.inj asked)
      refine ⟨?_, fun shown member => ?_⟩
      · simp only [bakeryClient, Loop.advance]
        split
        · exact least
        · exact Nat.le_succ_of_le least
      · obtain rfl := List.mem_singleton.mp member
        split
        · rename_i response taken
          obtain ⟨results, rfl, read⟩ := Rpc.Buffers.result_eq_some taken
          obtain ⟨request, printed, kind, detail, client, other, same, replied, answers⟩ :=
            right _ rfl
          obtain rfl := sent.unique other (Rpc.CallBody.mk.inj same).2
          rw [Rpc.ReplyBody.success.inj replied,
            buffers.decode_write xdr_BAKERY_RESPONSE_follows, answers.read_write sent] at read
          obtain rfl := Option.some.inj read
          exact ⟨_, _, _, sent, answers⟩
        · exact True.intro
    · cases asked

section Exchange

variable {Client : Type u} [DecidableEq Client] {uninitialised : Client → Request}
variable {sender receiver : Rpc.Buffers}

theorem Serving.goes {process : Process} (serving : Serving process (some body))
    (buffers : Rpc.Buffers) : ∃ result, (bakeryService buffers).work process () = some result ∧
      result.1.server.remaining < process.server.remaining := by
  obtain ⟨request, pc, kind, detail, client, sent, rfl, current, running, handles⟩ := serving
  obtain ⟨outcome, stepped⟩ := handles.first.sole.enabled running
  obtain ⟨⟨after, emitted⟩, goes⟩ : ∃ result, process.server.go = some result := by
    simp only [Server.go, current, stepped]
    exact ⟨_, rfl⟩
  have nearer := (Steady.go (.busy current running handles.first) goes).2.2
  refine ⟨(⟨after, process.statusNext⟩, emitted.findSome? (replyOf buffers process.statusNext)),
    ?_, nearer⟩
  simp only [bakeryService, goes]
  rfl

variable (uninitialised sender receiver) in
/-- A request that the server has taken is answered by its next steps. -/
theorem works_off (network : Rpc.State Client Process Loop Rpc.CallBody Rpc.ReplyBody)
    (busy : network.handling = some (call, body)) (serving : Serving network.server (some body)) :
    ∃ count shown server reply, count ≤ network.server.server.remaining ∧ Serving server none ∧
      Right body reply ∧
      (exchange Client uninitialised sender receiver).Path Machine.anything network
        (List.replicate count (.work ())) shown
        { network with
          server := server, handling := none, replies := network.replies ++ [(call, reply)] } := by
  induction left : network.server.server.remaining using Nat.strong_induction_on
    generalizing network with
  | h left ih =>
    obtain ⟨⟨server, answer⟩, works, nearer⟩ := serving.goes receiver
    have less : server.server.remaining < network.server.server.remaining := nearer
    have settles := (service_serves receiver).work _ _ _ _ serving works
    have taken : (exchange Client uninitialised sender receiver).next network (.work ()) =
        some (network.answer call body (server, answer), Rpc.answered call body answer) := by
      simp only [exchange, Rpc.machine, Rpc.next, busy, works]
      rfl
    cases answer with
    | some reply =>
      exact ⟨1, _, server, reply, by omega, settles.1, settles.2, .single trivial taken⟩
    | none =>
      obtain ⟨count, shown, final, reply, bound, idle, right, path⟩ :=
        ih server.server.remaining (left ▸ nearer) (network.answer call body (server, none)) rfl
          settles rfl
      have bounded : count ≤ server.server.remaining := bound
      exact ⟨count + 1, _, final, reply, by omega, idle, right, .cons trivial taken path⟩

variable (uninitialised sender receiver) in
/-- What the server is busy with, it gets out of the way. -/
theorem becomes_idle {network : Rpc.State Client Process Loop Rpc.CallBody Rpc.ReplyBody}
    (serving : Serving network.server (network.handling.map Prod.snd)) :
    ∃ count shown server replies, count ≤ 816 ∧ Serving server none ∧
      (exchange Client uninitialised sender receiver).Path Machine.anything network
        (List.replicate count (.work ())) shown
        { network with server := server, handling := none, replies := replies } := by
  cases busy : network.handling with
  | none =>
    rw [busy] at serving
    refine ⟨0, [], network.server, network.replies, Nat.zero_le _, serving, ?_⟩
    rw [← busy]
    exact .start
  | some taken =>
    obtain ⟨call, body⟩ := taken
    rw [busy] at serving
    obtain ⟨count, shown, server, reply, bound, idle, _, path⟩ :=
      works_off uninitialised sender receiver network busy serving
    exact ⟨count, shown, server, _, bound.trans network.server.server.remaining_le, idle, path⟩

theorem Serving.take {process : Process} (serving : Serving process none) (admits : Admits body)
    (buffers : Rpc.Buffers) : ∃ after,
      (bakeryService buffers).take process body = (after, none) ∧ Serving after (some body) := by
  have settles := (service_serves buffers).take process body serving admits
  obtain ⟨request, kind, detail, client, sent, rfl⟩ := admits
  have taken : (bakeryService buffers).take process ⟨SUBMIT_REQUEST, requestLayout.write request⟩ =
      ({ process with server := { process.server with current := some (request, .arrive) } },
        none) := by
    simp only [bakeryService, callOf_sent buffers sent, bakeryProg1, List.findSome?_nil]
  rw [taken] at settles
  exact ⟨_, taken, settles⟩

variable (uninitialised sender receiver) in
/-- A request that is in the network is answered by a server that is idle, if it is
delivered there. -/
theorem idle_answers (network : Rpc.State Client Process Loop Rpc.CallBody Rpc.ReplyBody)
    (serving : Serving network.server none) (idle : network.handling = none)
    (sent : (call, body) ∈ network.requests) (admits : Admits body) :
    ∃ index count shown server reply, count ≤ 816 ∧ Right body reply ∧
      (exchange Client uninitialised sender receiver).Path Machine.anything network
        (.deliver index :: List.replicate count (.work ())) shown
        { network with
          server := server, handling := none, replies := network.replies ++ [(call, reply)] } := by
  obtain ⟨index, place⟩ := List.mem_iff_getElem?.mp sent
  obtain ⟨after, takes, busy⟩ := serving.take admits receiver
  have taken : (exchange Client uninitialised sender receiver).next network (.deliver index) =
      some (network.answer call body (after, none), Rpc.answered call body none) := by
    simp only [exchange, Rpc.machine, Rpc.next, idle, place, takes]
  obtain ⟨count, shown, final, reply, bound, _, right, path⟩ :=
    works_off uninitialised sender receiver (network.answer call body (after, none)) rfl busy
  exact ⟨index, count, _, final, reply, bound.trans (Server.remaining_le _), right,
    .cons trivial taken path⟩

variable (uninitialised sender receiver) in
/-- A client takes the right reply to its call, and prints a response to the request. -/
theorem accepts_right (client : Client)
    (network : Rpc.State Client Process Loop Rpc.CallBody Rpc.ReplyBody)
    (waits : network.waiting client = some body)
    (sent : (network.call client, reply) ∈ network.replies) {before : Loop}
    (asks : (bakeryClient Client uninitialised sender).ask before picks =
      some (network.locals client, body)) (right : Right body reply) :
    ∃ index final events response, (exchange Client uninitialised sender receiver).next network
        (.accept client index) = some (final, events) ∧
      .shown client (.response (network.locals client).request response) ∈ events ∧
      body = ⟨SUBMIT_REQUEST, requestLayout.write (network.locals client).request⟩ := by
  obtain ⟨index, place⟩ := List.mem_iff_getElem?.mp sent
  obtain ⟨request, response, kind, detail, id, drawn, rfl, rfl, answers⟩ := right
  simp only [bakeryClient] at asks
  split at asks
  · rename_i most
    rw [sender.encode_eq xdr_BAKERY_REQUEST_follows _ (by decide)] at asks
    obtain ⟨filled, same⟩ := Prod.mk.inj (Option.some.inj asks)
    have own : (network.locals client).request = before.fill picks := by rw [← filled]
    let reply := Rpc.ReplyBody.success (responseLayout.write response)
    let resumed := network.resume (bakeryClient Client uninitialised sender) client (some reply)
    have accepts : (exchange Client uninitialised sender receiver).next network
        (.accept client index) = some (resumed.1, .accepted (network.call client)
          ⟨SUBMIT_REQUEST, requestLayout.write request⟩ reply :: resumed.2) := by
      simp only [exchange, Rpc.machine, Rpc.next, waits, place]
      rfl
    refine ⟨index, _, _, response, accepts, List.mem_cons_of_mem _ ?_, by rw [own]; exact same.symm⟩
    simp only [resumed, reply, Rpc.State.resume, bakeryClient, Rpc.Buffers.result,
      sender.decode_write xdr_BAKERY_RESPONSE_follows, answers.read_write drawn, List.map_cons,
      List.map_nil, List.mem_singleton]
  · cases asks

/-- The request that the only client sends first, and the network after that. -/
def picked : Picks := ⟨⟨0, by decide⟩, ⟨0, by decide⟩⟩

def opening : Request := Loop.fill ⟨1, 1, .zeroed⟩ picked

def opened : Rpc.State Unit Process Loop Rpc.CallBody Rpc.ReplyBody where
  server := (bakeryService .datagram).init
  handling := none
  locals := Function.update (fun _ => ⟨1, 1, .zeroed⟩) () ⟨1, 1, opening⟩
  xid := Function.update (fun _ => 0) () 1
  waiting := Function.update (fun _ => none) () (some ⟨SUBMIT_REQUEST, requestLayout.write opening⟩)
  requests := [(⟨(), 1⟩, ⟨SUBMIT_REQUEST, requestLayout.write opening⟩)]
  replies := []

theorem asks_opening :
    (bakeryClient Unit (fun _ => .zeroed) .datagram).ask ⟨1, 1, .zeroed⟩ picked =
      some (⟨1, 1, opening⟩, ⟨SUBMIT_REQUEST, requestLayout.write opening⟩) := by
  simp only [bakeryClient]
  rw [Rpc.Buffers.encode_eq xdr_BAKERY_REQUEST_follows _ _ (by decide)]
  rfl

theorem run_opened : (exchange Unit (fun _ => .zeroed) .datagram .datagram).Run Machine.anything
    [.ask () picked] [.asked ⟨(), 1⟩ ⟨SUBMIT_REQUEST, requestLayout.write opening⟩] opened := by
  refine .single trivial ?_
  have asked : (bakeryClient Unit (fun _ => .zeroed) .datagram).ask
      ((bakeryClient Unit (fun _ => .zeroed) .datagram).init ()) picked = _ := asks_opening
  simp only [exchange, Rpc.machine, Rpc.next, Option.isSome_none, Bool.false_eq_true, if_false,
    asked, Option.map_some]
  rfl

/-- Whatever becomes of the messages and whoever gives up when: a response that is
printed carries the client of the request, ticket 1 and the whole message. -/
theorem prints_own
    (run : (exchange Client uninitialised sender receiver).Run Machine.anything actions events
      network) (client : Client) (sent : Request) (response : BAKERY_RESPONSE)
    (printed : .shown client (.response sent response) ∈ events) :
    ∃ kind detail id, Sent sent kind detail id ∧ Answers sent response := by
  unfold exchange at run
  have good : (Line.response sent response).Good :=
    Rpc.shown_good (service_serves receiver) (client_shows Client uninitialised sender) run printed
  exact good

theorem prints_own_opening : ∃ actions events network response,
    (exchange Unit (fun _ => .zeroed) .datagram .datagram).Run Machine.anything actions events
      network ∧
    .shown () (.response opening response) ∈ events ∧
    ∃ kind detail id, Sent opening kind detail id ∧ Answers opening response := by
  have least : (1 : Nat) ≤ 1 ∧ 1 ≤ 3 := by decide
  have admits : Admits ⟨SUBMIT_REQUEST, requestLayout.write opening⟩ :=
    ⟨opening, _, _, _, Loop.fill_sent ⟨1, 1, .zeroed⟩ picked least, rfl⟩
  obtain ⟨index, count, shown, server, reply, _, right, path⟩ :=
    idle_answers (fun _ => .zeroed) .datagram .datagram opened (service_serves .datagram).init rfl
      (List.mem_singleton_self _) admits
  obtain ⟨place, final, events, response, accepts, printed, _⟩ := accepts_right (fun _ => .zeroed)
    .datagram .datagram () { opened with
      server := server, handling := none, replies := opened.replies ++ [(⟨(), 1⟩, reply)] }
    rfl (List.mem_singleton_self _) asks_opening right
  have run := (run_opened.append path).step trivial accepts
  refine ⟨_, _, _, response, run, List.mem_append_right _ printed, ?_⟩
  exact prints_own run () opening response (List.mem_append_right _ printed)

/-- A client that waits can always be answered, by a delivery of its request and of the
reply to it and the steps of the server, and prints a response to the request. -/
theorem answerable
    (run : (exchange Client uninitialised sender receiver).Run Machine.anything actions events
      network) (client : Client) (waits : network.waiting client = some body) :
    ∃ moves shown final sent response, moves.length ≤ 1634 ∧
      (exchange Client uninitialised sender receiver).Path Machine.anything network moves shown
        final ∧
      .shown client (.response sent response) ∈ shown ∧
      body = ⟨SUBMIT_REQUEST, requestLayout.write sent⟩ := by
  unfold exchange at run
  have consistent := (Rpc.Consistent.ofRun (service_serves receiver)
    (client_shows Client uninitialised sender) run).1
  obtain ⟨called, before, picks, _, asks⟩ := consistent.waits client body waits
  obtain ⟨first, early, idler, replies, few, idle, freed⟩ :=
    becomes_idle uninitialised sender receiver consistent.kept
  obtain ⟨index, count, late, server, reply, bound, right, answered⟩ :=
    idle_answers uninitialised sender receiver
      { network with server := idler, handling := none, replies := replies } idle rfl called
      (consistent.admitted _ _ called)
  obtain ⟨place, final, events, response, accepts, printed, same⟩ := accepts_right uninitialised
    sender receiver client { network with
      server := server, handling := none, replies := replies ++ [(network.call client, reply)] }
    waits (List.mem_append_right _ (List.mem_singleton_self _)) asks right
  refine ⟨_, _, final, _, response, ?_, (freed.append answered).step trivial accepts,
    List.mem_append_right _ printed, same⟩
  simp only [List.length_append, List.length_cons, List.length_replicate, List.length_nil]
  omega

theorem answerable_opened : ∃ body moves shown final sent response,
    opened.waiting () = some body ∧ moves.length ≤ 1634 ∧
      (exchange Unit (fun _ => .zeroed) .datagram .datagram).Path Machine.anything opened moves
        shown final ∧
      .shown () (.response sent response) ∈ shown ∧
      body = ⟨SUBMIT_REQUEST, requestLayout.write sent⟩ := by
  obtain ⟨moves, shown, final, sent, response, answered⟩ := answerable run_opened () rfl
  exact ⟨_, moves, shown, final, sent, response, rfl, answered⟩

end Exchange

end OsLabs.Bakery
