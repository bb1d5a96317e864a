import OsLabs.Bakery.Progress
import OsLabs.Bakery.Reply

/-! bakery_svc.c: the only thread of the server, which `svc_run` lets handle one
call after the other. A round of a waiting loop would never end there. -/

namespace OsLabs.Bakery

/-- A call as `bakery_prog_1` receives it: an argument is missing when
`svc_getargs` fails to decode it. -/
inductive Call where
  | null
  | submitRequest (argument : Option Request)
  | getTicketNumber (argument : Option Int)
  | getQueuePosition (argument : Option Int)
  | unknown

structure Server where
  shared : Shared Unit
  /-- The static object of `get_ticket_number_1_svc`. -/
  ticketNumber : Int
  /-- The static object of `get_queue_position_1_svc`. -/
  queuePosition : Int
  /-- The request that is being handled, and the point of its activation. -/
  current : Option (Request × Pc)

inductive ServerEvent where
  | activation (event : Event Unit)
  /-- `usleep(1000)`: a waiting loop is repeated. -/
  | slept
  | answered (value : Int)
  | sentVoid
  | noproc
  | undecodable

inductive ServerAction where
  | receive (call : Call)
  | go

/-- `bakery_prog_1`, up to the call of `submit_request_1_svc`. -/
def bakeryProg1 (server : Server) : Call → Server × List ServerEvent
  | .null => (server, [.sentVoid])
  | .submitRequest (some request) => ({ server with current := some (request, .arrive) }, [])
  | .getTicketNumber (some _) =>
    let result := int32 (server.ticketNumber + 1)
    ({ server with ticketNumber := result }, [.answered result])
  | .getQueuePosition (some _) => (server, [.answered server.queuePosition])
  | .submitRequest none | .getTicketNumber none | .getQueuePosition none => (server, [.undecodable])
  | .unknown => (server, [.noproc])

/-- The way back to the condition of a waiting loop. -/
def usleeps : Pc → Pc → Bool
  | .waitChoosing _ _, .waitChoosing _ _ | .waitLessOwn _ _ _, .waitNonzero _ _
  | .waitEqualOwn _ _ _, .waitNonzero _ _ => true
  | _, _ => false

def Server.go (server : Server) : Option (Server × List ServerEvent) :=
  match server.current with
  | none => none
  | some (request, pc) =>
    (step (fun _ => request) () server.shared pc).map fun (shared, pc', emitted) =>
      ({ server with
          shared := shared
          current := if pc' = .finished then none else some (request, pc') },
        (if usleeps pc pc' then [.slept] else []) ++ emitted.map .activation)

/-- The server, which looks at the next call when it has handled the last one. -/
def service : Machine Server ServerAction ServerEvent where
  init := ⟨⟨fun _ => 0, fun _ => 0, none, ⟨0, 0, 0, []⟩⟩, 0, 0, none⟩
  next server
    | .receive call => if server.current = none then some (bakeryProg1 server call) else none
    | .go => server.go

/-- Requests carry ids in [0, MAX_CLIENTS). -/
def inRange (_ : Server) : ServerAction → Prop
  | .receive (.submitRequest (some request)) =>
    0 ≤ request.clientId ∧ request.clientId < MAX_CLIENTS
  | _ => True

namespace Pc

/-- What the arrays and the mutex show of a point of the program. -/
def marks (pc : Pc) : Bool × Bool × Bool := (pc.locks, pc.holds, pc.chooses)

/-- What the local variables of an activation hold that meets nobody. -/
def Lonely (client : Int) : Pc → Prop
  | .scan i max => i < MAX_CLIENTS ∧ max = 0
  | .scanTake _ => False
  | .draw max => max = 0
  | .waitChoosing _ i | .waitNonzero _ i => i < MAX_CLIENTS
  | .waitLess _ i | .waitEqual _ i => i < MAX_CLIENTS ∧ i = client
  | .waitLessOwn _ i value | .waitEqualOwn _ i value => (i < MAX_CLIENTS ∧ i = client) ∧ value = 1
  | _ => True

/-- A bound on the steps that are left. -/
def remaining : Pc → Nat
  | .arrive => 816
  | .lock => 815
  | .setChoosing => 814
  | .scan i _ => 613 + 2 * (MAX_CLIENTS - i)
  | .scanTake i => 612 + 2 * (MAX_CLIENTS - i)
  | .draw _ => 613
  | .clearChoosing => 612
  | .unlock => 611
  | .reread => 610
  | .waitChoosing _ i => 9 + 6 * (MAX_CLIENTS - i)
  | .waitNonzero _ i => 8 + 6 * (MAX_CLIENTS - i)
  | .waitLess _ i => 7 + 6 * (MAX_CLIENTS - i)
  | .waitLessOwn _ i _ => 6 + 6 * (MAX_CLIENTS - i)
  | .waitEqual _ i => 5 + 6 * (MAX_CLIENTS - i)
  | .waitEqualOwn _ i _ => 4 + 6 * (MAX_CLIENTS - i)
  | .fillClient _ => 8
  | .fillTicket _ => 7
  | .fillPosition _ => 6
  | .fillStatus _ => 5
  | .lockAgain _ => 4
  | .release _ => 3
  | .unlockAgain _ => 2
  | .reply _ => 1
  | .finished => 0

end Pc

/-- The request is the only one that is in flight. -/
structure Sole (request : Request) (shared : Shared Unit) (pc : Pc) : Prop where
  mutex : shared.mutex = if pc.locks then some () else none
  number : ∀ index,
    shared.number index = if pc.holds = true ∧ index = request.clientId then 1 else 0
  choosing : ∀ index,
    shared.choosing index = if pc.chooses = true ∧ index = request.clientId then 1 else 0
  lonely : pc.Lonely request.clientId

/-- What every step of it does: no waiting loop is repeated, and the end comes
nearer. -/
structure Goes (request : Request) (pc : Pc) (shared' : Shared Unit) (pc' : Pc) : Prop where
  sole : Sole request shared' pc'
  awake : usleeps pc pc' = false
  nearer : pc'.remaining < pc.remaining

namespace Sole

variable {request : Request} {shared shared' : Shared Unit} {pc pc' : Pc}

/-- A step that leaves the arrays and the mutex alone. -/
theorem move (sole : Sole request shared pc)
    (kept : shared'.mutex = shared.mutex ∧ shared'.number = shared.number ∧
      shared'.choosing = shared.choosing)
    (marks : pc'.marks = pc.marks) (lonely : pc'.Lonely request.clientId)
    (awake : usleeps pc pc' = false) (nearer : pc'.remaining < pc.remaining) :
    Goes request pc shared' pc' := by
  obtain ⟨mutex, number, choosing⟩ := kept
  simp only [Pc.marks, Prod.mk.injEq] at marks
  obtain ⟨locks, holds, chooses⟩ := marks
  refine ⟨⟨?_, ?_, ?_, lonely⟩, awake, nearer⟩
  · rw [mutex, locks]
    exact sole.mutex
  · rw [number, holds]
    exact sole.number
  · rw [choosing, chooses]
    exact sole.choosing

theorem scanNext (sole : Sole request shared (.scan i 0)) (next : ScanNext 0 (i + 1) pc') :
    Goes request (.scan i 0) shared pc' := by
  obtain ⟨inside, _⟩ := sole.lonely
  cases next with
  | again more =>
    refine sole.move ⟨rfl, rfl, rfl⟩ rfl ⟨more, rfl⟩ rfl ?_
    simp only [Pc.remaining]
    omega
  | done all =>
    have zero : (Pc.draw 0).Lonely request.clientId := rfl
    refine sole.move ⟨rfl, rfl, rfl⟩ rfl zero rfl ?_
    simp only [Pc.remaining]
    omega

/-- The waiting loop goes on from an index that it does not stop at. -/
theorem waitNext (sole : Sole request shared pc) (inside : i < MAX_CLIENTS)
    (marks : pc.marks = (false, true, false))
    (awake : usleeps pc (.waitChoosing ticket (i + 1)) = false ∧
      usleeps pc (.fillClient ticket) = false)
    (far : 3 + 6 * (MAX_CLIENTS - i) < pc.remaining)
    (next : WaitNext () ticket (i + 1) pc' emitted) : Goes request pc shared pc' := by
  cases next with
  | again more =>
    have inside : (Pc.waitChoosing ticket (i + 1)).Lonely request.clientId := more
    refine sole.move ⟨rfl, rfl, rfl⟩ marks.symm inside awake.1 ?_
    change 9 + 6 * (MAX_CLIENTS - (i + 1)) < _
    omega
  | done all =>
    refine sole.move ⟨rfl, rfl, rfl⟩ marks.symm trivial awake.2 ?_
    change 8 < _
    omega

theorem step (sole : Sole request shared pc)
    (effect : Effect request () shared pc shared' pc' emitted) : Goes request pc shared' pc' := by
  have lonely := sole.lonely
  have number := sole.number
  have choosing := sole.choosing
  cases effect with
  | arrive => exact sole.move ⟨rfl, rfl, rfl⟩ rfl trivial rfl (Nat.lt_succ_self _)
  | lock free => exact ⟨⟨rfl, number, choosing, trivial⟩, rfl, Nat.lt_succ_self _⟩
  | setChoosing =>
    have first : (Pc.scan 0 0).Lonely request.clientId := ⟨by decide, rfl⟩
    refine ⟨⟨sole.mutex, number, fun index => ?_, first⟩, rfl, by decide⟩
    simp [choosing, Pc.chooses]
  | greater i more =>
    obtain ⟨_, rfl⟩ := lonely
    rw [number] at more
    simp [Pc.holds, Pc.serves] at more
  | notGreater less next =>
    obtain ⟨_, rfl⟩ := lonely
    exact sole.scanNext next
  | scanTake next => exact lonely.elim
  | draw max =>
    obtain rfl : max = 0 := lonely
    refine ⟨⟨sole.mutex, fun index => ?_, choosing, trivial⟩, rfl, Nat.lt_succ_self _⟩
    have ticket : int32 1 = 1 := by decide
    simp [number, ticket, Pc.holds, Pc.serves]
  | clearChoosing =>
    refine ⟨⟨sole.mutex, number, fun index => ?_, trivial⟩, rfl, Nat.lt_succ_self _⟩
    by_cases own : index = request.clientId <;> simp [choosing, own, Pc.chooses]
  | unlock => exact ⟨⟨rfl, number, choosing, trivial⟩, rfl, Nat.lt_succ_self _⟩
  | reread =>
    have first : (Pc.waitChoosing (shared.number request.clientId) 0).Lonely request.clientId :=
      (by decide : 0 < MAX_CLIENTS)
    exact sole.move ⟨rfl, rfl, rfl⟩ rfl first rfl (Nat.lt_succ_self _)
  | choosing ticket set =>
    rw [choosing] at set
    simp [Pc.chooses] at set
  | notChoosing ticket clear =>
    exact sole.move ⟨rfl, rfl, rfl⟩ rfl lonely rfl (by simp [Pc.remaining])
  | @nonzero ticket i taken =>
    have own : (i : Int) = request.clientId := by
      rw [number] at taken
      simpa [Pc.holds] using taken
    have here : (Pc.waitLess ticket i).Lonely request.clientId := ⟨lonely, own⟩
    exact sole.move ⟨rfl, rfl, rfl⟩ rfl here rfl (by simp [Pc.remaining])
  | zero none next => exact sole.waitNext lonely rfl ⟨rfl, rfl⟩ (by simp [Pc.remaining]) next
  | waitLess ticket i =>
    have own : shared.number i = 1 := by rw [number, if_pos ⟨rfl, lonely.2⟩]
    have here : (Pc.waitLessOwn ticket i (shared.number i)).Lonely request.clientId :=
      ⟨lonely, own⟩
    exact sole.move ⟨rfl, rfl, rfl⟩ rfl here rfl (by simp [Pc.remaining])
  | less ticket i before =>
    obtain ⟨_, rfl⟩ := lonely
    rw [number, if_pos ⟨rfl, rfl⟩] at before
    exact absurd before (Int.lt_irrefl 1)
  | notLess ticket i behind =>
    have here : (Pc.waitEqual ticket i).Lonely request.clientId := lonely.1
    exact sole.move ⟨rfl, rfl, rfl⟩ rfl here rfl (by simp [Pc.remaining])
  | waitEqual ticket i =>
    have own : shared.number i = 1 := by rw [number, if_pos ⟨rfl, lonely.2⟩]
    have here : (Pc.waitEqualOwn ticket i (shared.number i)).Lonely request.clientId :=
      ⟨lonely, own⟩
    exact sole.move ⟨rfl, rfl, rfl⟩ rfl here rfl (by simp [Pc.remaining])
  | equal ticket before =>
    have same := lonely.1.2
    omega
  | notEqual behind next =>
    exact sole.waitNext lonely.1.1 rfl ⟨rfl, rfl⟩ (by simp [Pc.remaining]) next
  | fillClient ticket | fillTicket ticket | fillPosition ticket | fillStatus ticket
  | reply ticket => exact sole.move ⟨rfl, rfl, rfl⟩ rfl trivial rfl (Nat.lt_succ_self _)
  | lockAgain ticket free => exact ⟨⟨rfl, number, choosing, trivial⟩, rfl, Nat.lt_succ_self _⟩
  | release ticket =>
    refine ⟨⟨sole.mutex, fun index => ?_, choosing, trivial⟩, rfl, Nat.lt_succ_self _⟩
    by_cases own : index = request.clientId <;> simp [number, own, Pc.holds, Pc.serves]
  | unlockAgain ticket => exact ⟨⟨rfl, number, choosing, trivial⟩, rfl, Nat.lt_succ_self _⟩

/-- Nothing blocks it. -/
theorem enabled (sole : Sole request shared pc) (busy : pc ≠ .finished) :
    ∃ result, Bakery.step (fun _ => request) () shared pc = some result := by
  have mutex := sole.mutex
  cases pc with
  | finished => exact absurd rfl busy
  | lock | lockAgain ticket =>
    have free : shared.mutex = none := mutex
    simp only [Bakery.step, free]
    exact ⟨_, rfl⟩
  | waitNonzero ticket i | waitEqualOwn ticket i value =>
    simp only [Bakery.step]
    split <;> exact ⟨_, rfl⟩
  | _ => exact ⟨_, rfl⟩

end Sole

/-- The ticket that an event hands out. -/
def Event.handed : Event Tid → Option Int
  | .drew _ ticket | .returned _ ticket => some ticket
  | .replied _ response => some response.ticketNumber
  | .locked _ | .unlocked _ | .entered _ | .released _ => none

/-- The three moments at which a request is given its ticket; the reply is given with the
numbers that it carries. -/
inductive Given where
  | drew (ticket : Int)
  | returned (ticket : Int)
  | replied (clientId ticketNumber queuePosition : Int)
deriving DecidableEq

def Event.given? : Event Tid → Option Given
  | .drew _ ticket => some (.drew ticket)
  | .returned _ ticket => some (.returned ticket)
  | .replied _ response =>
    some (.replied response.clientId response.ticketNumber response.queuePosition)
  | .locked _ | .unlocked _ | .entered _ | .released _ => none

def ServerEvent.given? : ServerEvent → Option Given
  | .activation event => event.given?
  | .slept | .answered _ | .sentVoid | .noproc | .undecodable => none

/-- The requests that `bakery_prog_1` has passed on. -/
def ServerAction.request? : ServerAction → Option Request
  | .receive (.submitRequest argument) => argument
  | .receive _ | .go => none

/-- A request that is worked off draws ticket 1, is returned it and is answered with it. -/
def Request.served (request : Request) : List Given :=
  [.drew 1, .returned 1, .replied request.clientId 1 1]

/-- How much of that is still to come. -/
def Pc.owes (request : Request) : Pc → List Given
  | .arrive | .lock | .setChoosing | .scan _ _ | .scanTake _ | .draw _ => request.served
  | .clearChoosing | .unlock | .reread => request.served.drop 1
  | .finished => []
  | _ => request.served.drop 2

/-- A request that is handled alone, with ticket 1. -/
structure First (request : Request) (shared : Shared Unit) (pc : Pc) : Prop where
  sole : Sole request shared pc
  ticketOne : ∀ ticket, pc.ticket? = some ticket → ticket = 1
  filled : pc.Filled request shared.result

theorem First.handed (first : First request shared pc)
    (effect : Effect request () shared pc shared' pc' emitted) (member : event ∈ emitted)
    (handed : event.handed = some ticket) : ticket = 1 := by
  have number := first.sole.number
  have lonely := first.sole.lonely
  cases effect with
  | draw max =>
    obtain rfl := List.mem_singleton.mp member
    obtain rfl : max = 0 := lonely
    have one : int32 (0 + 1) = 1 := by decide
    exact (Option.some.inj handed).symm.trans one
  | reread =>
    obtain rfl := List.mem_singleton.mp member
    have one : shared.number request.clientId = 1 := by rw [number, if_pos ⟨rfl, rfl⟩]
    exact (Option.some.inj handed).symm.trans one
  | reply own =>
    obtain rfl := List.mem_singleton.mp member
    have one : shared.result.ticketNumber = 1 := first.filled.2.1.trans (first.ticketOne own rfl)
    exact (Option.some.inj handed).symm.trans one
  | lock | unlock | release =>
    obtain rfl := List.mem_singleton.mp member
    cases handed
  | zero _ next | notEqual _ next =>
    cases next with
    | again => simp at member
    | done =>
      obtain rfl := List.mem_singleton.mp member
      cases handed
  | _ => simp at member

/-- What a step shows was to come. -/
theorem First.owes (first : First request shared pc)
    (effect : Effect request () shared pc shared' pc' emitted) :
    emitted.filterMap Event.given? ++ pc'.owes request = pc.owes request := by
  have number := first.sole.number
  have lonely := first.sole.lonely
  cases effect with
  | draw max =>
    obtain rfl : max = 0 := lonely
    have one : int32 (0 + 1) = 1 := by decide
    rw [one]
    rfl
  | reread =>
    have one : shared.number request.clientId = 1 := by rw [number, if_pos ⟨rfl, rfl⟩]
    rw [one]
    rfl
  | reply own =>
    obtain ⟨client, ticket, position⟩ := first.filled
    obtain rfl := first.ticketOne own rfl
    simp [Event.given?, Pc.owes, Request.served, client, ticket, position]
  | notGreater _ next | scanTake next | zero _ next | notEqual _ next => cases next <;> rfl
  | _ => rfl

theorem First.step (first : First request shared pc)
    (stepped : Bakery.step (fun _ => request) () shared pc = some (shared', pc', emitted)) :
    First request shared' pc' := by
  have effect : Effect request () shared pc shared' pc' emitted := step_effect stepped
  have keeps : Keeps request () pc shared.result shared'.result pc' emitted := step_keeps stepped
  refine ⟨(first.sole.step effect).sole, fun ticket known => ?_, keeps.filled first.filled⟩
  rcases keeps.ticket ticket known with before | now
  · exact first.ticketOne ticket before
  · exact first.handed effect now rfl

theorem Pc.remaining_le (pc : Pc) : pc.remaining ≤ 816 := by
  cases pc <;> simp only [Pc.remaining, MAX_CLIENTS] <;> omega

/-- The only thread is idle, or handles a request that is alone. -/
inductive Steady (server : Server) : Prop where
  | idle (waiting : server.current = none) (empty : Idle server.shared)
  | busy (handles : server.current = some (request, pc)) (running : pc ≠ .finished)
      (first : First request server.shared pc)

def Server.remaining (server : Server) : Nat :=
  match server.current with
  | none => 0
  | some (_, pc) => pc.remaining

theorem Server.remaining_le (server : Server) : server.remaining ≤ 816 := by
  unfold Server.remaining
  split
  · exact Nat.zero_le _
  · exact Pc.remaining_le _

/-- What the request that is being handled is still to be given. -/
def Server.owes (server : Server) : List Given :=
  match server.current with
  | none => []
  | some (request, pc) => pc.owes request

theorem First.idle (first : First request shared .finished) : Idle shared where
  free := first.sole.mutex
  number index := by simpa [Pc.holds, Pc.serves] using first.sole.number index
  choosing index := by simpa [Pc.chooses] using first.sole.choosing index

/-- No waiting loop has been repeated, and every ticket handed out is 1. -/
structure Quiet (events : List ServerEvent) : Prop where
  awake : .slept ∉ events
  one : ∀ event ticket, .activation event ∈ events → event.handed = some ticket → ticket = 1

theorem Quiet.append (first : Quiet events) (second : Quiet more) : Quiet (events ++ more) where
  awake := by simp [first.awake, second.awake]
  one event ticket member handed := by
    rcases List.mem_append.mp member with early | late
    · exact first.one event ticket early handed
    · exact second.one event ticket late handed

/-- What a step of the server does while it handles a request. -/
theorem Steady.go {server after : Server} (steady : Steady server)
    (taken : server.go = some (after, emitted)) :
    Steady after ∧ Quiet emitted ∧ after.remaining < server.remaining := by
  cases steady with
  | idle waiting empty => simp [Server.go, waiting] at taken
  | @busy request pc handles running first =>
    simp only [Server.go, handles] at taken
    obtain ⟨⟨shared', pc', shown⟩, stepped, same⟩ := Option.map_eq_some_iff.mp taken
    obtain ⟨rfl, rfl⟩ := Prod.mk.inj same
    have effect : Effect request () server.shared pc shared' pc' shown := step_effect stepped
    have next := first.step stepped
    obtain ⟨_, awake, nearer⟩ := first.sole.step effect
    refine ⟨?_, ⟨by simp [awake], fun event ticket member handed => ?_⟩, ?_⟩
    · by_cases ended : pc' = .finished
      · subst ended
        exact .idle rfl next.idle
      · exact .busy (if_neg ended) ended next
    · have shows : event ∈ shown := by simpa [awake] using member
      exact first.handed effect shows handed
    · by_cases ended : pc' = .finished
      · subst ended
        simpa [Server.remaining, handles, Pc.remaining] using nearer
      · simpa [Server.remaining, handles, ended] using nearer

/-- A request arrives where nobody is. -/
theorem Idle.first {shared : Shared Unit} (empty : Idle shared) (request : Request) :
    First request shared .arrive := by
  refine ⟨⟨empty.free, ?_, ?_, trivial⟩, fun _ known => (nomatch known), trivial⟩
  · simpa [Pc.holds, Pc.serves] using empty.number
  · simpa [Pc.chooses] using empty.choosing

/-- A call that arrives is answered at once, or begins to be handled. -/
theorem Steady.receive {server : Server} (steady : Steady server) (waiting : server.current = none)
    (call : Call) : Steady (bakeryProg1 server call).1 ∧ Quiet (bakeryProg1 server call).2 := by
  have empty : Idle server.shared := by
    cases steady with
    | idle _ empty => exact empty
    | busy handles =>
      rw [waiting] at handles
      cases handles
  have quiet : Quiet (bakeryProg1 server call).2 := by
    cases call with
    | null | unknown => exact ⟨by simp [bakeryProg1], by simp [bakeryProg1]⟩
    | submitRequest argument | getTicketNumber argument | getQueuePosition argument =>
      cases argument <;> exact ⟨by simp [bakeryProg1], by simp [bakeryProg1]⟩
  refine ⟨?_, quiet⟩
  cases call with
  | null | unknown => exact steady
  | submitRequest argument =>
    cases argument with
    | none => exact steady
    | some request => exact .busy rfl (by simp) (empty.first request)
  | getTicketNumber argument | getQueuePosition argument =>
    cases argument with
    | none => exact steady
    | some value => exact .idle waiting empty

theorem Steady.next {server after : Server} (steady : Steady server)
    (taken : service.next server action = some (after, emitted)) :
    Steady after ∧ Quiet emitted := by
  cases action with
  | receive call =>
    simp only [service] at taken
    split at taken
    · have answered := steady.receive ‹_› call
      rwa [Option.some.inj taken] at answered
    · cases taken
  | go =>
    obtain ⟨kept, quiet, _⟩ := steady.go taken
    exact ⟨kept, quiet⟩

/-- The server gives its request what it owes, and owes a new one everything. -/
theorem Steady.owes {server after : Server} (steady : Steady server)
    (taken : service.next server action = some (after, emitted)) :
    emitted.filterMap ServerEvent.given? ++ after.owes =
      server.owes ++ action.request?.toList.flatMap Request.served := by
  cases action with
  | receive call =>
    simp only [service] at taken
    split at taken
    · rename_i waiting
      obtain ⟨rfl, rfl⟩ := Prod.mk.inj (Option.some.inj taken)
      cases call with
      | null | unknown => simp [ServerEvent.given?, ServerAction.request?]
      | submitRequest argument =>
        cases argument <;> simp [ServerEvent.given?, ServerAction.request?, Server.owes,
          waiting, Pc.owes]
      | getTicketNumber argument | getQueuePosition argument =>
        cases argument <;> simp [ServerEvent.given?, ServerAction.request?, Server.owes,
          waiting]
    · cases taken
  | go =>
    cases steady with
    | idle waiting empty => simp [service, Server.go, waiting] at taken
    | @busy request pc handles running first =>
      simp only [service, Server.go, handles] at taken
      obtain ⟨⟨shared', pc', shown⟩, stepped, same⟩ := Option.map_eq_some_iff.mp taken
      obtain ⟨rfl, rfl⟩ := Prod.mk.inj same
      have effect : Effect request () server.shared pc shared' pc' shown := step_effect stepped
      obtain ⟨_, awake, _⟩ := first.sole.step effect
      have owed := first.owes effect
      have shows : (shown.map ServerEvent.activation).filterMap ServerEvent.given? =
          shown.filterMap Event.given? := List.filterMap_map
      by_cases ended : pc' = .finished
      · subst ended
        simpa [awake, shows, Server.owes, handles, ServerAction.request?, Pc.owes] using owed
      · simpa [awake, shows, Server.owes, handles, ServerAction.request?, ended] using owed

theorem Steady.ofRun (run : service.Run inRange actions events server) :
    Steady server ∧ Quiet events := by
  refine run.invariant (fun events server => Steady server ∧ Quiet events) ?_ ?_
  · exact ⟨.idle rfl ⟨rfl, fun _ => rfl, fun _ => rfl⟩, by simp, by simp⟩
  · intro events server action after emitted holds _ taken
    obtain ⟨steady, quiet⟩ := holds.1.next taken
    exact ⟨steady, holds.2.append quiet⟩

theorem owes_of_run (run : service.Run inRange actions events server) :
    events.filterMap ServerEvent.given? ++ server.owes =
      (actions.filterMap ServerAction.request?).flatMap Request.served := by
  induction run with
  | start => rfl
  | @step actions events server action after emitted run _ taken ih =>
    have owed := (Steady.ofRun run).1.owes taken
    have last : [action].filterMap ServerAction.request? = action.request?.toList := by
      cases asked : action.request? <;> simp [asked]
    rw [List.filterMap_append, List.filterMap_append, List.flatMap_append, ← ih, last,
      List.append_assoc, owed, List.append_assoc]

/-- The request that is being handled is handled to its end. -/
theorem Steady.returns {server : Server} (steady : Steady server) :
    ∃ count final shown, count ≤ server.remaining ∧
      service.Path inRange server (List.replicate count .go) shown final ∧
      final.current = none := by
  induction left : server.remaining using Nat.strong_induction_on generalizing server with
  | h left ih =>
    cases steady with
    | idle waiting empty => exact ⟨0, server, [], Nat.zero_le _, .start, waiting⟩
    | @busy request pc handles running first =>
      obtain ⟨result, stepped⟩ := first.sole.enabled running
      obtain ⟨⟨after, emitted⟩, taken⟩ : ∃ result, server.go = some result := by
        simp only [Server.go, handles, stepped]
        exact ⟨_, rfl⟩
      obtain ⟨kept, _, nearer⟩ := Steady.go (.busy handles running first) taken
      obtain ⟨count, final, shown, bound, path, ended⟩ :=
        ih after.remaining (left ▸ nearer) kept rfl
      exact ⟨count + 1, final, emitted ++ shown, by omega, .cons trivial taken path, ended⟩

/-- What holds of the only thread of the server after any calls. What `strcpy` writes behind
the array of the status, when a message does not fit into it, is left out. -/
structure ServesAll (actions : List ServerAction) (events : List ServerEvent) (server : Server) :
    Prop where
  /-- No waiting loop has been repeated. -/
  awake : .slept ∉ events
  /-- Both arrays are zero whenever no request is being handled. -/
  restored : server.current = none →
    (∀ index, server.shared.choosing index = 0) ∧ ∀ index, server.shared.number index = 0
  /-- Every ticket that has been handed out is 1. -/
  one : ∀ event ticket, .activation event ∈ events → event.handed = some ticket → ticket = 1
  /-- Every request that has come in has drawn ticket 1, has been returned it and has been
  answered with it, each once and one request after the other, up to what is still to come
  of the one that is being handled. -/
  each : events.filterMap ServerEvent.given? ++ server.owes =
    (actions.filterMap ServerAction.request?).flatMap Request.served
  /-- The request that is being handled is answered within so many steps. -/
  returns : ∃ count final shown, count ≤ 816 ∧
    service.Path inRange server (List.replicate count .go) shown final ∧ final.current = none

/-- Whatever calls come in, one after the other. -/
theorem servesAll (run : service.Run inRange actions events server) :
    ServesAll actions events server := by
  obtain ⟨steady, quiet⟩ := Steady.ofRun run
  obtain ⟨count, final, shown, bound, path, ended⟩ := steady.returns
  refine ⟨quiet.awake, fun waiting => ?_, quiet.one, owes_of_run run, count, final, shown,
    bound.trans server.remaining_le, path, ended⟩
  cases steady with
  | idle _ empty => exact ⟨empty.choosing, empty.number⟩
  | busy handles =>
    rw [waiting] at handles
    cases handles

/-- A question for the ticket number, and then a request of client 0. -/
theorem servesAll_zero : ∃ count shown server,
    service.Run inRange ([.receive (.getTicketNumber (some 0)),
      .receive (.submitRequest (some (pair true)))] ++ List.replicate count .go)
      ([.answered 1] ++ shown) server ∧
    server.current = none ∧ ServesAll ([.receive (.getTicketNumber (some 0)),
      .receive (.submitRequest (some (pair true)))] ++ List.replicate count .go)
      ([.answered 1] ++ shown) server := by
  let asked : Server := { service.init with ticketNumber := 1 }
  have ranged : inRange asked (.receive (.submitRequest (some (pair true)))) := by
    change 0 ≤ (pair true).clientId ∧ (pair true).clientId < MAX_CLIENTS
    decide
  have asks : service.Run inRange [.receive (.getTicketNumber (some 0))] [.answered 1] asked :=
    .single trivial rfl
  have arrives : service.Run inRange [.receive (.getTicketNumber (some 0)),
      .receive (.submitRequest (some (pair true)))] [.answered 1]
      { asked with current := some (pair true, .arrive) } := asks.step ranged rfl
  obtain ⟨count, final, shown, _, rest, ended⟩ := (servesAll arrives).returns
  have run := arrives.append rest
  exact ⟨count, shown, final, run, ended, servesAll run⟩

end OsLabs.Bakery
