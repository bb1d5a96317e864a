import OsLabs.Machine.Threads

/-! bakery_server.c: activations of `submit_request_1_svc` that draw a ticket
under the mutex, wait for their turn without it, and fill in a response that
they all share. Every access to `choosing` and `number` is a step of its own. -/

namespace OsLabs.Bakery

def MAX_CLIENTS : Nat := 100

def INT_MAX : Int := 2147483647

/-- An `int` result, wrapped to 32 bits. -/
def int32 (value : Int) : Int := value.bmod UInt32.size

/-- `BAKERY_REQUEST`. -/
structure Request where
  clientId : Int
  requestType : Vector UInt8 50
  details : Vector UInt8 100

/-- `BAKERY_RESPONSE`; the status is the string that has been copied into its array. What a
string of 100 bytes or more overwrites behind the array is left out of the running server;
which strings fit is the subject of Status. -/
structure Response where
  clientId : Int
  ticketNumber : Int
  queuePosition : Int
  status : List UInt8

/-- The bytes that `%s` prints of an array that holds a NUL; what it reads behind an array
without one is left out. -/
def cString {size : Nat} (array : Vector UInt8 size) : List UInt8 :=
  array.toList.takeWhile (· ≠ 0)

def ascii (text : String) : List UInt8 := text.toUTF8.toList

/-- "Request '%s: %s' processed for client %d with ticket %d". -/
def message (request : Request) (ticket : Int) : List UInt8 :=
  ascii "Request '" ++ cString request.requestType ++ ascii ": " ++ cString request.details ++
    ascii "' processed for client " ++ ascii (toString request.clientId) ++
    ascii " with ticket " ++ ascii (toString ticket)

/-- `snprintf` into an array of `size` bytes, the terminator among them. -/
def snprintf (size : Nat) (text : List UInt8) : List UInt8 := text.take (size - 1)

/-- The arrays are total here: which indices are used is a matter of `clientId`. -/
structure Shared (Tid : Type) where
  choosing : Int → Int
  number : Int → Int
  mutex : Option Tid
  result : Response

/-- The points of an activation, each named after the access that comes next;
`ticket` is the local variable, `max` is `max_num`, `value` has been loaded. -/
inductive Pc where
  | arrive
  | lock
  | setChoosing
  | scan (i : Nat) (max : Int)
  | scanTake (i : Nat)
  | draw (max : Int)
  | clearChoosing
  | unlock
  | reread
  | waitChoosing (ticket : Int) (i : Nat)
  | waitNonzero (ticket : Int) (i : Nat)
  | waitLess (ticket : Int) (i : Nat)
  | waitLessOwn (ticket : Int) (i : Nat) (value : Int)
  | waitEqual (ticket : Int) (i : Nat)
  | waitEqualOwn (ticket : Int) (i : Nat) (value : Int)
  | fillClient (ticket : Int)
  | fillTicket (ticket : Int)
  | fillPosition (ticket : Int)
  | fillStatus (ticket : Int)
  | lockAgain (ticket : Int)
  | release (ticket : Int)
  | unlockAgain (ticket : Int)
  | reply (ticket : Int)
  | finished
deriving DecidableEq

/-- The steps that can be seen from outside. -/
inductive Event (Tid : Type) where
  | locked (tid : Tid)
  | drew (tid : Tid) (ticket : Int)
  | unlocked (tid : Tid)
  | returned (tid : Tid) (ticket : Int)
  | entered (tid : Tid)
  | released (tid : Tid)
  | replied (tid : Tid) (response : Response)

/-- The loop head of the scan in `get_ticket`. -/
def Pc.scanFrom (i : Nat) (max : Int) : Pc :=
  if i < MAX_CLIENTS then .scan i max else .draw max

variable {Tid : Type}

/-- The loop head of `wait_for_turn`, which returns after the last index. -/
def waitFrom (tid : Tid) (ticket : Int) (i : Nat) : Pc × List (Event Tid) :=
  if i < MAX_CLIENTS then (.waitChoosing ticket i, []) else (.fillClient ticket, [.entered tid])

/-- One step of an activation of `bakery_prog_1`, which decodes its argument,
calls `submit_request_1_svc` and encodes the object that this returns. A request whose
status does not fit into `result.status` goes on like any other. -/
def step (argp : Tid → Request) (tid : Tid) (shared : Shared Tid) :
    Pc → Option (Shared Tid × Pc × List (Event Tid))
  | .arrive => some (shared, .lock, [])
  -- get_ticket
  | .lock =>
    match shared.mutex with
    | none => some ({ shared with mutex := some tid }, .setChoosing, [.locked tid])
    | some _ => none
  | .setChoosing =>
    some ({ shared with
      choosing := fun i => if i = (argp tid).clientId then 1 else shared.choosing i },
      .scanFrom 0 0, [])
  -- if (number[i] > max_num) max_num = number[i];
  | .scan i max =>
    some (shared, if shared.number i > max then .scanTake i else .scanFrom (i + 1) max, [])
  | .scanTake i => some (shared, .scanFrom (i + 1) (shared.number i), [])
  | .draw max =>
    some ({ shared with
      number := fun i => if i = (argp tid).clientId then int32 (max + 1) else shared.number i },
      .clearChoosing, [.drew tid (int32 (max + 1))])
  | .clearChoosing =>
    some ({ shared with
      choosing := fun i => if i = (argp tid).clientId then 0 else shared.choosing i },
      .unlock, [])
  | .unlock => some ({ shared with mutex := none }, .reread, [.unlocked tid])
  | .reread =>
    let ticket := shared.number (argp tid).clientId
    some (shared, (waitFrom tid ticket 0).1, .returned tid ticket :: (waitFrom tid ticket 0).2)
  -- while (choosing[i])
  | .waitChoosing ticket i =>
    some (shared, if shared.choosing i ≠ 0 then .waitChoosing ticket i else .waitNonzero ticket i,
      [])
  -- while (number[i] != 0 &&
  | .waitNonzero ticket i =>
    if shared.number i ≠ 0 then some (shared, .waitLess ticket i, [])
    else some (shared, waitFrom tid ticket (i + 1))
  -- (number[i] < number[client_id] ||
  | .waitLess ticket i => some (shared, .waitLessOwn ticket i (shared.number i), [])
  | .waitLessOwn ticket i value =>
    some (shared, if value < shared.number (argp tid).clientId then .waitNonzero ticket i
      else .waitEqual ticket i, [])
  -- (number[i] == number[client_id] && i < client_id)))
  | .waitEqual ticket i => some (shared, .waitEqualOwn ticket i (shared.number i), [])
  | .waitEqualOwn ticket i value =>
    if value = shared.number (argp tid).clientId ∧ i < (argp tid).clientId then
      some (shared, .waitNonzero ticket i, [])
    else some (shared, waitFrom tid ticket (i + 1))
  -- filling in the static result
  | .fillClient ticket =>
    some ({ shared with result := { shared.result with clientId := (argp tid).clientId } },
      .fillTicket ticket, [])
  | .fillTicket ticket =>
    some ({ shared with result := { shared.result with ticketNumber := ticket } },
      .fillPosition ticket, [])
  | .fillPosition ticket =>
    some ({ shared with result := { shared.result with queuePosition := ticket } },
      .fillStatus ticket, [])
  -- strcpy(result.status, buffer) checks no size
  | .fillStatus ticket =>
    some ({ shared with
      result := { shared.result with status := snprintf 200 (message (argp tid) ticket) } },
      .lockAgain ticket, [])
  -- giving up the ticket
  | .lockAgain ticket =>
    match shared.mutex with
    | none => some ({ shared with mutex := some tid }, .release ticket, [])
    | some _ => none
  | .release ticket =>
    some ({ shared with
      number := fun i => if i = (argp tid).clientId then 0 else shared.number i },
      .unlockAgain ticket, [.released tid])
  | .unlockAgain ticket => some ({ shared with mutex := none }, .reply ticket, [])
  -- svc_sendreply
  | .reply _ => some (shared, .finished, [.replied tid shared.result])
  | .finished => none

def threads (argp : Tid → Request) : Threads Tid (Shared Tid) Pc (Event Tid) where
  shared := ⟨fun _ => 0, fun _ => 0, none, ⟨0, 0, 0, []⟩⟩
  entry := .arrive
  step := step argp

namespace Pc

/-- The activation has the mutex. -/
def locks : Pc → Bool
  | .setChoosing | .scan _ _ | .scanTake _ | .draw _ | .clearChoosing | .unlock | .release _
  | .unlockAgain _ => true
  | .arrive | .lock | .reread | .waitChoosing _ _ | .waitNonzero _ _ | .waitLess _ _
  | .waitLessOwn _ _ _ | .waitEqual _ _ | .waitEqualOwn _ _ _ | .fillClient _ | .fillTicket _
  | .fillPosition _ | .fillStatus _ | .lockAgain _ | .reply _ | .finished => false

/-- Between the return from `wait_for_turn` and `number[client_id] = 0`. -/
def serves : Pc → Bool
  | .fillClient _ | .fillTicket _ | .fillPosition _ | .fillStatus _ | .lockAgain _
  | .release _ => true
  | .arrive | .lock | .setChoosing | .scan _ _ | .scanTake _ | .draw _ | .clearChoosing | .unlock
  | .reread | .waitChoosing _ _ | .waitNonzero _ _ | .waitLess _ _ | .waitLessOwn _ _ _
  | .waitEqual _ _ | .waitEqualOwn _ _ _ | .unlockAgain _ | .reply _ | .finished => false

/-- The activation has drawn a ticket and not given it up. -/
def holds : Pc → Bool
  | .clearChoosing | .unlock | .reread | .waitChoosing _ _ | .waitNonzero _ _ | .waitLess _ _
  | .waitLessOwn _ _ _ | .waitEqual _ _ | .waitEqualOwn _ _ _ => true
  | pc => pc.serves

/-- Between the call and `number[client_id] = 0`. -/
def inFlight : Pc → Bool
  | .lock | .setChoosing | .scan _ _ | .scanTake _ | .draw _ => true
  | pc => pc.holds

end Pc

variable [DecidableEq Tid]

/-- Requests arrive with ids that are in range and not in flight, and tickets
stay below INT_MAX. -/
def admissible (argp : Tid → Request) (state : Threads.State Tid (Shared Tid) Pc) (tid : Tid) :
    Prop :=
  match state.pcs tid with
  | .arrive => 0 ≤ (argp tid).clientId ∧ (argp tid).clientId < MAX_CLIENTS ∧
      ∀ other, (state.pcs other).inFlight = true → (argp other).clientId ≠ (argp tid).clientId
  | .draw max => max < INT_MAX
  | _ => True

end OsLabs.Bakery
