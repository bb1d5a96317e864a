import OsLabs.Ipc.Event
import OsLabs.Machine.Threads

/-! writer_reader.c and writer_reader_active.c: reader and writer threads of one
letter that let each other in by two Win32 events. The two programs differ in
what they make of a poll and in the events that they set. -/

namespace OsLabs.Lab04

inductive Handle where
  | canRead
  | canWrite
deriving DecidableEq

inductive Counter where
  | readCnt
  | writeCnt
  | activeReader
  | cnt
deriving DecidableEq

/-- The handles are valid, so that no call on them fails; `raised` says that
CTRL_BREAK has been generated. -/
structure Shared (Tid : Type) where
  event : Handle → Event
  bmutex : Option Tid
  count : Counter → Int32
  symbol : UInt8
  flag : Int32
  raised : Bool

namespace Shared

variable {Tid : Type} (shared : Shared Tid)

/-- Change one event. -/
def withEvent (handle : Handle) (event : Event) : Shared Tid :=
  { shared with event := Function.update shared.event handle event }

/-- Store into one counter. -/
def withCount (counter : Counter) (value : Int32) : Shared Tid :=
  { shared with count := Function.update shared.count counter value }

variable {handle : Handle} {event : Event} {counter : Counter} {value : Int32}

@[simp] theorem withEvent_event :
    (shared.withEvent handle event).event = Function.update shared.event handle event := rfl

@[simp] theorem withCount_event : (shared.withCount counter value).event = shared.event := rfl

@[simp] theorem withEvent_count : (shared.withEvent handle event).count = shared.count := rfl

@[simp] theorem withCount_count : (shared.withCount counter value).count =
    Function.update shared.count counter value := rfl

@[simp] theorem withEvent_self : shared.withEvent handle (shared.event handle) = shared := by
  simp [withEvent]

theorem withCount_self (same : value = shared.count counter) :
    shared.withCount counter value = shared := by
  simp [withCount, same]

@[simp] theorem withCount_withEvent : (shared.withCount counter value).withEvent handle event =
    (shared.withEvent handle event).withCount counter value := rfl

@[simp] theorem withCount_withCount (first : Int32) :
    (shared.withCount counter first).withCount counter value = shared.withCount counter value := by
  simp [withCount]

end Shared

/-- Where the two programs differ. -/
structure Protocol where
  /-- The condition under which `start_read` waits after its poll of `can_write`. -/
  readerWaits : WaitResult → Bool
  /-- The condition under which `start_write` waits after its poll of `can_read`. -/
  writerWaits : WaitResult → Bool
  /-- Readers are counted in `active_reader`. -/
  countsReaders : Bool
  /-- The event that `stop_read` sets. -/
  afterRead : Handle
  /-- The event that `stop_write` resets. -/
  afterWrite : Handle
  /-- The event that `stop_write` sets when another writer is about to enter. -/
  moreWriters : Handle
  /-- The event that it sets otherwise. -/
  noWriters : Handle
  /-- `SetConsoleCtrlHandler(signal, TRUE)`. -/
  catchesBreak : Bool

/-- writer_reader.c. -/
def writerReader : Protocol where
  readerWaits result := result.code != 0
  writerWaits result := result.code != 0
  countsReaders := false
  afterRead := .canWrite
  afterWrite := .canWrite
  moreWriters := .canWrite
  noWriters := .canRead
  catchesBreak := true

/-- writer_reader_active.c. CTRL_BREAK is not caught: it ends the process, after
which no thread takes a step. -/
def writerReaderActive : Protocol where
  readerWaits result := result == .WAIT_OBJECT_0
  writerWaits result := result == .WAIT_OBJECT_0
  countsReaders := true
  afterRead := .canRead
  afterWrite := .canRead
  moreWriters := .canRead
  noWriters := .canRead
  catchesBreak := false

/-- The thread of the system that runs the console handler is one of the threads. -/
inductive Role where
  | reader
  | writer
  | console
deriving DecidableEq

/-- The places where a counter is incremented or decremented. -/
inductive Bump where
  | enterRead
  | countReader
  | leaveReadQueue
  | uncountReader
  | enterWrite
  | leaveWriteQueue
  | countRound
deriving DecidableEq

def Bump.counter : Bump → Counter
  | .enterRead | .leaveReadQueue => .readCnt
  | .countReader | .uncountReader => .activeReader
  | .enterWrite | .leaveWriteQueue => .writeCnt
  | .countRound => .cnt

def Bump.change : Bump → Int32 → Int32
  | .enterRead, value | .countReader, value | .enterWrite, value | .countRound, value => value + 1
  | .leaveReadQueue, value | .uncountReader, value | .leaveWriteQueue, value => value - 1

/-- The points of a thread, each named after the access or the call that comes
next. -/
inductive Pc where
  | testFlag
  | bump (place : Bump)
  | store (place : Bump) (value : Int32)
  | testWriteCnt
  | pollCanWrite
  | waitCanRead
  | setCanRead
  | waitMutex
  | releaseMutex
  | printReader
  | setAfterRead
  | pollCanRead
  | waitCanWrite
  | testSymbol
  | resetSymbol
  | testCnt
  | generateBreak
  | bumpSymbol
  | storeSymbol (value : UInt8)
  | printWriter
  | resetAfterWrite
  | testMoreWriters
  | setMoreWriters
  | setNoWriters
  | returned
deriving DecidableEq

/-- What follows a change of a counter. -/
def Bump.next : Bump → Pc
  | .enterRead => .testWriteCnt
  | .countReader => .bump .leaveReadQueue
  | .leaveReadQueue => .releaseMutex
  | .uncountReader => .setAfterRead
  | .enterWrite => .pollCanRead
  | .leaveWriteQueue => .testSymbol
  | .countRound => .resetSymbol

/-- Values stored to `symbol` and values of it that are printed. -/
inductive Output (Tid : Type) where
  | stored (tid : Tid) (value : UInt8)
  | printed (tid : Tid) (value : UInt8)

/-- Which `++` and `--` are a load and a store in two steps. -/
structure Grain where
  counter : Counter → Bool
  symbol : Bool

/-- None of them. -/
def atomic : Grain := ⟨fun _ => false, false⟩

def WRITER_COUNT : Nat := 5

def READER_COUNT : Nat := 4

/-- The threads that `main` creates. -/
def mainRole (i : Fin (WRITER_COUNT + READER_COUNT)) : Role :=
  if i.val % 2 = 0 then .writer else .reader

variable {Tid : Type}

/-- One step of a thread. -/
def step (protocol : Protocol) (grain : Grain) (role : Tid → Role) (tid : Tid)
    (shared : Shared Tid) : Pc → Option (Shared Tid × Pc × List (Output Tid))
  -- while (flag == 0); the console thread: flag = 1;
  | .testFlag =>
    match role tid with
    | .reader => some (shared, if shared.flag = 0 then .bump .enterRead else .returned, [])
    | .writer => some (shared, if shared.flag = 0 then .bump .enterWrite else .returned, [])
    | .console =>
      if shared.raised && protocol.catchesBreak then
        some ({ shared with flag := 1 }, .returned, [])
      else none
  | .bump place =>
    let value := place.change (shared.count place.counter)
    if grain.counter place.counter then some (shared, .store place value, [])
    else some (shared.withCount place.counter value, place.next, [])
  | .store place value => some (shared.withCount place.counter value, place.next, [])
  -- start_read
  | .testWriteCnt =>
    some (shared, if shared.count .writeCnt ≠ 0 then .waitCanRead else .pollCanWrite, [])
  | .pollCanWrite =>
    let (event, result) := (shared.event .canWrite).poll
    some (shared.withEvent .canWrite event,
      if protocol.readerWaits result then .waitCanRead else .setCanRead, [])
  | .waitCanRead =>
    (shared.event .canRead).wait.map fun event => (shared.withEvent .canRead event, .setCanRead, [])
  | .setCanRead => some (shared.withEvent .canRead (shared.event .canRead).set, .waitMutex, [])
  | .waitMutex =>
    match shared.bmutex with
    | none => some ({ shared with bmutex := some tid },
        .bump (if protocol.countsReaders then .countReader else .leaveReadQueue), [])
    | some _ => none
  | .releaseMutex => some ({ shared with bmutex := none }, .printReader, [])
  -- reader
  | .printReader =>
    some (shared, if protocol.countsReaders then .bump .uncountReader else .setAfterRead,
      [.printed tid shared.symbol])
  -- stop_read
  | .setAfterRead =>
    some (shared.withEvent protocol.afterRead (shared.event protocol.afterRead).set, .testFlag, [])
  -- start_write
  | .pollCanRead =>
    let (event, result) := (shared.event .canRead).poll
    some (shared.withEvent .canRead event,
      if protocol.writerWaits result then .waitCanWrite else .bump .leaveWriteQueue, [])
  | .waitCanWrite =>
    (shared.event .canWrite).wait.map fun event =>
      (shared.withEvent .canWrite event, .bump .leaveWriteQueue, [])
  -- writer
  | .testSymbol =>
    some (shared, if shared.symbol = 'z'.toUInt8 then .bump .countRound else .bumpSymbol, [])
  | .resetSymbol =>
    some ({ shared with symbol := 'a'.toUInt8 }, .testCnt, [.stored tid 'a'.toUInt8])
  | .testCnt => some (shared, if 3 ≤ shared.count .cnt then .generateBreak else .printWriter, [])
  -- GenerateConsoleCtrlEvent(CTRL_BREAK_EVENT, 0); break;
  | .generateBreak => some ({ shared with raised := true }, .returned, [])
  | .bumpSymbol =>
    let value := shared.symbol + 1
    if grain.symbol then some (shared, .storeSymbol value, [])
    else some ({ shared with symbol := value }, .printWriter, [.stored tid value])
  | .storeSymbol value =>
    some ({ shared with symbol := value }, .printWriter, [.stored tid value])
  | .printWriter => some (shared, .resetAfterWrite, [.printed tid shared.symbol])
  -- stop_write
  | .resetAfterWrite =>
    some (shared.withEvent protocol.afterWrite (shared.event protocol.afterWrite).reset,
      .testMoreWriters, [])
  | .testMoreWriters =>
    some (shared, if 0 < shared.count .writeCnt then .setMoreWriters else .setNoWriters, [])
  | .setMoreWriters =>
    some (shared.withEvent protocol.moreWriters (shared.event protocol.moreWriters).set, .testFlag,
      [])
  | .setNoWriters =>
    some (shared.withEvent protocol.noWriters (shared.event protocol.noWriters).set, .testFlag, [])
  | .returned => none

/-- Where a thread can be blocked, in either program. -/
theorem blocked_at {role : Tid → Role} {pc : Pc} (part : role tid ≠ .console)
    (remains : pc ≠ .returned) (blocked : step protocol grain role tid shared pc = none) :
    pc = .waitCanRead ∧ (shared.event .canRead).signalled = false ∨
    pc = .waitCanWrite ∧ (shared.event .canWrite).signalled = false ∨
    pc = .waitMutex ∧ shared.bmutex ≠ none := by
  cases pc with
  | waitCanRead =>
    exact .inl ⟨rfl, Event.wait_eq_none_iff.mp (Option.map_eq_none_iff.mp blocked)⟩
  | waitCanWrite =>
    exact .inr (.inl ⟨rfl, Event.wait_eq_none_iff.mp (Option.map_eq_none_iff.mp blocked)⟩)
  | waitMutex =>
    refine .inr (.inr ⟨rfl, fun free => ?_⟩)
    simp [step, free] at blocked
  | testFlag =>
    cases own : role tid with
    | console => exact absurd own part
    | reader | writer => simp [step, own] at blocked
  | bump place | bumpSymbol =>
    simp only [step] at blocked
    split at blocked <;> cases blocked
  | returned => exact absurd rfl remains
  | _ => cases blocked

/-- `can_read` is an auto-reset event and `can_write` a manual-reset one. -/
def handles (readable writable : Bool) : Handle → Event
  | .canRead => ⟨false, readable⟩
  | .canWrite => ⟨true, writable⟩

/-- What `main` creates before it starts the threads. -/
def initial : Shared Tid := ⟨handles true true, none, fun _ => 0, 'a'.toUInt8, 0, false⟩

def threads (protocol : Protocol) (grain : Grain) (role : Tid → Role) :
    Threads Tid (Shared Tid) Pc (Output Tid) where
  shared := initial
  entry := .testFlag
  step := step protocol grain role

def Bump.role : Bump → Role
  | .enterRead | .countReader | .leaveReadQueue | .uncountReader => .reader
  | .enterWrite | .leaveWriteQueue | .countRound => .writer

/-- Whose function a point is in; the loop test and the return are everybody's. -/
def Pc.role? : Pc → Option Role
  | .testFlag | .returned => none
  | .bump place | .store place _ => some place.role
  | .testWriteCnt | .pollCanWrite | .waitCanRead | .setCanRead | .waitMutex | .releaseMutex
  | .printReader | .setAfterRead => some .reader
  | .pollCanRead | .waitCanWrite | .testSymbol | .resetSymbol | .testCnt | .generateBreak
  | .bumpSymbol | .storeSymbol _ | .printWriter | .resetAfterWrite | .testMoreWriters
  | .setMoreWriters | .setNoWriters => some .writer

theorem Bump.role?_next (place : Bump) : place.next.role? = some place.role := by
  cases place <;> rfl

end OsLabs.Lab04
