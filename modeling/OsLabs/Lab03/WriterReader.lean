import OsLabs.Ipc.Semaphore
import OsLabs.Lab03.Alphabet
import OsLabs.Machine.Program

/-! writer_reader.c: readers and writers of one letter that enter and leave with
one `semop` each over four semaphores. -/

namespace OsLabs.Lab03.WriterReader

/-- WRITE_QUEUE, READ_QUEUE, ACTIVE_WRITER and ACTIVE_READERS. -/
inductive Semaphore where
  | writeQueue
  | readQueue
  | activeWriter
  | activeReaders
deriving DecidableEq

/-- What the children share: the semaphore set and `*var`. -/
structure Shared where
  sem : Semaphore → Nat
  var : UInt8

/-- Change one semaphore. -/
def Shared.set (shared : Shared) (num : Semaphore) (value : Nat) : Shared :=
  { shared with sem := Function.update shared.sem num value }

@[simp] theorem Shared.sem_set (shared : Shared) (num : Semaphore) (value : Nat) :
    (shared.set num value).sem = Function.update shared.sem num value := rfl

inductive Role where
  | reader
  | writer
deriving DecidableEq

def startRead : List (SemBuf Semaphore) :=
  [⟨.readQueue, 1⟩, ⟨.writeQueue, 0⟩, ⟨.activeWriter, 0⟩, ⟨.activeReaders, 1⟩, ⟨.readQueue, -1⟩]

def endRead : List (SemBuf Semaphore) := [⟨.activeReaders, -1⟩]

def startWrite : List (SemBuf Semaphore) :=
  [⟨.writeQueue, 1⟩, ⟨.activeWriter, 0⟩, ⟨.activeReaders, 0⟩, ⟨.activeWriter, 1⟩, ⟨.writeQueue, -1⟩]

def endWrite : List (SemBuf Semaphore) := [⟨.activeWriter, -1⟩]

def Role.start : Role → List (SemBuf Semaphore)
  | .reader => startRead
  | .writer => startWrite

def Role.finish : Role → List (SemBuf Semaphore)
  | .reader => endRead
  | .writer => endWrite

/-- The semaphore that counts the children of a role in their sections. -/
def Role.active : Role → Semaphore
  | .reader => .activeReaders
  | .writer => .activeWriter

/-- The points between the two `semop` calls of a loop iteration, each named
after the access to `*var` that comes next. -/
inductive Section where
  | printReader
  | loadIncrement
  | storeIncrement (value : UInt8)
  | testVar
  | wrapVar
  | printWriter
deriving DecidableEq

def Role.entry : Role → Section
  | .reader => .printReader
  | .writer => .loadIncrement

def Section.role : Section → Role
  | .printReader => .reader
  | .loadIncrement | .storeIncrement _ | .testVar | .wrapVar | .printWriter => .writer

/-- The start `semop` of a child is called, blocks or is passed; the two programs
print the letter; the end `semop` is passed. -/
inductive Event (Pid : Type) where
  | issued (pid : Pid)
  | blocked (pid : Pid)
  | admitted (pid : Pid)
  | read (pid : Pid) (value : UInt8)
  | wrote (pid : Pid) (value : UInt8)
  | finished (pid : Pid)
deriving DecidableEq

variable {Pid : Type}

/-- One access; `none` for the next point is the end of the section. -/
def Section.step (pid : Pid) (var : UInt8) : Section → UInt8 × Option Section × List (Event Pid)
  -- printf("%d reader %c\n", getpid(), *var);
  | .printReader => (var, none, [.read pid var])
  -- (*var)++;
  | .loadIncrement => (var, some (.storeIncrement var), [])
  | .storeIncrement value => (value + 1, some .testVar, [])
  -- if (*var == 'z' + 1) *var = 'a';
  | .testVar => (var, some (if var = 'z'.toUInt8 + 1 then .wrapVar else .printWriter), [])
  | .wrapVar => ('a'.toUInt8, some .printWriter, [])
  -- printf("%d writer %c\n", getpid(), *var);
  | .printWriter => (var, none, [.wrote pid var])

/-- `reader` and `writer`: the test of the flag, the start `semop` (about to be
issued, or asleep in it), the section, the end `semop`, and the exit. -/
inductive Pc where
  | head
  | entering (asleep : Bool)
  | inside (point : Section)
  | leaving (asleep : Bool)
  | exited (status : Nat)
deriving DecidableEq

/-- A child that is asleep in its start `semop` has called it before. -/
def issues (pid : Pid) (asleep : Bool) : List (Event Pid) := if asleep then [] else [.issued pid]

/-- One step of a child; `i % 2` picks its role in the source. A `semop` that
fails prints and exits. -/
def step (role : Pid → Role) (pid : Pid) (shared : Shared) (flag : Bool) :
    Pc → Option (Shared × Pc × List (Event Pid))
  | .head => some (shared, if flag then .entering false else .exited 0, [])
  | .entering asleep =>
    match semop (role pid).start shared.sem with
    | .done sem =>
      some ({ shared with sem := sem }, .inside (role pid).entry,
        issues pid asleep ++ [.admitted pid])
    | .blocks =>
      if asleep then none else some (shared, .entering true, [.issued pid, .blocked pid])
    | .erange => some (shared, .exited 1, issues pid asleep)
  | .inside point =>
    let (var, next, emitted) := point.step pid shared.var
    some ({ shared with var := var }, next.elim (.leaving false) .inside, emitted)
  | .leaving asleep =>
    match semop (role pid).finish shared.sem with
    | .done sem => some ({ shared with sem := sem }, .head, [.finished pid])
    | .blocks => if asleep then none else some (shared, .leaving true, [])
    | .erange => some (shared, .exited 1, [])
  | .exited _ => none

def Pc.asleep : Pc → Bool
  | .entering asleep | .leaving asleep => asleep
  | _ => false

def Pc.hasExited : Pc → Bool
  | .exited _ => true
  | _ => false

/-- Between a completed start `semop` and its end `semop`. -/
def Pc.active : Pc → Bool
  | .inside _ | .leaving _ => true
  | _ => false

/-- Both error branches of a `semop` end in `exit(1)`, EINTR included. -/
def program (role : Pid → Role) : Program Pid Shared Pc (Event Pid) where
  shared := ⟨fun _ => 0, 'a'.toUInt8⟩
  entry := .head
  step := step role
  asleep := Pc.asleep
  exited := Pc.hasExited
  interrupted := .exited 1

/-- The queue semaphores are raised and lowered within a call, so that no
other call ever sees them raised. -/
structure Queues (shared : Shared) : Prop where
  write : shared.sem .writeQueue = 0
  read : shared.sem .readQueue = 0

/-- The queues stay empty when a child is counted in or out. -/
theorem Queues.set {shared : Shared} (queues : Queues shared) (role : Role) (value : Nat) :
    Queues (shared.set role.active value) := by
  obtain ⟨write, read⟩ := queues
  constructor <;> cases role <;> simpa [Role.active]

/-- A child of a role finds its section free. -/
def Role.Free (shared : Shared) : Role → Prop
  | .reader => shared.sem .activeWriter = 0 ∧ shared.sem .activeReaders < SEMVMX
  | .writer => shared.sem .activeWriter = 0 ∧ shared.sem .activeReaders = 0

/-- A start `semop` that finds its section free counts its caller in. -/
theorem semop_start_free {role : Role} {shared : Shared} (queues : Queues shared)
    (free : role.Free shared) :
    semop role.start shared.sem =
      .done (shared.set role.active (shared.sem role.active + 1)).sem := by
  have limit : 0 < SEMVMX := by decide
  cases role with
  | reader =>
    obtain ⟨writing, room⟩ := free
    simp only [Role.start, startRead, semop, SemBuf.apply_post, SemBuf.apply_zero,
      SemBuf.apply_wait, Function.update_apply, queues.read, queues.write, limit, writing, room,
      reduceCtorEq, ↓reduceIte, Nat.zero_add, Nat.one_ne_zero, Role.active, Shared.sem_set,
      Outcome.done.injEq]
    funext num
    cases num <;> simp [queues.read]
  | writer =>
    obtain ⟨writing, reading⟩ := free
    simp only [Role.start, startWrite, semop, SemBuf.apply_post, SemBuf.apply_zero,
      SemBuf.apply_wait, Function.update_apply, queues.write, limit, writing, reading,
      reduceCtorEq, ↓reduceIte, Nat.zero_add, Nat.one_ne_zero, Role.active, Shared.sem_set,
      Outcome.done.injEq]
    funext num
    cases num <;> simp [queues.write]

/-- A start `semop` waits for the writer in its section, and that of a writer for
the readers too. -/
theorem semop_start_blocks_iff {role : Role} {shared : Shared} (queues : Queues shared) :
    semop role.start shared.sem = .blocks ↔
      shared.sem .activeWriter ≠ 0 ∨ (role = .writer ∧ shared.sem .activeReaders ≠ 0) := by
  have limit : 0 < SEMVMX := by decide
  by_cases writing : shared.sem .activeWriter = 0
  · cases role with
    | reader =>
      by_cases room : shared.sem .activeReaders < SEMVMX
      · have free : Role.reader.Free shared := ⟨writing, room⟩
        rw [semop_start_free queues free]
        simp [writing]
      · simp [Role.start, startRead, semop, SemBuf.apply_post, SemBuf.apply_zero, queues.read,
          queues.write, limit, writing, room]
    | writer =>
      by_cases reading : shared.sem .activeReaders = 0
      · have free : Role.writer.Free shared := ⟨writing, reading⟩
        rw [semop_start_free queues free]
        simp [writing, reading]
      · simp [Role.start, startWrite, semop, SemBuf.apply_post, SemBuf.apply_zero, queues.write,
          limit, writing, reading]
  · cases role with
    | reader =>
      simp [Role.start, startRead, semop, SemBuf.apply_post, SemBuf.apply_zero, queues.read,
        queues.write, limit, writing]
    | writer =>
      simp [Role.start, startWrite, semop, SemBuf.apply_post, SemBuf.apply_zero, queues.write,
        limit, writing]

/-- Any other start `semop` waits, or finds the count of readers at its limit. -/
theorem semop_start_busy {role : Role} {shared : Shared} (queues : Queues shared)
    (busy : ¬ role.Free shared) :
    semop role.start shared.sem = .blocks ∨ semop role.start shared.sem = .erange := by
  by_cases waits : semop role.start shared.sem = .blocks
  · exact .inl waits
  · obtain ⟨idle, alone⟩ := not_or.mp (mt (semop_start_blocks_iff queues).mpr waits)
    have writing : shared.sem .activeWriter = 0 := not_not.mp idle
    have limit : 0 < SEMVMX := by decide
    cases role with
    | reader =>
      have full : ¬ shared.sem .activeReaders < SEMVMX := fun room => busy ⟨writing, room⟩
      right
      simp [Role.start, startRead, semop, SemBuf.apply_post, SemBuf.apply_zero, queues.read,
        queues.write, limit, writing, full]
    | writer =>
      have reading : shared.sem .activeReaders = 0 := by
        by_contra some
        exact alone ⟨rfl, some⟩
      exact absurd ⟨writing, reading⟩ busy

/-- An end `semop` gives up one place of its role. -/
theorem semop_finish (role : Role) (shared : Shared) :
    semop role.finish shared.sem =
      if shared.sem role.active = 0 then .blocks
      else .done (shared.set role.active (shared.sem role.active - 1)).sem := by
  have array : role.finish = [⟨role.active, -1⟩] := by cases role <;> rfl
  rw [array, semop, SemBuf.apply_wait]
  by_cases none : shared.sem role.active = 0
  · simp [none]
  · simp [none, semop]

theorem step_enter {role : Pid → Role} {shared : Shared} (queues : Queues shared)
    (free : (role pid).Free shared) (flag asleep : Bool) :
    step role pid shared flag (.entering asleep) =
      some (shared.set (role pid).active (shared.sem (role pid).active + 1),
        .inside (role pid).entry, issues pid asleep ++ [.admitted pid]) := by
  simp only [step, semop_start_free queues free]
  rfl

/-- What becomes of a child at its start `semop`. -/
theorem enter_cases {role : Pid → Role} {shared : Shared} {emitted : List (Event Pid)}
    (queues : Queues shared)
    (stepped : step role pid shared flag (.entering asleep) = some (shared', pc, emitted)) :
    ((role pid).Free shared ∧ emitted = issues pid asleep ++ [.admitted pid] ∧
        pc = .inside (role pid).entry ∧
        shared' = shared.set (role pid).active (shared.sem (role pid).active + 1)) ∨
      (shared' = shared ∧ ((pc = .entering true ∧ emitted = [.issued pid, .blocked pid]) ∨
        (pc = .exited 1 ∧ emitted = issues pid asleep))) := by
  by_cases free : (role pid).Free shared
  · rw [step_enter queues free] at stepped
    obtain ⟨rfl, rfl, rfl⟩ : _ ∧ _ ∧ _ := by simpa using stepped
    exact .inl ⟨free, rfl, rfl, rfl⟩
  · right
    rcases semop_start_busy queues free with blocks | full
    · simp only [step, blocks, Option.ite_none_left_eq_some, Option.some.injEq,
        Prod.mk.injEq] at stepped
      obtain ⟨_, rfl, rfl, rfl⟩ := stepped
      exact ⟨rfl, .inl ⟨rfl, rfl⟩⟩
    · simp only [step, full, Option.some.injEq, Prod.mk.injEq] at stepped
      obtain ⟨rfl, rfl, rfl⟩ := stepped
      exact ⟨rfl, .inr ⟨rfl, rfl⟩⟩

theorem admitted_not_issued (pid other : Pid) (asleep : Bool) :
    .admitted other ∉ issues pid asleep := by
  cases asleep <;> simp [issues]

/-- Only a start `semop` that finds its section free admits its caller. -/
theorem free_of_admitted {role : Pid → Role} {shared : Shared} {emitted : List (Event Pid)}
    (queues : Queues shared) (stepped : step role pid shared flag pc = some (shared', pc', emitted))
    (admitted : .admitted other ∈ emitted) :
    other = pid ∧ ∃ asleep, pc = .entering asleep ∧ (role pid).Free shared ∧
      emitted = issues pid asleep ++ [.admitted pid] := by
  cases pc with
  | head =>
    obtain ⟨_, _, rfl⟩ : _ ∧ _ ∧ _ := by simpa [step] using stepped
    simp at admitted
  | entering asleep =>
    rcases enter_cases queues stepped with ⟨free, rfl, _⟩ | ⟨_, ⟨_, rfl⟩ | ⟨_, rfl⟩⟩
    · have own := (List.mem_append.mp admitted).resolve_left (admitted_not_issued pid other asleep)
      exact ⟨by simpa using own, asleep, rfl, free, rfl⟩
    · simp at admitted
    · exact absurd admitted (admitted_not_issued pid other asleep)
  | inside point =>
    simp only [step, Option.some.injEq, Prod.mk.injEq] at stepped
    obtain ⟨_, _, rfl⟩ := stepped
    cases point <;> simp [Section.step] at admitted
  | leaving asleep =>
    simp only [step] at stepped
    split at stepped
    · obtain ⟨_, _, rfl⟩ : _ ∧ _ ∧ _ := by simpa using stepped
      simp at admitted
    · obtain ⟨_, _, _, rfl⟩ : _ ∧ _ ∧ _ ∧ _ := by simpa using stepped
      simp at admitted
    · obtain ⟨_, _, rfl⟩ : _ ∧ _ ∧ _ := by simpa using stepped
      simp at admitted
  | exited status => simp [step] at stepped

theorem step_leave {role : Pid → Role} {shared : Shared}
    (counted : shared.sem (role pid).active ≠ 0) (flag asleep : Bool) :
    step role pid shared flag (.leaving asleep) =
      some (shared.set (role pid).active (shared.sem (role pid).active - 1), .head,
        [.finished pid]) := by
  have done := semop_finish (role pid) shared
  rw [if_neg counted] at done
  simp only [step, done]
  rfl

end OsLabs.Lab03.WriterReader
