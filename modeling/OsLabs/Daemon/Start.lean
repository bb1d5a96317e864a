import OsLabs.Ipc.LockFile

/-! main.c and lockdaemon.c: starts of a daemon that call `already_running`, which
creates the lock file, locks it and writes the process id into it. -/

namespace OsLabs.Daemon

/-- The points of a start, each named after the system call that comes next. -/
inductive Pc where
  | openFile
  | lockFile
  | ftruncate
  | write
  | returned (value : Int)
  | exited
deriving DecidableEq

/-- What a start does when `open` fails: `return 1` in main.c, `exit(1)` in
lockdaemon.c. -/
inductive Variant where
  | main
  | lockdaemon

def Variant.openFailed : Variant → Pc
  | .main => .returned 1
  | .lockdaemon => .exited

structure Process where
  pc : Pc
  alive : Bool

structure State (Pid : Type) where
  file : LockFile Pid
  process : Pid → Process

/-- A step of a start, or its death at any moment, by a signal or of its own. -/
inductive Action (Pid : Type) where
  | exec (pid : Pid)
  | die (pid : Pid)

/-- What `sprintf(buf, "%ld", (long)getpid())` leaves in `buf`, with its terminator. -/
def pidText (number : Nat) : List UInt8 := (toString number).toUTF8.toList ++ [0]

variable {Pid : Type} [DecidableEq Pid]

/-- One system call of `already_running`. -/
def step (variant : Variant) (getpid : Pid → Nat) (pid : Pid) (file : LockFile Pid) :
    Pc → Option (LockFile Pid × Pc)
  -- fd = open(LOCKFILE, O_CREAT | O_EXCL | O_RDWR, LOCKMODE)
  | .openFile =>
    match file.create with
    | some created => some (created, .lockFile)
    | none => some (file, variant.openFailed)
  -- lockfile(fd): F_RDLCK | F_WRLCK is F_WRLCK
  | .lockFile =>
    match file.setLock pid with
    | some locked => some (locked, .ftruncate)
    | none => some (file, .returned 1)
  | .ftruncate => some (file.truncate, .write)
  | .write => some (file.write (pidText (getpid pid)), .returned 0)
  | .returned _ | .exited => none

def next (variant : Variant) (getpid : Pid → Nat) (state : State Pid) :
    Action Pid → Option (State Pid × List Empty)
  | .exec pid =>
    let process := state.process pid
    if process.alive then
      (step variant getpid pid state.file process.pc).map fun (file, pc) =>
        (⟨file, Function.update state.process pid { process with pc := pc }⟩, [])
    else none
  | .die pid =>
    let process := state.process pid
    if process.alive then
      some (⟨state.file.drop pid,
        Function.update state.process pid { process with alive := false }⟩, [])
    else none

/-- A clean system; a start that has not happened yet is one that has not been
scheduled yet. -/
def machine (variant : Variant) (getpid : Pid → Nat) : Machine (State Pid) (Action Pid) Empty where
  init := ⟨⟨none, none⟩, fun _ => ⟨.openFile, true⟩⟩
  next := next variant getpid

def State.pc (state : State Pid) (pid : Pid) : Pc := (state.process pid).pc

/-- What one system call does. -/
inductive Effect (variant : Variant) (getpid : Pid → Nat) (pid : Pid) (file : LockFile Pid) :
    Pc → LockFile Pid → Pc → Prop where
  | created (created : file.create = some file') :
    Effect variant getpid pid file .openFile file' .lockFile
  | refused (exists_ : file.content ≠ none) :
    Effect variant getpid pid file .openFile file variant.openFailed
  | locked (granted : file.setLock pid = some file') :
    Effect variant getpid pid file .lockFile file' .ftruncate
  | denied (denied : file.setLock pid = none) :
    Effect variant getpid pid file .lockFile file (.returned 1)
  | truncated : Effect variant getpid pid file .ftruncate file.truncate .write
  | written :
    Effect variant getpid pid file .write (file.write (pidText (getpid pid))) (.returned 0)

variable {variant : Variant} {getpid : Pid → Nat} {pid : Pid} {state after : State Pid}

theorem step_effect (stepped : step variant getpid pid file pc = some (file', pc')) :
    Effect variant getpid pid file pc file' pc' := by
  cases pc with
  | openFile =>
    cases created : file.create with
    | some other =>
      obtain ⟨rfl, rfl⟩ : other = file' ∧ Pc.lockFile = pc' := by
        simpa [step, created] using stepped
      exact .created created
    | none =>
      obtain ⟨rfl, rfl⟩ : file = file' ∧ variant.openFailed = pc' := by
        simpa [step, created] using stepped
      exact .refused (LockFile.create_eq_none_iff.mp created)
  | lockFile =>
    cases granted : file.setLock pid with
    | some other =>
      obtain ⟨rfl, rfl⟩ : other = file' ∧ Pc.ftruncate = pc' := by
        simpa [step, granted] using stepped
      exact .locked granted
    | none =>
      obtain ⟨rfl, rfl⟩ : file = file' ∧ Pc.returned 1 = pc' := by
        simpa [step, granted] using stepped
      exact .denied granted
  | ftruncate =>
    obtain ⟨rfl, rfl⟩ : file.truncate = file' ∧ Pc.write = pc' := by simpa [step] using stepped
    exact .truncated
  | write =>
    obtain ⟨rfl, rfl⟩ : file.write (pidText (getpid pid)) = file' ∧ Pc.returned 0 = pc' := by
      simpa [step] using stepped
    exact .written
  | returned value | exited => cases stepped

theorem pc_update (state : State Pid) (file : LockFile Pid) (pid : Pid) (process : Process) :
    State.pc ⟨file, Function.update state.process pid process⟩ =
      Function.update state.pc pid process.pc :=
  Function.comp_update Process.pc state.process pid process

/-- A step makes a system call, or somebody dies where it is. -/
theorem next_cases (taken : (machine variant getpid).next state action = some (after, emitted)) :
    (∃ pid file pc, action = .exec pid ∧
      Effect variant getpid pid state.file (state.pc pid) file pc ∧ after.file = file ∧
      after.pc = Function.update state.pc pid pc) ∨
    ∃ pid, action = .die pid ∧ after.file = state.file.drop pid ∧ after.pc = state.pc := by
  change next variant getpid state action = _ at taken
  cases action with
  | exec pid =>
    simp only [next] at taken
    split at taken
    · obtain ⟨⟨file, pc⟩, stepped, same⟩ := Option.map_eq_some_iff.mp taken
      obtain ⟨rfl, _⟩ := Prod.mk.inj same
      exact .inl ⟨pid, file, pc, rfl, step_effect stepped, rfl, pc_update ..⟩
    · cases taken
  | die pid =>
    simp only [next] at taken
    split at taken
    · obtain ⟨rfl, _⟩ := Prod.mk.inj (Option.some.inj taken)
      refine .inr ⟨pid, rfl, rfl, ?_⟩
      rw [pc_update]
      exact Function.update_eq_self pid state.pc
    · cases taken

end OsLabs.Daemon
