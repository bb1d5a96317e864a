import OsLabs.Ipc.Semaphore
import OsLabs.Lab03.Ledger
import OsLabs.Machine.Program

/-! prod_cons_mac.c: the same producers and consumers over POSIX semaphores,
which are taken and given back one at a time. -/

namespace OsLabs.Lab03.ProdConsMac

/-- `consumer` and `producer`: the test of the flag, `sem_wait` on the token and
on sem_binary (about to be called, or asleep in it), the section, `sem_post` on
sem_binary and on the other token, and the exit. -/
inductive Pc where
  | head
  | waitToken (asleep : Bool)
  | waitBinary (asleep : Bool)
  | inside (point : Section)
  | postBinary
  | postToken
  | exited (status : Nat)
deriving DecidableEq

/-- A `sem_wait` call: done, or put to sleep. -/
def wait (num : Semaphore) (shared : Shared) (asleep : Bool) (next sleeping : Pc) :
    Option (Shared × Pc × List (Event Pid)) :=
  match semWait (shared.sem num) with
  | some value => some (shared.set num value, next, [])
  | none => if asleep then none else some (shared, sleeping, [])

/-- A `sem_post` call: done, or failed, which prints and exits. -/
def post (num : Semaphore) (shared : Shared) (next : Pc) :
    Option (Shared × Pc × List (Event Pid)) :=
  match semPost (shared.sem num) with
  | some value => some (shared.set num value, next, [])
  | none => some (shared, .exited 1, [])

/-- One step of a child; `i % 2` picks its role in the source. -/
def step (role : Pid → Role) (pid : Pid) (shared : Shared) (flag : Bool) :
    Pc → Option (Shared × Pc × List (Event Pid))
  | .head => some (shared, if flag then .waitToken false else .exited 0, [])
  | .waitToken asleep =>
    wait (role pid).takes shared asleep (.waitBinary false) (.waitToken true)
  | .waitBinary asleep =>
    wait .binary shared asleep (.inside (role pid).entry) (.waitBinary true)
  | .inside point =>
    let (storage, next, emitted) := point.step pid shared.storage
    some ({ shared with storage := storage }, next.elim .postBinary .inside, emitted)
  | .postBinary => post .binary shared .postToken
  | .postToken => post (role pid).gives shared .head
  | .exited _ => none

def Pc.asleep : Pc → Bool
  | .waitToken asleep | .waitBinary asleep => asleep
  | _ => false

def Pc.hasExited : Pc → Bool
  | .exited _ => true
  | _ => false

/-- Both error branches of a `sem_wait` end in `exit(1)`, EINTR included. -/
def program (role : Pid → Role) : Program Pid Shared Pc (Event Pid) where
  shared := ⟨initialSem, .create⟩
  entry := .head
  step := step role
  asleep := Pc.asleep
  exited := Pc.hasExited
  interrupted := .exited 1

def Pc.stage : Pc → Stage
  | .waitBinary _ => .reserved
  | .inside point => .inside point
  | .postBinary => .closing
  | .postToken => .paying
  | .head | .waitToken _ | .exited _ => .idle

def stages (pcs : Pid → Pc) : Pid → Stage := Pc.stage ∘ pcs

theorem stages_update [DecidableEq Pid] (pcs : Pid → Pc) (pid : Pid) (pc : Pc) :
    stages (Function.update pcs pid pc) = Function.update (stages pcs) pid pc.stage :=
  Function.comp_update ..

end OsLabs.Lab03.ProdConsMac
