import OsLabs.Ipc.Semaphore
import OsLabs.Lab03.Ledger
import OsLabs.Machine.Program

/-! prod_cons.c: producers and consumers that take a token and the mutex in one
`semop`, and give the mutex and a token back in another. -/

namespace OsLabs.Lab03

def startConsume : List (SemBuf Semaphore) := [⟨.full, -1⟩, ⟨.binary, -1⟩]
def endConsume : List (SemBuf Semaphore) := [⟨.binary, 1⟩, ⟨.empty, 1⟩]
def startProduce : List (SemBuf Semaphore) := [⟨.empty, -1⟩, ⟨.binary, -1⟩]
def endProduce : List (SemBuf Semaphore) := [⟨.binary, 1⟩, ⟨.full, 1⟩]

def Role.start : Role → List (SemBuf Semaphore)
  | .producer => startProduce
  | .consumer => startConsume

def Role.finish : Role → List (SemBuf Semaphore)
  | .producer => endProduce
  | .consumer => endConsume

namespace ProdCons

/-- `consumer` and `producer`: the test of the flag, the start `semop` (about to
be issued, or asleep in it), the section, the end `semop`, and the exit. -/
inductive Pc where
  | head
  | entering (asleep : Bool)
  | inside (point : Section)
  | leaving (asleep : Bool)
  | exited (status : Nat)
deriving DecidableEq

/-- A `semop` call: done, put to sleep, or failed, which prints and exits. -/
def call (ops : List (SemBuf Semaphore)) (shared : Shared) (asleep : Bool) (next sleeping : Pc) :
    Option (Shared × Pc × List (Event Pid)) :=
  match semop ops shared.sem with
  | .done sem => some ({ shared with sem := sem }, next, [])
  | .blocks => if asleep then none else some (shared, sleeping, [])
  | .erange => some (shared, .exited 1, [])

theorem call_done {shared : Shared} (done : semop ops shared.sem = .done sem) (asleep : Bool)
    (next sleeping : Pc) :
    (call ops shared asleep next sleeping : Option (Shared × Pc × List (Event Pid))) =
      some ({ shared with sem := sem }, next, []) := by
  simp only [call, done]

/-- One step of a child; `i % 2` picks its role in the source. -/
def step (role : Pid → Role) (pid : Pid) (shared : Shared) (flag : Bool) :
    Pc → Option (Shared × Pc × List (Event Pid))
  | .head => some (shared, if flag then .entering false else .exited 0, [])
  | .entering asleep =>
    call (role pid).start shared asleep (.inside (role pid).entry) (.entering true)
  | .inside point =>
    let (storage, next, emitted) := point.step pid shared.storage
    some ({ shared with storage := storage }, next.elim (.leaving false) .inside, emitted)
  | .leaving asleep => call (role pid).finish shared asleep .head (.leaving true)
  | .exited _ => none

def Pc.asleep : Pc → Bool
  | .entering asleep | .leaving asleep => asleep
  | _ => false

def Pc.hasExited : Pc → Bool
  | .exited _ => true
  | _ => false

theorem awake_after_section (next : Option Section) :
    (next.elim (.leaving false) Pc.inside).asleep = false := by
  cases next <;> rfl

/-- Both error branches of a `semop` end in `exit(1)`, EINTR included. -/
def program (role : Pid → Role) : Program Pid Shared Pc (Event Pid) where
  shared := ⟨initialSem, .create⟩
  entry := .head
  step := step role
  asleep := Pc.asleep
  exited := Pc.hasExited
  interrupted := .exited 1

/-- A `semop` takes or gives token and mutex in one step, so no child is ever
seen with only one of them. -/
def Pc.stage : Pc → Stage
  | .inside point => .inside point
  | .leaving _ => .closing
  | .head | .entering _ | .exited _ => .idle

def stages (pcs : Pid → Pc) : Pid → Stage := Pc.stage ∘ pcs

end ProdCons

/-- The start `semop` waits for the token and the mutex together. -/
theorem semop_start (role : Role) (shared : Shared) :
    semop role.start shared.sem =
      if shared.sem role.takes = 0 ∨ shared.sem .binary = 0 then .blocks
      else .done ((shared.set role.takes (shared.sem role.takes - 1)).set .binary
        (shared.sem .binary - 1)).sem := by
  have other : Semaphore.binary ≠ role.takes := by cases role <;> decide
  have array : role.start = [⟨role.takes, -1⟩, ⟨.binary, -1⟩] := by cases role <;> rfl
  by_cases token : shared.sem role.takes = 0
  · simp [array, semop, SemBuf.apply_wait, token]
  · by_cases mutex : shared.sem .binary = 0
    · simp [array, semop, SemBuf.apply_wait, token, mutex, Function.update_of_ne other]
    · simp [array, semop, SemBuf.apply_wait, token, mutex, Function.update_of_ne other]

/-- The end `semop` never waits. -/
theorem semop_finish (role : Role) (shared : Shared) (mutexRoom : shared.sem .binary < SEMVMX)
    (tokenRoom : shared.sem role.gives < SEMVMX) :
    semop role.finish shared.sem =
      .done ((shared.set .binary (shared.sem .binary + 1)).set role.gives
        (shared.sem role.gives + 1)).sem := by
  have other : role.gives ≠ Semaphore.binary := by cases role <;> decide
  have array : role.finish = [⟨.binary, 1⟩, ⟨role.gives, 1⟩] := by cases role <;> rfl
  simp [array, semop, SemBuf.apply_post, mutexRoom, tokenRoom, Function.update_of_ne other]

theorem ProdCons.step_enter {role : Pid → Role} {shared : Shared}
    (token : shared.sem (role pid).takes ≠ 0) (mutex : shared.sem .binary ≠ 0)
    (flag asleep : Bool) :
    step role pid shared flag (.entering asleep) =
      some ((shared.set (role pid).takes (shared.sem (role pid).takes - 1)).set .binary
        (shared.sem .binary - 1), .inside (role pid).entry, []) := by
  have done := semop_start (role pid) shared
  rw [if_neg (not_or.mpr ⟨token, mutex⟩)] at done
  exact call_done done ..

/-- A start `semop` takes both semaphores or puts the child to sleep. -/
theorem ProdCons.enter_cases {role : Pid → Role} {shared : Shared} {emitted : List (Event Pid)}
    (stepped : step role pid shared flag (.entering asleep) = some (shared', pc, emitted)) :
    emitted = [] ∧
      ((shared.sem (role pid).takes ≠ 0 ∧ shared.sem .binary ≠ 0 ∧
          shared' = (shared.set (role pid).takes (shared.sem (role pid).takes - 1)).set .binary
            (shared.sem .binary - 1) ∧ pc = .inside (role pid).entry) ∨
        (shared' = shared ∧ pc = .entering true)) := by
  by_cases busy : shared.sem (role pid).takes = 0 ∨ shared.sem .binary = 0
  · have blocks := semop_start (role pid) shared
    rw [if_pos busy] at blocks
    simp only [step, call, blocks, Option.ite_none_left_eq_some, Option.some.injEq,
      Prod.mk.injEq] at stepped
    obtain ⟨_, rfl, rfl, rfl⟩ := stepped
    exact ⟨rfl, .inr ⟨rfl, rfl⟩⟩
  · obtain ⟨token, mutex⟩ := not_or.mp busy
    rw [step_enter token mutex] at stepped
    obtain ⟨rfl, rfl, rfl⟩ : _ ∧ _ ∧ _ := by simpa using stepped
    exact ⟨rfl, .inl ⟨token, mutex, rfl, rfl⟩⟩

theorem ProdCons.step_leave {role : Pid → Role} {shared : Shared}
    (mutexRoom : shared.sem .binary < SEMVMX) (tokenRoom : shared.sem (role pid).gives < SEMVMX)
    (flag asleep : Bool) :
    step role pid shared flag (.leaving asleep) =
      some ((shared.set .binary (shared.sem .binary + 1)).set (role pid).gives
        (shared.sem (role pid).gives + 1), .head, []) :=
  call_done (semop_finish _ _ mutexRoom tokenRoom) ..

end OsLabs.Lab03
