import OsLabs.Ipc.Children
import OsLabs.Machine.Run

/-! `main` of prod_cons.c from its fork loop on: it forks the children, waits for all
of them, and removes the semaphore set and the shared memory. -/

namespace OsLabs.Lab03.ProdConsMain

abbrev Pid := Int

/-- `wstatus`: without WUNTRACED and WCONTINUED, `wait` reports terminations only. -/
inductive Status where
  | exited (status : Nat)
  | signaled (signo : Nat)
  | stopped (signo : Nat)
  | continued
deriving DecidableEq

def Status.terminates : Status → Bool
  | .exited _ | .signaled _ => true
  | .stopped _ | .continued => false

inductive Errno where
  | EINTR
  | ECHILD
  | other
deriving DecidableEq

inductive Object where
  | semid
  | shmid
deriving DecidableEq

/-- The points of `main`: the `i`-th `fork`, the test of `while (wpid != -1)`, the
`wait` in its body, and the two removals. -/
inductive Pc where
  | fork (i : Nat)
  | loop
  | wait
  | semctl
  | shmctl
  | exited (status : Nat)
deriving DecidableEq

structure State where
  pc : Pc
  wpid : Pid
  children : Children Pid Status
  present : Object → Bool

/-- The result of a call: 0 or a process id, or -1 with `errno`. -/
inductive Outcome where
  | success
  | pid (pid : Pid)
  | failure (errno : Errno)
deriving DecidableEq

/-- `main` makes its next call, or a child that has not terminated uses an object or
terminates. -/
inductive Action where
  | main (outcome : Outcome)
  | use (pid : Pid) (object : Object)
  | terminate (pid : Pid) (status : Status)
deriving DecidableEq

/-- The use of an object shows whether it is present; `reported` is the line that is
printed about a child. -/
inductive Event where
  | forked (pid : Pid)
  | used (pid : Pid) (object : Object) (present : Bool)
  | terminated (pid : Pid) (status : Status)
  | reported (pid : Pid) (status : Status)
  | removed (object : Object)
  | perror (text : String)
deriving DecidableEq

def State.exit (state : State) (text : String) : State × List Event :=
  ({ state with pc := .exited 1 }, [.perror text])

def State.remove (state : State) (object : Object) (next : Pc) : State × List Event :=
  ({ state with pc := next, present := Function.update state.present object false },
    [.removed object])

/-- One call of `main`, with the code up to the next one. -/
def mainStep (count : Nat) (state : State) (outcome : Outcome) : Option (State × List Event) :=
  match state.pc, outcome with
  -- for (int i = 0; i < CONSUMER_COUNT + PRODUCER_COUNT; i++)
  | .fork i, outcome =>
    if i < count then
      match outcome with
      | .pid pid =>
        if 0 < pid ∧ state.children.lookup pid = none then
          some ({ state with pc := .fork (i + 1), children := state.children.fork pid },
            [.forked pid])
        else none
      | .failure _ => some (state.exit "fork")
      | .success => none
    else if outcome = .success then some ({ state with pc := .loop, wpid := 0 }, [])
    else none
  -- while (wpid != -1)
  | .loop, .success =>
    some ({ state with pc := if state.wpid = -1 then .semctl else .wait }, [])
  | .wait, .pid pid =>
    match state.children.lookup pid with
    | some (some status) =>
      some ({ state with pc := .loop, wpid := pid, children := state.children.reap pid },
        [.reported pid status])
    | _ => none
  -- if (errno == EINTR) wpid = 0
  | .wait, .failure .EINTR => some ({ state with pc := .loop, wpid := 0 }, [])
  | .wait, .failure .ECHILD =>
    if state.children.entries = [] then some ({ state with pc := .loop, wpid := -1 }, [])
    else none
  | .wait, .failure .other => some (state.exit "wait")
  | .semctl, .success => some (state.remove .semid .shmctl)
  | .semctl, .failure _ => some (state.exit "semctl")
  | .shmctl, .success => some (state.remove .shmid (.exited 0))
  | .shmctl, .failure _ => some (state.exit "shmctl")
  | _, _ => none

/-- A child does not leave the code of `producer` or `consumer` but by terminating. -/
def machine (count : Nat) : Machine State Action Event where
  init := ⟨.fork 0, 0, ⟨[]⟩, fun _ => true⟩
  next state action :=
    match action with
    | .main outcome => mainStep count state outcome
    | .use pid object =>
      if state.children.lookup pid = some none then
        some (state, [.used pid object (state.present object)])
      else none
    | .terminate pid status =>
      if state.children.lookup pid = some none ∧ status.terminates = true then
        some ({ state with children := state.children.terminate pid status },
          [.terminated pid status])
      else none

/-- `wait` fails with EINTR and ECHILD only. -/
def WaitFails (state : State) (action : Action) : Prop :=
  state.pc = .wait → action ≠ .main (.failure .other)

def Event.termination (pid : Pid) : Event → Option Status
  | .terminated child status => if child = pid then some status else none
  | _ => none

def Event.report (pid : Pid) : Event → Option Status
  | .reported child status => if child = pid then some status else none
  | _ => none

def terminations (events : List Event) (pid : Pid) : List Status :=
  events.filterMap (Event.termination pid)

def reports (events : List Event) (pid : Pid) : List Status :=
  events.filterMap (Event.report pid)

/-- The child has terminated, and that has been reported once. -/
def Accounted (events : List Event) (pid : Pid) : Prop :=
  ∃ status, terminations events pid = [status] ∧ reports events pid = [status]

/-- The points behind the wait loop. -/
def Pc.waited : Pc → Bool
  | .semctl | .shmctl | .exited 0 => true
  | _ => false

/-- What one step does. -/
inductive Effect (count : Nat) (state : State) : Action → State → List Event → Prop where
  | fork (here : state.pc = .fork i) (positive : 0 < pid)
    (fresh : state.children.lookup pid = none) :
    Effect count state (.main (.pid pid))
      { state with pc := .fork (i + 1), children := state.children.fork pid } [.forked pid]
  | forked (here : state.pc = .fork i) :
    Effect count state (.main .success) { state with pc := .loop, wpid := 0 } []
  | leave (here : state.pc = .loop) (last : state.wpid = -1) :
    Effect count state (.main .success) { state with pc := .semctl } []
  | enter (here : state.pc = .loop) :
    Effect count state (.main .success) { state with pc := .wait } []
  | reap (here : state.pc = .wait) (zombie : state.children.lookup pid = some (some status)) :
    Effect count state (.main (.pid pid))
      { state with pc := .loop, wpid := pid, children := state.children.reap pid }
      [.reported pid status]
  | eintr (here : state.pc = .wait) :
    Effect count state (.main (.failure .EINTR)) { state with pc := .loop, wpid := 0 } []
  | echild (here : state.pc = .wait) (empty : state.children.entries = []) :
    Effect count state (.main (.failure .ECHILD)) { state with pc := .loop, wpid := -1 } []
  | semctl (here : state.pc = .semctl) :
    Effect count state (.main .success) (state.remove .semid .shmctl).1 [.removed .semid]
  | shmctl (here : state.pc = .shmctl) :
    Effect count state (.main .success) (state.remove .shmid (.exited 0)).1 [.removed .shmid]
  | exit (text : String) :
    Effect count state (.main (.failure errno)) (state.exit text).1 [.perror text]
  | use (running : state.children.lookup pid = some none) (object : Object) :
    Effect count state (.use pid object) state [.used pid object (state.present object)]
  | terminate (running : state.children.lookup pid = some none)
    (final : status.terminates = true) :
    Effect count state (.terminate pid status)
      { state with children := state.children.terminate pid status } [.terminated pid status]

variable {count : Nat} {state after : State} {events emitted : List Event}

theorem mainStep_effect (taken : mainStep count state outcome = some (after, emitted)) :
    Effect count state (.main outcome) after emitted := by
  obtain ⟨pc, wpid, children, present⟩ := state
  cases pc with
  | fork i =>
    simp only [mainStep] at taken
    split at taken
    · cases outcome with
      | success => cases taken
      | failure errno =>
        obtain ⟨rfl, rfl⟩ := Prod.mk.inj (Option.some.inj taken)
        exact .exit "fork"
      | pid pid =>
        obtain ⟨⟨positive, fresh⟩, rfl, rfl⟩ : _ ∧ _ ∧ _ := by simpa using taken
        exact .fork rfl positive fresh
    · obtain ⟨rfl, rfl, rfl⟩ : _ ∧ _ ∧ _ := by simpa using taken
      exact .forked rfl
  | loop =>
    cases outcome with
    | pid | failure => cases taken
    | success =>
      obtain ⟨rfl, rfl⟩ := Prod.mk.inj (Option.some.inj taken)
      by_cases last : wpid = -1
      · simp only [if_pos last]
        exact .leave rfl last
      · simp only [if_neg last]
        exact .enter rfl
  | wait =>
    cases outcome with
    | success => cases taken
    | pid pid =>
      simp only [mainStep] at taken
      split at taken
      · next zombie =>
        obtain ⟨rfl, rfl⟩ := Prod.mk.inj (Option.some.inj taken)
        exact .reap rfl zombie
      · cases taken
    | failure errno =>
      cases errno with
      | EINTR =>
        obtain ⟨rfl, rfl⟩ := Prod.mk.inj (Option.some.inj taken)
        exact .eintr rfl
      | ECHILD =>
        obtain ⟨empty, rfl, rfl⟩ : _ ∧ _ ∧ _ := by simpa [mainStep] using taken
        exact .echild rfl empty
      | other =>
        obtain ⟨rfl, rfl⟩ := Prod.mk.inj (Option.some.inj taken)
        exact .exit "wait"
  | semctl =>
    cases outcome with
    | pid => cases taken
    | success =>
      obtain ⟨rfl, rfl⟩ := Prod.mk.inj (Option.some.inj taken)
      exact .semctl rfl
    | failure errno =>
      obtain ⟨rfl, rfl⟩ := Prod.mk.inj (Option.some.inj taken)
      exact .exit "semctl"
  | shmctl =>
    cases outcome with
    | pid => cases taken
    | success =>
      obtain ⟨rfl, rfl⟩ := Prod.mk.inj (Option.some.inj taken)
      exact .shmctl rfl
    | failure errno =>
      obtain ⟨rfl, rfl⟩ := Prod.mk.inj (Option.some.inj taken)
      exact .exit "shmctl"
  | exited status => cases outcome <;> cases taken

theorem next_effect (taken : (machine count).next state action = some (after, emitted)) :
    Effect count state action after emitted := by
  cases action with
  | main outcome => exact mainStep_effect taken
  | use pid object =>
    obtain ⟨running, rfl, rfl⟩ : _ ∧ _ ∧ _ := by simpa [machine] using taken
    exact .use running object
  | terminate pid status =>
    obtain ⟨⟨running, final⟩, rfl, rfl⟩ : _ ∧ _ ∧ _ := by simpa [machine] using taken
    exact .terminate running final

end OsLabs.Lab03.ProdConsMain
