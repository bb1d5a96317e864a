import OsLabs.Machine.Run

/-! main.c after the start-up: all signals are blocked, `thr_fn` takes them with
`sigwait`, and the thread of `main` logs the time for ever. -/

namespace OsLabs.Daemon.Signals

/-- The signals that are blocked here; SIGSTOP and SIGKILL cannot be. -/
inductive Signal where
  | SIGHUP
  | SIGTERM
  | other (number : Nat)
deriving DecidableEq

/-- The lines that are sent to `syslog`. -/
inductive Line where
  | time
  | sighup
  | sigterm
  | signal (number : Nat)
  | sigwaitFailed
  | conffile
deriving DecidableEq

/-- The points of the loop in `main`. -/
inductive MainPc where
  | sleep
  | time
  | syslog
deriving DecidableEq

/-- The points of `thr_fn`, each named after the call that comes next. -/
inductive ThreadPc where
  | sigwait
  | syslogFailed
  | syslogSighup
  | fopen
  | syslogConffile
  | exit
  | syslogSigterm
  | pthreadExit
  | syslogSignal (number : Nat)
  | gone
deriving DecidableEq

structure State where
  main : MainPc
  thread : ThreadPc
  /-- The signals that have been sent to the process and not been taken. -/
  pending : List Signal
  running : Bool
deriving DecidableEq

/-- What a call of `thr_fn` returns. -/
inductive Outcome where
  | success
  | failure
  | signal (signo : Signal)
deriving DecidableEq

/-- A signal is sent, SIGKILL among them, or one of the two threads goes on. -/
inductive Action where
  | send (signo : Signal)
  | kill
  | main
  | thread (outcome : Outcome)
deriving DecidableEq

/-- `branchRun` is the end of the branch of SIGTERM. -/
inductive Event where
  | logged (line : Line)
  | took (signo : Signal)
  | branchRun
  | exited (status : Int)
deriving DecidableEq

/-- Real-time signals are queued, the queue having room, other ones are pending or not. -/
def Signal.queued : Signal → Bool
  | .SIGHUP | .SIGTERM => false
  | .other number => 34 ≤ number

def SIGCONT : Signal := .other 18

/-- SIGTSTP, SIGTTIN and SIGTTOU. -/
def Signal.stops : Signal → Bool
  | .SIGHUP | .SIGTERM => false
  | .other number => 20 ≤ number && number ≤ 22

/-- Even where they are blocked, SIGCONT discards pending signals that stop a process, and
each of these a pending SIGCONT. -/
def Signal.discards (signo other : Signal) : Bool :=
  signo = SIGCONT && other.stops || signo.stops && other = SIGCONT

def Signal.leaves (signo : Signal) (pending : List Signal) : List Signal :=
  pending.filter fun other => !signo.discards other

def State.sent (state : State) (signo : Signal) : State :=
  if signo ∈ state.pending ∧ signo.queued = false then
    { state with pending := signo.leaves state.pending }
  else { state with pending := signo.leaves state.pending ++ [signo] }

/-- `switch (signo)`. -/
def branch : Signal → ThreadPc
  | .SIGHUP => .syslogSighup
  | .SIGTERM => .syslogSigterm
  | .other number => .syslogSignal number

/-- The loop in `main`. -/
def mainLoop (state : State) : State × List Event :=
  match state.main with
  | .sleep => ({ state with main := .time }, [])
  | .time => ({ state with main := .syslog }, [])
  | .syslog => ({ state with main := .sleep }, [.logged .time])

/-- `thr_fn`, with `reread` in it; the first word of CONFFILE has to fit into `data[256]`,
and a longer one, which `fscanf` writes behind it, is left out. -/
def thrFn (state : State) (outcome : Outcome) : Option (State × List Event) :=
  match state.thread, outcome with
  | .sigwait, .signal signo =>
    if signo ∈ state.pending then
      some ({ state with thread := branch signo, pending := state.pending.erase signo },
        [.took signo])
    else none
  | .sigwait, .failure => some ({ state with thread := .syslogFailed }, [])
  | .syslogFailed, .success =>
    some ({ state with thread := .exit }, [.logged .sigwaitFailed])
  | .syslogSighup, .success => some ({ state with thread := .fopen }, [.logged .sighup])
  -- if ((fd = fopen(CONFFILE, "r")) == NULL)
  | .fopen, .failure => some ({ state with thread := .syslogConffile }, [])
  | .fopen, .success => some ({ state with thread := .sigwait }, [])
  | .syslogConffile, .success => some ({ state with thread := .exit }, [.logged .conffile])
  -- exit(1) ends the process
  | .exit, .success => some ({ state with running := false }, [.exited 1])
  | .syslogSigterm, .success => some ({ state with thread := .pthreadExit }, [.logged .sigterm])
  -- pthread_exit(0) ends the thread
  | .pthreadExit, .success => some ({ state with thread := .gone }, [.branchRun])
  | .syslogSignal number, .success =>
    some ({ state with thread := .sigwait }, [.logged (.signal number)])
  | _, _ => none

def machine : Machine State Action Event where
  init := ⟨.sleep, .sigwait, [], true⟩
  next state action :=
    if state.running then
      match action with
      | .send signo => some (state.sent signo, [])
      | .kill => some ({ state with running := false }, [])
      | .main => some (mainLoop state)
      | .thread outcome => thrFn state outcome
    else none

/-- The process makes no further step. -/
def State.Stopped (state : State) : Prop :=
  machine.next state .main = none ∧ ∀ outcome, machine.next state (.thread outcome) = none

/-- In the course of a run, the process makes no further step once the branch of
SIGTERM has been run. -/
def StopsOnSigterm (actions : List Action) : Prop :=
  ∀ past rest events state, actions = past ++ rest →
    machine.Run Machine.anything past events state → .branchRun ∈ events → state.Stopped

/-- The calls of `thr_fn` that change nothing but the program point. -/
inductive Calls : ThreadPc → ThreadPc → List Event → Prop where
  | sigwaitFailed : Calls .sigwait .syslogFailed []
  | syslogFailed : Calls .syslogFailed .exit [.logged .sigwaitFailed]
  | syslogSighup : Calls .syslogSighup .fopen [.logged .sighup]
  | fopenFailed : Calls .fopen .syslogConffile []
  | fopen : Calls .fopen .sigwait []
  | syslogConffile : Calls .syslogConffile .exit [.logged .conffile]
  | syslogSigterm : Calls .syslogSigterm .pthreadExit [.logged .sigterm]
  | syslogSignal (number : Nat) :
    Calls (.syslogSignal number) .sigwait [.logged (.signal number)]

/-- What one step does, while the process runs. -/
inductive Effect (state : State) : Action → State → List Event → Prop where
  | send (signo : Signal) : Effect state (.send signo) (state.sent signo) []
  | kill : Effect state .kill { state with running := false } []
  | main : Effect state .main (mainLoop state).1 (mainLoop state).2
  | take (signo : Signal) (here : state.thread = .sigwait) (sent : signo ∈ state.pending) :
    Effect state (.thread (.signal signo))
      { state with thread := branch signo, pending := state.pending.erase signo } [.took signo]
  | calls (next : Calls state.thread pc emitted) :
    Effect state (.thread outcome) { state with thread := pc } emitted
  | exit (here : state.thread = .exit) :
    Effect state (.thread .success) { state with running := false } [.exited 1]
  | pthreadExit (here : state.thread = .pthreadExit) :
    Effect state (.thread .success) { state with thread := .gone } [.branchRun]

variable {state after : State} {emitted : List Event}

theorem thrFn_effect (taken : thrFn state outcome = some (after, emitted)) :
    Effect state (.thread outcome) after emitted := by
  obtain ⟨main, thread, pending, running⟩ := state
  cases thread with
  | gone => cases outcome <;> cases taken
  | sigwait =>
    cases outcome with
    | success => cases taken
    | failure =>
      obtain ⟨rfl, rfl⟩ : _ ∧ _ := by simpa [thrFn] using taken
      exact .calls .sigwaitFailed
    | signal signo =>
      obtain ⟨sent, rfl, rfl⟩ : _ ∧ _ ∧ _ := by simpa [thrFn] using taken
      exact .take signo rfl sent
  | fopen =>
    cases outcome with
    | signal => cases taken
    | success =>
      obtain ⟨rfl, rfl⟩ : _ ∧ _ := by simpa [thrFn] using taken
      exact .calls .fopen
    | failure =>
      obtain ⟨rfl, rfl⟩ : _ ∧ _ := by simpa [thrFn] using taken
      exact .calls .fopenFailed
  | exit =>
    cases outcome with
    | signal | failure => cases taken
    | success =>
      obtain ⟨rfl, rfl⟩ : _ ∧ _ := by simpa [thrFn] using taken
      exact .exit rfl
  | pthreadExit =>
    cases outcome with
    | signal | failure => cases taken
    | success =>
      obtain ⟨rfl, rfl⟩ : _ ∧ _ := by simpa [thrFn] using taken
      exact .pthreadExit rfl
  | syslogFailed | syslogSighup | syslogConffile | syslogSigterm | syslogSignal number =>
    cases outcome with
    | signal | failure => cases taken
    | success =>
      obtain ⟨rfl, rfl⟩ : _ ∧ _ := by simpa [thrFn] using taken
      refine .calls ?_
      constructor

theorem next_effect (taken : machine.next state action = some (after, emitted)) :
    state.running = true ∧ Effect state action after emitted := by
  simp only [machine] at taken
  split at taken
  · refine ⟨‹_›, ?_⟩
    cases action with
    | send signo =>
      obtain ⟨rfl, rfl⟩ := Prod.mk.inj (Option.some.inj taken)
      exact .send signo
    | kill =>
      obtain ⟨rfl, rfl⟩ := Prod.mk.inj (Option.some.inj taken)
      exact .kill
    | main =>
      obtain ⟨rfl, rfl⟩ := Prod.mk.inj (Option.some.inj taken)
      exact .main
    | thread outcome => exact thrFn_effect taken
  · cases taken

/-- As long as the process runs, `main` can go on. -/
theorem not_stopped_of_running (running : state.running = true) : ¬ state.Stopped := by
  rintro ⟨main, _⟩
  simp [machine, running] at main

theorem mainLoop_keeps (state : State) :
    (mainLoop state).1.thread = state.thread ∧ (mainLoop state).1.pending = state.pending ∧
      .branchRun ∉ (mainLoop state).2 := by
  unfold mainLoop
  split <;> simp

theorem Calls.quiet (next : Calls pc pc' emitted) : .branchRun ∉ emitted := by
  cases next <;> simp

/-- The branch of SIGTERM ends the thread, and not the process. -/
theorem Effect.branchRun (effect : Effect state action after emitted)
    (run : .branchRun ∈ emitted) : after = { state with thread := .gone } := by
  cases effect with
  | pthreadExit here => rfl
  | main => exact absurd run (mainLoop_keeps state).2.2
  | calls next => exact absurd run next.quiet
  | send | kill | take | exit => simp at run

/-- What is pending and not discarded stays so when another signal is sent. -/
theorem mem_sent (waits : other ∈ state.pending) (kept : signo.discards other = false) :
    other ∈ (state.sent signo).pending := by
  have left : other ∈ signo.leaves state.pending :=
    List.mem_filter.mpr ⟨waits, by simp [kept]⟩
  unfold State.sent
  split
  · exact left
  · exact List.mem_append_left _ left

theorem sent_thread (state : State) (signo : Signal) :
    (state.sent signo).thread = state.thread := by
  unfold State.sent
  split <;> rfl

/-- SIGHUP is not one of those that are discarded. -/
theorem discards_sighup (signo : Signal) : signo.discards .SIGHUP = false := by
  simp [Signal.discards, Signal.stops, SIGCONT]

/-- Nobody takes the signals that are sent from then on. -/
theorem pending_forever (path : machine.Path Machine.anything state actions events after)
    (gone : state.thread = .gone) :
    after.thread = .gone ∧ ∀ signo ∈ state.pending,
      (∀ other : Signal, other.discards signo = false) → signo ∈ after.pending := by
  refine path.invariant (fun _ after => after.thread = .gone ∧ ∀ signo ∈ state.pending,
    (∀ other : Signal, other.discards signo = false) → signo ∈ after.pending)
    ⟨gone, fun _ sent _ => sent⟩ ?_
  intro events current action next emitted holds _ taken
  obtain ⟨here, waits⟩ := holds
  cases (next_effect taken).2 with
  | send signo =>
    refine ⟨(sent_thread current signo).trans here, fun other sent kept => ?_⟩
    exact mem_sent (waits other sent kept) (kept signo)
  | kill => exact ⟨here, waits⟩
  | main =>
    obtain ⟨same, kept, _⟩ := mainLoop_keeps current
    exact ⟨same.trans here, fun signo sent steady => kept ▸ waits signo sent steady⟩
  | take signo there | exit there | pthreadExit there =>
    rw [here] at there
    cases there
  | calls call =>
    rw [here] at call
    cases call

/-- The process stops on SIGTERM in no run but those in which the branch is not run. -/
theorem stopsOnSigterm_iff (run : machine.Run Machine.anything actions events state) :
    StopsOnSigterm actions ↔ .branchRun ∉ events := by
  constructor
  · intro stops ended
    obtain ⟨before, behind, place⟩ := List.append_of_mem ended
    obtain ⟨past, seen, current, action, next, emitted, early, late, rest, path, _, taken, shown, _,
      parts⟩ := run.emission place
    obtain ⟨running, effect⟩ := next_effect taken
    have branchRun : .branchRun ∈ emitted := by simp [shown]
    have same := effect.branchRun branchRun
    have stopped : next.Stopped := stops (past ++ [action]) rest (seen ++ emitted) next
      (by simp [parts]) (path.step trivial taken) (List.mem_append_right _ branchRun)
    refine not_stopped_of_running ?_ stopped
    rw [same]
    exact running
  · intro never past rest seen middle parts before ended
    obtain ⟨early, _, late, joined, first, _⟩ := run.split parts
    obtain ⟨rfl, _⟩ := first.unique before
    exact absurd (joined ▸ List.mem_append_left late ended) never

/-- SIGHUP does not end anything. -/
theorem stopsOnSigterm_iff_sighup : ∃ actions events state,
    machine.Run Machine.anything actions events state ∧ .took .SIGHUP ∈ events ∧
    StopsOnSigterm actions := by
  have run : machine.Run Machine.anything
      [.send .SIGHUP, .thread (.signal .SIGHUP), .thread .success, .thread .success, .main]
      [.took .SIGHUP, .logged .sighup] ⟨.time, .sigwait, [], true⟩ :=
    .ofExec _ (fun _ _ _ => trivial) rfl
  exact ⟨_, _, _, run, by decide, (stopsOnSigterm_iff run).mpr (by decide)⟩

/-- The time is logged after the branch of SIGTERM, and SIGHUP is pending for ever. -/
theorem survives_sigterm : ∃ actions state,
    machine.Run Machine.anything actions
      [.took .SIGTERM, .logged .sigterm, .branchRun, .logged .time] state ∧
    state.running = true ∧
    (∀ more shown final, machine.Path Machine.anything state more shown final →
      .SIGHUP ∈ final.pending) ∧
    ¬ StopsOnSigterm actions := by
  have run : machine.Run Machine.anything
      [.send .SIGTERM, .thread (.signal .SIGTERM), .thread .success, .thread .success,
        .send .SIGHUP, .main, .main, .main]
      [.took .SIGTERM, .logged .sigterm, .branchRun, .logged .time]
      ⟨.sleep, .gone, [.SIGHUP], true⟩ := .ofExec _ (fun _ _ _ => trivial) rfl
  refine ⟨_, _, run, rfl, fun more shown final path => ?_, fun stops => ?_⟩
  · exact (pending_forever path rfl).2 .SIGHUP (by decide) discards_sighup
  · exact not_stopped_of_running rfl (stops _ [] _ _ (List.append_nil _).symm run (by decide))

end OsLabs.Daemon.Signals
