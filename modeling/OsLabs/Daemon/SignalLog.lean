import OsLabs.Daemon.Signals

/-! What becomes of the signals that are sent to main.c: a real-time signal is taken once
for each time it was sent, another one may stand for several sendings, none is forgotten
unless one is sent that discards it, and the log names those that were taken in their
order. -/

namespace OsLabs.Daemon.Signals

/-- The line that reports a signal. -/
def Signal.line : Signal → Line
  | .SIGHUP => .sighup
  | .SIGTERM => .sigterm
  | .other number => .signal number

def Event.took? : Event → Option Signal
  | .took signo => some signo
  | _ => none

/-- The lines of `thr_fn` that report a signal, and not a failure. -/
def Event.report? : Event → Option Line
  | .logged .sighup => some .sighup
  | .logged .sigterm => some .sigterm
  | .logged (.signal number) => some (.signal number)
  | _ => none

/-- The line that `thr_fn` is about to log about the signal that it has taken. -/
def ThreadPc.owed : ThreadPc → List Line
  | .syslogSighup => [.sighup]
  | .syslogSigterm => [.sigterm]
  | .syslogSignal number => [.signal number]
  | _ => []

/-- `thr_fn` has taken SIGTERM. -/
def ThreadPc.leaving : ThreadPc → Bool
  | .syslogSigterm | .pthreadExit | .gone => true
  | _ => false

def taken (events : List Event) : List Signal := events.filterMap Event.took?

def reports (events : List Event) : List Line := events.filterMap Event.report?

/-- How often the signal was sent. -/
def sendings (signo : Signal) (actions : List Action) : Nat := actions.count (.send signo)

/-- The signal that is sent takes this one away. -/
def Action.discards (signo : Signal) : Action → Bool
  | .send sent => sent.discards signo
  | .kill | .main | .thread _ => false

structure Accounted (actions : List Action) (events : List Event) (state : State) : Prop where
  reported : (taken events).map Signal.line = reports events ++ state.thread.owed
  queued : ∀ signo, signo.queued = true →
    (taken events).count signo + state.pending.count signo = sendings signo actions
  merged : ∀ signo, signo.queued = false → state.pending.count signo ≤ 1 ∧
    (taken events).count signo + state.pending.count signo ≤ sendings signo actions
  sigterm : state.thread.leaving = true ↔ .SIGTERM ∈ taken events
  last : .SIGTERM ∉ (taken events).dropLast

variable {state after : State} {emitted : List Event}

@[simp] theorem taken_append (events emitted : List Event) :
    taken (events ++ emitted) = taken events ++ taken emitted := List.filterMap_append

@[simp] theorem reports_append (events emitted : List Event) :
    reports (events ++ emitted) = reports events ++ reports emitted := List.filterMap_append

theorem mainLoop_silent (state : State) :
    taken (mainLoop state).2 = [] ∧ reports (mainLoop state).2 = [] := by
  unfold mainLoop
  split <;> exact ⟨rfl, rfl⟩

theorem owed_branch (signo : Signal) : (branch signo).owed = [signo.line] := by
  cases signo <;> rfl

theorem Calls.reports (next : Calls pc pc' emitted) :
    taken emitted = [] ∧ pc.owed = Signals.reports emitted ++ pc'.owed ∧
      pc'.leaving = pc.leaving := by
  cases next <;> exact ⟨rfl, rfl, rfl⟩

/-- What a step takes it owes a line for, and what it logs was owed. -/
theorem Effect.reports (effect : Effect state action after emitted) :
    state.thread.owed ++ (taken emitted).map Signal.line =
      Signals.reports emitted ++ after.thread.owed := by
  cases effect with
  | send signo =>
    simp [taken, Signals.reports, sent_thread]
  | kill => simp [taken, Signals.reports]
  | main =>
    obtain ⟨same, _, _⟩ := mainLoop_keeps state
    obtain ⟨none, silent⟩ := mainLoop_silent state
    simp [same, none, silent]
  | take signo here sent =>
    rw [here, owed_branch]
    rfl
  | calls next =>
    obtain ⟨none, logged, _⟩ := next.reports
    simp [none, logged]
  | exit here | pthreadExit here =>
    rw [here]
    rfl

/-- SIGCONT and the signals that stop a process are no real-time signals. -/
theorem not_discards_queued (sent : Signal) (real : signo.queued = true) :
    sent.discards signo = false := by
  cases signo with
  | SIGHUP | SIGTERM => cases real
  | other number =>
    have large : 34 ≤ number := of_decide_eq_true real
    have other : number ≠ 18 := by omega
    have above : ¬ number ≤ 22 := by omega
    simp [Signal.discards, Signal.stops, SIGCONT, other, above]

theorem count_leaves (pending : List Signal) (sent signo : Signal) :
    (sent.leaves pending).count signo = if sent.discards signo then 0 else pending.count signo := by
  unfold Signal.leaves
  split
  · rename_i away
    refine List.count_eq_zero.mpr fun member => ?_
    simp [away] at member
  · rename_i kept
    exact List.count_filter (by simpa using kept)

/-- A signal that is not queued waits once at most. -/
theorem count_sent (state : State) (sent signo : Signal) :
    (state.sent sent).pending.count signo =
      (if sent.discards signo then 0 else state.pending.count signo) +
        if sent = signo ∧ (signo.queued = true ∨ signo ∉ state.pending) then 1 else 0 := by
  rw [← count_leaves]
  unfold State.sent
  by_cases same : sent = signo
  · subst same
    by_cases waits : sent ∈ state.pending <;> cases queued : sent.queued <;> simp [waits]
  · split <;> simp [same]

/-- A signal that is taken was pending. -/
theorem count_take {pending : List Signal} (sent : other ∈ pending) (signo : Signal) :
    (taken [.took other]).count signo + (pending.erase other).count signo =
      pending.count signo := by
  by_cases same : other = signo
  · subst same
    have waits := List.count_pos_iff.mpr sent
    simp only [taken, Event.took?, List.filterMap_cons, List.filterMap_nil,
      List.count_cons_self, List.count_nil, List.count_erase_self]
    omega
  · have apart : signo ≠ other := Ne.symm same
    simp [taken, Event.took?, List.count_erase_of_ne apart, same]

/-- What is pending after a step was so before or has just been sent. -/
theorem Effect.pending (effect : Effect state action after emitted) (signo : Signal) :
    (taken emitted).count signo + after.pending.count signo =
      (if action.discards signo then 0 else state.pending.count signo) +
        if action = .send signo ∧ (signo.queued = true ∨ signo ∉ state.pending) then 1 else 0 := by
  cases effect with
  | send sent =>
    rw [show (Action.send sent).discards signo = sent.discards signo from rfl]
    simp [taken, count_sent]
  | kill => simp [taken, Action.discards]
  | main =>
    obtain ⟨_, same, _⟩ := mainLoop_keeps state
    simp [same, (mainLoop_silent state).1, Action.discards]
  | take other here sent => simp [count_take sent, Action.discards]
  | calls next => simp [next.reports.1, Action.discards]
  | exit here | pthreadExit here =>
    simp [taken, Event.took?, List.filterMap_cons, Action.discards]

theorem sendings_append (signo : Signal) (actions : List Action) (action : Action) :
    sendings signo (actions ++ [action]) =
      sendings signo actions + if action = .send signo then 1 else 0 := by
  simp [sendings, List.count_singleton]

theorem leaving_branch (signo : Signal) :
    (branch signo).leaving = decide (signo = .SIGTERM) := by
  cases signo <;> rfl

/-- SIGTERM is the last signal to be taken. -/
theorem Effect.takes (effect : Effect state action after emitted) :
    taken emitted = [] ∧ after.thread.leaving = state.thread.leaving ∨
      ∃ signo, taken emitted = [signo] ∧ state.thread.leaving = false ∧
        after.thread.leaving = decide (signo = .SIGTERM) := by
  cases effect with
  | send signo =>
    exact .inl ⟨rfl, by rw [sent_thread]⟩
  | kill => exact .inl ⟨rfl, rfl⟩
  | main =>
    obtain ⟨same, _, _⟩ := mainLoop_keeps state
    exact .inl ⟨(mainLoop_silent state).1, by rw [same]⟩
  | take signo here sent => exact .inr ⟨signo, rfl, by rw [here]; rfl, leaving_branch signo⟩
  | calls next =>
    obtain ⟨none, _, same⟩ := next.reports
    exact .inl ⟨none, same⟩
  | exit here => exact .inl ⟨rfl, rfl⟩
  | pthreadExit here => exact .inl ⟨rfl, by rw [here]; rfl⟩

theorem Accounted.step (accounted : Accounted actions events state)
    (effect : Effect state action after emitted) :
    Accounted (actions ++ [action]) (events ++ emitted) after := by
  obtain ⟨reported, queued, merged, sigterm, last⟩ := accounted
  have leaves := effect.takes
  refine ⟨?_, fun signo real => ?_, fun signo unreal => ?_, ?_, ?_⟩
  · have logged := effect.reports
    rw [taken_append, reports_append, List.map_append, reported, List.append_assoc, logged,
      List.append_assoc]
  · have waits := effect.pending signo
    have before := queued signo real
    have kept : action.discards signo = false := by
      cases action with
      | send sent => exact not_discards_queued sent real
      | kill | main | thread => rfl
    simp only [real, true_or, and_true, kept, Bool.false_eq_true, if_false] at waits
    rw [taken_append, List.count_append, sendings_append]
    omega
  · have waits := effect.pending signo
    obtain ⟨once, before⟩ := merged signo unreal
    have absent : signo ∉ state.pending ↔ state.pending.count signo = 0 :=
      List.count_eq_zero.symm
    simp only [unreal, Bool.false_eq_true, false_or, absent] at waits
    rw [taken_append, List.count_append, sendings_append]
    by_cases sent : action = .send signo
    · simp only [sent, true_and, if_true] at waits ⊢
      split at waits <;> split at waits <;> omega
    · simp only [sent, false_and, if_false] at waits ⊢
      split at waits <;> omega
  · rcases leaves with ⟨none, same⟩ | ⟨signo, one, before, now⟩
    · rw [taken_append, none, List.append_nil, same]
      exact sigterm
    · have unseen : .SIGTERM ∉ taken events := by
        rw [← sigterm, before]
        exact Bool.noConfusion
      simp [one, now, unseen, eq_comm]
  · rcases leaves with ⟨none, _⟩ | ⟨signo, one, before, _⟩
    · rwa [taken_append, none, List.append_nil]
    · rw [taken_append, one, List.dropLast_concat, ← sigterm, before]
      exact Bool.noConfusion

end OsLabs.Daemon.Signals
