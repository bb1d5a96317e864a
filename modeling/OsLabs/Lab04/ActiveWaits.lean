import OsLabs.Lab04.Shutdown

/-! Whether the threads of writer_reader_active.c can block each other. Its writers never
wait, and until CTRL_BREAK ends the process somebody always gives `can_read` back. -/

namespace OsLabs.Lab04

variable {Tid : Type}

/-- The thread is going to set `can_read`, or to end the process. -/
def Pc.gives : Pc → Bool
  | .waitCanWrite | .generateBreak => true
  | pc => pc.owes

theorem Pc.role?_of_gives {pc : Pc} (gives : pc.gives = true) :
    ∃ own, pc.role? = some own ∧ own ≠ .console := by
  cases pc with
  | waitCanWrite | generateBreak => exact ⟨.writer, rfl, by decide⟩
  | _ => exact Pc.role?_of_owes gives

/-- What one step does to the mutex and to `can_read`, while `can_write` is signalled. -/
structure Gives (tid : Tid) (shared : Shared Tid) (pc : Pc) (shared' : Shared Tid) (pc' : Pc) :
    Prop where
  flag : shared'.flag = shared.flag
  raised : shared'.raised = false → shared.raised = false
  writable : shared'.event .canWrite = shared.event .canWrite
  stays : shared'.raised = false → pc' ≠ .returned
  mutex : pc'.locks = pc.locks ∧ shared'.bmutex = shared.bmutex ∨
    pc'.locks = true ∧ shared.bmutex = none ∧ shared'.bmutex = some tid ∨
    pc.locks = true ∧ pc'.locks = false ∧ shared'.bmutex = none
  given : shared'.raised = false → pc'.gives = true ∨
    (shared'.event .canRead).signalled = true ∨
    pc.gives = false ∧ shared'.event .canRead = shared.event .canRead

variable {grain : Grain} {role : Tid → Role} {tid : Tid} {shared shared' : Shared Tid}
variable {pc pc' : Pc} {emitted : List (Output Tid)}

/-- A step after which the thread is still to set `can_read`. -/
theorem Gives.inside (flag : shared'.flag = shared.flag) (raised : shared'.raised = shared.raised)
    (writable : shared'.event .canWrite = shared.event .canWrite)
    (mutex : pc'.locks = pc.locks ∧ shared'.bmutex = shared.bmutex) (gives : pc'.gives = true) :
    Gives tid shared pc shared' pc' := by
  refine ⟨flag, fun quiet => raised ▸ quiet, writable, fun _ here => ?_, .inl mutex,
    fun _ => .inl gives⟩
  rw [here] at gives
  cases gives

/-- A step outside that leaves the events alone. -/
theorem Gives.outside (flag : shared'.flag = shared.flag) (raised : shared'.raised = shared.raised)
    (event : shared'.event = shared.event)
    (mutex : pc'.locks = pc.locks ∧ shared'.bmutex = shared.bmutex) (stays : pc' ≠ .returned)
    (idle : pc.gives = false) : Gives tid shared pc shared' pc' :=
  ⟨flag, fun quiet => raised ▸ quiet, by rw [event], fun _ => stays, .inl mutex,
    fun _ => .inr (.inr ⟨idle, by rw [event]⟩)⟩

theorem step_gives (unset : shared.flag = 0) (writable : shared.event .canWrite = ⟨true, true⟩)
    (stepped : step writerReaderActive grain role tid shared pc = some (shared', pc', emitted)) :
    Gives tid shared pc shared' pc' := by
  have polled : (shared.event .canWrite).poll.1 = shared.event .canWrite :=
    Event.poll_of_manual (by rw [writable])
  cases step_effect stepped with
  | enterRead | enterWrite | writers | noWriters =>
    exact .outside rfl rfl rfl ⟨rfl, rfl⟩ (by decide) rfl
  | leave _ set => exact absurd unset set
  | handle _ _ caught => cases caught
  | load place | bump place | store place =>
    cases place with
    | enterRead | enterWrite =>
      exact .outside rfl rfl rfl ⟨rfl, rfl⟩ (fun here => by cases here) rfl
    | countReader | leaveReadQueue | uncountReader | leaveWriteQueue | countRound =>
      exact .inside rfl rfl rfl ⟨rfl, rfl⟩ rfl
  | readerWaits =>
    rw [polled, Shared.withEvent_self]
    exact .outside rfl rfl rfl ⟨rfl, rfl⟩ (by decide) rfl
  | readerPasses =>
    rw [polled, Shared.withEvent_self]
    exact .inside rfl rfl rfl ⟨rfl, rfl⟩ rfl
  | waitCanRead | writerWaits | writerPasses | lastLetter | innerLetter | resetSymbol | lastRound
  | earlyRound | loadSymbol | bumpSymbol | storeSymbol | printWriter | resetAfterWrite | more
  | noMore | printCounted | setCanRead => exact .inside rfl rfl rfl ⟨rfl, rfl⟩ rfl
  | waitMutex free next =>
    cases next
    exact ⟨rfl, fun quiet => quiet, rfl, fun _ here => (by cases here),
      .inr (.inl ⟨rfl, free, rfl⟩), fun _ => .inl rfl⟩
  | releaseMutex =>
    exact ⟨rfl, fun quiet => quiet, rfl, fun _ here => (by cases here),
      .inr (.inr ⟨rfl, rfl, rfl⟩), fun _ => .inl rfl⟩
  | printUncounted uncounted => cases uncounted
  | setAfterRead | setMoreWriters | setNoWriters =>
    exact ⟨rfl, fun quiet => quiet, rfl, fun _ here => (by cases here), .inl ⟨rfl, rfl⟩,
      fun _ => .inr (.inl rfl)⟩
  | waitCanWrite passed =>
    rw [Event.wait_of_manual (by rw [writable]) passed, Shared.withEvent_self]
    exact .inside rfl rfl rfl ⟨rfl, rfl⟩ rfl
  | generateBreak =>
    exact ⟨rfl, fun quiet => (by cases quiet), rfl, fun quiet => (by cases quiet),
      .inl ⟨rfl, rfl⟩, fun quiet => (by cases quiet)⟩

/-- `can_write` is signalled for good, and until CTRL_BREAK is raised `can_read` is
signalled or somebody is going to signal it. -/
structure Flows (role : Tid → Role) (shared : Shared Tid) (pcs : Tid → Pc) : Prop where
  flag : shared.flag = 0
  writable : shared.event .canWrite = ⟨true, true⟩
  fits : ∀ tid own, (pcs tid).role? = some own → role tid = own
  mutex : Threads.Owner Pc.locks shared.bmutex pcs
  stays : shared.raised = false → ∀ tid, pcs tid ≠ .returned
  given : shared.raised = false → (shared.event .canRead).signalled = true ∨
    ∃ tid, (pcs tid).gives = true

theorem Flows.initial : Flows role (initial : Shared Tid) (fun _ => .testFlag) where
  flag := rfl
  writable := rfl
  fits _ _ inside := by cases inside
  mutex _ := ⟨fun locked => (by cases locked), fun held => (by cases held)⟩
  stays _ _ := Pc.noConfusion
  given _ := .inl rfl

variable [DecidableEq Tid] {pcs : Tid → Pc}

theorem Flows.step (flows : Flows role shared pcs)
    (stepped : Lab04.step writerReaderActive grain role tid shared (pcs tid) =
      some (shared', pc', emitted)) : Flows role shared' (Function.update pcs tid pc') := by
  have gives := step_gives flows.flag flows.writable stepped
  have here : Function.update pcs tid pc' tid = pc' := Function.update_self ..
  refine ⟨gives.flag.trans flows.flag, gives.writable.trans flows.writable, ?_, ?_, ?_, ?_⟩
  · exact (Function.forall_update_iff pcs (fun tid pc => ∀ own, pc.role? = some own →
      role tid = own)).mpr ⟨step_role (flows.fits tid) stepped, fun other _ => flows.fits other⟩
  · rcases gives.mutex with ⟨same, kept⟩ | ⟨locks, free, taken⟩ | ⟨before, after, freed⟩
    · rw [kept]
      exact flows.mutex.keep same
    · rw [taken]
      exact flows.mutex.lock free locks
    · rw [freed]
      exact flows.mutex.unlock before after
  · intro quiet
    exact (Function.forall_update_iff pcs (fun _ pc => pc ≠ .returned)).mpr
      ⟨gives.stays quiet, fun other _ => flows.stays (gives.raised quiet) other⟩
  · intro quiet
    rcases gives.given quiet with still | signalled | ⟨idle, same⟩
    · exact .inr ⟨tid, by rwa [here]⟩
    · exact .inl signalled
    · rw [same]
      refine (flows.given (gives.raised quiet)).imp_right fun ⟨other, owing⟩ => ⟨other, ?_⟩
      have different : other ≠ tid := by
        rintro rfl
        rw [idle] at owing
        cases owing
      rwa [Function.update_of_ne different]

theorem flows_of_run
    (run : (threads writerReaderActive grain role).machine.Run Machine.anything actions events
      state) : Flows role state.shared state.pcs :=
  Threads.invariant (fun _ shared pcs => Flows role shared pcs) .initial
    (fun flows _ stepped => flows.step stepped) run

omit [DecidableEq Tid] in
/-- Until CTRL_BREAK is raised, a thread that is blocked waits for `can_read`, or for a
mutex whose owner can go on. -/
theorem Flows.not_deadlocked {state : Threads.State Tid (Shared Tid) Pc}
    (flows : Flows role state.shared state.pcs) (quiet : state.shared.raised = false) :
    ¬ Deadlocked writerReaderActive grain role state := by
  rintro ⟨⟨tid, part, _⟩, stuck⟩
  have blocked (other : Tid) (part : role other ≠ .console) :=
    blocked_at part (flows.stays quiet other) (stuck other part)
  have free : state.shared.bmutex = none := by
    by_contra held
    obtain ⟨holder, owner⟩ := Option.ne_none_iff_exists'.mp held
    have locks := (flows.mutex holder).mpr owner
    have part : role holder ≠ .console := by
      rw [flows.fits holder _ (Pc.role?_of_locks locks)]
      decide
    rcases blocked holder part with ⟨here, _⟩ | ⟨here, _⟩ | ⟨here, _⟩ <;>
      (rw [here] at locks; cases locks)
  have waits : ∀ other, role other ≠ .console →
      state.pcs other = .waitCanRead ∧ (state.shared.event .canRead).signalled = false := by
    intro other part
    rcases blocked other part with waiting | ⟨_, unsignalled⟩ | ⟨_, held⟩
    · exact waiting
    · rw [flows.writable] at unsignalled
      cases unsignalled
    · exact absurd free held
  rcases flows.given quiet with signalled | ⟨other, giving⟩
  · rw [(waits tid part).2] at signalled
    cases signalled
  · obtain ⟨own, inside, part⟩ := Pc.role?_of_gives giving
    rw [(waits other (by rwa [flows.fits other own inside])).1] at giving
    cases giving

/-- No writer of writer_reader_active.c ever waits, no thread returns before CTRL_BREAK is
raised, and until then the threads are never all blocked, whatever `break` is taken. -/
theorem active_never_deadlocks
    (run : (threads writerReaderActive grain role).machine.Run Machine.anything actions events
      state) :
    (∀ tid, role tid = .writer → state.pcs tid ≠ .returned →
      step writerReaderActive grain role tid state.shared (state.pcs tid) ≠ none) ∧
    (state.shared.raised = false → (∀ tid, state.pcs tid ≠ .returned) ∧
      ¬ Deadlocked writerReaderActive grain role state) := by
  have flows := flows_of_run run
  refine ⟨fun tid writer remains blocked => ?_,
    fun quiet => ⟨flows.stays quiet, flows.not_deadlocked quiet⟩⟩
  have part : role tid ≠ .console := by simp [writer]
  rcases blocked_at part remains blocked with ⟨here, _⟩ | ⟨_, unsignalled⟩ | ⟨here, _⟩
  · have reader := flows.fits tid .reader (by rw [here]; rfl)
    rw [writer] at reader
    cases reader
  · rw [flows.writable] at unsignalled
    cases unsignalled
  · have reader := flows.fits tid .reader (by rw [here]; rfl)
    rw [writer] at reader
    cases reader

/-- A reader waits for `can_read`, which the writer inside has taken. -/
theorem active_never_deadlocks_inside : ∃ actions events state,
    (threads writerReaderActive atomic id).machine.Run Machine.anything actions events state ∧
    state.pcs .reader = .waitCanRead ∧ (state.shared.event .canRead).signalled = false ∧
    ¬ Deadlocked writerReaderActive atomic id state := by
  let view (state : Threads.State Role (Shared Role) Pc) (_ : List (Output Role)) :=
    (state.pcs .reader, (state.shared.event .canRead).signalled, state.shared.raised)
  let schedule : List Role := List.replicate 5 .writer ++ List.replicate 4 .reader
  obtain ⟨events, state, run, seen⟩ : ∃ events state,
      (threads writerReaderActive atomic id).machine.Run Machine.anything schedule events state ∧
      view state events = (.waitCanRead, false, false) :=
    Machine.Path.ofView view schedule (fun _ _ _ => trivial) (by decide +kernel)
  simp only [view, Prod.mk.injEq] at seen
  obtain ⟨waiting, unsignalled, quiet⟩ := seen
  exact ⟨_, _, _, run, waiting, unsignalled, ((active_never_deadlocks run).2 quiet).2⟩

end OsLabs.Lab04
