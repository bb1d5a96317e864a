import OsLabs.Lab04.Effect
import OsLabs.Lab04.Solo
import OsLabs.Machine.Owner

/-! Whether the threads of writer_reader.c can block each other for ever. As long
as no writer leaves by its `break`, some thread still has an event to set. -/

namespace OsLabs.Lab04

open Lab03 (letterAt)

variable {Tid : Type}

/-- No writer takes the `break`. -/
def unbroken (state : Threads.State Tid (Shared Tid) Pc) (tid : Tid) : Prop :=
  state.pcs tid = .testCnt → state.shared.count .cnt < 3

instance (state : Threads.State Tid (Shared Tid) Pc) (tid : Tid) :
    Decidable (unbroken state tid) :=
  inferInstanceAs (Decidable (_ → _))

/-- Some reader or writer has not returned, and none of them can take a step. -/
def Deadlocked (protocol : Protocol) (grain : Grain) (role : Tid → Role)
    (state : Threads.State Tid (Shared Tid) Pc) : Prop :=
  (∃ tid, role tid ≠ .console ∧ state.pcs tid ≠ .returned) ∧
    ∀ tid, role tid ≠ .console → step protocol grain role tid state.shared (state.pcs tid) = none

namespace Pc

/-- The thread has the mutex. -/
def locks : Pc → Bool
  | .bump .countReader | .store .countReader _ | .bump .leaveReadQueue
  | .store .leaveReadQueue _ | .releaseMutex => true
  | _ => false

/-- The thread has been let in and is going to set an event. -/
def owes : Pc → Bool
  | .bump .enterRead | .store .enterRead _ | .bump .enterWrite | .store .enterWrite _ | .testFlag
  | .testWriteCnt | .pollCanWrite | .waitCanRead | .pollCanRead | .waitCanWrite | .generateBreak
  | .returned => false
  | _ => true

/-- A writer there is going to poll `can_read`. -/
def approaches : Pc → Bool
  | .testFlag | .bump .enterWrite | .store .enterWrite _ | .pollCanRead => true
  | _ => false

/-- The thread has not taken the `break` and has not returned. -/
def stays : Pc → Bool
  | .generateBreak | .returned => false
  | _ => true

theorem ne_returned {pc : Pc} (remains : pc.stays = true) : pc ≠ .returned := by
  rintro rfl
  cases remains

theorem role?_of_locks {pc : Pc} (locks : pc.locks = true) : pc.role? = some .reader := by
  cases pc with
  | bump place | store place value => cases place <;> first | rfl | cases locks
  | _ => first | rfl | cases locks

theorem role?_of_owes {pc : Pc} (owes : pc.owes = true) :
    ∃ own, pc.role? = some own ∧ own ≠ .console := by
  cases pc with
  | bump place | store place value => cases place <;> exact ⟨_, rfl, by decide⟩
  | testFlag | generateBreak | returned => cases owes
  | _ => exact ⟨_, rfl, by decide⟩

end Pc

/-- Somebody is going to let the others in: `can_write` is signalled, or a thread
inside will set an event, or `can_read` is signalled and a writer will take it. -/
def Owed (role : Tid → Role) (event : Handle → Event) (pcs : Tid → Pc) : Prop :=
  (event .canWrite).signalled = true ∨ (∃ tid, (pcs tid).owes = true) ∨
    (event .canRead).signalled = true ∧ ∃ tid, role tid = .writer ∧ (pcs tid).approaches = true

/-- What one step does to the mutex and to the events. -/
structure Moves (role : Tid → Role) (tid : Tid) (shared : Shared Tid) (pc : Pc)
    (shared' : Shared Tid) (pc' : Pc) : Prop where
  flag : shared'.flag = shared.flag
  raised : shared'.raised = shared.raised
  stays : pc'.stays = true
  mutex : pc'.locks = pc.locks ∧ shared'.bmutex = shared.bmutex ∨
    pc'.locks = true ∧ shared.bmutex = none ∧ shared'.bmutex = some tid ∨
    pc.locks = true ∧ pc'.locks = false ∧ shared'.bmutex = none
  owed : pc'.owes = true ∨ (shared'.event .canWrite).signalled = true ∨
    (shared'.event .canRead).signalled = true ∧ role tid = .writer ∧ pc'.approaches = true ∨
    pc.owes = false ∧ shared'.event = shared.event ∧
      ((shared.event .canRead).signalled = true → role tid = .writer → pc.approaches = true →
        pc'.approaches = true)

variable {grain : Grain} {role : Tid → Role} {tid : Tid} {shared shared' : Shared Tid}
variable {pc pc' : Pc} {emitted : List (Output Tid)}

/-- A step that is taken inside, without the mutex changing hands. -/
theorem Moves.inside (flag : shared'.flag = shared.flag) (raised : shared'.raised = shared.raised)
    (mutex : pc'.locks = pc.locks ∧ shared'.bmutex = shared.bmutex) (owes : pc'.owes = true)
    (stays : pc'.stays = true) : Moves role tid shared pc shared' pc' :=
  ⟨flag, raised, stays, .inl mutex, .inl owes⟩

/-- A step outside that leaves the events alone. -/
theorem Moves.outside (flag : shared'.flag = shared.flag) (raised : shared'.raised = shared.raised)
    (mutex : pc'.locks = pc.locks ∧ shared'.bmutex = shared.bmutex) (stays : pc'.stays = true)
    (idle : pc.owes = false) (event : shared'.event = shared.event)
    (near : role tid = .writer → pc.approaches = true → pc'.approaches = true) :
    Moves role tid shared pc shared' pc' :=
  ⟨flag, raised, stays, .inl mutex, .inr (.inr (.inr ⟨idle, event, fun _ => near⟩))⟩

theorem step_moves (fits : ∀ own, pc.role? = some own → role tid = own) (unset : shared.flag = 0)
    (quiet : shared.raised = false) (remains : pc.stays = true)
    (unbroken : pc = .testCnt → shared.count .cnt < 3)
    (stepped : step writerReader grain role tid shared pc = some (shared', pc', emitted)) :
    Moves role tid shared pc shared' pc' := by
  cases step_effect stepped with
  | enterRead own =>
    refine .outside rfl rfl ⟨rfl, rfl⟩ rfl rfl rfl fun writer => ?_
    rw [own] at writer
    cases writer
  | enterWrite own => exact .outside rfl rfl ⟨rfl, rfl⟩ rfl rfl rfl fun _ _ => rfl
  | leave _ set => exact absurd unset set
  | handle _ raised =>
    rw [quiet] at raised
    cases raised
  | load place | bump place | store place =>
    cases place with
    | enterRead | enterWrite => exact .outside rfl rfl ⟨rfl, rfl⟩ rfl rfl rfl fun _ near => near
    | countReader | leaveReadQueue | uncountReader | leaveWriteQueue | countRound =>
      exact .inside rfl rfl ⟨rfl, rfl⟩ rfl rfl
  | writers | noWriters => exact .outside rfl rfl ⟨rfl, rfl⟩ rfl rfl rfl fun _ near => near
  | readerWaits waits =>
    have unsignalled := Event.unsignalled_of_poll waits
    rw [Event.poll_of_unsignalled unsignalled, Shared.withEvent_self]
    exact .outside rfl rfl ⟨rfl, rfl⟩ rfl rfl rfl fun _ near => near
  | readerPasses | waitCanRead | waitCanWrite | setCanRead | writerPasses | lastLetter
  | innerLetter | resetSymbol | earlyRound | loadSymbol | bumpSymbol | storeSymbol | printWriter
  | resetAfterWrite | more | noMore | printUncounted => exact .inside rfl rfl ⟨rfl, rfl⟩ rfl rfl
  | waitMutex free next =>
    cases next
    exact ⟨rfl, rfl, rfl, .inr (.inl ⟨rfl, free, rfl⟩), .inl rfl⟩
  | releaseMutex => exact ⟨rfl, rfl, rfl, .inr (.inr ⟨rfl, rfl, rfl⟩), .inl rfl⟩
  | printCounted counts => cases counts
  | setAfterRead | setMoreWriters => exact ⟨rfl, rfl, rfl, .inl ⟨rfl, rfl⟩, .inr (.inl rfl)⟩
  | setNoWriters =>
    exact ⟨rfl, rfl, rfl, .inl ⟨rfl, rfl⟩, .inr (.inr (.inl ⟨rfl, fits .writer rfl, rfl⟩))⟩
  | writerWaits waits =>
    have unsignalled := Event.unsignalled_of_poll waits
    rw [Event.poll_of_unsignalled unsignalled, Shared.withEvent_self]
    refine ⟨rfl, rfl, rfl, .inl ⟨rfl, rfl⟩, .inr (.inr (.inr ⟨rfl, rfl, fun free => ?_⟩))⟩
    rw [unsignalled] at free
    cases free
  | lastRound last => exact absurd (unbroken rfl) (Int32.not_lt.mpr last)
  | generateBreak => cases remains

/-- The invariant of the runs in which no writer takes the `break`. -/
structure Awake (role : Tid → Role) (shared : Shared Tid) (pcs : Tid → Pc) : Prop where
  flag : shared.flag = 0
  raised : shared.raised = false
  stays : ∀ tid, (pcs tid).stays = true
  fits : ∀ tid own, (pcs tid).role? = some own → role tid = own
  mutex : Threads.Owner Pc.locks shared.bmutex pcs
  owed : Owed role shared.event pcs

variable [DecidableEq Tid] {pcs : Tid → Pc}

theorem Owed.move (owed : Owed role shared.event pcs)
    (moves : Moves role tid shared (pcs tid) shared' pc') :
    Owed role shared'.event (Function.update pcs tid pc') := by
  have here : Function.update pcs tid pc' tid = pc' := Function.update_self ..
  rcases moves.owed with owes | writable | ⟨readable, writer, near⟩ | ⟨idle, same, near⟩
  · exact .inr (.inl ⟨tid, by rw [here]; exact owes⟩)
  · exact .inl writable
  · exact .inr (.inr ⟨readable, tid, writer, by rw [here]; exact near⟩)
  · rw [same]
    rcases owed with writable | ⟨other, owes⟩ | ⟨readable, other, writer, approaches⟩
    · exact .inl writable
    · have different : other ≠ tid := by
        rintro rfl
        rw [idle] at owes
        cases owes
      exact .inr (.inl ⟨other, by rwa [Function.update_of_ne different]⟩)
    · refine .inr (.inr ⟨readable, other, writer, ?_⟩)
      by_cases equal : other = tid
      · subst equal
        rw [here]
        exact near readable writer approaches
      · rwa [Function.update_of_ne equal]

omit [DecidableEq Tid] in
theorem Awake.initial : Awake role (initial : Shared Tid) (fun _ => .testFlag) where
  flag := rfl
  raised := rfl
  stays _ := rfl
  fits _ _ inside := by cases inside
  mutex _ := ⟨fun locked => (by cases locked), fun held => (by cases held)⟩
  owed := .inl rfl

theorem Awake.step (awake : Awake role shared pcs) (permitted : unbroken ⟨shared, pcs⟩ tid)
    (stepped : Lab04.step writerReader grain role tid shared (pcs tid) =
      some (shared', pc', emitted)) :
    Awake role shared' (Function.update pcs tid pc') := by
  have moves := step_moves (awake.fits tid) awake.flag awake.raised (awake.stays tid) permitted
    stepped
  refine ⟨moves.flag.trans awake.flag, moves.raised.trans awake.raised, ?_, ?_, ?_,
    awake.owed.move moves⟩
  · exact (Function.forall_update_iff pcs (fun _ pc => pc.stays = true)).mpr
      ⟨moves.stays, fun other _ => awake.stays other⟩
  · exact (Function.forall_update_iff pcs (fun tid pc => ∀ own, pc.role? = some own →
      role tid = own)).mpr ⟨step_role (awake.fits tid) stepped, fun other _ => awake.fits other⟩
  · rcases moves.mutex with ⟨same, kept⟩ | ⟨locks, free, taken⟩ | ⟨before, after, freed⟩
    · rw [kept]
      exact awake.mutex.keep same
    · rw [taken]
      exact awake.mutex.lock free locks
    · rw [freed]
      exact awake.mutex.unlock before after

theorem awake_of_run
    (run : (threads writerReader grain role).machine.Run unbroken actions events state) :
    Awake role state.shared state.pcs :=
  Threads.invariant (fun _ shared pcs => Awake role shared pcs) .initial
    (fun awake permitted stepped => awake.step permitted stepped) run

omit [DecidableEq Tid] in
/-- If no thread can step, then no event is signalled that anybody waits for, and
nobody is left who would set one. -/
theorem Awake.not_deadlocked {state : Threads.State Tid (Shared Tid) Pc}
    (awake : Awake role state.shared state.pcs) (writer : role tid = .writer) :
    ¬ Deadlocked writerReader grain role state := by
  rintro ⟨_, stuck⟩
  have blocked (other : Tid) (part : role other ≠ .console) :=
    blocked_at part (Pc.ne_returned (awake.stays other)) (stuck other part)
  have free : state.shared.bmutex = none := by
    by_contra held
    obtain ⟨holder, owner⟩ := Option.ne_none_iff_exists'.mp held
    have locks := (awake.mutex holder).mpr owner
    have part : role holder ≠ .console := by
      rw [awake.fits holder _ (Pc.role?_of_locks locks)]
      decide
    rcases blocked holder part with ⟨here, _⟩ | ⟨here, _⟩ | ⟨here, _⟩ <;>
      (rw [here] at locks; cases locks)
  have idle : ∀ other, (state.pcs other).owes = false := by
    intro other
    by_contra owing
    have owes : (state.pcs other).owes = true := by simpa using owing
    obtain ⟨own, inside, part⟩ := Pc.role?_of_owes owes
    rcases blocked other (by rwa [awake.fits other own inside]) with ⟨here, _⟩ | ⟨here, _⟩ |
      ⟨_, held⟩
    · rw [here] at owes
      cases owes
    · rw [here] at owes
      cases owes
    · exact held free
  have unwritable : (state.shared.event .canWrite).signalled = false := by
    rcases blocked tid (by simp [writer]) with ⟨here, _⟩ | ⟨_, unsignalled⟩ | ⟨_, held⟩
    · have reader := awake.fits tid .reader (by rw [here]; rfl)
      rw [writer] at reader
      cases reader
    · exact unsignalled
    · exact absurd free held
  rcases awake.owed with writable | ⟨other, owes⟩ | ⟨_, other, near, approaches⟩
  · rw [unwritable] at writable
    cases writable
  · rw [idle other] at owes
    cases owes
  · rcases blocked other (by simp [near]) with ⟨here, _⟩ | ⟨here, _⟩ | ⟨here, _⟩ <;>
      (rw [here] at approaches; cases approaches)

/-- The threads of writer_reader.c never block each other for ever as long as no
writer leaves by the `break`. -/
theorem not_deadlocked_of_unbroken
    (run : (threads writerReader grain role).machine.Run unbroken actions events state)
    (writer : role tid = .writer) : ¬ Deadlocked writerReader grain role state :=
  (awake_of_run run).not_deadlocked writer

/-- A reader waits for the writer that is inside. -/
theorem not_deadlocked_of_unbroken_waiting : ∃ actions events state,
    (threads writerReader atomic id).machine.Run unbroken actions events state ∧
    state.pcs .reader = .waitCanRead ∧ (state.shared.event .canRead).signalled = false ∧
    ¬ Deadlocked writerReader atomic id state := by
  let test (state : Threads.State Role (Shared Role) Pc) (tid : Role) : Bool :=
    decide (unbroken state tid)
  let view (state : Threads.State Role (Shared Role) Pc) (_ : List (Output Role)) : Pc × Bool :=
    (state.pcs .reader, (state.shared.event .canRead).signalled)
  let schedule : List Role := List.replicate 14 .writer ++ List.replicate 4 .reader
  obtain ⟨events, state, path, seen⟩ : ∃ events state,
      ((threads writerReader atomic id).machine.restrict test).Run Machine.anything schedule events
        state ∧ view state events = (.waitCanRead, false) :=
    Machine.Path.ofView view schedule (fun _ _ _ => trivial) (by decide +kernel)
  have run : (threads writerReader atomic id).machine.Run unbroken schedule events state :=
    path.ofRestrict fun _ _ passed => of_decide_eq_true passed
  obtain ⟨waiting, unsignalled⟩ := Prod.mk.inj seen
  exact ⟨_, _, _, run, waiting, unsignalled, not_deadlocked_of_unbroken run rfl⟩

omit [DecidableEq Tid] in
theorem turns_writerReader : Turns writerReader (fun _ => True) (fun _ => false) where
  passes _ _ waits := by cases waits
  keeps _ _ := trivial
  leaves writable _ := by
    funext handle
    cases handle <;> rfl

/-- A writer alone comes to the end of its third alphabet and leaves by the `break`:
neither event is signalled any more. -/
theorem Alone.quit (grain : Grain) (pcs : Tid → Pc) (writer : role tid = .writer) :
    ∃ emitted, Alone writerReader grain role tid pcs initial .testFlag emitted
      { still false false 'a'.toUInt8 3 with raised := true } .returned := by
  obtain ⟨shown, _, rounds⟩ : ∃ emitted, True ∧ Alone writerReader grain role tid pcs
      (still true true 'a'.toUInt8 0) .testFlag emitted
      (still true ((fun _ => false)^[77] true) (letterAt 77) (Int32.ofNat (77 / 26))) .testFlag :=
    Alone.rounds turns_writerReader writer trivial 77 (Nat.le_refl 77)
  have enter : Alone writerReader grain role tid pcs (still true false 'z'.toUInt8 2) .testFlag []
      (still false false 'z'.toUInt8 2) .testSymbol :=
    Alone.enter writer (fun waits => by cases waits) _ _
  have wrap : Alone writerReader grain role tid pcs (still false false 'z'.toUInt8 2) .testSymbol
      [.stored tid 'a'.toUInt8] (still false false 'a'.toUInt8 3) .testCnt := by
    have path : Alone writerReader grain role tid pcs (still false false 'z'.toUInt8 2) .testSymbol
      [.stored tid 'a'.toUInt8] _ .testCnt := Alone.wrap rfl
    rw [still_withCount] at path
    exact path
  have test : Alone writerReader grain role tid pcs (still false false 'a'.toUInt8 3) .testCnt []
      (still false false 'a'.toUInt8 3) .generateBreak := Alone.step (by simp [Lab04.step, still])
  rw [initial_still]
  exact ⟨_, (((rounds.trans enter).trans wrap).trans test).trans (Alone.step rfl)⟩

/-- A reader that comes too late waits for an event that nobody sets: neither the
console handler nor the writer that has left. -/
theorem break_deadlocks : ∃ actions events state,
    (threads writerReader atomic id).machine.Run Machine.anything actions events state ∧
    state.pcs .writer = .returned ∧ state.pcs .console = .returned ∧ state.shared.flag = 1 ∧
    Deadlocked writerReader atomic id state := by
  let start : Role → Pc := fun _ => .testFlag
  let left : Role → Pc := Function.update start .writer .returned
  let late : Role → Pc := Function.update left .reader .waitCanRead
  let broken : Shared Role := { still false false 'a'.toUInt8 3 with raised := true }
  let counted : Shared Role := broken.withCount .readCnt (broken.count .readCnt + 1)
  obtain ⟨_, quit⟩ : ∃ emitted, Alone writerReader atomic id .writer start initial .testFlag emitted
      broken .returned := Alone.quit atomic start rfl
  have wait : Alone writerReader atomic id .reader left broken .testFlag [] counted .waitCanRead :=
    Alone.tryRead rfl rfl rfl rfl
  have handle : Alone writerReader atomic id .console late counted .testFlag []
      { counted with flag := 1 } .returned := Alone.step rfl
  obtain ⟨_, first⟩ := quit.path rfl
  obtain ⟨_, second⟩ := wait.path rfl
  obtain ⟨_, third⟩ := handle.path rfl
  refine ⟨_, _, _, (first.append second).append third, rfl, rfl, rfl,
    ⟨.reader, by decide, Pc.noConfusion⟩, fun tid part => ?_⟩
  cases tid with
  | console => exact absurd rfl part
  | writer => rfl
  | reader => rfl

end OsLabs.Lab04
