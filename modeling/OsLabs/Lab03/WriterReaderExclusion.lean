import OsLabs.Lab03.WriterReaderInvariant

/-! Readers-writers exclusion of writer_reader.c, and what its readers see. -/

namespace OsLabs.Lab03.WriterReader

variable {Pid : Type} {role : Pid → Role}

/-- The end of a writer section. -/
def Event.endsWrite (role : Pid → Role) : Event Pid → Bool
  | .finished pid => decide (role pid = .writer)
  | .issued _ | .blocked _ | .admitted _ | .read _ _ | .wrote _ _ => false

theorem countP_access? (role : Pid → Role) (events : List (Event Pid)) :
    (events.filterMap (Event.access? role)).countP Register.Event.isWrite =
      events.countP (Event.endsWrite role) := by
  rw [List.countP_filterMap]
  apply List.countP_congr
  intro event _
  cases event with
  | finished pid => cases kind : role pid <;> simp [Event.access?, Event.endsWrite, kind,
      Register.Event.isWrite]
  | issued _ | blocked _ | admitted _ | read _ _ | wrote _ _ =>
    simp [Event.access?, Event.endsWrite, Register.Event.isWrite]

variable [Fintype Pid] [DecidableEq Pid]

/-- A writer in its section is alone, children that were killed in their
sections included, and a reader only ever sees the letter that the completed
writer sections have left. -/
theorem exclusive_letters
    (run : (program role).machine.Run Machine.anything actions events system) :
    (∀ writer other, role writer = .writer → (system.pcs writer).active = true →
      (system.pcs other).active = true → writer = other) ∧
    (∀ before reader value behind, events = before ++ .read reader value :: behind →
      value = 'a'.toUInt8 + UInt8.ofNat (before.countP (Event.endsWrite role) % 26)) := by
  obtain ⟨moves, shown, count, followed, same, guarded⟩ :=
    (refines_register role Machine.anything).run run
  rw [List.filterMap_some] at same
  subst same
  refine ⟨fun writer other => guarded.writer_alone, ?_⟩
  rintro before reader value behind rfl
  have place : (before ++ Event.read reader value :: behind).filterMap (Event.access? role) =
      before.filterMap (Event.access? role) ++
        .read value :: behind.filterMap (Event.access? role) :=
    List.filterMap_append
  have letter := Register.read_eq followed place
  rwa [countP_access?] at letter

/-- Two children, one of each role. -/
def pair : Bool → Role
  | true => .writer
  | false => .reader

/-- The writer completes a section; the reader reads and is killed in its
section; the writer blocks. -/
def secondLetter : List (Action Bool) :=
  List.replicate 7 (.exec true) ++ List.replicate 3 (.exec false) ++ [.alarm false] ++
    List.replicate 2 (.exec true)

theorem exclusive_letters_second : ∃ events system value,
    (program pair).machine.Run Machine.anything secondLetter events system ∧
    (system.pcs true).active = false ∧ .read false value ∈ events ∧ value = 'b'.toUInt8 := by
  let view (system : System Bool Shared Pc) (events : List (Event Bool)) :=
    (system.pcs false, events)
  let before : List (Event Bool) := [.issued true, .admitted true, .wrote true 'b'.toUInt8,
    .finished true, .issued false, .admitted false]
  obtain ⟨events, system, run, seen⟩ : ∃ events system,
      (program pair).machine.Run Machine.anything secondLetter events system ∧
      view system events =
        (.leaving false, before ++ [.read false 'b'.toUInt8, .issued true, .blocked true]) :=
    Machine.Path.ofView view secondLetter (fun _ _ _ => trivial) rfl
  obtain ⟨reader, rfl⟩ := Prod.mk.inj seen
  obtain ⟨alone, letters⟩ := exclusive_letters run
  refine ⟨_, system, 'b'.toUInt8, run, ?_, by simp, letters before false _ _ rfl⟩
  by_contra active
  have same := alone true false rfl (by simpa using active) (by rw [reader]; rfl)
  cases same

end OsLabs.Lab03.WriterReader
