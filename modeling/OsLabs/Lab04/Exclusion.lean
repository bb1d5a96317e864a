import OsLabs.Lab04.Effect
import OsLabs.Lab04.Solo

/-! Whether writer_reader.c keeps a writer apart from the other threads. -/

namespace OsLabs.Lab04

/-- Between the return of `start_write` and the call of `stop_write`. -/
def Pc.writing : Pc → Bool
  | .bump .countRound | .store .countRound _ | .testSymbol | .resetSymbol | .testCnt
  | .generateBreak | .bumpSymbol | .storeSymbol _ | .printWriter => true
  | _ => false

/-- Between the return of `start_read` and the call of `stop_read`. -/
def Pc.reading : Pc → Bool
  | .printReader => true
  | _ => false

theorem Pc.role?_of_writing {pc : Pc} (writing : pc.writing = true) : pc.role? = some .writer := by
  cases pc with
  | bump place | store place value => cases place <;> first | rfl | cases writing
  | _ => first | rfl | cases writing

theorem Pc.role?_of_reading {pc : Pc} (reading : pc.reading = true) : pc.role? = some .reader := by
  cases pc <;> first | rfl | cases reading

variable {Tid : Type}

/-- A thread that writes is alone. -/
def Exclusive (pcs : Tid → Pc) : Prop :=
  ∀ tid other, tid ≠ other → (pcs tid).writing = true →
    (pcs other).writing = false ∧ (pcs other).reading = false

variable [DecidableEq Tid] {grain : Grain} {role : Tid → Role}

/-- With a single thread that reads or writes there is nobody to keep apart. -/
theorem exclusive_of_single (single : ∀ writer other, role writer = .writer →
      role other ≠ .console → other = writer)
    (run : (threads writerReader grain role).machine.Run Machine.anything actions events state) :
    Exclusive state.pcs := by
  intro tid other different writing
  have writer : role tid = .writer := role_of_run run tid .writer (Pc.role?_of_writing writing)
  refine ⟨?_, ?_⟩
  · by_contra also
    have second := role_of_run run other .writer (Pc.role?_of_writing (by simpa using also))
    exact different (single tid other writer (by simp [second])).symm
  · by_contra also
    have reader := role_of_run run other .reader (Pc.role?_of_reading (by simpa using also))
    exact different (single tid other writer (by simp [reader])).symm

/-- A writer enters on the initial signal of `can_read`, and `can_write`, which no
wait resets, lets in whoever comes next. -/
theorem both_inside (grain : Grain) (writer : role tid = .writer)
    (comes : role other ≠ .console) (different : tid ≠ other) : ∃ actions events state,
    (threads writerReader grain role).machine.Run Machine.anything actions events state ∧
    ¬ Exclusive state.pcs := by
  let start : Tid → Pc := fun _ => .testFlag
  let entered : Tid → Pc := Function.update start tid .testSymbol
  have enter : Alone writerReader grain role tid start (still true true 'a'.toUInt8 0) .testFlag []
      (still false true 'a'.toUInt8 0) .testSymbol := Alone.enter writer (fun _ => rfl) _ _
  obtain ⟨_, first⟩ := enter.path rfl
  rw [← initial_still] at first
  have waiting : entered other = .testFlag := Function.update_of_ne different.symm ..
  have stays : ∀ pc, (Function.update entered other pc tid).writing = true := by
    intro pc
    have inside : entered tid = .testSymbol := Function.update_self ..
    rw [Function.update_of_ne different, inside]
    rfl
  cases own : role other with
  | console => exact absurd own comes
  | writer =>
    have follow : Alone writerReader grain role other entered (still false true 'a'.toUInt8 0)
        .testFlag [] (still false true 'a'.toUInt8 0) .testSymbol :=
      Alone.enter own (fun _ => rfl) _ _
    obtain ⟨_, second⟩ := follow.path waiting
    refine ⟨_, _, _, first.append second, fun exclusive => ?_⟩
    have apart : (Function.update entered other .testSymbol other).writing = false :=
      (exclusive tid other different (stays _)).1
    rw [Function.update_self] at apart
    cases apart
  | reader =>
    have follow : Alone writerReader grain role other entered (still false true 'a'.toUInt8 0)
        .testFlag [] _ .printReader := Alone.startRead own rfl rfl rfl rfl rfl rfl
    obtain ⟨_, second⟩ := follow.path waiting
    refine ⟨_, _, _, first.append second, fun exclusive => ?_⟩
    have apart : (Function.update entered other .printReader other).reading = false :=
      (exclusive tid other different (stays _)).2
    rw [Function.update_self] at apart
    cases apart

/-- Exclusion holds in all runs of exactly the populations in which a writer has
nobody beside it. -/
theorem exclusive_iff_single (grain : Grain) (role : Tid → Role) :
    (∀ actions events state,
      (threads writerReader grain role).machine.Run Machine.anything actions events state →
      Exclusive state.pcs) ↔
    ∀ writer other, role writer = .writer → role other ≠ .console → other = writer := by
  constructor
  · intro safe writer other own comes
    by_contra different
    obtain ⟨_, _, _, run, broken⟩ := both_inside grain own comes (Ne.symm different)
    exact broken (safe _ _ _ run)
  · intro single actions events state run
    exact exclusive_of_single single run

/-- Among them are the threads that `main` creates: its first writer and its first
reader get inside together. -/
theorem main_not_exclusive : ∃ actions events state,
    (threads writerReader atomic mainRole).machine.Run Machine.anything actions events state ∧
    ¬ Exclusive state.pcs := by
  have writer : mainRole ⟨0, by decide⟩ = .writer := rfl
  have comes : mainRole ⟨1, by decide⟩ ≠ .console := by decide
  exact both_inside atomic writer comes (by decide)

end OsLabs.Lab04
