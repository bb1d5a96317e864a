import OsLabs.Lab04.Effect
import OsLabs.Lab04.Solo
import Mathlib.Data.List.Chain

/-! Whether the shared symbol of writer_reader_active.c goes around the alphabet. A
writer tests it and updates it in separate steps. -/

namespace OsLabs.Lab04

open Lab03 (letterAt)

def IsLetter (value : UInt8) : Prop := 'a'.toUInt8 ≤ value ∧ value ≤ 'z'.toUInt8

/-- The letter after another one, around the alphabet. -/
def following (letter : UInt8) : UInt8 :=
  if letter = 'z'.toUInt8 then 'a'.toUInt8 else letter + 1

variable {Tid : Type}

def Output.stored? : Output Tid → Option UInt8
  | .stored _ value => some value
  | .printed _ _ => none

/-- The symbol is a letter, its successive values are successive letters, and
only letters have been printed. -/
structure Integrity (events : List (Output Tid)) (symbol : UInt8) : Prop where
  letter : IsLetter symbol
  successive : List.IsChain (fun letter next => next = following letter)
    ('a'.toUInt8 :: events.filterMap Output.stored?)
  printed : ∀ tid value, .printed tid value ∈ events → IsLetter value

/-- What a writer knows of the symbol that it has tested. -/
def Pc.Tested (symbol : UInt8) : Pc → Prop
  | .bump .countRound | .store .countRound _ | .resetSymbol => symbol = 'z'.toUInt8
  | .bumpSymbol => symbol ≠ 'z'.toUInt8
  | .storeSymbol value => symbol ≠ 'z'.toUInt8 ∧ value = symbol + 1
  | _ => True

theorem isLetter_first : IsLetter 'a'.toUInt8 := ⟨by decide, by decide⟩

theorem following_isLetter (letter : IsLetter value) : IsLetter (following value) := by
  unfold following
  split
  · exact isLetter_first
  · rename_i inner
    obtain ⟨above, below⟩ := letter
    have before : value < 'z'.toUInt8 := UInt8.lt_of_le_of_ne below inner
    have first : ('a'.toUInt8).toNat = 97 := rfl
    have last : ('z'.toUInt8).toNat = 122 := rfl
    have next : (value + 1).toNat = value.toNat + 1 := by
      rw [UInt8.lt_iff_toNat_lt] at before
      rw [UInt8.toNat_add, UInt8.toNat_one]
      omega
    rw [UInt8.le_iff_toNat_le] at above
    rw [UInt8.lt_iff_toNat_lt] at before
    exact ⟨UInt8.le_iff_toNat_le.mpr (by omega), UInt8.le_iff_toNat_le.mpr (by omega)⟩

theorem Pc.tested_of_no_writer {pc : Pc} (other : pc.role? ≠ some .writer) (symbol : UInt8) :
    pc.Tested symbol := by
  cases pc with
  | bump place | store place value =>
    cases place <;> trivial
  | _ => trivial

variable {protocol : Protocol} {grain : Grain} {role : Tid → Role} {tid : Tid}
variable {shared shared' : Shared Tid} {pc pc' : Pc} {emitted : List (Output Tid)}

/-- A step leaves the symbol alone, and at most prints it, or a writer advances it. -/
theorem step_symbol (tested : pc.Tested shared.symbol)
    (stepped : step protocol grain role tid shared pc = some (shared', pc', emitted)) :
    pc'.Tested shared'.symbol ∧
      (shared'.symbol = shared.symbol ∧ (emitted = [] ∨ emitted = [.printed tid shared.symbol]) ∨
        pc.role? = some .writer ∧ shared'.symbol = following shared.symbol ∧
          emitted = [.stored tid (following shared.symbol)]) := by
  cases step_effect stepped with
  | load place | bump place | store place =>
    exact ⟨by cases place <;> trivial, .inl ⟨rfl, .inl rfl⟩⟩
  | waitMutex _ next =>
    refine ⟨?_, .inl ⟨rfl, .inl rfl⟩⟩
    rw [next]
    split <;> trivial
  | lastLetter last => exact ⟨last, .inl ⟨rfl, .inl rfl⟩⟩
  | innerLetter inner => exact ⟨inner, .inl ⟨rfl, .inl rfl⟩⟩
  | printCounted | printUncounted | printWriter => exact ⟨trivial, .inl ⟨rfl, .inr rfl⟩⟩
  | resetSymbol =>
    have next : following shared.symbol = 'a'.toUInt8 := if_pos tested
    exact ⟨trivial, .inr ⟨rfl, next.symm, by rw [next]⟩⟩
  | loadSymbol => exact ⟨⟨tested, rfl⟩, .inl ⟨rfl, .inl rfl⟩⟩
  | bumpSymbol =>
    have next : following shared.symbol = shared.symbol + 1 := if_neg tested
    exact ⟨trivial, .inr ⟨rfl, next.symm, by rw [next]⟩⟩
  | storeSymbol =>
    obtain ⟨inner, rfl⟩ := tested
    have next : following shared.symbol = shared.symbol + 1 := if_neg inner
    exact ⟨trivial, .inr ⟨rfl, next.symm, by rw [next]⟩⟩
  | _ => exact ⟨trivial, .inl ⟨rfl, .inl rfl⟩⟩

/-- The invariant of the runs with a single writer. -/
structure Serial (role : Tid → Role) (events : List (Output Tid)) (shared : Shared Tid)
    (pcs : Tid → Pc) : Prop where
  integrity : Integrity events shared.symbol
  last : ('a'.toUInt8 :: events.filterMap Output.stored?).getLast? = some shared.symbol
  fits : ∀ tid own, (pcs tid).role? = some own → role tid = own
  tested : ∀ tid, (pcs tid).Tested shared.symbol

theorem Serial.initial (role : Tid → Role) :
    Serial role [] (initial : Shared Tid) (fun _ => .testFlag) where
  integrity := ⟨isLetter_first, .singleton _, fun _ _ member => by cases member⟩
  last := rfl
  fits _ _ inside := by cases inside
  tested _ := trivial

theorem Integrity.print {events : List (Output Tid)} (integrity : Integrity events symbol)
    (shown : emitted = [] ∨ emitted = [.printed tid symbol]) :
    Integrity (events ++ emitted) symbol ∧
      (events ++ emitted).filterMap Output.stored? = events.filterMap Output.stored? := by
  rcases shown with rfl | rfl
  · rw [List.append_nil]
    exact ⟨integrity, rfl⟩
  · have same : (events ++ [Output.printed tid symbol]).filterMap Output.stored? =
        events.filterMap Output.stored? := by simp [Output.stored?]
    refine ⟨⟨integrity.letter, by rw [same]; exact integrity.successive, ?_⟩, same⟩
    intro other value member
    rcases List.mem_append.mp member with before | now
    · exact integrity.printed other value before
    · obtain ⟨_, rfl⟩ : other = tid ∧ value = symbol := by simpa using now
      exact integrity.letter

theorem Integrity.store {events : List (Output Tid)} (integrity : Integrity events symbol)
    (last : ('a'.toUInt8 :: events.filterMap Output.stored?).getLast? = some symbol) :
    Integrity (events ++ [.stored tid (following symbol)]) (following symbol) ∧
      ('a'.toUInt8 :: (events ++ [Output.stored tid (following symbol)]).filterMap
        Output.stored?).getLast? = some (following symbol) := by
  have more : (events ++ [Output.stored tid (following symbol)]).filterMap Output.stored? =
      events.filterMap Output.stored? ++ [following symbol] := by simp [Output.stored?]
  refine ⟨⟨following_isLetter integrity.letter, ?_, ?_⟩, ?_⟩
  · rw [more, ← List.cons_append, List.isChain_append]
    refine ⟨integrity.successive, .singleton _, ?_⟩
    intro letter before next after
    rw [last] at before
    cases before
    cases after
    rfl
  · intro other value member
    exact integrity.printed other value (by simpa using member)
  · rw [more, ← List.cons_append, List.getLast?_concat]

variable [DecidableEq Tid] {pcs : Tid → Pc}

theorem Serial.step {events : List (Output Tid)} (serial : Serial role events shared pcs)
    (single : ∀ first second, role first = .writer → role second = .writer → first = second)
    (stepped : Lab04.step protocol grain role tid shared (pcs tid) =
      some (shared', pc', emitted)) :
    Serial role (events ++ emitted) shared' (Function.update pcs tid pc') := by
  obtain ⟨tested, shown⟩ := step_symbol (serial.tested tid) stepped
  have fits := (Function.forall_update_iff pcs (fun tid pc => ∀ own, pc.role? = some own →
    role tid = own)).mpr ⟨step_role (serial.fits tid) stepped, fun other _ => serial.fits other⟩
  rcases shown with ⟨same, shown⟩ | ⟨writer, advanced, rfl⟩
  · obtain ⟨integrity, stores⟩ := serial.integrity.print shown
    rw [← same] at integrity
    refine ⟨integrity, by rw [stores, same]; exact serial.last, fits, ?_⟩
    refine (Function.forall_update_iff pcs (fun _ pc => pc.Tested shared'.symbol)).mpr
      ⟨tested, fun other _ => ?_⟩
    rw [same]
    exact serial.tested other
  · obtain ⟨integrity, last⟩ := serial.integrity.store serial.last
    refine ⟨by rw [advanced]; exact integrity, by rw [advanced]; exact last, fits, ?_⟩
    · refine (Function.forall_update_iff pcs (fun _ pc => pc.Tested shared'.symbol)).mpr
        ⟨tested, fun other different => Pc.tested_of_no_writer (fun also => ?_) _⟩
      exact different (single other tid (serial.fits other .writer also)
        (serial.fits tid .writer writer))

/-- A single writer does not disturb itself. -/
theorem integrity_of_single
    (single : ∀ first second, role first = .writer → role second = .writer → first = second)
    (run : (threads protocol grain role).machine.Run Machine.anything actions events state) :
    Integrity events state.shared.symbol :=
  (Threads.invariant (fun events shared pcs => Serial role events shared pcs) (.initial role)
    (fun serial _ stepped => serial.step single stepped) run).integrity

omit [DecidableEq Tid] in
theorem turns_writerReaderActive : Turns writerReaderActive (· = true) id where
  passes _ writable _ := writable
  keeps _ writable := writable
  leaves writable _ := by
    funext handle
    cases handle <;> rfl

/-- Two writers that test the symbol when it is 'y' both increment it. -/
theorem both_increment (grain : Grain) (writer : role tid = .writer)
    (also : role other = .writer) (different : tid ≠ other) : ∃ actions events state,
    (threads writerReaderActive grain role).machine.Run Machine.anything actions events state ∧
    state.shared.symbol = 'z'.toUInt8 + 1 := by
  let start : Tid → Pc := fun _ => .testFlag
  let ready : Tid → Pc := Function.update start tid .bumpSymbol
  let both : Tid → Pc := Function.update ready other .bumpSymbol
  let incremented : Tid → Pc := Function.update both tid .printWriter
  let letter : Shared Tid := still false true (letterAt 24) 0
  let last : Shared Tid := { letter with symbol := letter.symbol + 1 }
  have test (tid : Tid) (pcs : Tid → Pc) : Alone writerReaderActive grain role tid pcs letter
      .testSymbol [] letter .bumpSymbol := Alone.step rfl
  obtain ⟨_, _, rounds⟩ : ∃ emitted, id^[24] true = true ∧
      Alone writerReaderActive grain role tid start (still true true 'a'.toUInt8 0) .testFlag
        emitted (still true (id^[24] true) (letterAt 24) (Int32.ofNat (24 / 26))) .testFlag :=
    Alone.rounds turns_writerReaderActive writer rfl 24 (by decide)
  have enter : Alone writerReaderActive grain role tid start (still true true (letterAt 24) 0)
      .testFlag [] letter .testSymbol := Alone.enter writer (fun _ => rfl) _ _
  rw [Function.iterate_id] at rounds
  obtain ⟨_, first⟩ := ((rounds.trans enter).trans (test tid start)).path rfl
  have follow : Alone writerReaderActive grain role other ready letter .testFlag [] letter
      .testSymbol := Alone.enter also (fun waits => by cases waits) _ _
  obtain ⟨_, second⟩ := (follow.trans (test other ready)).path
    (Function.update_of_ne different.symm ..)
  have one : Alone writerReaderActive grain role tid both letter .bumpSymbol _ last .printWriter :=
    Alone.increment letter
  obtain ⟨_, third⟩ := one.path (by simp [both, ready, different])
  have two : Alone writerReaderActive grain role other incremented last .bumpSymbol _
    { last with symbol := last.symbol + 1 } .printWriter := Alone.increment last
  obtain ⟨_, fourth⟩ := two.path (by simp [incremented, both, different.symm])
  rw [← initial_still] at first
  have overshot : letterAt 24 + 1 + 1 = 'z'.toUInt8 + 1 := by decide
  exact ⟨_, _, _, ((first.append second).append third).append fourth, overshot⟩

/-- The threads that `main` creates drive the symbol past 'z'. -/
theorem main_not_integral : ∃ actions events state,
    (threads writerReaderActive atomic mainRole).machine.Run Machine.anything actions events
      state ∧
    state.shared.symbol = 'z'.toUInt8 + 1 ∧ ¬ Integrity events state.shared.symbol := by
  have first : mainRole ⟨0, by decide⟩ = .writer := rfl
  have second : mainRole ⟨2, by decide⟩ = .writer := rfl
  obtain ⟨_, _, _, run, overshot⟩ := both_increment atomic first second (by decide)
  refine ⟨_, _, _, run, overshot, fun integrity => ?_⟩
  have letter := integrity.letter
  rw [overshot] at letter
  exact absurd letter.2 (by decide)

/-- The symbol goes around the alphabet in all runs of exactly the populations with
at most one writer. -/
theorem integrity_iff_single_writer (grain : Grain) (role : Tid → Role) :
    (∀ actions events state,
      (threads writerReaderActive grain role).machine.Run Machine.anything actions events state →
      Integrity events state.shared.symbol) ↔
    ∀ first second, role first = .writer → role second = .writer → first = second := by
  constructor
  · intro safe first second writer also
    by_contra different
    obtain ⟨_, _, _, run, broken⟩ := both_increment grain writer also different
    have letter := (safe _ _ _ run).letter
    rw [broken] at letter
    exact absurd letter.2 (by decide)
  · intro single actions events state run
    exact integrity_of_single single run

end OsLabs.Lab04
