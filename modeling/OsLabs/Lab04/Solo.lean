import OsLabs.Lab03.Alphabet
import OsLabs.Lab04.WriterReader
import Mathlib.Logic.Function.Iterate

/-! How far a thread gets while the others stand still. -/

namespace OsLabs.Lab04

open Lab03 (letterAt letterAt_eq_last_iff letterAt_succ letterAt_wrap)

variable {Tid : Type} [DecidableEq Tid] {protocol : Protocol} {grain : Grain}
variable {role : Tid → Role} {tid : Tid} {pcs : Tid → Pc} {shared : Shared Tid}

/-- A thread moves alone. -/
abbrev Alone (protocol : Protocol) (grain : Grain) (role : Tid → Role) (tid : Tid)
    (pcs : Tid → Pc) :=
  (threads protocol grain role).Solo Machine.anything tid pcs

theorem Alone.step {shared shared' : Shared Tid} {pc pc' : Pc} {emitted : List (Output Tid)}
    (stepped : Lab04.step protocol grain role tid shared pc = some (shared', pc', emitted)) :
    Alone protocol grain role tid pcs shared pc emitted shared' pc' :=
  .single trivial stepped

/-- A counter is changed, in one step or in two. -/
theorem Alone.bump (shared : Shared Tid) (place : Bump) :
    Alone protocol grain role tid pcs shared (.bump place) []
      (shared.withCount place.counter (place.change (shared.count place.counter))) place.next := by
  cases split : grain.counter place.counter with
  | false => exact Alone.step (by simp [Lab04.step, split])
  | true =>
    have load : Alone protocol grain role tid pcs shared (.bump place) [] shared
        (.store place (place.change (shared.count place.counter))) :=
      Alone.step (by simp [Lab04.step, split])
    exact load.trans (Alone.step rfl)

/-- A writer enters when its poll lets it, or else `can_write` is signalled. -/
theorem Alone.startWrite (writer : role tid = .writer) (unset : shared.flag = 0)
    (passes : protocol.writerWaits (shared.event .canRead).poll.2 = true →
      (shared.event .canWrite).wait = some (shared.event .canWrite)) :
    Alone protocol grain role tid pcs shared .testFlag []
      (shared.withEvent .canRead (shared.event .canRead).poll.1) .testSymbol := by
  let counted : Shared Tid := shared.withCount .writeCnt (shared.count .writeCnt + 1)
  let polled : Shared Tid := counted.withEvent .canRead (shared.event .canRead).poll.1
  have test : Alone protocol grain role tid pcs shared .testFlag [] shared (.bump .enterWrite) :=
    Alone.step (by simp [Lab04.step, writer, unset])
  have count : Alone protocol grain role tid pcs shared (.bump .enterWrite) [] counted
      .pollCanRead := Alone.bump shared .enterWrite
  have poll : Alone protocol grain role tid pcs counted .pollCanRead [] polled
      (.bump .leaveWriteQueue) := by
    cases waits : protocol.writerWaits (shared.event .canRead).poll.2 with
    | false => exact Alone.step (by simp [Lab04.step, counted, polled, waits])
    | true =>
      have block : Alone protocol grain role tid pcs counted .pollCanRead [] polled
          .waitCanWrite := Alone.step (by simp [Lab04.step, counted, polled, waits])
      have pass : Alone protocol grain role tid pcs polled .waitCanWrite [] polled
          (.bump .leaveWriteQueue) := by
        have event : polled.event .canWrite = shared.event .canWrite := by simp [polled, counted]
        refine Alone.step ?_
        simp only [Lab04.step, event, passes waits, Option.map_some]
        rw [← event, Shared.withEvent_self]
      exact block.trans pass
  have leave : Alone protocol grain role tid pcs polled (.bump .leaveWriteQueue) []
      (shared.withEvent .canRead (shared.event .canRead).poll.1) .testSymbol := by
    have same : polled.withCount .writeCnt (polled.count .writeCnt - 1) =
        shared.withEvent .canRead (shared.event .canRead).poll.1 := by
      simp only [polled, counted, Shared.withCount_withEvent, Shared.withCount_withCount]
      exact Shared.withCount_self _ (by simp)
    rw [← same]
    exact Alone.bump polled .leaveWriteQueue
  exact ((test.trans count).trans poll).trans leave

/-- The letter is incremented, in one step or in two. -/
theorem Alone.increment (shared : Shared Tid) :
    Alone protocol grain role tid pcs shared .bumpSymbol [.stored tid (shared.symbol + 1)]
      { shared with symbol := shared.symbol + 1 } .printWriter := by
  cases split : grain.symbol with
  | false => exact Alone.step (by simp [Lab04.step, split])
  | true =>
    have load : Alone protocol grain role tid pcs shared .bumpSymbol [] shared
        (.storeSymbol (shared.symbol + 1)) := Alone.step (by simp [Lab04.step, split])
    exact load.trans (Alone.step rfl)

/-- Before the end of the alphabet the next letter is written. -/
theorem Alone.advance (inner : shared.symbol ≠ 'z'.toUInt8) :
    Alone protocol grain role tid pcs shared .testSymbol
      [.stored tid (shared.symbol + 1), .printed tid (shared.symbol + 1)]
      { shared with symbol := shared.symbol + 1 } .resetAfterWrite := by
  have test : Alone protocol grain role tid pcs shared .testSymbol [] shared .bumpSymbol :=
    Alone.step (by simp only [Lab04.step, if_neg inner])
  exact (test.trans (Alone.increment shared)).trans (Alone.step rfl)

/-- At the end of the alphabet the round is counted and the letter starts again. -/
theorem Alone.wrap (last : shared.symbol = 'z'.toUInt8) :
    Alone protocol grain role tid pcs shared .testSymbol [.stored tid 'a'.toUInt8]
      { shared.withCount .cnt (shared.count .cnt + 1) with symbol := 'a'.toUInt8 } .testCnt := by
  have test : Alone protocol grain role tid pcs shared .testSymbol [] shared
      (.bump .countRound) := Alone.step (by simp only [Lab04.step, if_pos last])
  have count : Alone protocol grain role tid pcs shared (.bump .countRound) []
      (shared.withCount .cnt (shared.count .cnt + 1)) .resetSymbol := Alone.bump shared .countRound
  exact (test.trans count).trans (Alone.step rfl)

/-- A writer leaves when no other one is counted. -/
theorem Alone.stopWrite (single : shared.count .writeCnt = 0) :
    Alone protocol grain role tid pcs shared .resetAfterWrite []
      ((shared.withEvent protocol.afterWrite (shared.event protocol.afterWrite).reset).withEvent
        protocol.noWriters
        (Function.update shared.event protocol.afterWrite (shared.event protocol.afterWrite).reset
          protocol.noWriters).set) .testFlag := by
  let reset : Shared Tid :=
    shared.withEvent protocol.afterWrite (shared.event protocol.afterWrite).reset
  have test : Alone protocol grain role tid pcs reset .testMoreWriters [] reset .setNoWriters :=
    Alone.step (by simp [Lab04.step, reset, single])
  have first : Alone protocol grain role tid pcs shared .resetAfterWrite [] reset
      .testMoreWriters := Alone.step rfl
  exact (first.trans test).trans (Alone.step rfl)

/-- A reader polls `can_write`, which is a manual-reset event. -/
theorem Alone.tryRead (reader : role tid = .reader) (unset : shared.flag = 0)
    (none : shared.count .writeCnt = 0) (manual : (shared.event .canWrite).manualReset = true) :
    Alone protocol grain role tid pcs shared .testFlag []
      (shared.withCount .readCnt (shared.count .readCnt + 1))
      (if protocol.readerWaits (shared.event .canWrite).poll.2 then .waitCanRead
        else .setCanRead) := by
  let counted : Shared Tid := shared.withCount .readCnt (shared.count .readCnt + 1)
  have test : Alone protocol grain role tid pcs shared .testFlag [] shared (.bump .enterRead) :=
    Alone.step (by simp [Lab04.step, reader, unset])
  have count : Alone protocol grain role tid pcs shared (.bump .enterRead) [] counted
      .testWriteCnt := Alone.bump shared .enterRead
  have writers : Alone protocol grain role tid pcs counted .testWriteCnt [] counted
      .pollCanWrite := Alone.step (by simp [Lab04.step, counted, none])
  have poll : Alone protocol grain role tid pcs counted .pollCanWrite [] counted
      (if protocol.readerWaits (shared.event .canWrite).poll.2 then .waitCanRead
        else .setCanRead) := by
    have kept : counted.withEvent .canWrite (shared.event .canWrite).poll.1 = counted := by
      rw [Event.poll_of_manual manual]
      exact Shared.withEvent_self counted
    have event : counted.event .canWrite = shared.event .canWrite := rfl
    exact Alone.step (by simp only [Lab04.step, event, kept])
  exact ((test.trans count).trans writers).trans poll

/-- It enters at once when its poll does not make it wait. -/
theorem Alone.startRead (reader : role tid = .reader) (unset : shared.flag = 0)
    (none : shared.count .writeCnt = 0) (manual : (shared.event .canWrite).manualReset = true)
    (passes : protocol.readerWaits (shared.event .canWrite).poll.2 = false)
    (uncounted : protocol.countsReaders = false) (free : shared.bmutex = Option.none) :
    Alone protocol grain role tid pcs shared .testFlag []
      (shared.withEvent .canRead (shared.event .canRead).set) .printReader := by
  let counted : Shared Tid := shared.withCount .readCnt (shared.count .readCnt + 1)
  let passed : Shared Tid := counted.withEvent .canRead (shared.event .canRead).set
  let locked : Shared Tid := { passed with bmutex := some tid }
  have poll : Alone protocol grain role tid pcs shared .testFlag [] counted .setCanRead := by
    have path : Alone protocol grain role tid pcs shared .testFlag [] counted _ :=
      Alone.tryRead reader unset none manual
    rwa [if_neg (by rw [passes]; decide)] at path
  have pass : Alone protocol grain role tid pcs counted .setCanRead [] passed .waitMutex :=
    Alone.step rfl
  have lock : Alone protocol grain role tid pcs passed .waitMutex [] locked
      (.bump .leaveReadQueue) := by
    have unlocked : passed.bmutex = Option.none := free
    refine Alone.step ?_
    simp only [Lab04.step, unlocked, uncounted]
    rfl
  let entered : Shared Tid := shared.withEvent .canRead (shared.event .canRead).set
  let uncounting : Shared Tid := { entered with bmutex := some tid }
  have count : Alone protocol grain role tid pcs locked (.bump .leaveReadQueue) [] uncounting
      .releaseMutex := by
    have same : locked.withCount .readCnt (locked.count .readCnt - 1) = uncounting := by
      have back : locked.count .readCnt - 1 = uncounting.count .readCnt := by
        simp [locked, passed, counted, uncounting, entered]
      rw [back]
      simp [locked, passed, counted, uncounting, entered, Shared.withCount]
    rw [← same]
    exact Alone.bump locked .leaveReadQueue
  have unlock : Alone protocol grain role tid pcs uncounting .releaseMutex [] entered
      .printReader := by
    have same : { uncounting with bmutex := Option.none } = entered := by
      simp [uncounting, entered, ← free, Shared.withEvent]
    refine Alone.step ?_
    simp only [Lab04.step, same]
  exact (((poll.trans pass).trans lock).trans count).trans unlock

/-- No thread is counted, the mutex is free and nobody has been told to stop. -/
def still (readable writable : Bool) (symbol : UInt8) (cnt : Int32) : Shared Tid :=
  ⟨handles readable writable, none, fun | .cnt => cnt | _ => 0, symbol, 0, false⟩

omit [DecidableEq Tid] in
theorem initial_still : (initial : Shared Tid) = still true true 'a'.toUInt8 0 := by
  simp only [initial, still, Shared.mk.injEq, true_and, and_true]
  funext counter
  cases counter <;> rfl

omit [DecidableEq Tid] in
theorem still_withEvent (readable readable' writable : Bool) (symbol : UInt8) (cnt : Int32) :
    (still readable writable symbol cnt : Shared Tid).withEvent .canRead ⟨false, readable'⟩ =
      still readable' writable symbol cnt := by
  simp only [still, Shared.withEvent, Shared.mk.injEq, and_true]
  funext handle
  cases handle <;> rfl

omit [DecidableEq Tid] in
theorem still_withCount (readable writable : Bool) (symbol : UInt8) (cnt cnt' : Int32) :
    (still readable writable symbol cnt : Shared Tid).withCount .cnt cnt' =
      still readable writable symbol cnt' := by
  simp only [still, Shared.withCount, Shared.mk.injEq, true_and, and_true]
  funext counter
  cases counter <;> rfl

/-- A writer that enters leaves no signal of `can_read`. -/
theorem Alone.enter (writer : role tid = .writer) {readable writable : Bool}
    (passes : protocol.writerWaits (handles readable writable .canRead).poll.2 = true →
      writable = true) (symbol : UInt8) (cnt : Int32) :
    Alone protocol grain role tid pcs (still readable writable symbol cnt) .testFlag []
      (still false writable symbol cnt) .testSymbol := by
  have taken : (handles readable writable .canRead).poll.1 = ⟨false, false⟩ := by
    cases readable <;> rfl
  rw [← still_withEvent readable false, ← taken]
  refine Alone.startWrite writer rfl fun waits => ?_
  rw [still, passes waits]
  rfl

/-- A writer alone is let in, and leaves `can_read` signalled and `can_write` as
`next` says. -/
structure Turns (protocol : Protocol) (good : Bool → Prop) (next : Bool → Bool) : Prop where
  passes : ∀ writable, good writable →
    protocol.writerWaits (handles true writable .canRead).poll.2 = true → writable = true
  keeps : ∀ writable, good writable → good (next writable)
  leaves : ∀ writable, good writable →
    Function.update (Function.update (handles false writable) protocol.afterWrite
      (handles false writable protocol.afterWrite).reset) protocol.noWriters
      (Function.update (handles false writable) protocol.afterWrite
        (handles false writable protocol.afterWrite).reset protocol.noWriters).set =
      handles true (next writable)

/-- The letter after the one with a given number is written, unless it is time for
the `break`. -/
theorem Alone.write (readable writable : Bool) (number : Nat) (early : number < 77) :
    ∃ emitted, Alone protocol grain role tid pcs
      (still readable writable (letterAt number) (Int32.ofNat (number / 26))) .testSymbol emitted
      (still readable writable (letterAt (number + 1)) (Int32.ofNat ((number + 1) / 26)))
      .resetAfterWrite := by
  by_cases last : letterAt number = 'z'.toUInt8
  · have residue := (letterAt_eq_last_iff number).mp last
    have next : letterAt (number + 1) = 'a'.toUInt8 := letterAt_wrap (by rw [last])
    have counted : Int32.ofNat ((number + 1) / 26) = Int32.ofNat (number / 26) + 1 := by
      have more : (number + 1) / 26 = number / 26 + 1 := by omega
      rw [more, Int32.ofNat_add]
      rfl
    have few : ¬ 3 ≤ Int32.ofNat (number / 26) + 1 := by
      have rounds : number / 26 = 0 ∨ number / 26 = 1 := by omega
      rcases rounds with zero | one
      · rw [zero]
        decide
      · rw [one]
        decide
    let wrapped : Shared Tid :=
      still readable writable 'a'.toUInt8 (Int32.ofNat (number / 26) + 1)
    have wrap : Alone protocol grain role tid pcs
        (still readable writable (letterAt number) (Int32.ofNat (number / 26))) .testSymbol
        [.stored tid 'a'.toUInt8] wrapped .testCnt := by
      have path : Alone protocol grain role tid pcs
        (still readable writable (letterAt number) (Int32.ofNat (number / 26))) .testSymbol
        [.stored tid 'a'.toUInt8] _ .testCnt := Alone.wrap last
      have here : (still readable writable (letterAt number) (Int32.ofNat (number / 26)) :
          Shared Tid).count .cnt = Int32.ofNat (number / 26) := rfl
      rw [here, still_withCount] at path
      exact path
    have test : Alone protocol grain role tid pcs wrapped .testCnt [] wrapped .printWriter :=
      Alone.step (by simp [Lab04.step, wrapped, still, few])
    rw [next, counted]
    exact ⟨_, (wrap.trans test).trans (Alone.step rfl)⟩
  · have residue := (letterAt_eq_last_iff number).not.mp last
    have next : letterAt (number + 1) = letterAt number + 1 :=
      letterAt_succ ((UInt8.add_left_inj _).not.mpr last)
    have counted : (number + 1) / 26 = number / 26 := by omega
    have advance : Alone protocol grain role tid pcs
      (still readable writable (letterAt number) (Int32.ofNat (number / 26))) .testSymbol _
      (still readable writable (letterAt number + 1) (Int32.ofNat (number / 26)))
      .resetAfterWrite := Alone.advance last
    rw [next, counted]
    exact ⟨_, advance⟩

/-- One iteration of a writer that does not leave by the `break`. -/
theorem Alone.round (turns : Turns protocol good next) (writer : role tid = .writer)
    (allowed : good writable) (number : Nat) (early : number < 77) :
    ∃ emitted, Alone protocol grain role tid pcs
      (still true writable (letterAt number) (Int32.ofNat (number / 26))) .testFlag emitted
      (still true (next writable) (letterAt (number + 1)) (Int32.ofNat ((number + 1) / 26)))
      .testFlag := by
  have enter : Alone protocol grain role tid pcs
      (still true writable (letterAt number) (Int32.ofNat (number / 26))) .testFlag []
      (still false writable (letterAt number) (Int32.ofNat (number / 26))) .testSymbol :=
    Alone.enter writer (turns.passes writable allowed) _ _
  obtain ⟨emitted, write⟩ : ∃ emitted, Alone protocol grain role tid pcs
      (still false writable (letterAt number) (Int32.ofNat (number / 26))) .testSymbol emitted
      (still false writable (letterAt (number + 1)) (Int32.ofNat ((number + 1) / 26)))
      .resetAfterWrite := Alone.write false writable number early
  have leave : Alone protocol grain role tid pcs
      (still false writable (letterAt (number + 1)) (Int32.ofNat ((number + 1) / 26)))
      .resetAfterWrite []
      (still true (next writable) (letterAt (number + 1)) (Int32.ofNat ((number + 1) / 26)))
      .testFlag := by
    have path : Alone protocol grain role tid pcs
      (still false writable (letterAt (number + 1)) (Int32.ofNat ((number + 1) / 26)))
      .resetAfterWrite [] _ .testFlag := Alone.stopWrite rfl
    rw [still, still, ← turns.leaves writable allowed]
    exact path
  exact ⟨_, (enter.trans write).trans leave⟩

/-- Several iterations in a row. -/
theorem Alone.rounds (turns : Turns protocol good next) (writer : role tid = .writer)
    (allowed : good writable) (count : Nat) (early : count ≤ 77) :
    ∃ emitted, good (next^[count] writable) ∧ Alone protocol grain role tid pcs
      (still true writable 'a'.toUInt8 0) .testFlag emitted
      (still true (next^[count] writable) (letterAt count) (Int32.ofNat (count / 26)))
      .testFlag := by
  induction count with
  | zero => exact ⟨[], allowed, .refl⟩
  | succ count ih =>
    obtain ⟨shown, between, before⟩ := ih (by omega)
    obtain ⟨emitted, last⟩ := Alone.round turns writer between count (by omega)
    rw [Function.iterate_succ_apply']
    exact ⟨shown ++ emitted, turns.keeps _ between, before.trans last⟩

end OsLabs.Lab04
