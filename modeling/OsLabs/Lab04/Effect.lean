import OsLabs.Lab04.WriterReader

/-! What one step of a thread does. The invariants are proved from this, so that
none of them has to unfold the step. -/

namespace OsLabs.Lab04

variable {Tid : Type}

inductive Effect (protocol : Protocol) (grain : Grain) (role : Tid → Role) (tid : Tid)
    (shared : Shared Tid) : Pc → Shared Tid → Pc → List (Output Tid) → Prop where
  | enterRead (own : role tid = .reader) (unset : shared.flag = 0) :
    Effect protocol grain role tid shared .testFlag shared (.bump .enterRead) []
  | enterWrite (own : role tid = .writer) (unset : shared.flag = 0) :
    Effect protocol grain role tid shared .testFlag shared (.bump .enterWrite) []
  | leave (own : role tid ≠ .console) (set : shared.flag ≠ 0) :
    Effect protocol grain role tid shared .testFlag shared .returned []
  | handle (own : role tid = .console) (raised : shared.raised = true)
      (caught : protocol.catchesBreak = true) :
    Effect protocol grain role tid shared .testFlag { shared with flag := 1 } .returned []
  | load (place : Bump) (split : grain.counter place.counter = true) :
    Effect protocol grain role tid shared (.bump place) shared
      (.store place (place.change (shared.count place.counter))) []
  | bump (place : Bump) (whole : grain.counter place.counter = false) :
    Effect protocol grain role tid shared (.bump place)
      (shared.withCount place.counter (place.change (shared.count place.counter))) place.next []
  | store (place : Bump) (value : Int32) :
    Effect protocol grain role tid shared (.store place value)
      (shared.withCount place.counter value) place.next []
  | writers (some : shared.count .writeCnt ≠ 0) :
    Effect protocol grain role tid shared .testWriteCnt shared .waitCanRead []
  | noWriters (none : shared.count .writeCnt = 0) :
    Effect protocol grain role tid shared .testWriteCnt shared .pollCanWrite []
  | readerWaits (waits : protocol.readerWaits (shared.event .canWrite).poll.2 = true) :
    Effect protocol grain role tid shared .pollCanWrite
      (shared.withEvent .canWrite (shared.event .canWrite).poll.1) .waitCanRead []
  | readerPasses (passes : protocol.readerWaits (shared.event .canWrite).poll.2 = false) :
    Effect protocol grain role tid shared .pollCanWrite
      (shared.withEvent .canWrite (shared.event .canWrite).poll.1) .setCanRead []
  | waitCanRead (passed : (shared.event .canRead).wait = some event) :
    Effect protocol grain role tid shared .waitCanRead (shared.withEvent .canRead event)
      .setCanRead []
  | setCanRead :
    Effect protocol grain role tid shared .setCanRead
      (shared.withEvent .canRead (shared.event .canRead).set) .waitMutex []
  | waitMutex (free : shared.bmutex = none)
      (next : place = if protocol.countsReaders then .countReader else .leaveReadQueue) :
    Effect protocol grain role tid shared .waitMutex { shared with bmutex := some tid }
      (.bump place) []
  | releaseMutex :
    Effect protocol grain role tid shared .releaseMutex { shared with bmutex := none }
      .printReader []
  | printCounted (counts : protocol.countsReaders = true) :
    Effect protocol grain role tid shared .printReader shared (.bump .uncountReader)
      [.printed tid shared.symbol]
  | printUncounted (uncounted : protocol.countsReaders = false) :
    Effect protocol grain role tid shared .printReader shared .setAfterRead
      [.printed tid shared.symbol]
  | setAfterRead :
    Effect protocol grain role tid shared .setAfterRead
      (shared.withEvent protocol.afterRead (shared.event protocol.afterRead).set) .testFlag []
  | writerWaits (waits : protocol.writerWaits (shared.event .canRead).poll.2 = true) :
    Effect protocol grain role tid shared .pollCanRead
      (shared.withEvent .canRead (shared.event .canRead).poll.1) .waitCanWrite []
  | writerPasses (passes : protocol.writerWaits (shared.event .canRead).poll.2 = false) :
    Effect protocol grain role tid shared .pollCanRead
      (shared.withEvent .canRead (shared.event .canRead).poll.1) (.bump .leaveWriteQueue) []
  | waitCanWrite (passed : (shared.event .canWrite).wait = some event) :
    Effect protocol grain role tid shared .waitCanWrite (shared.withEvent .canWrite event)
      (.bump .leaveWriteQueue) []
  | lastLetter (last : shared.symbol = 'z'.toUInt8) :
    Effect protocol grain role tid shared .testSymbol shared (.bump .countRound) []
  | innerLetter (inner : shared.symbol ≠ 'z'.toUInt8) :
    Effect protocol grain role tid shared .testSymbol shared .bumpSymbol []
  | resetSymbol :
    Effect protocol grain role tid shared .resetSymbol { shared with symbol := 'a'.toUInt8 }
      .testCnt [.stored tid 'a'.toUInt8]
  | lastRound (last : 3 ≤ shared.count .cnt) :
    Effect protocol grain role tid shared .testCnt shared .generateBreak []
  | earlyRound (early : shared.count .cnt < 3) :
    Effect protocol grain role tid shared .testCnt shared .printWriter []
  | generateBreak :
    Effect protocol grain role tid shared .generateBreak { shared with raised := true }
      .returned []
  | loadSymbol (split : grain.symbol = true) :
    Effect protocol grain role tid shared .bumpSymbol shared (.storeSymbol (shared.symbol + 1)) []
  | bumpSymbol (whole : grain.symbol = false) :
    Effect protocol grain role tid shared .bumpSymbol
      { shared with symbol := shared.symbol + 1 } .printWriter [.stored tid (shared.symbol + 1)]
  | storeSymbol (value : UInt8) :
    Effect protocol grain role tid shared (.storeSymbol value) { shared with symbol := value }
      .printWriter [.stored tid value]
  | printWriter :
    Effect protocol grain role tid shared .printWriter shared .resetAfterWrite
      [.printed tid shared.symbol]
  | resetAfterWrite :
    Effect protocol grain role tid shared .resetAfterWrite
      (shared.withEvent protocol.afterWrite (shared.event protocol.afterWrite).reset)
      .testMoreWriters []
  | more (waiting : 0 < shared.count .writeCnt) :
    Effect protocol grain role tid shared .testMoreWriters shared .setMoreWriters []
  | noMore (none : shared.count .writeCnt ≤ 0) :
    Effect protocol grain role tid shared .testMoreWriters shared .setNoWriters []
  | setMoreWriters :
    Effect protocol grain role tid shared .setMoreWriters
      (shared.withEvent protocol.moreWriters (shared.event protocol.moreWriters).set) .testFlag []
  | setNoWriters :
    Effect protocol grain role tid shared .setNoWriters
      (shared.withEvent protocol.noWriters (shared.event protocol.noWriters).set) .testFlag []

variable {protocol : Protocol} {grain : Grain} {role : Tid → Role} {tid : Tid}
variable {shared shared' : Shared Tid} {pc pc' : Pc} {emitted : List (Output Tid)}

theorem step_effect
    (stepped : step protocol grain role tid shared pc = some (shared', pc', emitted)) :
    Effect protocol grain role tid shared pc shared' pc' emitted := by
  cases pc with
  | testFlag =>
    simp only [step] at stepped
    cases own : role tid with
    | console =>
      simp only [own, Option.ite_none_right_eq_some, Option.some.injEq, Prod.mk.injEq,
        Bool.and_eq_true] at stepped
      obtain ⟨⟨raised, caught⟩, rfl, rfl, rfl⟩ := stepped
      exact .handle own raised caught
    | reader | writer =>
      simp only [own, Option.some.injEq, Prod.mk.injEq] at stepped
      obtain ⟨rfl, rfl, rfl⟩ := stepped
      split
      · first | exact .enterRead own ‹_› | exact .enterWrite own ‹_›
      · exact .leave (by rw [own]; exact Role.noConfusion) ‹_›
  | bump place =>
    simp only [step] at stepped
    split at stepped <;> obtain ⟨rfl, rfl, rfl⟩ : _ ∧ _ ∧ _ := by simpa using stepped
    · exact .load place ‹_›
    · exact .bump place (Bool.eq_false_iff.mpr ‹_›)
  | waitCanRead | waitCanWrite =>
    simp only [step, Option.map_eq_some_iff, Prod.mk.injEq] at stepped
    obtain ⟨_, passed, rfl, rfl, rfl⟩ := stepped
    constructor
    exact passed
  | waitMutex =>
    simp only [step] at stepped
    split at stepped
    · obtain ⟨rfl, rfl, rfl⟩ : _ ∧ _ ∧ _ := by simpa using stepped
      exact .waitMutex ‹_› rfl
    · cases stepped
  | bumpSymbol =>
    simp only [step] at stepped
    split at stepped <;> obtain ⟨rfl, rfl, rfl⟩ : _ ∧ _ ∧ _ := by simpa using stepped
    · exact .loadSymbol ‹_›
    · exact .bumpSymbol (Bool.eq_false_iff.mpr ‹_›)
  | testWriteCnt =>
    simp only [step, Option.some.injEq, Prod.mk.injEq] at stepped
    obtain ⟨rfl, rfl, rfl⟩ := stepped
    split
    · exact .writers ‹_›
    · exact .noWriters (not_not.mp ‹_›)
  | pollCanWrite =>
    simp only [step, Option.some.injEq, Prod.mk.injEq] at stepped
    obtain ⟨rfl, rfl, rfl⟩ := stepped
    split
    · exact .readerWaits ‹_›
    · exact .readerPasses (Bool.eq_false_iff.mpr ‹_›)
  | printReader =>
    simp only [step, Option.some.injEq, Prod.mk.injEq] at stepped
    obtain ⟨rfl, rfl, rfl⟩ := stepped
    split
    · exact .printCounted ‹_›
    · exact .printUncounted (Bool.eq_false_iff.mpr ‹_›)
  | pollCanRead =>
    simp only [step, Option.some.injEq, Prod.mk.injEq] at stepped
    obtain ⟨rfl, rfl, rfl⟩ := stepped
    split
    · exact .writerWaits ‹_›
    · exact .writerPasses (Bool.eq_false_iff.mpr ‹_›)
  | testSymbol =>
    simp only [step, Option.some.injEq, Prod.mk.injEq] at stepped
    obtain ⟨rfl, rfl, rfl⟩ := stepped
    split
    · exact .lastLetter ‹_›
    · exact .innerLetter ‹_›
  | testCnt =>
    simp only [step, Option.some.injEq, Prod.mk.injEq] at stepped
    obtain ⟨rfl, rfl, rfl⟩ := stepped
    split
    · exact .lastRound ‹_›
    · exact .earlyRound (Int32.not_le.mp ‹_›)
  | testMoreWriters =>
    simp only [step, Option.some.injEq, Prod.mk.injEq] at stepped
    obtain ⟨rfl, rfl, rfl⟩ := stepped
    split
    · exact .more ‹_›
    · exact .noMore (Int32.not_lt.mp ‹_›)
  | store place value | setCanRead | releaseMutex | setAfterRead | resetSymbol | generateBreak
  | storeSymbol value | printWriter | resetAfterWrite | setMoreWriters | setNoWriters =>
    simp only [step, Option.some.injEq, Prod.mk.injEq] at stepped
    obtain ⟨rfl, rfl, rfl⟩ := stepped
    constructor
  | returned => cases stepped

/-- A thread stays in the function that it runs. -/
theorem step_role (fits : ∀ own, pc.role? = some own → role tid = own)
    (stepped : step protocol grain role tid shared pc = some (shared', pc', emitted)) :
    ∀ own, pc'.role? = some own → role tid = own := by
  cases step_effect stepped with
  | enterRead own | enterWrite own =>
    rintro _ ⟨⟩
    exact own
  | leave | handle | setAfterRead | generateBreak | setMoreWriters | setNoWriters =>
    rintro _ ⟨⟩
  | bump place | store place =>
    rw [Bump.role?_next]
    exact fits
  | waitMutex _ next =>
    rw [next]
    split <;> exact fits
  | _ => exact fits

variable [DecidableEq Tid]

/-- Every thread is in the function that it was created for. -/
theorem role_of_run {allowed : Threads.State Tid (Shared Tid) Pc → Tid → Prop}
    (run : (threads protocol grain role).machine.Run allowed actions events state) (tid : Tid)
    (own : Role) (inside : (state.pcs tid).role? = some own) : role tid = own := by
  refine Threads.invariant (fun _ _ pcs => ∀ tid own, (pcs tid).role? = some own →
    role tid = own) (fun _ _ inside => by cases inside) ?_ run tid own inside
  intro events shared pcs tid shared' pc emitted fits _ stepped
  exact (Function.forall_update_iff pcs (fun tid pc => ∀ own, pc.role? = some own →
    role tid = own)).mpr ⟨step_role (fits tid) stepped, fun other _ => fits other⟩

end OsLabs.Lab04
