import Mathlib.Data.List.Basic
import Mathlib.Logic.Function.Basic

/-! Counting semaphores of the operating system: System V sets, whose
operation arrays are applied as a whole or not at all, and single POSIX
semaphores. -/

namespace OsLabs

universe u

/-- Largest value of a System V semaphore. -/
def SEMVMX : Nat := 32767

/-- Largest value of a POSIX semaphore. -/
def SEM_VALUE_MAX : Nat := 2147483647

/-- A `struct sembuf` with flags 0: the caller waits, and nothing is undone
when it exits. -/
structure SemBuf (Index : Type u) where
  num : Index
  op : Int

/-- `blocks` and `erange` leave every semaphore of the set as it was. -/
inductive Outcome (Index : Type u) where
  | done (values : Index → Nat)
  | blocks
  | erange

variable {Index : Type u} [DecidableEq Index]

/-- One operation of an array. A negative one waits until it can be
subtracted, zero waits for zero, a positive one never waits. -/
def SemBuf.apply (buf : SemBuf Index) (values : Index → Nat) : Outcome Index :=
  if buf.op < 0 then
    if (values buf.num : Int) + buf.op < 0 then .blocks
    else .done (Function.update values buf.num ((values buf.num : Int) + buf.op).toNat)
  else if buf.op = 0 then
    if values buf.num = 0 then .done values else .blocks
  else if (SEMVMX : Int) < values buf.num + buf.op then .erange
  else .done (Function.update values buf.num ((values buf.num : Int) + buf.op).toNat)

/-- `semop(2)`: the operations in array order, all or nothing. -/
def semop : List (SemBuf Index) → (Index → Nat) → Outcome Index
  | [], values => .done values
  | buf :: rest, values =>
    match buf.apply values with
    | .done changed => semop rest changed
    | .blocks => .blocks
    | .erange => .erange

theorem SemBuf.apply_wait (num : Index) (values : Index → Nat) :
    SemBuf.apply ⟨num, -1⟩ values =
      if values num = 0 then .blocks
      else .done (Function.update values num (values num - 1)) := by
  simp only [SemBuf.apply, Int.reduceNeg, Int.reduceLT, ↓reduceIte]
  by_cases empty : values num = 0
  · simp [empty]
  · have enough : ¬ (values num : Int) + -1 < 0 := by omega
    have less : ((values num : Int) + -1).toNat = values num - 1 := by omega
    simp [empty, enough, less]

theorem SemBuf.apply_zero (num : Index) (values : Index → Nat) :
    SemBuf.apply ⟨num, 0⟩ values = if values num = 0 then .done values else .blocks := by
  simp [SemBuf.apply]

theorem SemBuf.apply_post (num : Index) (values : Index → Nat) :
    SemBuf.apply ⟨num, 1⟩ values =
      if values num < SEMVMX then .done (Function.update values num (values num + 1))
      else .erange := by
  simp only [SemBuf.apply, Int.reduceLT, ↓reduceIte, Int.reduceEq]
  by_cases room : values num < SEMVMX
  · have fits : ¬ (SEMVMX : Int) < values num + 1 := by omega
    have more : ((values num : Int) + 1).toNat = values num + 1 := by omega
    simp [room, fits, more]
  · have above : (SEMVMX : Int) < values num + 1 := by omega
    simp [room, above]

/-- `sem_wait(3)`; `none` while it blocks. -/
def semWait (value : Nat) : Option Nat :=
  if value = 0 then none else some (value - 1)

/-- `sem_post(3)`; `none` when it fails with EOVERFLOW. -/
def semPost (value : Nat) : Option Nat :=
  if value < SEM_VALUE_MAX then some (value + 1) else none

end OsLabs
