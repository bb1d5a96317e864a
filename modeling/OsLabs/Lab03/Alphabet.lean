import Mathlib.Data.List.Range
import Mathlib.Data.Nat.Notation

/-! The letters that the programs of this lab pass around. A C `char` is a
byte here; the programs only compute with 'a' up to 'z' + 1. -/

namespace OsLabs.Lab03

/-- The letter with a given number, counted from 'a' around the alphabet. -/
def letterAt (number : Nat) : UInt8 := 'a'.toUInt8 + UInt8.ofNat (number % 26)

private theorem residue_last : ∀ residue : Fin 26,
    'a'.toUInt8 + UInt8.ofNat residue = 'z'.toUInt8 ↔ residue.val = 25 := by
  decide

theorem letterAt_eq_last_iff (number : Nat) : letterAt number = 'z'.toUInt8 ↔ number % 26 = 25 :=
  residue_last ⟨number % 26, Nat.mod_lt _ (by decide)⟩

private theorem letterAt_last_iff (number : Nat) :
    letterAt number + 1 = 'z'.toUInt8 + 1 ↔ number % 26 = 25 := by
  rw [UInt8.add_left_inj, letterAt_eq_last_iff]

/-- Past 'z' the alphabet starts again. -/
theorem letterAt_wrap (last : letterAt number + 1 = 'z'.toUInt8 + 1) :
    letterAt (number + 1) = 'a'.toUInt8 := by
  have residue := (letterAt_last_iff number).mp last
  have next : (number + 1) % 26 = 0 := by omega
  rw [letterAt, next]
  rfl

theorem letterAt_succ (inner : letterAt number + 1 ≠ 'z'.toUInt8 + 1) :
    letterAt (number + 1) = letterAt number + 1 := by
  have residue := (letterAt_last_iff number).not.mp inner
  have next : (number + 1) % 26 = number % 26 + 1 := by omega
  rw [letterAt, letterAt, next, UInt8.ofNat_add, UInt8.add_assoc]
  rfl

end OsLabs.Lab03
