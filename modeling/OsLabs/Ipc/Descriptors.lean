import Mathlib.Data.List.Basic

/-! The descriptor table of a process. A descriptor is an index of the table; `open`
and `dup` take the lowest one that is free. -/

namespace OsLabs

universe u

/-- `none` at a descriptor that is not open; those behind the list are not open
either, so that finitely many are. -/
structure Descriptors (File : Type u) where
  entries : List (Option File)
deriving DecidableEq

namespace Descriptors

variable {File : Type u}

/-- What a descriptor refers to. -/
def file (table : Descriptors File) (fd : Nat) : Option File := (table.entries[fd]?).join

/-- `close(fd)`; nothing happens when it fails with EBADF. -/
def close (table : Descriptors File) (fd : Nat) : Descriptors File :=
  ⟨table.entries.set fd none⟩

/-- The lowest descriptor that is not open. -/
def lowest (table : Descriptors File) : Nat := table.entries.findIdx Option.isNone

/-- The lowest free descriptor refers to a file from now on. -/
def install (table : Descriptors File) (file : File) : Nat × Descriptors File :=
  (table.lowest,
    if table.lowest < table.entries.length then ⟨table.entries.set table.lowest (some file)⟩
    else ⟨table.entries ++ [some file]⟩)

/-- `dup(fd)`; -1 when it fails with EBADF. -/
def dup (table : Descriptors File) (fd : Nat) : Int × Descriptors File :=
  match table.file fd with
  | some file => ((table.install file).1, (table.install file).2)
  | none => (-1, table)

/-- `close` for every descriptor below a bound. -/
def closeBelow (table : Descriptors File) : Nat → Descriptors File
  | 0 => table
  | bound + 1 => (table.closeBelow bound).close bound

variable {table : Descriptors File}

theorem file_close (table : Descriptors File) (fd other : Nat) :
    (table.close fd).file other = if other = fd then none else table.file other := by
  unfold file close
  rw [List.getElem?_set]
  by_cases same : fd = other
  · subst same
    by_cases inside : fd < table.entries.length
    · simp [inside]
    · simp [inside]
  · simp [same, Ne.symm same]

theorem file_closeBelow (table : Descriptors File) (bound fd : Nat) :
    (table.closeBelow bound).file fd = if fd < bound then none else table.file fd := by
  induction bound with
  | zero => rfl
  | succ bound ih =>
    rw [closeBelow, file_close, ih]
    by_cases last : fd = bound
    · simp [last]
    · by_cases below : fd < bound
      · simp [below, Nat.lt_succ_of_lt below]
      · have beyond : ¬ fd < bound + 1 := by omega
        simp [last, below, beyond]

theorem lowest_le (table : Descriptors File) : table.lowest ≤ table.entries.length :=
  List.findIdx_le_length

theorem file_lowest (table : Descriptors File) : table.file table.lowest = none := by
  unfold file
  by_cases inside : table.lowest < table.entries.length
  · have free : table.entries[table.lowest].isNone = true := List.findIdx_getElem
    rw [List.getElem?_eq_getElem inside, Option.join_some]
    exact Option.isNone_iff_eq_none.mp free
  · rw [List.getElem?_eq_none (Nat.le_of_not_lt inside)]
    rfl

/-- Every descriptor below the lowest free one is open. -/
theorem file_of_lt_lowest (below : fd < table.lowest) : table.file fd ≠ none := by
  have inside : fd < table.entries.length := Nat.lt_of_lt_of_le below table.lowest_le
  have taken : table.entries[fd].isNone = false := by
    simpa using List.not_of_lt_findIdx below
  intro free
  rw [file, List.getElem?_eq_getElem inside, Option.join_some] at free
  rw [free] at taken
  exact Bool.noConfusion taken

/-- The lowest-free-descriptor rule. -/
theorem lowest_eq_iff :
    table.lowest = fd ↔ table.file fd = none ∧ ∀ lower, lower < fd → table.file lower ≠ none := by
  constructor
  · rintro rfl
    exact ⟨table.file_lowest, fun lower below => file_of_lt_lowest below⟩
  · rintro ⟨free, taken⟩
    rcases Nat.lt_trichotomy table.lowest fd with less | same | more
    · exact absurd table.file_lowest (taken _ less)
    · exact same
    · exact absurd free (file_of_lt_lowest more)

theorem file_install (table : Descriptors File) (file : File) (fd : Nat) :
    (table.install file).2.file fd = if fd = table.lowest then some file else table.file fd := by
  unfold install
  by_cases inside : table.lowest < table.entries.length
  · simp only [inside, if_true]
    unfold Descriptors.file
    rw [List.getElem?_set]
    by_cases same : table.lowest = fd
    · subst same
      simp [inside]
    · simp [same, Ne.symm same]
  · simp only [inside, if_false]
    have last : table.lowest = table.entries.length := by
      have bounded := table.lowest_le
      omega
    unfold Descriptors.file
    rcases Nat.lt_trichotomy fd table.entries.length with less | same | more
    · rw [List.getElem?_append_left less, if_neg (by omega)]
    · rw [List.getElem?_append_right (by omega), if_pos (by omega), same]
      simp
    · rw [List.getElem?_eq_none (by simp; omega), if_neg (by omega),
        List.getElem?_eq_none (by omega)]

end Descriptors

end OsLabs
