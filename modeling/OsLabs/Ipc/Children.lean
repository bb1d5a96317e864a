import Mathlib.Data.List.Basic

/-! The children of one process, as the system keeps them: a child that has
terminated stays, with its status, until it is waited for. -/

namespace OsLabs

universe u v

/-- `none` is a child that has not terminated yet. -/
structure Children (Pid : Type u) (Status : Type v) where
  entries : List (Pid × Option Status)
deriving DecidableEq

namespace Children

variable {Pid : Type u} {Status : Type v} [DecidableEq Pid]

def lookup (children : Children Pid Status) (pid : Pid) : Option (Option Status) :=
  children.entries.lookup pid

/-- A new child, which has not terminated. -/
def fork (children : Children Pid Status) (pid : Pid) : Children Pid Status :=
  ⟨(pid, none) :: children.entries⟩

/-- The child terminates, and becomes a zombie. -/
def terminate (children : Children Pid Status) (pid : Pid) (status : Status) :
    Children Pid Status :=
  ⟨children.entries.map fun entry => if entry.1 = pid then (pid, some status) else entry⟩

/-- The child has been waited for. -/
def reap (children : Children Pid Status) (pid : Pid) : Children Pid Status :=
  ⟨children.entries.filter fun entry => entry.1 ≠ pid⟩

/-- Every child is a zombie. -/
def AllTerminated (children : Children Pid Status) : Prop :=
  ∀ entry ∈ children.entries, entry.2 ≠ none

variable {children : Children Pid Status}

@[simp] theorem lookup_nil (pid : Pid) :
    (⟨[]⟩ : Children Pid Status).lookup pid = none := rfl

theorem lookup_cons (pid other : Pid) (child : Option Status) (rest : List (Pid × Option Status)) :
    (⟨(pid, child) :: rest⟩ : Children Pid Status).lookup other =
      if other = pid then some child else lookup ⟨rest⟩ other := by
  unfold lookup
  rw [List.lookup_cons]
  by_cases same : other = pid
  · rw [if_pos same, beq_iff_eq.mpr same]
  · rw [if_neg same, beq_eq_false_iff_ne.mpr same]

theorem lookup_fork (children : Children Pid Status) (pid other : Pid) :
    (children.fork pid).lookup other = if other = pid then some none else children.lookup other :=
  lookup_cons pid other none children.entries

theorem lookup_terminate (children : Children Pid Status) (pid other : Pid) (status : Status) :
    (children.terminate pid status).lookup other =
      if other = pid then (children.lookup pid).map fun _ => some status
      else children.lookup other := by
  obtain ⟨entries⟩ := children
  unfold terminate
  induction entries with
  | nil => simp
  | cons entry entries ih =>
    obtain ⟨key, child⟩ := entry
    by_cases here : key = pid
    · simp only [List.map_cons, here, if_true, lookup_cons, ih]
      by_cases same : other = pid <;> simp [same]
    · simp only [List.map_cons, here, if_false, lookup_cons, ih]
      by_cases same : other = pid
      · simp [same, Ne.symm here]
      · simp [same]

theorem lookup_reap (children : Children Pid Status) (pid other : Pid) :
    (children.reap pid).lookup other = if other = pid then none else children.lookup other := by
  obtain ⟨entries⟩ := children
  unfold reap
  induction entries with
  | nil => simp
  | cons entry entries ih =>
    obtain ⟨key, child⟩ := entry
    by_cases here : key = pid
    · rw [List.filter_cons_of_neg (by simpa using here), ih, lookup_cons, here]
      by_cases same : other = pid <;> simp [same]
    · rw [List.filter_cons_of_pos (by simpa using here), lookup_cons, lookup_cons, ih]
      by_cases found : other = key
      · simp [found, here]
      · simp [found]

/-- The child at the front is reaped. -/
theorem reap_length_lt (front : children.entries = (pid, child) :: rest) :
    (children.reap pid).entries.length < children.entries.length := by
  rw [reap, front, List.filter_cons_of_neg (by simp), List.length_cons]
  exact Nat.lt_succ_of_le (List.length_filter_le _ rest)

/-- Whoever is in the table can be reaped. -/
theorem reap_lt (known : children.lookup pid = some child) :
    (children.reap pid).entries.length < children.entries.length := by
  obtain ⟨entries⟩ := children
  rw [reap, List.length_filter_lt_length_iff_exists]
  obtain ⟨front, back, rfl, _⟩ := List.lookup_eq_some_iff.mp known
  exact ⟨(pid, child), by simp, by simp⟩

theorem AllTerminated.reap (terminated : children.AllTerminated) (pid : Pid) :
    (children.reap pid).AllTerminated :=
  fun entry member => terminated entry (List.mem_filter.mp member).1

/-- No child is left to wait for. -/
theorem lookup_of_entries_nil (empty : children.entries = []) (pid : Pid) :
    children.lookup pid = none := by
  rw [lookup, empty]
  rfl

end Children

end OsLabs
