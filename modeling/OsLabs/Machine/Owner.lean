import OsLabs.Machine.Threads

/-! A mutex that records its owner, and the program points at which a thread has
it. -/

namespace OsLabs.Threads

universe u v

variable {Tid : Type u} {Pc : Type v} {locks : Pc → Bool} {owner : Option Tid} {pcs : Tid → Pc}

/-- The owner is the one thread that is at a point where it has the mutex. -/
def Owner (locks : Pc → Bool) (owner : Option Tid) (pcs : Tid → Pc) : Prop :=
  ∀ tid, locks (pcs tid) = true ↔ owner = some tid

theorem Owner.unique (owned : Owner locks owner pcs) (first : locks (pcs tid) = true)
    (second : locks (pcs other) = true) : tid = other :=
  Option.some.inj (((owned tid).mp first).symm.trans ((owned other).mp second))

theorem Owner.of_free (owned : Owner locks owner pcs) (free : owner = none) (other : Tid) :
    locks (pcs other) = false := by
  by_contra locked
  have held := (owned other).mp (by simpa using locked)
  rw [free] at held
  cases held

variable [DecidableEq Tid] {tid : Tid} {pc : Pc}

theorem Owner.keep (owned : Owner locks owner pcs) (same : locks pc = locks (pcs tid)) :
    Owner locks owner (Function.update pcs tid pc) := by
  intro other
  rw [update_flag locks same, owned]

theorem Owner.lock (owned : Owner locks owner pcs) (free : owner = none)
    (locked : locks pc = true) : Owner locks (some tid) (Function.update pcs tid pc) := by
  intro other
  by_cases equal : other = tid
  · subst equal
    simp [locked]
  · rw [Function.update_of_ne equal, owned.of_free free other]
    simp [Ne.symm equal]

theorem Owner.unlock (owned : Owner locks owner pcs) (before : locks (pcs tid) = true)
    (after : locks pc = false) : Owner locks none (Function.update pcs tid pc) := by
  intro other
  by_cases equal : other = tid
  · subst equal
    simp [after]
  · rw [Function.update_of_ne equal]
    simp only [reduceCtorEq, iff_false, Bool.not_eq_true]
    by_contra locked
    exact equal (owned.unique (by simpa using locked) before)

end OsLabs.Threads
