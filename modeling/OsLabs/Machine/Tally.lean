import Mathlib.Algebra.BigOperators.Group.Finset.Piecewise

/-! Counting the members of a finite family of processes that are at given
points of their program, as one of them moves. -/

namespace OsLabs

universe u v

variable {Index : Type u} {Value : Type v} [Fintype Index]

/-- How many members of the family `counts` selects. -/
def tally (counts : Index → Value → Bool) (family : Index → Value) : Nat :=
  (Finset.univ.filter fun index => counts index (family index) = true).card

theorem tally_eq_sum (counts : Index → Value → Bool) (family : Index → Value) :
    tally counts family = ∑ index, (counts index (family index)).toNat := by
  rw [tally, Finset.card_filter]
  apply Finset.sum_congr rfl
  intro index _
  cases counts index (family index) <;> rfl

/-- One member moves: its old contribution leaves the count, its new one joins. -/
theorem tally_update [DecidableEq Index] (counts : Index → Value → Bool) (family : Index → Value)
    (index : Index) (value : Value) :
    tally counts (Function.update family index value) + (counts index (family index)).toNat =
      tally counts family + (counts index value).toNat := by
  have others : ∀ other ∈ ({index} : Finset Index)ᶜ,
      (counts other (Function.update family index value other)).toNat =
        (counts other (family other)).toNat := by
    intro other member
    have different : other ≠ index := by simpa using member
    rw [Function.update_of_ne different]
  simp only [tally_eq_sum, Fintype.sum_eq_add_sum_compl index, Finset.sum_congr rfl others,
    Function.update_self]
  omega

theorem tally_eq_zero {counts : Index → Value → Bool} {family : Index → Value} :
    tally counts family = 0 ↔ ∀ index, counts index (family index) = false := by
  simp [tally, Finset.card_eq_zero, Finset.filter_eq_empty_iff]

theorem tally_pos {counts : Index → Value → Bool} {family : Index → Value} (index : Index)
    (selected : counts index (family index) = true) : 0 < tally counts family := by
  by_contra absent
  have unselected := tally_eq_zero.mp (by omega : tally counts family = 0) index
  rw [unselected] at selected
  cases selected

theorem tally_le {fewer more : Index → Value → Bool} {family : Index → Value}
    (included : ∀ index, fewer index (family index) = true → more index (family index) = true) :
    tally fewer family ≤ tally more family := by
  apply Finset.card_le_card
  intro index member
  simp only [Finset.mem_filter, Finset.mem_univ, true_and] at member ⊢
  exact included index member

theorem tally_lt {fewer more : Index → Value → Bool} {family : Index → Value}
    (included : ∀ index, fewer index (family index) = true → more index (family index) = true)
    (extra : more index (family index) = true) (missing : fewer index (family index) = false) :
    tally fewer family < tally more family := by
  apply Finset.card_lt_card
  refine ⟨fun other member => ?_, fun same => ?_⟩
  · simp only [Finset.mem_filter, Finset.mem_univ, true_and] at member ⊢
    exact included other member
  · have member := same (by simpa using extra)
    simp [missing] at member

theorem exists_of_tally_pos {counts : Index → Value → Bool} {family : Index → Value}
    (positive : 0 < tally counts family) : ∃ index, counts index (family index) = true := by
  by_contra absent
  have none : tally counts family = 0 :=
    tally_eq_zero.mpr fun index => Bool.eq_false_iff.mpr fun selected => absent ⟨index, selected⟩
  omega

/-- At most one selected member means that any two of them are the same. -/
theorem eq_of_tally_le_one {counts : Index → Value → Bool} {family : Index → Value}
    (bound : tally counts family ≤ 1) (first : counts left (family left) = true)
    (second : counts right (family right) = true) : left = right :=
  Finset.card_le_one.mp bound left (by simpa using first) right (by simpa using second)

end OsLabs
