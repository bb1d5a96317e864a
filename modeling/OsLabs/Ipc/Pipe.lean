import Mathlib.Algebra.Ring.Nat
import Mathlib.Data.List.Basic

/-! A pipe as a stream of bytes, which is cut by the lengths of the reads and not at
the borders of the writes. -/

namespace OsLabs.Pipe

universe u

variable {Byte : Type u}

/-- What reads of these lengths return, when no write end is left open. -/
def cut : List Nat → List Byte → List (List Byte)
  | [], _ => []
  | count :: counts, content => content.take count :: cut counts (content.drop count)

theorem length_cut (counts : List Nat) (content : List Byte) :
    (cut counts content).length = counts.length := by
  induction counts generalizing content with
  | nil => rfl
  | cons count counts ih => rw [cut, List.length_cons, ih, List.length_cons]

/-- One read after the others. -/
theorem cut_append (counts more : List Nat) (content : List Byte) :
    cut (counts ++ more) content = cut counts content ++ cut more (content.drop counts.sum) := by
  induction counts generalizing content with
  | nil => simp [cut]
  | cons count counts ih =>
    rw [List.cons_append, cut, cut, ih, List.drop_drop, List.sum_cons, List.cons_append]

/-- Reads of the lengths of the messages return the messages, in the order in which
these have been written. -/
theorem cut_flatten (messages : List (List Byte)) :
    cut (messages.map List.length) messages.flatten = messages := by
  induction messages with
  | nil => rfl
  | cons message rest ih =>
    rw [List.map_cons, List.flatten_cons, cut, List.take_left, List.drop_left, ih]

/-- No byte is lost or read twice. -/
theorem flatten_cut (counts : List Nat) (content : List Byte) :
    (cut counts content).flatten = content.take counts.sum := by
  induction counts generalizing content with
  | nil => simp [cut]
  | cons count counts ih =>
    rw [cut, List.flatten_cons, ih, List.sum_cons, List.take_add]

/-- Nothing is read from an empty pipe. -/
theorem cut_nil (counts : List Nat) :
    cut counts ([] : List Byte) = List.replicate counts.length [] := by
  induction counts with
  | nil => rfl
  | cons count counts ih =>
    rw [cut, List.take_nil, List.drop_nil, ih, List.length_cons, List.replicate_succ]

end OsLabs.Pipe
