import OsLabs.Machine.Run
import Mathlib.Data.Nat.Notation

/-! A register whose writes and reads are atomic, and whose successive contents
are a fixed stream. -/

namespace OsLabs.Register

universe u

inductive Action where
  | write
  | read

inductive Event (Item : Type u) where
  | wrote
  | read (item : Item)

def Event.isWrite {Item : Type u} : Event Item → Bool
  | .wrote => true
  | .read _ => false

variable {Item : Type u}

/-- The state counts the writes. -/
def machine (stream : Nat → Item) : Machine Nat Action (Event Item) where
  init := 0
  next
    | count, .write => some (count + 1, [.wrote])
    | count, .read => some (count, [.read (stream count)])

variable {stream : Nat → Item} {allowed : Nat → Action → Prop}

theorem count_eq (run : (machine stream).Run allowed actions events count) :
    count = events.countP Event.isWrite := by
  induction run with
  | start => rfl
  | @step actions events count action after emitted path permitted taken ih =>
    cases action with
    | write =>
      obtain ⟨rfl, rfl⟩ : count + 1 = after ∧ [.wrote] = emitted := by simpa [machine] using taken
      simp [Event.isWrite, ih]
    | read =>
      obtain ⟨rfl, rfl⟩ : count = after ∧ [.read (stream count)] = emitted := by
        simpa [machine] using taken
      simp [Event.isWrite, ih]

/-- A read returns what the last write before it has left. -/
theorem read_eq (run : (machine stream).Run allowed actions events count)
    (place : events = before ++ .read item :: behind) :
    item = stream (before.countP Event.isWrite) := by
  obtain ⟨past, seen, count, action, after, emitted, early, late, _, path, _, taken, shown, rfl,
    _⟩ := run.emission place
  have counted := count_eq path
  cases action with
  | write =>
    obtain ⟨_, rfl⟩ : count + 1 = after ∧ [.wrote] = emitted := by simpa [machine] using taken
    rcases early with _ | ⟨_, _ | _⟩ <;> simp at shown
  | read =>
    obtain ⟨_, rfl⟩ : count = after ∧ [.read (stream count)] = emitted := by
      simpa [machine] using taken
    rcases early with _ | ⟨first, rest⟩
    · obtain ⟨same, _⟩ := List.cons.inj shown
      cases same
      rw [List.append_nil, ← counted]
    · simp at shown

end OsLabs.Register
