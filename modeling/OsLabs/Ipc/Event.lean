import Mathlib.Tactic.TypeStar

/-! Event objects of the Win32 API. A wait on a signalled event returns at once
and resets it unless it is a manual-reset one; a wait with timeout 0 says whether
it was signalled. -/

namespace OsLabs

/-- The results of `WaitForSingleObject` on a valid handle. -/
inductive WaitResult where
  | WAIT_OBJECT_0
  | WAIT_TIMEOUT
deriving DecidableEq

/-- The `DWORD` that a C condition tests. -/
def WaitResult.code : WaitResult → UInt32
  | .WAIT_OBJECT_0 => 0
  | .WAIT_TIMEOUT => 258

/-- `CreateEvent(NULL, manualReset, signalled, NULL)`. -/
structure Event where
  manualReset : Bool
  signalled : Bool
deriving DecidableEq

namespace Event

/-- `WaitForSingleObject(event, INFINITE)`; `none` while it blocks. -/
def wait (event : Event) : Option Event :=
  if event.signalled then some { event with signalled := event.manualReset } else none

/-- `WaitForSingleObject(event, 0)`. -/
def poll (event : Event) : Event × WaitResult :=
  match event.wait with
  | some after => (after, .WAIT_OBJECT_0)
  | none => (event, .WAIT_TIMEOUT)

/-- `SetEvent(event)`. -/
def set (event : Event) : Event := { event with signalled := true }

/-- `ResetEvent(event)`. -/
def reset (event : Event) : Event := { event with signalled := false }

variable {event after : Event}

theorem wait_of_signalled (signalled : event.signalled = true) :
    event.wait = some { event with signalled := event.manualReset } := by
  rw [wait, if_pos signalled]

/-- A wait blocks exactly as long as the event is not signalled. -/
theorem wait_eq_none_iff : event.wait = none ↔ event.signalled = false := by
  simp [wait]

theorem wait_eq_some (passed : event.wait = some after) :
    event.signalled = true ∧ after = { event with signalled := event.manualReset } := by
  unfold wait at passed
  split at passed
  · exact ⟨‹_›, (Option.some.inj passed).symm⟩
  · cases passed

/-- The waits of others never take the signal of a manual-reset event. -/
theorem wait_of_manual (manual : event.manualReset = true) (passed : event.wait = some after) :
    after = event := by
  obtain ⟨signalled, rfl⟩ := wait_eq_some passed
  cases event
  cases manual
  cases signalled
  rfl

theorem poll_of_signalled (signalled : event.signalled = true) :
    event.poll = ({ event with signalled := event.manualReset }, .WAIT_OBJECT_0) := by
  rw [poll, wait_of_signalled signalled]

theorem poll_of_unsignalled (unsignalled : event.signalled = false) :
    event.poll = (event, .WAIT_TIMEOUT) := by
  rw [poll, wait_eq_none_iff.mpr unsignalled]

/-- A poll that does not return 0 has found no signal. -/
theorem unsignalled_of_poll (failed : (event.poll.2.code != 0) = true) :
    event.signalled = false := by
  cases signalled : event.signalled with
  | false => rfl
  | true =>
    rw [poll_of_signalled signalled] at failed
    cases failed

theorem poll_of_manual (manual : event.manualReset = true) : event.poll.1 = event := by
  cases passed : event.wait with
  | none => rw [poll, passed]
  | some after => rw [poll, passed, wait_of_manual manual passed]

end Event

end OsLabs
