import OsLabs.Machine.Run
import Mathlib.Logic.Function.Basic

/-! A file that processes create exclusively and lock as a whole. The file
survives the processes; a record lock is dropped when its owner dies. -/

namespace OsLabs

universe u

/-- `content` is `none` as long as the file does not exist. -/
structure LockFile (Pid : Type u) where
  content : Option (List UInt8)
  owner : Option Pid

namespace LockFile

variable {Pid : Type u}

/-- `open` with O_CREAT | O_EXCL; `none` when it fails with EEXIST, its only failure here. -/
def create (file : LockFile Pid) : Option (LockFile Pid) :=
  match file.content with
  | none => some { file with content := some [] }
  | some _ => none

/-- `ftruncate(fd, 0)`. -/
def truncate (file : LockFile Pid) : LockFile Pid := { file with content := some [] }

/-- `write` at the offset 0 of a descriptor that has just been opened. -/
def write (file : LockFile Pid) (bytes : List UInt8) : LockFile Pid :=
  { file with content := file.content.map fun old => bytes ++ old.drop bytes.length }

variable [DecidableEq Pid]

/-- `fcntl(fd, F_SETLK)` with a write lock on the whole file; `none` when another
process has it locked. -/
def setLock (file : LockFile Pid) (pid : Pid) : Option (LockFile Pid) :=
  match file.owner with
  | none => some { file with owner := some pid }
  | some other => if other = pid then some file else none

/-- What the death of a process does to its lock. -/
def drop (file : LockFile Pid) (pid : Pid) : LockFile Pid :=
  if file.owner = some pid then { file with owner := none } else file

variable {file after : LockFile Pid} {pid : Pid}

omit [DecidableEq Pid] in
theorem create_eq_none_iff : file.create = none ↔ file.content ≠ none := by
  cases content : file.content <;> simp [create, content]

omit [DecidableEq Pid] in
theorem create_eq_some (created : file.create = some after) :
    file.content = none ∧ after.content ≠ none ∧ after.owner = file.owner := by
  cases content : file.content with
  | none =>
    obtain rfl : { file with content := some [] } = after := by
      simpa [create, content] using created
    exact ⟨rfl, by simp, rfl⟩
  | some old => simp [create, content] at created

/-- A process is refused a lock only while another one has it. -/
theorem setLock_eq_none (refused : file.setLock pid = none) :
    ∃ other, file.owner = some other ∧ other ≠ pid := by
  cases owner : file.owner with
  | none => simp [setLock, owner] at refused
  | some other => exact ⟨other, rfl, by simpa [setLock, owner] using refused⟩

theorem setLock_eq_some (granted : file.setLock pid = some after) :
    after.content = file.content ∧ after.owner = some pid := by
  cases owner : file.owner with
  | none =>
    obtain rfl : { file with owner := some pid } = after := by
      simpa [setLock, owner] using granted
    exact ⟨rfl, rfl⟩
  | some other =>
    obtain ⟨rfl, rfl⟩ : other = pid ∧ file = after := by simpa [setLock, owner] using granted
    exact ⟨rfl, owner⟩

@[simp] theorem drop_content : (file.drop pid).content = file.content := by
  unfold drop
  split <;> rfl

theorem drop_owner :
    (file.drop pid).owner = if file.owner = some pid then none else file.owner := by
  unfold drop
  split <;> rfl

theorem owner_of_drop (held : (file.drop pid).owner = some other) : file.owner = some other := by
  unfold drop at held
  split at held
  · cases held
  · exact held

end LockFile

end OsLabs
