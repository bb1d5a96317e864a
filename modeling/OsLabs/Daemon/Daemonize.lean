import OsLabs.Ipc.Descriptors

/-! `daemonize`, the same function in main.c and daemon.c: it closes the descriptors
below the hard limit, and opens /dev/null as 0, 1 and 2. -/

namespace OsLabs.Daemon.Daemonize

inductive File where
  | devNull
  | inherited (number : Nat)
deriving DecidableEq

/-- `rl.rlim_max` of RLIMIT_NOFILE. -/
inductive Limit where
  | infinity
  | finite (max : Nat)
deriving DecidableEq

inductive Fork where
  | failed
  | parent
  | child
deriving DecidableEq

/-- What the calls of `daemonize` do: `false` and `none` stand for failure. -/
structure Calls where
  umask : Bool
  getrlimit : Option Limit
  fork : Fork
  setsid : Bool
  sigaction : Bool
  chdir : Bool
  openNull : Bool
  dup1 : Bool
  dup2 : Bool

inductive Report where
  | perror (text : String)
  | syslog (text : String)
deriving DecidableEq

inductive Outcome where
  | exited (status : Int) (report : Option Report)
  | returned (table : Descriptors File)
deriving DecidableEq

/-- `exit(1)` after a call has failed. -/
def Outcome.failed (report : Report) : Outcome := .exited 1 (some report)

def INT_MAX : Nat := 2147483647

/-- What the loop closes. Its variable is an `int`, and so is a descriptor. -/
def Limit.bound : Limit → Nat
  | .infinity => 1024
  | .finite max => min max (INT_MAX + 1)

/-- `open("/dev/null", O_RDWR)`. -/
def openNull (success : Bool) (table : Descriptors File) : Int × Descriptors File :=
  if success then ((table.install .devNull).1, (table.install .devNull).2) else (-1, table)

/-- `dup(0)`. -/
def dup0 (success : Bool) (table : Descriptors File) : Int × Descriptors File :=
  if success then table.dup 0 else (-1, table)

/-- The calls of `open` and `dup`, and the three checks. -/
def reopen (calls : Calls) (table : Descriptors File) : Outcome :=
  let (fd0, table) := openNull calls.openNull table
  let (fd1, table) := dup0 calls.dup1 table
  let (fd2, table) := dup0 calls.dup2 table
  if fd0 ≠ 0 then .failed (.syslog "stdin")
  else if fd1 ≠ 1 then .failed (.syslog "stdout")
  else if fd2 ≠ 2 then .failed (.syslog "stderr")
  else .returned table

def daemonize (calls : Calls) (table : Descriptors File) : Outcome :=
  if calls.umask then
    match calls.getrlimit with
    | none => .failed (.perror "getrlimit")
    | some limit =>
      match calls.fork with
      | .failed => .failed (.perror "fork")
      | .parent => .exited 0 none
      | .child =>
        if calls.setsid then
          if calls.sigaction then
            if calls.chdir then reopen calls (table.closeBelow limit.bound)
            else .failed (.perror "chdir")
          else .failed (.perror "sigaction")
        else .failed (.perror "setsid")
  else .failed (.perror "umask")

/-- Descriptors 0, 1 and 2 are open, all on /dev/null, and no other one is. -/
def OnlyStandard (table : Descriptors File) : Prop :=
  ∀ fd, table.file fd = if fd < 3 then some .devNull else none

/-- Whatever the other calls do, as long as `open` and `dup` succeed: only 0, 1 and 2
are open when `daemonize` returns, and none of the last three checks is taken. -/
def LeavesStandard (limit : Limit) (table : Descriptors File) : Prop :=
  ∀ calls : Calls, calls.getrlimit = some limit →
    calls.openNull = true → calls.dup1 = true → calls.dup2 = true →
    (∀ left, daemonize calls table = .returned left → OnlyStandard left) ∧
    ∀ text ∈ ["stdin", "stdout", "stderr"], daemonize calls table ≠ .failed (.syslog text)

/-- The calls of a child in which everything succeeds. -/
def succeeding (limit : Limit) : Calls :=
  ⟨true, some limit, .child, true, true, true, true, true, true⟩

/-- What a process can start with. -/
def Inheritable (limit : Limit) (table : Descriptors File) : Prop :=
  ∀ fd, table.file fd ≠ none → fd ≤ INT_MAX ∧ ∀ max, limit = .finite max → fd < max

/-- In the table, the descriptors below the bound are on /dev/null now. -/
def Filled (base : Descriptors File) (bound : Nat) (table : Descriptors File) : Prop :=
  ∀ fd, table.file fd = if fd < bound then some .devNull else base.file fd

variable {base table : Descriptors File} {limit : Limit} {calls : Calls}

theorem Filled.lowest (filled : Filled base bound table)
    (closed : ∀ fd, fd < 3 → base.file fd = none) (room : bound < 3) : table.lowest = bound := by
  refine Descriptors.lowest_eq_iff.mpr ⟨?_, fun lower below => ?_⟩
  · rw [filled, if_neg (Nat.lt_irrefl bound)]
    exact closed bound room
  · rw [filled, if_pos below]
    exact Option.some_ne_none _

theorem Filled.install (filled : Filled base bound table)
    (closed : ∀ fd, fd < 3 → base.file fd = none) (room : bound < 3) :
    Filled base (bound + 1) (table.install .devNull).2 := by
  intro fd
  rw [Descriptors.file_install, filled.lowest closed room, filled fd]
  by_cases here : fd = bound
  · rw [if_pos here, if_pos (by omega)]
  · rw [if_neg here]
    by_cases below : fd < bound
    · rw [if_pos below, if_pos (by omega)]
    · rw [if_neg below, if_neg (by omega)]

/-- `open` takes the lowest descriptor. -/
theorem Filled.openNull (filled : Filled base bound table)
    (closed : ∀ fd, fd < 3 → base.file fd = none) (room : bound < 3) :
    openNull true table = ((bound : Int), (table.install .devNull).2) := by
  rw [Daemonize.openNull, if_pos rfl]
  exact Prod.ext (congrArg Int.ofNat (filled.lowest closed room)) rfl

/-- `dup(0)` does so as well, once 0 is on /dev/null. -/
theorem Filled.dup0 (filled : Filled base bound table)
    (closed : ∀ fd, fd < 3 → base.file fd = none) (room : bound < 3) (some : 0 < bound) :
    dup0 true table = ((bound : Int), (table.install .devNull).2) := by
  have standard : table.file 0 = .some .devNull := by rw [filled, if_pos some]
  rw [Daemonize.dup0, if_pos rfl, Descriptors.dup, standard]
  exact Prod.ext (congrArg Int.ofNat (filled.lowest closed room)) rfl

/-- What is open from 3 on is neither closed nor looked at. -/
theorem reopen_closed (opened : calls.openNull = true) (first : calls.dup1 = true)
    (second : calls.dup2 = true) (closed : ∀ fd, fd < 3 → base.file fd = none) :
    ∃ left, reopen calls base = .returned left ∧ Filled base 3 left := by
  have start : Filled base 0 base := fun fd => (if_neg (Nat.not_lt_zero fd)).symm
  have zero := start.install closed (by decide)
  have one := zero.install closed (by decide)
  have two := one.install closed (by decide)
  refine ⟨_, ?_, two⟩
  rw [reopen, opened, first, second, start.openNull closed (by decide)]
  simp [zero.dup0 closed (by decide) (by decide), one.dup0 closed (by decide) (by decide)]

/-- Without getting to `open`, `daemonize` neither returns nor makes the last checks. -/
theorem daemonize_cases (table : Descriptors File) (getrlimit : calls.getrlimit = some limit) :
    daemonize calls table = reopen calls (table.closeBelow limit.bound) ∨
      (∀ left, daemonize calls table ≠ .returned left) ∧
      ∀ text, daemonize calls table ≠ .failed (.syslog text) := by
  unfold daemonize
  rw [getrlimit]
  cases calls.fork <;> grind [Outcome.failed]

theorem daemonize_succeeding (limit : Limit) (table : Descriptors File) :
    daemonize (succeeding limit) table =
      reopen (succeeding limit) (table.closeBelow limit.bound) := rfl

/-- The loop closes whatever is open, unless the limit is infinite. -/
theorem closed_iff (start : Inheritable limit table) :
    (∀ fd, (table.closeBelow limit.bound).file fd = none) ↔
      limit ≠ .infinity ∨ ∀ fd, 1024 ≤ fd → table.file fd = none := by
  constructor
  · intro closed
    rcases Decidable.em (limit = .infinity) with rfl | finite
    · right
      intro fd beyond
      have left := closed fd
      rwa [Descriptors.file_closeBelow, Limit.bound, if_neg (Nat.not_lt.mpr beyond)] at left
    · exact .inl finite
  · intro fits fd
    rw [Descriptors.file_closeBelow]
    split
    · rfl
    · next beyond =>
      by_contra taken
      obtain ⟨small, limited⟩ := start fd taken
      cases limit with
      | infinity =>
        rcases fits with finite | free
        · exact finite rfl
        · exact taken (free fd (Nat.le_of_not_lt beyond))
      | finite max => exact beyond (Nat.lt_min.mpr ⟨limited max rfl, Nat.lt_succ_of_le small⟩)

/-- The loop covers 0, 1 and 2, whatever the limit is. -/
theorem closed_standard (start : Inheritable limit table) (standard : fd < 3) :
    (table.closeBelow limit.bound).file fd = none := by
  cases limit with
  | infinity =>
    rw [Descriptors.file_closeBelow, Limit.bound, if_pos (by omega)]
  | finite max => exact (closed_iff start).mpr (.inl Limit.noConfusion) fd

/-- `daemonize` leaves descriptors 0, 1 and 2 exactly when the hard limit is not
RLIM_INFINITY, or nothing is open from 1024 on. -/
theorem leavesStandard_iff (start : Inheritable limit table) :
    LeavesStandard limit table ↔
      limit ≠ .infinity ∨ ∀ fd, 1024 ≤ fd → table.file fd = none := by
  rw [← closed_iff start]
  constructor
  · intro leaves fd
    obtain ⟨left, returned, filled⟩ := reopen_closed (rfl : (succeeding limit).openNull = true)
      rfl rfl (fun _ => closed_standard start)
    rw [← daemonize_succeeding] at returned
    have only := (leaves (succeeding limit) rfl rfl rfl rfl).1 left returned fd
    by_cases standard : fd < 3
    · exact closed_standard start standard
    · rw [filled, if_neg standard, if_neg standard] at only
      exact only
  · intro closed calls getrlimit opened first second
    obtain ⟨final, returns, filled⟩ := reopen_closed opened first second
      (fun _ => closed_standard start)
    rcases daemonize_cases table getrlimit with same | ⟨unreturned, unchecked⟩
    · rw [same, returns]
      refine ⟨fun left returned fd => ?_, fun text _ => Outcome.noConfusion⟩
      obtain rfl := Outcome.returned.inj returned
      rw [filled, closed]
    · exact ⟨fun left returned => absurd returned (unreturned left), fun text _ => unchecked text⟩

/-- The usual start, under a limit of 4096. -/
theorem leavesStandard_iff_terminal :
    LeavesStandard (.finite 4096) ⟨[some (.inherited 0), some (.inherited 1),
      some (.inherited 2)]⟩ := by
  refine (leavesStandard_iff fun fd opened => ?_).mpr (.inl Limit.noConfusion)
  have small : fd < 3 := by
    by_contra beyond
    exact opened (by simp [Descriptors.file, Nat.le_of_not_lt beyond])
  exact ⟨by unfold INT_MAX; omega, fun max same => by cases same; omega⟩

/-- One descriptor is open. -/
def single (number : Nat) : Descriptors File :=
  ⟨List.replicate number none ++ [some (.inherited number)]⟩

theorem file_single (number fd : Nat) :
    (single number).file fd = if fd = number then some (.inherited number) else none := by
  unfold single Descriptors.file
  rcases Nat.lt_trichotomy fd number with less | same | more
  · rw [List.getElem?_append_left (by simpa using less), if_neg (Nat.ne_of_lt less)]
    simp [less]
  · simp [same]
  · rw [List.getElem?_eq_none (by simp; omega), if_neg (Nat.ne_of_gt more)]
    rfl

/-- Without a limit, descriptor 1024 stays open. -/
theorem descriptor_1024_stays : ∃ left, Inheritable .infinity (single 1024) ∧
    daemonize (succeeding .infinity) (single 1024) = .returned left ∧
    left.file 1024 = some (.inherited 1024) ∧ ¬ LeavesStandard .infinity (single 1024) := by
  have start : Inheritable .infinity (single 1024) := by
    intro fd opened
    rw [file_single] at opened
    obtain rfl : fd = 1024 := by simpa using opened
    exact ⟨by decide, fun max same => Limit.noConfusion same⟩
  obtain ⟨left, returned, filled⟩ := reopen_closed (rfl : (succeeding .infinity).openNull = true)
    rfl rfl (fun _ => closed_standard start)
  rw [← daemonize_succeeding] at returned
  have stays : left.file 1024 = some (.inherited 1024) := by
    rw [filled, if_neg (by decide), Descriptors.file_closeBelow, Limit.bound, if_neg (by decide),
      file_single, if_pos rfl]
  refine ⟨left, start, returned, stays, fun leaves => ?_⟩
  have only := (leaves (succeeding .infinity) rfl rfl rfl rfl).1 left returned 1024
  rw [stays, if_neg (by decide)] at only
  cases only

end OsLabs.Daemon.Daemonize
