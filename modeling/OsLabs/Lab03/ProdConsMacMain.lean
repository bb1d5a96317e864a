import OsLabs.Lab03.Storage

/-! `main` of prod_cons_mac.c, one run after the other: what its exits leave of the
three named semaphores, which outlive the process. -/

namespace OsLabs.Lab03.ProdConsMac

def CONSUMER_COUNT : Nat := 3

def PRODUCER_COUNT : Nat := 2

/-- The named semaphores that exist, with their values: "/empty", "/full", "/binary". -/
abbrev Names := Semaphore → Option Nat

/-- None of the names exists. -/
def noNames : Names := fun _ => none

/-- A return of `wait`: a child is reported, or it fails with EINTR, with ECHILD or
with another error. -/
inductive WaitOutcome where
  | child
  | eintr
  | echild
  | error
deriving DecidableEq

/-- `while (wpid != -1)`; whether the loop has ended as it should. -/
def waitLoop : List WaitOutcome → Option Bool
  | [] => none
  | .child :: rest | .eintr :: rest => waitLoop rest
  | .echild :: _ => some true
  | .error :: _ => some false

/-- Which calls of a run fail, and what its calls of `wait` return until the loop
ends. -/
structure Failures where
  sigaction : Bool
  semOpen : Semaphore → Bool
  shmget : Bool
  shmat : Bool
  fork : Nat → Bool
  waits : List WaitOutcome
  ends : (waitLoop waits).isSome = true
  shmctl : Bool

/-- The exit status, and the argument of `perror`. -/
structure Exit where
  status : Nat
  error : Option String
deriving DecidableEq

/-- `sem_open` with O_CREAT | O_EXCL; the result says whether it has succeeded. -/
def semOpen (fails : Bool) (name : Semaphore) (names : Names) : Names × Bool :=
  if fails || (names name).isSome then (names, false)
  else (Function.update names name (some (initialSem name)), true)

def semUnlink (name : Semaphore) (names : Names) : Names := Function.update names name none

/-- The three calls of `sem_open`, which are all made before one result is tested. -/
def openAll (failures : Failures) (names : Names) : Names × Bool :=
  let (names, empty) := semOpen (failures.semOpen .empty) .empty names
  let (names, full) := semOpen (failures.semOpen .full) .full names
  let (names, binary) := semOpen (failures.semOpen .binary) .binary names
  (names, empty && full && binary)

/-- One run. Children that have been forked never come back to `main`, and none of
them opens or unlinks a semaphore. -/
def main (failures : Failures) (names : Names) : Names × Exit :=
  if failures.sigaction then (names, ⟨1, some "sigaction"⟩)
  else
    let (names, opened) := openAll failures names
    if !opened then (names, ⟨1, some "sem_open"⟩)
    else if failures.shmget then (names, ⟨1, some "shmget"⟩)
    else if failures.shmat then (names, ⟨1, some "shmat"⟩)
    else if (List.range (CONSUMER_COUNT + PRODUCER_COUNT)).any failures.fork then
      (names, ⟨1, some "fork"⟩)
    else if waitLoop failures.waits = some false then (names, ⟨1, some "wait"⟩)
    else if failures.shmctl then (names, ⟨1, some "shmctl"⟩)
    else (semUnlink .binary (semUnlink .full (semUnlink .empty names)), ⟨0, none⟩)

/-- The names after several runs, from a system without any. -/
def namesAfter (runs : List Failures) : Names :=
  runs.foldl (fun names failures => (main failures names).1) noNames

/-- After each run none of the names exists. -/
def Unpoisoned (runs : List Failures) : Prop :=
  ∀ done rest, runs = done ++ rest → namesAfter done = noNames

/-- None of the calls fails; `wait` may fail with EINTR, and ends with ECHILD. -/
def Failures.None (failures : Failures) : Prop :=
  (∀ name, failures.semOpen name = false) ∧ failures.shmget = false ∧ failures.shmat = false ∧
    (∀ i < CONSUMER_COUNT + PRODUCER_COUNT, failures.fork i = false) ∧
    waitLoop failures.waits = some true ∧ failures.shmctl = false

/-- Either nothing is created, or no call fails. -/
def Failures.Harmless (failures : Failures) : Prop :=
  failures.sigaction = true ∨ (∀ name, failures.semOpen name = true) ∨ failures.None

/-- The names that the calls of `sem_open` create. -/
def Failures.created (failures : Failures) : Names :=
  fun name => if failures.semOpen name then none else some (initialSem name)

theorem created_eq_noNames_iff (failures : Failures) :
    failures.created = noNames ↔ ∀ name, failures.semOpen name = true := by
  simp [Failures.created, noNames, funext_iff]

theorem forks_succeed_iff (failures : Failures) :
    (List.range (CONSUMER_COUNT + PRODUCER_COUNT)).any failures.fork = false ↔
      ∀ i < CONSUMER_COUNT + PRODUCER_COUNT, failures.fork i = false := by
  simp [List.any_eq_false]

theorem waitLoop_eq_true_iff (failures : Failures) :
    waitLoop failures.waits = some true ↔ ¬ waitLoop failures.waits = some false := by
  obtain ⟨ended, result⟩ := Option.isSome_iff_exists.mp failures.ends
  cases ended <;> simp [result]

/-- A name that does not exist is created unless the call fails. -/
theorem semOpen_absent (fails : Bool) (absent : names name = none) :
    semOpen fails name names =
      (Function.update names name (if fails then none else some (initialSem name)), !fails) := by
  cases fails with
  | false => simp [semOpen, absent]
  | true => simp [semOpen, ← absent]

/-- The calls of `sem_open` on a system without names. -/
theorem openAll_noNames (failures : Failures) :
    (openAll failures noNames).1 = failures.created ∧
      ((openAll failures noNames).2 = true ↔ ∀ name, failures.semOpen name = false) := by
  let value (name : Semaphore) : Option Nat :=
    if failures.semOpen name then none else some (initialSem name)
  let first : Names := Function.update noNames .empty (value .empty)
  let second : Names := Function.update first .full (value .full)
  have opened : openAll failures noNames = (Function.update second .binary (value .binary),
      !failures.semOpen .empty && !failures.semOpen .full && !failures.semOpen .binary) := by
    have one := semOpen_absent (failures.semOpen .empty) (rfl : noNames .empty = none)
    have two := semOpen_absent (failures.semOpen .full) (rfl : first .full = none)
    have three := semOpen_absent (failures.semOpen .binary) (rfl : second .binary = none)
    simp only [openAll]
    rw [one, two, three]
  rw [opened]
  constructor
  · funext name
    cases name <;> rfl
  · simp only [Bool.and_eq_true, Bool.not_eq_true']
    constructor
    · rintro ⟨⟨empty, full⟩, binary⟩ name
      cases name <;> assumption
    · exact fun each => ⟨⟨each _, each _⟩, each _⟩

theorem unlinkAll (names : Names) :
    semUnlink .binary (semUnlink .full (semUnlink .empty names)) = noNames := by
  funext name
  cases name <;> rfl

/-- A run all of whose calls succeed removes what it has created. -/
theorem main_of_none (failures : Failures) (caught : failures.sigaction = false)
    (none : failures.None) : main failures noNames = (noNames, ⟨0, Option.none⟩) := by
  obtain ⟨opens, shmget, shmat, forks, waits, shmctl⟩ := none
  have opened := (openAll_noNames failures).2.mpr opens
  have forked := (forks_succeed_iff failures).mpr forks
  have waited := (waitLoop_eq_true_iff failures).mp waits
  simp [main, caught, opened, shmget, shmat, forked, waited, shmctl, unlinkAll]

/-- A run in which one of them fails leaves all that it has created. -/
theorem main_of_some (failures : Failures) (caught : failures.sigaction = false)
    (some : ¬ failures.None) : (main failures noNames).1 = failures.created := by
  obtain ⟨created, opened⟩ := openAll_noNames failures
  rw [main, if_neg (by simp [caught])]
  generalize openAll failures noNames = result at created opened
  obtain ⟨names, all⟩ := result
  obtain rfl : names = failures.created := created
  dsimp only at opened ⊢
  split_ifs with unopened shmget shmat forks waits shmctl
  · rfl
  · rfl
  · rfl
  · rfl
  · rfl
  · rfl
  · refine absurd ⟨opened.mp (by simpa using unopened), by simpa using shmget,
      by simpa using shmat, (forks_succeed_iff failures).mp (by simpa using forks),
      (waitLoop_eq_true_iff failures).mpr waits, by simpa using shmctl⟩ some

theorem main_noNames_iff (failures : Failures) :
    (main failures noNames).1 = noNames ↔ failures.Harmless := by
  cases caught : failures.sigaction with
  | true => simp [main, caught, Failures.Harmless]
  | false =>
    rw [Failures.Harmless, caught, ← created_eq_noNames_iff]
    by_cases none : failures.None
    · simp [none, main_of_none failures caught none]
    · simp [none, main_of_some failures caught none]

theorem unpoisoned_concat (runs : List Failures) (failures : Failures) :
    Unpoisoned (runs ++ [failures]) ↔ Unpoisoned runs ∧ (main failures noNames).1 = noNames := by
  have last (clean : namesAfter runs = noNames) :
      namesAfter (runs ++ [failures]) = (main failures noNames).1 := by
    rw [namesAfter, List.foldl_append, ← namesAfter, clean]
    rfl
  constructor
  · intro clean
    have before : Unpoisoned runs := fun done rest parts =>
      clean done (rest ++ [failures]) (by rw [parts, List.append_assoc])
    refine ⟨before, ?_⟩
    rw [← last (before runs [] (by simp))]
    exact clean (runs ++ [failures]) [] (by simp)
  · rintro ⟨before, clean⟩ done rest parts
    rcases List.eq_nil_or_concat rest with rfl | ⟨init, final, rfl⟩
    · rw [List.append_nil] at parts
      rw [← parts, last (before runs [] (by simp)), clean]
    · rw [List.concat_eq_append, ← List.append_assoc] at parts
      exact before done init (List.append_inj' parts rfl).1

/-- No run is poisoned by an earlier one exactly if in each of them either nothing
is created or no call fails. -/
theorem unpoisoned_iff_harmless (runs : List Failures) :
    Unpoisoned runs ↔ ∀ failures ∈ runs, failures.Harmless := by
  induction runs using List.reverseRecOn with
  | nil =>
    refine iff_of_true (fun done rest parts => ?_) (by simp)
    obtain ⟨rfl, _⟩ := List.nil_eq_append_iff.mp parts
    rfl
  | append_singleton runs failures ih =>
    rw [unpoisoned_concat, ih, main_noNames_iff]
    simp [or_imp, forall_and]

/-- A name that exists stays, and makes its call fail. -/
theorem semOpen_present (fails : Bool) (other : Semaphore) (present : (names name).isSome = true) :
    ((semOpen fails other names).1 name).isSome = true ∧
      (other = name → (semOpen fails other names).2 = false) := by
  by_cases same : other = name
  · subst same
    simp [semOpen, present]
  · unfold semOpen
    split
    · exact ⟨present, fun equal => absurd equal same⟩
    · exact ⟨by simpa [Ne.symm same] using present, fun equal => absurd equal same⟩

/-- Once a name has been left over, no run gets past its calls of `sem_open`. -/
theorem main_of_present (failures : Failures) (present : (names name).isSome = true) :
    ((main failures names).1 name).isSome = true ∧ (main failures names).2.status = 1 := by
  obtain ⟨first, empty⟩ := semOpen_present (failures.semOpen .empty) .empty present
  obtain ⟨second, full⟩ := semOpen_present (failures.semOpen .full) .full first
  obtain ⟨third, binary⟩ := semOpen_present (failures.semOpen .binary) .binary second
  have refused : (openAll failures names).2 = false := by
    cases name with
    | empty => simp [openAll, empty rfl]
    | full => simp [openAll, full rfl]
    | binary => simp [openAll, binary rfl]
  unfold main
  split
  · exact ⟨present, rfl⟩
  · simp only [refused, Bool.not_false, if_true]
    exact ⟨third, trivial⟩

/-- A system that one run has poisoned stays so. -/
theorem poisoned_forever (runs more : List Failures)
    (left : (namesAfter runs name).isSome = true) :
    (namesAfter (runs ++ more) name).isSome = true := by
  rw [namesAfter, List.foldl_append, ← namesAfter]
  generalize namesAfter runs = names at left
  induction more generalizing names with
  | nil => exact left
  | cons failures more ih => exact ih _ (main_of_present failures left).1

/-- All five children are reported. -/
def allReported : List WaitOutcome := List.replicate 5 .child ++ [.echild]

/-- The run after one in which `shmget` has failed, which itself meets no failure,
stops at `sem_open`. -/
theorem shmget_poisons : ∃ first second : Failures,
    first.shmget = true ∧ second.None ∧
    (main second (namesAfter [first])).2 = ⟨1, some "sem_open"⟩ ∧
    ¬ Unpoisoned [first, second] := by
  let second : Failures :=
    ⟨false, fun _ => false, false, false, fun _ => false, allReported, rfl, false⟩
  let first : Failures := { second with shmget := true }
  refine ⟨first, second, rfl, ⟨fun _ => rfl, rfl, rfl, fun _ _ => rfl, rfl, rfl⟩, rfl, ?_⟩
  intro clean
  have left := congrFun (clean [first] [second] rfl) .empty
  cases left

end OsLabs.Lab03.ProdConsMac
