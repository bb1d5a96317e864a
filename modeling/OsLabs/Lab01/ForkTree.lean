import OsLabs.Machine.Population

/-! lab.c, where a child goes on with the loop of its parent. The processes make up a
tree: one of them for every way in which a process can be the parent or the child of the
forks that have led to it. -/

namespace OsLabs.Lab01.ForkTree

/-- The points of `main`, with the elements of `childPIDS` that have been set. -/
inductive Pc where
  | fork (childPIDS : List Nat)
  | childLine (childPIDS : List Nat)
  | sleep (childPIDS : List Nat)
  | childLineAgain (childPIDS : List Nat)
  | parentLine (childPIDS : List Nat)
  | exit (status : Int)
  | ended
deriving DecidableEq

/-- A call of `printf` or `perror`: "Child %d: PID = %d, ..", "Parent: PID = %d, children =
%d, %d, ..", and "Can't fork". The second comes with what `childPIDS` holds then; of that the
line shows the first two elements, reading past an array that is shorter. Whether lines
come out twice, as `fork` copies a buffer of stdout that has not been flushed, is left out. -/
inductive Event where
  | child (label pid : Nat)
  | parent (pid : Nat) (childPIDS : List Nat)
  | cantFork (pid : Nat) (childPIDS : List Nat)
deriving DecidableEq

inductive Outcome where
  | forked
  | failed

/-- The head of the loop; its variable is the number of elements that have been set. -/
def Pc.loop (childCnt : Nat) (childPIDS : List Nat) : Pc :=
  if childPIDS.length < childCnt then .fork childPIDS else .parentLine childPIDS

/-- The process that is created first has the pid 1, and so on. -/
def step (childCnt index count : Nat) : Pc → Outcome → Option (Pc × Option Pc × List Event)
  | .fork childPIDS, .forked =>
    some (.loop childCnt (childPIDS ++ [count + 1]), some (.childLine (childPIDS ++ [0])), [])
  | .fork childPIDS, .failed => some (.exit 1, none, [.cantFork (index + 1) childPIDS])
  | .childLine childPIDS, _ =>
    some (.sleep childPIDS, none, [.child childPIDS.length (index + 1)])
  | .sleep childPIDS, _ => some (.childLineAgain childPIDS, none, [])
  -- exit(0) has been commented out here
  | .childLineAgain childPIDS, _ =>
    some (.loop childCnt childPIDS, none, [.child childPIDS.length (index + 1)])
  | .parentLine childPIDS, _ => some (.exit 0, none, [.parent (index + 1) childPIDS])
  | .exit _, _ => some (.ended, none, [])
  | .ended, _ => none

def lab (childCnt : Nat) : Population Pc Outcome Event where
  entry := .loop childCnt []
  step := step childCnt

/-- What one step of a process does. -/
inductive Goes (childCnt index count : Nat) : Pc → Pc → Option Pc → List Event → Prop where
  | forks (childPIDS : List Nat) :
    Goes childCnt index count (.fork childPIDS) (.loop childCnt (childPIDS ++ [count + 1]))
      (some (.childLine (childPIDS ++ [0]))) []
  | cantFork (childPIDS : List Nat) :
    Goes childCnt index count (.fork childPIDS) (.exit 1) none [.cantFork (index + 1) childPIDS]
  | childLine (childPIDS : List Nat) :
    Goes childCnt index count (.childLine childPIDS) (.sleep childPIDS) none
      [.child childPIDS.length (index + 1)]
  | sleep (childPIDS : List Nat) :
    Goes childCnt index count (.sleep childPIDS) (.childLineAgain childPIDS) none []
  | childLineAgain (childPIDS : List Nat) :
    Goes childCnt index count (.childLineAgain childPIDS) (.loop childCnt childPIDS) none
      [.child childPIDS.length (index + 1)]
  | parentLine (childPIDS : List Nat) :
    Goes childCnt index count (.parentLine childPIDS) (.exit 0) none
      [.parent (index + 1) childPIDS]
  | exit (status : Int) : Goes childCnt index count (.exit status) .ended none []

theorem goes_of_step
    (stepped : (lab childCnt).step index count pc outcome = some (pc', child, emitted)) :
    Goes childCnt index count pc pc' child emitted := by
  change step childCnt index count pc outcome = _ at stepped
  cases pc with
  | fork childPIDS =>
    cases outcome <;> cases stepped
    · exact .forks childPIDS
    · exact .cantFork childPIDS
  | childLine | sleep | childLineAgain | parentLine | exit =>
    cases stepped
    constructor
  | ended => cases stepped

/-- Where a process has been the parent of a fork, and where it has come out of it. -/
def pattern (childPIDS : List Nat) : List Bool := childPIDS.map fun pid => pid ≠ 0

/-- The patterns of `childCnt` elements that begin both with `front` and with `trail`. -/
def ways (childCnt : Nat) (front trail : List Bool) : Nat :=
  if front <+: trail ∨ trail <+: front then 2 ^ (childCnt - max front.length trail.length)
  else 0

/-- Those behind the two branches of a fork. -/
def branches (childCnt : Nat) (front : List Bool) (childPIDS : List Nat) : Nat :=
  ways childCnt front (pattern childPIDS ++ [true]) +
    ways childCnt front (pattern childPIDS ++ [false])

/-- Those that the process, or one that it may still create, can get to. -/
def Pc.reaches (childCnt : Nat) (front : List Bool) : Pc → Nat
  | .fork childPIDS => branches childCnt front childPIDS
  | .childLine childPIDS | .sleep childPIDS | .childLineAgain childPIDS =>
    ways childCnt front (pattern childPIDS)
  | .parentLine childPIDS => (decide (front <+: pattern childPIDS)).toNat
  | .exit _ | .ended => 0

/-- A Parent line of a process whose pattern begins with `front`. -/
def Event.begins (front : List Bool) : Event → Bool
  | .parent _ childPIDS => front <+: pattern childPIDS
  | .child _ _ | .cantFork _ _ => false

/-- The patterns that a failed fork leaves out. -/
def Event.lost (childCnt : Nat) (front : List Bool) : Event → Nat
  | .cantFork _ childPIDS => branches childCnt front childPIDS
  | .child _ _ | .parent _ _ => 0

def Event.counts (childCnt : Nat) (front : List Bool) (event : Event) : Nat :=
  (event.begins front).toNat + event.lost childCnt front

theorem ways_nil (childCnt : Nat) (front : List Bool) :
    ways childCnt front [] = 2 ^ (childCnt - front.length) := by
  simp [ways]

theorem ways_full (fits : front.length ≤ childCnt) (full : childCnt ≤ trail.length) :
    ways childCnt front trail = (decide (front <+: trail)).toNat := by
  have none : childCnt - max front.length trail.length = 0 := by omega
  have same : front <+: trail ∨ trail <+: front ↔ front <+: trail := by
    refine or_iff_left_of_imp fun shorter => ?_
    rw [shorter.eq_of_length_le (by omega)]
  simp only [ways, none, same]
  by_cases begins : front <+: trail <;> simp [begins]

/-- Every pattern goes on in one of two ways. -/
theorem ways_snoc (fits : front.length ≤ childCnt) (short : trail.length < childCnt) :
    ways childCnt front (trail ++ [true]) + ways childCnt front (trail ++ [false]) =
      ways childCnt front trail := by
  by_cases begun : front <+: trail
  · have longer : ∀ next, front <+: trail ++ [next] := fun next =>
      begun.trans (List.prefix_append trail [next])
    have less := begun.length_le
    obtain ⟨k, rfl⟩ : ∃ k, childCnt = trail.length + 1 + k :=
      ⟨childCnt - (trail.length + 1), by omega⟩
    simp only [ways, begun, longer, true_or, if_true, List.length_append, List.length_singleton,
      Nat.max_eq_right less, Nat.max_eq_right (Nat.le_succ_of_le less), Nat.add_sub_cancel_left,
      show trail.length + 1 + k - trail.length = k + 1 by omega, Nat.pow_succ]
    omega
  · by_cases shorter : trail <+: front
    · obtain ⟨back, rfl⟩ := shorter
      cases back with
      | nil => exact absurd (by simp) begun
      | cons next back =>
        cases next <;> simp [ways, List.prefix_append_right_inj]
    · have off : ∀ next, ¬ (front <+: trail ++ [next] ∨ trail ++ [next] <+: front) := by
        rintro next (longer | before)
        · rcases List.prefix_concat_iff.mp longer with rfl | begins
          · exact shorter (List.prefix_append trail [next])
          · exact begun begins
        · exact shorter ((List.prefix_append trail [next]).trans before)
      simp [ways, begun, shorter, off]

theorem reaches_loop (fits : front.length ≤ childCnt) (childPIDS : List Nat) :
    (Pc.loop childCnt childPIDS).reaches childCnt front =
      ways childCnt front (pattern childPIDS) := by
  have same : (pattern childPIDS).length = childPIDS.length := List.length_map _
  unfold Pc.loop
  split
  · exact ways_snoc fits (by omega)
  · exact (ways_full fits (by omega)).symm

theorem reaches_divides (fits : front.length ≤ childCnt) (index count : Nat) (pc : Pc)
    (outcome : Outcome) (pc' : Pc) (child : Option Pc) (emitted : List Event)
    (stepped : (lab childCnt).step index count pc outcome = some (pc', child, emitted)) :
    pc'.reaches childCnt front + Population.total (Pc.reaches childCnt front) child.toList +
        Population.worths (Event.counts childCnt front) emitted =
      pc.reaches childCnt front := by
  cases goes_of_step stepped with
  | forks childPIDS =>
    have parent : pattern (childPIDS ++ [count + 1]) = pattern childPIDS ++ [true] := by
      simp [pattern]
    have child : pattern (childPIDS ++ [0]) = pattern childPIDS ++ [false] := by simp [pattern]
    rw [reaches_loop fits, parent]
    simp [Pc.reaches, branches, child, Population.total, Population.worths]
  | childLineAgain childPIDS =>
    rw [reaches_loop fits]
    simp [Pc.reaches, Event.counts, Event.begins, Event.lost, Population.total,
      Population.worths]
  | cantFork childPIDS | childLine childPIDS | sleep childPIDS | parentLine childPIDS
  | exit status =>
    simp [Pc.reaches, Event.counts, Event.begins, Event.lost, Population.total,
      Population.worths]

/-- Two forks, and the processes one after the other. -/
def inOrder : List (Nat × Outcome) :=
  let goes (index steps : Nat) : List (Nat × Outcome) := List.replicate steps (index, .forked)
  goes 0 4 ++ goes 1 6 ++ goes 2 5 ++ goes 3 5

theorem run_inOrder : ∃ events state, (lab 2).machine.Run Machine.anything inOrder events state ∧
    (∀ pc ∈ state, pc = .ended) ∧ ∀ pid childPIDS, .cantFork pid childPIDS ∉ events := by
  let failed : Event → Bool
    | .cantFork _ _ => true
    | _ => false
  let view (state : List Pc) (events : List Event) : Bool :=
    state.all (· = .ended) && !events.any failed
  obtain ⟨events, state, run, seen⟩ : ∃ events state,
      (lab 2).machine.Run Machine.anything inOrder events state ∧
      view state events = true :=
    Machine.Path.ofView view inOrder (fun _ _ _ => trivial) (by decide +kernel)
  obtain ⟨ended, fine⟩ := (Bool.and_eq_true _ _).mp seen
  refine ⟨events, state, run, fun pc member => ?_, fun pid childPIDS member => ?_⟩
  · exact of_decide_eq_true (List.all_eq_true.mp ended pc member)
  · have none := List.any_eq_false.mp ((Bool.not_eq_true' _).mp fine) _ member
    exact none rfl

/-- However the processes take turns, the patterns that begin with `front` are gone through,
each at one call of `printf` for the Parent line at most, and once all processes have ended
each at just one or left out by one fork that has failed. A `front` of `childCnt` elements is
one pattern; one of two elements is what the line shows. -/
theorem parent_lines (fits : front.length ≤ childCnt)
    (run : (lab childCnt).machine.Run Machine.anything actions events state) :
    events.countP (Event.begins front) + Population.worths (Event.lost childCnt front) events ≤
      2 ^ (childCnt - front.length) ∧
    ((∀ pc ∈ state, pc = .ended) →
      events.countP (Event.begins front) + Population.worths (Event.lost childCnt front) events =
        2 ^ (childCnt - front.length)) := by
  have kept := Population.weight_kept (reaches_divides fits) run
  have entry : (lab childCnt).entry.reaches childCnt front = 2 ^ (childCnt - front.length) := by
    rw [lab, reaches_loop fits, pattern, List.map_nil, ways_nil]
  have split : Population.worths (Event.counts childCnt front) events =
      events.countP (Event.begins front) +
        Population.worths (Event.lost childCnt front) events := by
    rw [← Population.worths_toNat]
    exact List.sum_map_add
  rw [split, entry] at kept
  refine ⟨by omega, fun ended => ?_⟩
  have rest : Population.total (Pc.reaches childCnt front) state = 0 :=
    Population.total_eq_zero fun pc member => by rw [ended pc member]; rfl
  omega

theorem parent_lines_inOrder : ∃ events state,
    (lab 2).machine.Run Machine.anything inOrder events state ∧ (∀ pc ∈ state, pc = .ended) ∧
    events.countP (Event.begins [true, false]) +
      Population.worths (Event.lost 2 [true, false]) events = 2 ^ (2 - 2) := by
  obtain ⟨events, state, run, ended, _⟩ := run_inOrder
  have fits : [true, false].length ≤ 2 := Nat.le_refl 2
  exact ⟨events, state, run, ended, (parent_lines fits run).2 ended⟩

/-- The calls for lines of children with the label `i + 1` that a process at the head of the
loop leads to, its own ones not among them. -/
def ahead (i forks : Nat) : Nat := if forks ≤ i then 2 * 2 ^ (i - forks) else 0

def Pc.owes (i : Nat) : Pc → Nat
  | .fork childPIDS => ahead i childPIDS.length
  | .childLine childPIDS =>
    (if childPIDS.length = i + 1 then 2 else 0) + ahead i childPIDS.length
  | .sleep childPIDS | .childLineAgain childPIDS =>
    (if childPIDS.length = i + 1 then 1 else 0) + ahead i childPIDS.length
  | .parentLine _ | .exit _ | .ended => 0

def Event.labelled (i : Nat) : Event → Bool
  | .child label _ => label = i + 1
  | .parent _ _ | .cantFork _ _ => false

/-- A line that is shown, or the lines that a failed fork leaves out. -/
def Event.pays (i : Nat) : Event → Nat
  | .cantFork _ childPIDS => ahead i childPIDS.length
  | .child label _ => (decide (label = i + 1)).toNat
  | .parent _ _ => 0

theorem ahead_fork (i forks : Nat) :
    ahead i (forks + 1) + ((if forks + 1 = i + 1 then 2 else 0) + ahead i (forks + 1)) =
      ahead i forks := by
  unfold ahead
  rcases Nat.lt_trichotomy forks i with less | rfl | more
  · obtain ⟨k, rfl⟩ : ∃ k, i = forks + 1 + k := ⟨i - (forks + 1), by omega⟩
    have longer : forks + 1 + k - forks = k + 1 := by omega
    simp only [if_pos (Nat.le_add_right (forks + 1) k), if_pos (Nat.le_of_lt less),
      if_neg (show ¬ forks + 1 = forks + 1 + k + 1 by omega), Nat.add_sub_cancel_left, longer,
      Nat.pow_succ]
    omega
  · simp
  · simp [show ¬ forks + 1 ≤ i by omega, show ¬ forks ≤ i by omega, show ¬ forks = i by omega]

theorem owes_loop (inside : i < childCnt) (childPIDS : List Nat) :
    (Pc.loop childCnt childPIDS).owes i = ahead i childPIDS.length := by
  unfold Pc.loop
  split
  · rfl
  · rename_i full
    rw [ahead, if_neg (by omega)]
    rfl

theorem owes_divides (inside : i < childCnt) (index count : Nat) (pc : Pc) (outcome : Outcome)
    (pc' : Pc) (child : Option Pc) (emitted : List Event)
    (stepped : (lab childCnt).step index count pc outcome = some (pc', child, emitted)) :
    pc'.owes i + Population.total (Pc.owes i) child.toList +
      Population.worths (Event.pays i) emitted = pc.owes i := by
  cases goes_of_step stepped with
  | forks childPIDS =>
    rw [owes_loop inside]
    simpa [Pc.owes, Population.total, Population.worths] using ahead_fork i childPIDS.length
  | childLine childPIDS =>
    simp only [Population.total, Population.worths, Option.toList_none, List.map_cons,
      List.map_nil, List.sum_cons, List.sum_nil, Nat.add_zero, Pc.owes, Event.pays]
    by_cases own : childPIDS.length = i + 1
    · simp [own]
      omega
    · simp [own]
  | childLineAgain childPIDS =>
    rw [owes_loop inside]
    simp only [Population.total, Population.worths, Option.toList_none, List.map_cons,
      List.map_nil, List.sum_cons, List.sum_nil, Nat.add_zero, Pc.owes, Event.pays]
    by_cases own : childPIDS.length = i + 1
    · simp [own]
      omega
    · simp [own]
  | cantFork childPIDS | sleep childPIDS | parentLine childPIDS | exit status =>
    simp [Pc.owes, Event.pays, Population.total, Population.worths]

/-- No more than twice 2 to the power `i` calls of `printf` carry the label `i + 1`, and just
as many do if no fork fails. -/
theorem child_lines (inside : i < childCnt)
    (run : (lab childCnt).machine.Run Machine.anything actions events state) :
    events.countP (Event.labelled i) ≤ 2 * 2 ^ i ∧
    ((∀ pid childPIDS, .cantFork pid childPIDS ∉ events) → (∀ pc ∈ state, pc = .ended) →
      events.countP (Event.labelled i) = 2 * 2 ^ i) := by
  have kept := Population.weight_kept (owes_divides inside) run
  have entry : (lab childCnt).entry.owes i = 2 * 2 ^ i := by
    rw [lab, owes_loop inside]
    simp [ahead]
  have counted := Population.worths_toNat (Event.labelled i) events
  rw [entry] at kept
  refine ⟨?_, fun fine ended => ?_⟩
  · have paid : Population.worths (fun event => (Event.labelled i event).toNat) events ≤
        Population.worths (Event.pays i) events := by
      refine Population.worths_le fun event _ => ?_
      cases event <;> simp [Event.labelled, Event.pays]
    omega
  · have rest : Population.total (Pc.owes i) state = 0 :=
      Population.total_eq_zero fun pc member => by rw [ended pc member]; rfl
    have paid : Population.worths (fun event => (Event.labelled i event).toNat) events =
        Population.worths (Event.pays i) events := by
      refine Population.worths_congr fun event member => ?_
      cases event with
      | cantFork pid childPIDS => exact absurd member (fine pid childPIDS)
      | child | parent => rfl
    omega

theorem child_lines_inOrder : ∃ events state,
    (lab 2).machine.Run Machine.anything inOrder events state ∧ (∀ pc ∈ state, pc = .ended) ∧
    events.countP (Event.labelled 1) = 2 * 2 ^ 1 := by
  obtain ⟨events, state, run, ended, fine⟩ := run_inOrder
  exact ⟨events, state, run, ended, (child_lines (by decide) run).2 fine ended⟩

end OsLabs.Lab01.ForkTree
