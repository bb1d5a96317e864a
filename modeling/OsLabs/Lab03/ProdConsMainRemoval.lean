import OsLabs.Lab03.ProdConsMainInvariant

/-! The removal of the objects of prod_cons.c: it comes after every use, and the wait
loop leads to it. -/

namespace OsLabs.Lab03.ProdConsMain

/-- In the wait loop, with every child terminated, `main` gets to the removal. -/
def Finishes (count : Nat) (state : State) : Prop :=
  ∃ actions shown final, (machine count).Path WaitFails state actions shown final ∧
    final.pc = .semctl ∧ ∀ action ∈ actions, ∃ outcome, action = .main outcome

/-- The laws of a run. -/
structure Outlives (count : Nat) (events : List Event) (state : State) : Prop where
  /-- No termination is reported before it happens, or more often than once. -/
  once : ∀ pid, reports events pid <+: terminations events pid ∧
    (terminations events pid).length ≤ 1
  /-- Behind the loop, every child has been reported. -/
  all : state.pc.waited = true → ∀ pid, .forked pid ∈ events → Accounted events pid
  /-- When an object is removed, every child has terminated. -/
  removed : ∀ before object behind, events = before ++ .removed object :: behind →
    ∀ pid, .forked pid ∈ events → Accounted before pid
  /-- Every use is one of an object that is present. -/
  used : ∀ pid object present, .used pid object present ∈ events → present = true
  /-- The loop does not hold `main` up any longer than the children do. -/
  finishes : state.pc = .loop ∨ state.pc = .wait → state.children.AllTerminated →
    Finishes count state

variable {count : Nat} {state middle : State} {events emitted : List Event}

theorem Finishes.step (outcome : Outcome) (permitted : WaitFails state (.main outcome))
    (taken : (machine count).next state (.main outcome) = some (middle, emitted))
    (rest : Finishes count middle) : Finishes count state := by
  obtain ⟨actions, shown, final, path, arrived, own⟩ := rest
  refine ⟨.main outcome :: actions, emitted ++ shown, final, .cons permitted taken path, arrived,
    ?_⟩
  intro action member
  rcases List.mem_cons.mp member with rfl | later
  · exact ⟨outcome, rfl⟩
  · exact own action later

theorem Finishes.here (here : state.pc = .semctl) : Finishes count state :=
  ⟨[], [], state, .start, here, by simp⟩

/-- From the test of the loop, as soon as it is known how its body goes on. -/
theorem finishes_loop (here : state.pc = .loop)
    (body : ∀ waiting : State, waiting.pc = .wait → waiting.children = state.children →
      Finishes count waiting) : Finishes count state := by
  obtain ⟨pc, wpid, children, present⟩ := state
  obtain rfl : pc = .loop := here
  refine .step .success (fun waiting => Pc.noConfusion waiting) rfl ?_
  by_cases last : wpid = -1
  · exact .here (if_pos last)
  · exact body _ (if_neg last) rfl

/-- The induction is on the children that are left: each round reaps one of them. -/
theorem finishes_wait (here : state.pc = .wait) (terminated : state.children.AllTerminated) :
    Finishes count state := by
  generalize left : state.children.entries.length = length
  induction length using Nat.strong_induction_on generalizing state with
  | _ length ih =>
    subst left
    obtain ⟨pc, wpid, children, present⟩ := state
    obtain rfl : pc = .wait := here
    cases entries : children.entries with
    | nil =>
      have taken : (machine count).next ⟨.wait, wpid, children, present⟩
          (.main (.failure .ECHILD)) = some (⟨.loop, -1, children, present⟩, []) := by
        simp only [machine, mainStep, entries, if_true]
      refine .step (.failure .ECHILD) (fun _ same => by cases same) taken ?_
      exact .step .success (fun waiting => Pc.noConfusion waiting) rfl (.here rfl)
    | cons entry rest =>
      obtain ⟨pid, child⟩ := entry
      cases child with
      | none => exact absurd rfl (terminated (pid, none) (by simp [entries]))
      | some status =>
        have zombie : children.lookup pid = some (some status) := by
          simp [Children.lookup, entries]
        have taken : (machine count).next ⟨.wait, wpid, children, present⟩ (.main (.pid pid)) =
            some (⟨.loop, pid, children.reap pid, present⟩, [.reported pid status]) := by
          simp only [machine, mainStep, zombie]
        refine .step (.pid pid) (fun _ same => by cases same) taken (finishes_loop rfl ?_)
        intro waiting there same
        have fewer := Children.reap_length_lt entries
        exact ih _ (same ▸ fewer) there (same ▸ terminated.reap pid) rfl

/-- Every child of a run that has left the system is accounted for. -/
theorem Consistent.accounted (consistent : Consistent events state)
    (empty : state.children.entries = []) (forked : .forked pid ∈ events) :
    Accounted events pid := by
  have stage := consistent.stage pid
  rw [Children.lookup_of_entries_nil empty] at stage
  exact stage.accounted forked

theorem Effect.removed (effect : Effect count state action after emitted)
    (member : .removed object ∈ emitted) :
    state.pc.waited = true ∧ emitted = [.removed object] := by
  cases effect with
  | semctl here | shmctl here =>
    obtain rfl := by simpa using member
    exact ⟨by rw [here]; rfl, rfl⟩
  | fork | forked | leave | enter | reap | eintr | echild | exit | use | terminate =>
    simp at member

theorem Effect.forks (effect : Effect count state action after emitted)
    (member : .forked pid ∈ emitted) : (∃ i, state.pc = .fork i) ∧ emitted = [.forked pid] := by
  cases effect with
  | fork here =>
    obtain rfl := by simpa using member
    exact ⟨⟨_, here⟩, rfl⟩
  | forked | leave | enter | reap | eintr | echild | exit | semctl | shmctl | use | terminate =>
    simp at member

/-- No child is forked after a removal. -/
theorem forked_before (run : (machine count).Run allowed actions events state)
    (place : events = before ++ .removed object :: behind) (forked : .forked pid ∈ events) :
    .forked pid ∈ before := by
  rw [place, List.mem_append, List.mem_cons] at forked
  rcases forked with early | same | late
  · exact early
  · cases same
  · obtain ⟨front, back, parts⟩ := List.append_of_mem late
    have position : events = (before ++ .removed object :: front) ++ .forked pid :: back := by
      rw [place, parts]
      simp
    obtain ⟨past, current, action, next, path, taken⟩ := run.soleEmission position
      fun _ _ _ _ taken member => ((next_effect taken).forks member).2
    obtain ⟨⟨i, here⟩, _⟩ := (next_effect taken).forks (List.mem_singleton_self _)
    exact absurd (by simp) (((consistent path).forking i here).2 object)

/-- prod_cons.c removes its objects after every use, in every run. -/
theorem outlives (run : (machine count).Run WaitFails actions events state) :
    Outlives count events state where
  once pid := ((consistent run).stage pid).once
  all waited pid := (consistent run).accounted ((consistent run).emptied (.inl waited))
  removed before object behind place pid forked := by
    have early := forked_before run place forked
    obtain ⟨past, current, action, next, path, taken⟩ := run.soleEmission place
      fun _ _ _ _ taken member => ((next_effect taken).removed member).2
    have waited := ((next_effect taken).removed (List.mem_singleton_self _)).1
    exact (consistent path).accounted ((consistent path).emptied (.inl waited)) early
  used := (consistent run).used
  finishes here terminated := by
    rcases here with loop | wait
    · exact finishes_loop loop fun waiting there same =>
        finishes_wait there (same ▸ terminated)
    · exact finishes_wait wait terminated

/-- The rounds of the wait loop that report these children. -/
def rounds (pids : List Pid) : List Action :=
  pids.flatMap fun pid => [.main .success, .main (.pid pid)]

/-- Six children, the first of which is killed while the others are still being forked,
and two interrupted calls of `wait`. -/
def sixChildren : List Action :=
  List.flatten [
    [.main (.pid 1), .main (.pid 2), .use 2 .semid, .terminate 1 (.signaled 14), .main (.pid 3),
      .main (.pid 4), .main (.pid 5), .main (.pid 6), .main .success, .main .success,
      .main (.failure .EINTR), .terminate 4 (.exited 1), .main .success, .main (.failure .EINTR)],
    rounds [4, 1],
    [.use 6 .semid, .use 3 .shmid, .terminate 2 (.signaled 14), .terminate 3 (.signaled 14),
      .terminate 5 (.exited 0), .terminate 6 (.exited 1)],
    rounds [6, 2, 5, 3],
    [.main .success, .main (.failure .ECHILD), .main .success, .main .success, .main .success]]

theorem outlives_sixChildren : ∃ events state,
    (machine 6).Run WaitFails sixChildren events state ∧ state.pc = .exited 0 ∧
    (∀ pid ∈ [1, 2, 3, 4, 5, 6], .forked pid ∈ events) ∧ Outlives 6 events state := by
  have permitted : ∀ action ∈ sixChildren, ∀ state, WaitFails state action := by
    intro action member state _ same
    rw [same] at member
    exact absurd member (by decide +kernel)
  let view (state : State) (events : List Event) : Pc × Bool :=
    (state.pc, [1, 2, 3, 4, 5, 6].all fun pid => decide (.forked pid ∈ events))
  obtain ⟨events, state, run, seen⟩ : ∃ events state,
      (machine 6).Run WaitFails sixChildren events state ∧ view state events = (.exited 0, true) :=
    Machine.Path.ofView view sixChildren permitted (by decide +kernel)
  obtain ⟨ended, forked⟩ := Prod.mk.inj seen
  refine ⟨events, state, run, ended, fun pid member => ?_, outlives run⟩
  simpa using List.all_eq_true.mp forked pid member

end OsLabs.Lab03.ProdConsMain
