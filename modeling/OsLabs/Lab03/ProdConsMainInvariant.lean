import OsLabs.Lab03.ProdConsMain

/-! The wait loop of prod_cons.c: what has become of each child in the course of a
run, and that the objects are removed after the last one. -/

namespace OsLabs.Lab03.ProdConsMain

/-- The record of one child, next to its entry in the system. -/
inductive Stage (events : List Event) (pid : Pid) : Option (Option Status) → Prop where
  | unknown (unforked : .forked pid ∉ events) (unended : terminations events pid = [])
    (silent : reports events pid = []) : Stage events pid none
  | running (unended : terminations events pid = []) (silent : reports events pid = []) :
    Stage events pid (some none)
  | zombie (ended : terminations events pid = [status]) (silent : reports events pid = []) :
    Stage events pid (some (some status))
  | reaped (accounted : Accounted events pid) : Stage events pid none

/-- What holds in every state that is reached. -/
structure Consistent (events : List Event) (state : State) : Prop where
  stage : ∀ pid, Stage events pid (state.children.lookup pid)
  positive : ∀ pid, state.children.lookup pid ≠ none → 0 < pid
  forking : ∀ i, state.pc = .fork i →
    (∀ pid, reports events pid = []) ∧ ∀ object, .removed object ∉ events
  emptied : state.pc.waited = true ∨ (state.pc = .loop ∧ state.wpid = -1) →
    state.children.entries = []
  present : ∀ object, .removed object ∉ events → state.present object = true
  kept : ∀ object, .removed object ∈ events → state.children.entries = []
  used : ∀ pid object present, .used pid object present ∈ events → present = true

variable {count : Nat} {state after : State} {events emitted : List Event} {pid : Pid}

@[simp] theorem terminations_append (events emitted : List Event) (pid : Pid) :
    terminations (events ++ emitted) pid = terminations events pid ++ terminations emitted pid :=
  List.filterMap_append

@[simp] theorem reports_append (events emitted : List Event) (pid : Pid) :
    reports (events ++ emitted) pid = reports events pid ++ reports emitted pid :=
  List.filterMap_append

@[simp] theorem terminations_single (event : Event) (pid : Pid) :
    terminations [event] pid = (event.termination pid).toList := by
  unfold terminations
  cases ending : event.termination pid <;> simp [ending]

@[simp] theorem reports_single (event : Event) (pid : Pid) :
    reports [event] pid = (event.report pid).toList := by
  unfold reports
  cases line : event.report pid <;> simp [line]

/-- Events about other things leave the record of the child as it is. -/
theorem Stage.quiet (stage : Stage events pid child) (unforked : .forked pid ∉ emitted)
    (unended : terminations emitted pid = []) (silent : reports emitted pid = []) :
    Stage (events ++ emitted) pid child := by
  cases stage with
  | unknown absent none nothing =>
    exact .unknown (by simp [absent, unforked]) (by simp [none, unended])
      (by simp [nothing, silent])
  | running none nothing => exact .running (by simp [none, unended]) (by simp [nothing, silent])
  | zombie ended nothing => exact .zombie (by simp [ended, unended]) (by simp [nothing, silent])
  | reaped accounted =>
    obtain ⟨status, ended, reported⟩ := accounted
    exact .reaped ⟨status, by simp [ended, unended], by simp [reported, silent]⟩

theorem Stage.fork (stage : Stage events pid none) (silent : reports events pid = []) :
    Stage (events ++ [.forked pid]) pid (some none) := by
  cases stage with
  | unknown absent unended nothing =>
    exact .running (by simp [unended, Event.termination]) (by simp [silent, Event.report])
  | reaped accounted =>
    obtain ⟨status, _, reported⟩ := accounted
    rw [silent] at reported
    cases reported

theorem Stage.terminate (stage : Stage events pid (some none)) (status : Status) :
    Stage (events ++ [.terminated pid status]) pid (some (some status)) := by
  cases stage with
  | running unended silent =>
    exact .zombie (by simp [unended, Event.termination]) (by simp [silent, Event.report])

theorem Stage.reap (stage : Stage events pid (some (some status))) :
    Stage (events ++ [.reported pid status]) pid none := by
  cases stage with
  | zombie ended silent =>
    exact .reaped ⟨status, by simp [ended, Event.termination], by simp [silent, Event.report]⟩

/-- A child that is not left in the system has been reported. -/
theorem Stage.accounted (stage : Stage events pid none) (forked : .forked pid ∈ events) :
    Accounted events pid := by
  cases stage with
  | unknown absent => exact absurd forked absent
  | reaped accounted => exact accounted

theorem Stage.once (stage : Stage events pid child) :
    reports events pid <+: terminations events pid ∧ (terminations events pid).length ≤ 1 := by
  cases stage with
  | unknown absent unended silent => simp [unended, silent]
  | running unended silent => simp [unended, silent]
  | zombie ended silent => simp [ended, silent]
  | reaped accounted =>
    obtain ⟨status, ended, reported⟩ := accounted
    simp [ended, reported]

theorem consistent_init (count : Nat) : Consistent [] (machine count).init where
  stage pid := .unknown (by simp) rfl rfl
  positive pid forked := absurd rfl forked
  forking i here := ⟨fun _ => rfl, fun _ => by simp⟩
  emptied out := rfl
  present object kept := rfl
  kept object removed := by simp at removed
  used pid object present member := by simp at member

/-- A child that has an entry sees both objects. -/
theorem Consistent.sees (consistent : Consistent events state)
    (child : state.children.lookup pid ≠ none) (object : Object) :
    state.present object = true := by
  refine consistent.present object fun removed => child ?_
  exact Children.lookup_of_entries_nil (consistent.kept object removed) pid

/-- A step of `main` that leaves the children and the objects alone. -/
theorem Consistent.moves (consistent : Consistent events state)
    (same : after.children = state.children) (objects : after.present = state.present)
    (unforked : ∀ i, after.pc ≠ .fork i)
    (emptied : after.pc.waited = true ∨ (after.pc = .loop ∧ after.wpid = -1) →
      state.children.entries = []) : Consistent events after where
  stage pid := same ▸ consistent.stage pid
  positive pid child := consistent.positive pid (same ▸ child)
  forking i here := absurd here (unforked i)
  emptied out := same ▸ emptied out
  present object kept := objects ▸ consistent.present object kept
  kept object removed := same ▸ consistent.kept object removed
  used := consistent.used

/-- An event that says nothing about the life of a child or of an object. -/
theorem Consistent.shows (consistent : Consistent events state) (event : Event)
    (unforked : ∀ pid, .forked pid ≠ event) (unended : ∀ pid, event.termination pid = none)
    (silent : ∀ pid, event.report pid = none) (unremoved : ∀ object, .removed object ≠ event)
    (sees : ∀ pid object present, .used pid object present = event → present = true) :
    Consistent (events ++ [event]) state where
  stage pid := (consistent.stage pid).quiet (by simp [unforked]) (by simp [unended])
    (by simp [silent])
  positive := consistent.positive
  forking i here := by
    obtain ⟨unreported, present⟩ := consistent.forking i here
    exact ⟨fun pid => by simp [unreported, silent], fun object => by simp [present, unremoved]⟩
  emptied := consistent.emptied
  present object kept := consistent.present object (by simpa [unremoved] using kept)
  kept object removed := consistent.kept object (by simpa [unremoved] using removed)
  used pid object present member := by
    rcases List.mem_append.mp member with old | new
    · exact consistent.used pid object present old
    · exact sees pid object present (List.mem_singleton.mp new)

theorem Consistent.fork (consistent : Consistent events state) (here : state.pc = .fork i)
    (positive : 0 < pid) (fresh : state.children.lookup pid = none) :
    Consistent (events ++ [.forked pid])
      { state with pc := .fork (i + 1), children := state.children.fork pid } := by
  obtain ⟨silent, kept⟩ := consistent.forking i here
  refine ⟨fun other => ?_, fun other child => ?_, fun _ _ => ⟨fun other => ?_, fun object => ?_⟩,
    fun out => ?_, fun object _ => consistent.present object (kept object),
    fun object removed => ?_, fun other object present member => ?_⟩
  · rw [Children.lookup_fork]
    by_cases same : other = pid
    · subst same
      rw [if_pos rfl]
      exact (fresh ▸ consistent.stage other).fork (silent other)
    · rw [if_neg same]
      exact (consistent.stage other).quiet (by simpa using same) (by simp [Event.termination])
        (by simp [Event.report])
  · rw [Children.lookup_fork] at child
    by_cases same : other = pid
    · rwa [same]
    · rw [if_neg same] at child
      exact consistent.positive other child
  · simp [silent, Event.report]
  · simp [kept]
  · simp [Pc.waited] at out
  · exact absurd removed (by simp [kept])
  · exact consistent.used other object present (by simpa using member)

theorem Consistent.reap (consistent : Consistent events state)
    (zombie : state.children.lookup pid = some (some status)) :
    Consistent (events ++ [.reported pid status])
      { state with pc := .loop, wpid := pid, children := state.children.reap pid } := by
  refine ⟨fun other => ?_, fun other child => ?_, fun i here => Pc.noConfusion here, fun out => ?_,
    fun object kept => consistent.present object (by simpa using kept), fun object removed => ?_,
    fun other object present member => ?_⟩
  · rw [Children.lookup_reap]
    by_cases same : other = pid
    · subst same
      rw [if_pos rfl]
      exact (zombie ▸ consistent.stage other).reap
    · rw [if_neg same]
      exact (consistent.stage other).quiet (by simp) (by simp [Event.termination])
        (by simp [Event.report, Ne.symm same])
  · rw [Children.lookup_reap] at child
    by_cases same : other = pid
    · simp [same] at child
    · rw [if_neg same] at child
      exact consistent.positive other child
  · have positive := consistent.positive pid (by simp [zombie])
    rcases out with waited | ⟨_, last⟩
    · cases waited
    · rw [show pid = -1 from last] at positive
      exact absurd positive (by decide)
  · have empty := consistent.kept object (by simpa using removed)
    simp [Children.reap, empty]
  · exact consistent.used other object present (by simpa using member)

theorem Consistent.terminate (consistent : Consistent events state)
    (running : state.children.lookup pid = some none) (status : Status) :
    Consistent (events ++ [.terminated pid status])
      { state with children := state.children.terminate pid status } := by
  refine ⟨fun other => ?_, fun other child => ?_, fun i here => ?_, fun out => ?_,
    fun object kept => consistent.present object (by simpa using kept), fun object removed => ?_,
    fun other object present member => ?_⟩
  · rw [Children.lookup_terminate]
    by_cases same : other = pid
    · subst same
      rw [if_pos rfl, running]
      exact (running ▸ consistent.stage other).terminate status
    · rw [if_neg same]
      exact (consistent.stage other).quiet (by simp) (by simp [Event.termination, Ne.symm same])
        (by simp [Event.report])
  · rw [Children.lookup_terminate] at child
    by_cases same : other = pid
    · rw [same]
      exact consistent.positive pid (by simp [running])
    · rw [if_neg same] at child
      exact consistent.positive other child
  · obtain ⟨silent, kept⟩ := consistent.forking i here
    exact ⟨fun other => by simp [silent, Event.report], fun object => by simp [kept]⟩
  · have empty := consistent.emptied out
    simp [Children.terminate, empty]
  · have empty := consistent.kept object (by simpa using removed)
    simp [Children.terminate, empty]
  · exact consistent.used other object present (by simpa using member)

/-- The removals find no child in the system. -/
theorem Consistent.remove (consistent : Consistent events state)
    (waited : state.pc.waited = true) (object : Object) (unforked : ∀ i, next ≠ .fork i) :
    Consistent (events ++ [.removed object]) (state.remove object next).1 := by
  have empty := consistent.emptied (.inl waited)
  refine ⟨fun other => ?_, consistent.positive, fun i here => absurd here (unforked i),
    fun _ => empty, fun other kept => ?_, fun _ _ => empty, fun other object present member => ?_⟩
  · exact (consistent.stage other).quiet (by simp) (by simp [Event.termination])
      (by simp [Event.report])
  · have kept : .removed other ∉ events ∧ other ≠ object := by simpa using kept
    exact (Function.update_of_ne kept.2 _ _).trans (consistent.present other kept.1)
  · exact consistent.used other object present (by simpa using member)

theorem Consistent.use (consistent : Consistent events state)
    (running : state.children.lookup pid = some none) (object : Object) :
    Consistent (events ++ [.used pid object (state.present object)]) state := by
  refine consistent.shows _ (fun _ => Event.noConfusion) (fun _ => rfl) (fun _ => rfl)
    (fun _ => Event.noConfusion) fun other shared present same => ?_
  obtain ⟨rfl, rfl, rfl⟩ : _ ∧ _ ∧ _ := by simpa using same
  exact consistent.sees (running ▸ Option.some_ne_none none) shared

theorem Consistent.next (consistent : Consistent events state)
    (taken : (machine count).next state action = some (after, emitted)) :
    Consistent (events ++ emitted) after := by
  cases next_effect taken with
  | fork here positive fresh => exact consistent.fork here positive fresh
  | reap here zombie => exact consistent.reap zombie
  | semctl here =>
    exact consistent.remove (by rw [here]; rfl) .semid fun i => Pc.noConfusion
  | shmctl here =>
    exact consistent.remove (by rw [here]; rfl) .shmid fun i => Pc.noConfusion
  | use running object => exact consistent.use running object
  | terminate running final => exact consistent.terminate running _
  | exit text =>
    have moved : Consistent events (state.exit text).1 := by
      refine consistent.moves rfl rfl (fun i => Pc.noConfusion) ?_
      rintro (waited | ⟨here, _⟩)
      · cases waited
      · cases here
    exact moved.shows _ (fun _ => Event.noConfusion) (fun _ => rfl) (fun _ => rfl)
      (fun _ => Event.noConfusion) fun _ _ _ => Event.noConfusion
  | enter here =>
    rw [List.append_nil]
    refine consistent.moves rfl rfl (fun i => Pc.noConfusion) ?_
    rintro (waited | ⟨here, _⟩)
    · cases waited
    · cases here
  | forked here | eintr here =>
    rw [List.append_nil]
    refine consistent.moves rfl rfl (fun i => Pc.noConfusion) ?_
    rintro (waited | ⟨_, last⟩)
    · cases waited
    · cases last
  | leave here last =>
    rw [List.append_nil]
    exact consistent.moves rfl rfl (fun i => Pc.noConfusion)
      fun _ => consistent.emptied (.inr ⟨here, last⟩)
  | echild here empty =>
    rw [List.append_nil]
    exact consistent.moves rfl rfl (fun i => Pc.noConfusion) fun _ => empty

theorem consistent (run : (machine count).Run allowed actions events state) :
    Consistent events state :=
  run.invariant Consistent (consistent_init count)
    fun _ _ _ _ _ holds _ taken => holds.next taken

end OsLabs.Lab03.ProdConsMain
