import OsLabs.Daemon.Start
import OsLabs.Machine.Threads

/-! Whom `already_running` lets start. The lock file survives the daemon that has
created it, and `open` with O_EXCL does not ask whether that daemon is alive. -/

namespace OsLabs.Daemon

variable {Pid : Type} [DecidableEq Pid]

/-- The start has its answer, or has exited instead. -/
def Pc.answered : Pc → Bool
  | .returned _ | .exited => true
  | .openFile | .lockFile | .ftruncate | .write => false

/-- The start has created the lock file. -/
def Pc.inside : Pc → Bool
  | .lockFile | .ftruncate | .write | .returned 0 => true
  | _ => false

omit [DecidableEq Pid] in
/-- A live instance that has got past `already_running`. -/
def Past (state : State Pid) (pid : Pid) : Prop :=
  (state.process pid).alive = true ∧ state.pc pid = .returned 0

/-- In a run with the given schedule the start makes the call from this state. -/
def MadeIn (variant : Variant) (getpid : Pid → Nat) (actions : List (Action Pid)) (pid : Pid)
    (call : Pc) (state : State Pid) : Prop :=
  ∃ past rest seen, actions = past ++ .exec pid :: rest ∧
    (machine variant getpid).Run Machine.anything past seen state ∧ state.pc pid = call

/-- No other live instance has got past `already_running` when the start makes its
`open` and `lockfile` calls. -/
def FoundNobody (variant : Variant) (getpid : Pid → Nat) (actions : List (Action Pid))
    (pid : Pid) : Prop :=
  ∀ state, MadeIn variant getpid actions pid .openFile state ∨
    MadeIn variant getpid actions pid .lockFile state → ∀ other, other ≠ pid → ¬ Past state other

/-- When the start calls `open`, the lock file does not exist, or another live
instance has got past `already_running`. -/
def FreshOrTaken (variant : Variant) (getpid : Pid → Nat) (actions : List (Action Pid))
    (pid : Pid) : Prop :=
  ∀ state, MadeIn variant getpid actions pid .openFile state →
    state.file.content = none ∨ ∃ other, other ≠ pid ∧ Past state other

/-- Whoever has created the file is the only one, and the only one to lock it. -/
structure Single (file : LockFile Pid) (pcs : Pid → Pc) : Prop where
  fresh : file.content = none → ∀ pid, pcs pid = .openFile
  unique : ∀ pid other, (pcs pid).inside = true → (pcs other).inside = true → pid = other
  owner : ∀ pid, file.owner = some pid → (pcs pid).inside = true

variable {variant : Variant} {getpid : Pid → Nat} {pid : Pid} {state : State Pid}
variable {file file' : LockFile Pid} {pcs : Pid → Pc} {pc : Pc} {actions : List (Action Pid)}

theorem Variant.openFailed_inside (variant : Variant) : variant.openFailed.inside = false := by
  cases variant <;> rfl

theorem Pc.eq_of_inside {pc : Pc} (answered : pc.answered = true) (inside : pc.inside = true) :
    pc = .returned 0 := by
  cases pc with
  | returned value =>
    by_contra other
    simp_all [Pc.inside]
  | exited => cases inside
  | openFile | lockFile | ftruncate | write => cases answered

theorem Effect.moved (effect : Effect variant getpid pid file before file' pc) :
    pc ≠ .openFile := by
  cases effect with
  | refused _ => cases variant <;> exact Pc.noConfusion
  | created _ | locked _ | denied _ | truncated | written => exact Pc.noConfusion

/-- A start that has been refused makes no system call any more. -/
theorem Effect.not_refused (effect : Effect variant getpid pid file before file' pc) :
    before ≠ variant.openFailed := by
  cases variant <;> (rintro rfl; cases effect)

/-- A step that lets nobody in. -/
theorem Single.move (single : Single file pcs) (present : file'.content ≠ none)
    (same : pc.inside = (pcs pid).inside)
    (owner : ∀ other, file'.owner = some other → (pcs other).inside = true) :
    Single file' (Function.update pcs pid pc) := by
  have flag : ∀ other, (Function.update pcs pid pc other).inside = (pcs other).inside :=
    Threads.update_flag Pc.inside same
  refine ⟨fun none => absurd none present, ?_, ?_⟩
  · intro one other
    rw [flag, flag]
    exact single.unique one other
  · intro other owned
    rw [flag]
    exact owner other owned

theorem Single.step (single : Single file pcs)
    (effect : Effect variant getpid pid file (pcs pid) file' pc) :
    Single file' (Function.update pcs pid pc) := by
  have present (moved : pcs pid ≠ .openFile) : file.content ≠ none :=
    fun none => moved (single.fresh none pid)
  generalize here : pcs pid = before at effect
  cases effect with
  | created created =>
    obtain ⟨none, present, kept⟩ := LockFile.create_eq_some created
    have outside := single.fresh none
    refine ⟨fun gone => absurd gone present, ?_, ?_⟩
    · have creator : ∀ one, (Function.update pcs pid .lockFile one).inside = true → one = pid := by
        intro one inside
        by_contra different
        rw [Function.update_of_ne different, outside] at inside
        cases inside
      intro one other first second
      rw [creator one first, creator other second]
    · intro other owned
      rw [kept] at owned
      have inside := single.owner other owned
      rw [outside] at inside
      cases inside
  | refused exists_ =>
    refine single.move exists_ ?_ single.owner
    rw [here, variant.openFailed_inside]
    rfl
  | locked granted =>
    obtain ⟨content, owned⟩ := LockFile.setLock_eq_some granted
    refine single.move ?_ (by rw [here]; rfl) ?_
    · rw [content]
      exact present (by rw [here]; decide)
    · intro other same
      rw [owned] at same
      obtain rfl := Option.some.inj same
      rw [here]
      rfl
  | denied denied =>
    obtain ⟨other, owned, different⟩ := LockFile.setLock_eq_none denied
    exact absurd (single.unique other pid (single.owner other owned) (by rw [here]; rfl)) different
  | truncated => exact single.move (by simp [LockFile.truncate]) (by rw [here]; rfl) single.owner
  | written =>
    refine single.move ?_ (by rw [here]; rfl) single.owner
    simpa [LockFile.write] using present (by rw [here]; decide)

theorem single_of_run
    (run : (machine variant getpid).Run Machine.anything actions events state) :
    Single state.file state.pc := by
  refine run.invariant (fun _ state => Single state.file state.pc) ⟨fun _ _ => rfl, ?_, ?_⟩ ?_
  · intro _ _ inside
    cases inside
  · intro _ owned
    cases owned
  · intro events state action after emitted single _ taken
    rcases next_cases taken with ⟨pid, file, pc, _, effect, rfl, pcs⟩ | ⟨pid, _, file, pcs⟩
    · rw [pcs]
      exact single.step effect
    · rw [pcs, file]
      exact ⟨by rw [LockFile.drop_content]; exact single.fresh, single.unique,
        fun other owned => single.owner other (LockFile.owner_of_drop owned)⟩

/-- Two live instances have never both got past. -/
theorem single_instance
    (run : (machine variant getpid).Run Machine.anything actions events state)
    (first : Past state pid) (second : Past state other) : pid = other :=
  (single_of_run run).unique pid other (by rw [first.2]; rfl) (by rw [second.2]; rfl)

/-- Whoever has made a system call has called `open`. -/
theorem moved_of_run (run : (machine variant getpid).Run Machine.anything actions events state)
    (moved : .exec pid ∈ actions) : state.pc pid ≠ .openFile := by
  induction run with
  | start => cases moved
  | step path _ taken ih =>
    rcases next_cases taken with ⟨actor, file, pc, rfl, effect, _, pcs⟩ | ⟨_, rfl, _, pcs⟩
    · rw [pcs]
      by_cases equal : pid = actor
      · subst equal
        rw [Function.update_self]
        exact effect.moved
      · rw [Function.update_of_ne equal]
        exact ih (by simpa [equal] using moved)
    · rw [pcs]
      exact ih (by simpa using moved)

theorem MadeIn.append (made : MadeIn variant getpid actions pid call state)
    (more : List (Action Pid)) : MadeIn variant getpid (actions ++ more) pid call state := by
  obtain ⟨past, rest, seen, rfl, run, here⟩ := made
  exact ⟨past, rest ++ more, seen, by simp, run, here⟩

/-- `open` is called once. -/
theorem MadeIn.unique (first : MadeIn variant getpid actions pid .openFile state)
    (second : MadeIn variant getpid actions pid .openFile state') : state = state' := by
  obtain ⟨past, rest, seen, rfl, run, here⟩ := first
  obtain ⟨past', rest', seen', parts, run', here'⟩ := second
  have early (late : .exec pid ∈ past) : False := moved_of_run run late here
  have early' (late : .exec pid ∈ past') : False := moved_of_run run' late here'
  rcases List.append_eq_append_iff.mp parts with ⟨between, same, tail⟩ | ⟨between, same, tail⟩
  · cases between with
    | nil =>
      rw [List.append_nil] at same
      subst same
      exact (run.unique run').2
    | cons head between =>
      obtain ⟨rfl, _⟩ := List.cons_eq_cons.mp tail
      exact (early' (by simp [same])).elim
  · cases between with
    | nil =>
      rw [List.append_nil] at same
      subst same
      exact (run.unique run').2
    | cons head between =>
      obtain ⟨rfl, _⟩ := List.cons_eq_cons.mp tail
      exact (early (by simp [same])).elim

/-- What has become of a start is decided by what its `open` has found. -/
theorem opened_of_run (run : (machine variant getpid).Run Machine.anything actions events state)
    (moved : state.pc pid ≠ .openFile) :
    ∃ opening, MadeIn variant getpid actions pid .openFile opening ∧
      (opening.file.content = none ∧ (state.pc pid).inside = true ∨
        opening.file.content ≠ none ∧ state.pc pid = variant.openFailed) := by
  induction run with
  | start => exact absurd rfl moved
  | @step actions events state action after emitted path _ taken ih =>
    have kept (same : after.pc pid = state.pc pid) :
        ∃ opening, MadeIn variant getpid (actions ++ [action]) pid .openFile opening ∧
          (opening.file.content = none ∧ (after.pc pid).inside = true ∨
            opening.file.content ≠ none ∧ after.pc pid = variant.openFailed) := by
      rw [same] at moved ⊢
      obtain ⟨opening, made, outcome⟩ := ih moved
      exact ⟨opening, made.append [action], outcome⟩
    rcases next_cases taken with ⟨actor, file, pc, rfl, effect, _, pcs⟩ | ⟨_, rfl, _, pcs⟩
    · by_cases equal : pid = actor
      · subst equal
        have single := single_of_run path
        have now : after.pc pid = pc := by rw [pcs, Function.update_self]
        rw [now]
        have later (call : state.pc pid ≠ .openFile) (inside : pc.inside = true) :
            ∃ opening, MadeIn variant getpid (actions ++ [.exec pid]) pid .openFile opening ∧
              (opening.file.content = none ∧ pc.inside = true ∨
                opening.file.content ≠ none ∧ pc = variant.openFailed) := by
          obtain ⟨opening, made, ⟨fresh, _⟩ | ⟨_, refused⟩⟩ := ih call
          · exact ⟨opening, made.append [.exec pid], .inl ⟨fresh, inside⟩⟩
          · exact absurd refused effect.not_refused
        generalize here : state.pc pid = before at effect later
        cases effect with
        | created created =>
          exact ⟨state, ⟨actions, [], events, rfl, path, here⟩,
            .inl ⟨(LockFile.create_eq_some created).1, rfl⟩⟩
        | refused exists_ =>
          exact ⟨state, ⟨actions, [], events, rfl, path, here⟩, .inr ⟨exists_, rfl⟩⟩
        | denied denied =>
          obtain ⟨other, owned, different⟩ := LockFile.setLock_eq_none denied
          exact absurd (single.unique other pid (single.owner other owned) (by rw [here]; rfl))
            different
        | locked _ | truncated | written => exact later Pc.noConfusion rfl
      · exact kept (by rw [pcs, Function.update_of_ne equal])
    · exact kept (by rw [pcs])

/-- A start that `open` has refused met a live instance exactly if one was there at
that moment. -/
theorem foundNobody_iff_of_refused
    (run : (machine variant getpid).Run Machine.anything actions events state)
    (made : MadeIn variant getpid actions pid .openFile opening)
    (present : opening.file.content ≠ none) :
    FoundNobody variant getpid actions pid ↔ ∀ other, other ≠ pid → ¬ Past opening other := by
  constructor
  · intro nobody
    exact nobody opening (.inl made)
  · rintro alone current (again | later)
    · rwa [again.unique made]
    · obtain ⟨past, rest, seen, rfl, path, here⟩ := later
      obtain ⟨first, opened, outcome⟩ := opened_of_run path (by rw [here]; decide)
      have same := (opened.append (.exec pid :: rest)).unique made
      subst same
      rcases outcome with ⟨fresh, _⟩ | ⟨_, refused⟩
      · exact absurd fresh present
      · rw [here] at refused
        cases variant <;> cases refused

/-- `already_running` lets a start in exactly if it finds no other live instance,
provided that the lock file does not exist or its owner is alive. -/
theorem single_instance_iff
    (run : (machine variant getpid).Run Machine.anything actions events state)
    (answered : (state.pc pid).answered = true) :
    (state.pc pid = .returned 0 ↔ FoundNobody variant getpid actions pid) ↔
      FreshOrTaken variant getpid actions pid := by
  have moved : state.pc pid ≠ .openFile := by
    intro here
    rw [here] at answered
    cases answered
  obtain ⟨opening, made, ⟨fresh, inside⟩ | ⟨present, refused⟩⟩ := opened_of_run run moved
  · have passed := Pc.eq_of_inside answered inside
    refine iff_of_true (iff_of_true passed ?_) ?_
    · rintro current (again | ⟨_, _, _, _, path, here⟩) other different ⟨_, past⟩
      · rw [again.unique made] at past
        obtain ⟨_, _, _, _, path, _⟩ := made
        rw [(single_of_run path).fresh fresh] at past
        cases past
      · have single := single_of_run path
        exact different (single.unique other pid (by rw [past]; rfl) (by rw [here]; rfl))
    · intro current opened
      rw [opened.unique made]
      exact .inl fresh
  · have denied : state.pc pid ≠ .returned 0 := by
      rw [refused]
      cases variant <;> decide
    rw [foundNobody_iff_of_refused run made present]
    constructor
    · intro law current opened
      rw [opened.unique made]
      refine .inr ?_
      by_contra nobody
      exact denied (law.mpr fun other different past => nobody ⟨other, different, past⟩)
    · intro taken
      obtain ⟨other, different, past⟩ := (taken opening made).resolve_left present
      exact iff_of_false denied fun nobody => nobody other different past

/-- A start that is refused while the first instance is running. -/
theorem single_instance_iff_second : ∃ actions events state,
    (machine .main fun _ => 1).Run Machine.anything actions events state ∧
    Past state true ∧ state.pc false = .returned 1 ∧
    ((state.pc false = .returned 0 ↔ FoundNobody .main (fun _ => 1) actions false) ↔
      FreshOrTaken .main (fun _ => 1) actions false) := by
  let schedule : List (Action Bool) :=
    [.exec true, .exec true, .exec true, .exec true, .exec false]
  let view (state : State Bool) (_ : List Empty) : Bool × Pc × Pc :=
    ((state.process true).alive, state.pc true, state.pc false)
  obtain ⟨events, state, run, seen⟩ : ∃ events state,
      (machine .main fun _ => 1).Run Machine.anything schedule events state ∧
      view state events = (true, .returned 0, .returned 1) :=
    Machine.Path.ofView view schedule (fun _ _ _ => trivial) rfl
  obtain ⟨alive, passed, refused⟩ : _ ∧ _ ∧ _ := by simpa [view] using seen
  exact ⟨schedule, events, state, run, ⟨alive, passed⟩, refused,
    single_instance_iff run (by rw [refused]; rfl)⟩

/-- After the first instance has died nobody is let in any more. -/
theorem refused_after_death : ∃ actions events state,
    (machine .main fun _ => 1).Run Machine.anything actions events state ∧
    state.pc false = .returned 1 ∧
    ¬ (state.pc false = .returned 0 ↔ FoundNobody .main (fun _ => 1) actions false) := by
  let first : List (Action Bool) := [.exec true, .exec true, .exec true, .exec true, .die true]
  let view (state : State Bool) (_ : List Empty) : Bool × Bool × Pc × Bool :=
    ((state.process true).alive, (state.process false).alive, state.pc false,
      state.file.content.isSome)
  obtain ⟨events, opening, path, seen⟩ : ∃ events state,
      (machine .main fun _ => 1).Run Machine.anything first events state ∧
      view state events = (false, true, .openFile, true) :=
    Machine.Path.ofView view first (fun _ _ _ => trivial) rfl
  obtain ⟨dead, alive, here, present⟩ : _ ∧ _ ∧ _ ∧ _ := by simpa [view] using seen
  have exists_ : opening.file.content ≠ none := Option.isSome_iff_ne_none.mp present
  let refused : State Bool :=
    ⟨opening.file, Function.update opening.process false ⟨.returned 1, true⟩⟩
  have taken : (machine .main fun _ => 1).next opening (.exec false) = some (refused, []) := by
    have failed := LockFile.create_eq_none_iff.mpr exists_
    have call : (opening.process false).pc = .openFile := here
    simp only [machine, next, alive, call, step, failed, if_true]
    rfl
  have run := path.step trivial taken
  have made : MadeIn .main (fun _ => 1) (first ++ [.exec false]) false .openFile opening :=
    ⟨first, [], events, rfl, path, here⟩
  have nobody : FoundNobody .main (fun _ => 1) (first ++ [.exec false]) false := by
    refine (foundNobody_iff_of_refused run made exists_).mpr fun other different past => ?_
    cases other
    · exact different rfl
    · rw [Past, dead] at past
      cases past.1
  refine ⟨_, _, _, run, rfl, fun law => ?_⟩
  have passed := law.mpr nobody
  cases passed

end OsLabs.Daemon
