import OsLabs.Daemon.Single

/-! What the starts leave behind: the one that has created the lock file is the only one
ever to lock it, to write into it and to get past `already_running`. -/

namespace OsLabs.Daemon

variable {Pid : Type} [DecidableEq Pid]

omit [DecidableEq Pid] in
/-- No start has made a system call yet. -/
structure Untouched (state : State Pid) : Prop where
  waiting : ∀ pid, state.pc pid = .openFile
  absent : state.file.content = none
  unlocked : state.file.owner = none

/-- One start has created the lock file and goes on to the end or dies; all other ones
are refused by `open`. The file is empty until it holds the number of the first, who has
it locked from its `lockfile` call to its death. -/
structure Won (variant : Variant) (getpid : Pid → Nat) (state : State Pid) (creator : Pid) :
    Prop where
  inside : (state.pc creator).inside = true
  refused : ∀ other, other ≠ creator →
    state.pc other = .openFile ∨ state.pc other = variant.openFailed
  content : state.file.content =
    some (if state.pc creator = .returned 0 then pidText (getpid creator) else [])
  owner : state.file.owner =
    if (state.process creator).alive = true ∧ state.pc creator ≠ .lockFile then some creator
    else none

variable {variant : Variant} {getpid : Pid → Nat} {state after : State Pid}

/-- What one step does to the processes. -/
theorem next_process (taken : (machine variant getpid).next state action = some (after, emitted)) :
    (∃ pid file pc, (state.process pid).alive = true ∧
      Effect variant getpid pid state.file (state.pc pid) file pc ∧
      after = ⟨file, Function.update state.process pid ⟨pc, true⟩⟩) ∨
    ∃ pid, after = ⟨state.file.drop pid,
      Function.update state.process pid ⟨state.pc pid, false⟩⟩ := by
  change next variant getpid state action = _ at taken
  cases action with
  | exec pid =>
    simp only [next, Option.ite_none_right_eq_some] at taken
    obtain ⟨alive, moved⟩ := taken
    obtain ⟨⟨file, pc⟩, stepped, same⟩ := Option.map_eq_some_iff.mp moved
    obtain ⟨rfl, _⟩ := Prod.mk.inj same
    exact .inl ⟨pid, file, pc, alive, step_effect stepped, by rw [alive]⟩
  | die pid =>
    simp only [next, Option.ite_none_right_eq_some, Option.some.injEq, Prod.mk.injEq] at taken
    obtain ⟨_, rfl, _⟩ := taken
    exact .inr ⟨pid, rfl⟩

theorem pc_self (file : LockFile Pid) (process : Pid → Process) (pid : Pid) (pc : Pc)
    (alive : Bool) : State.pc ⟨file, Function.update process pid ⟨pc, alive⟩⟩ pid = pc := by
  simp [State.pc]

theorem pc_other (state : State Pid) (file : LockFile Pid) (moved : Process)
    (different : other ≠ pid) :
    State.pc ⟨file, Function.update state.process pid moved⟩ other = state.pc other := by
  simp [State.pc, different]

/-- The creator is where it may be, and nobody else has moved. -/
theorem Won.moved
    (refused : ∀ other, other ≠ creator →
      state.pc other = .openFile ∨ state.pc other = variant.openFailed)
    (inside : pc.inside = true)
    (content : file.content = some (if pc = .returned 0 then pidText (getpid creator) else []))
    (owner : file.owner = if pc ≠ .lockFile then some creator else none) :
    Won variant getpid ⟨file, Function.update state.process creator ⟨pc, true⟩⟩ creator := by
  refine ⟨by rwa [pc_self], fun other different => ?_, by rwa [pc_self], ?_⟩
  · rw [pc_other _ _ _ different]
    exact refused other different
  · rw [pc_self]
    simpa using owner

/-- The first call of `open` creates the file. -/
theorem Untouched.exec (untouched : Untouched state)
    (effect : Effect variant getpid pid state.file (state.pc pid) file pc) :
    Won variant getpid ⟨file, Function.update state.process pid ⟨pc, true⟩⟩ pid := by
  obtain ⟨waiting, absent, unlocked⟩ := untouched
  rw [waiting pid] at effect
  cases effect with
  | created created =>
    obtain rfl : { state.file with content := some [] } = file := by
      simpa [LockFile.create, absent] using created
    exact .moved (fun other _ => .inl (waiting other)) rfl rfl unlocked
  | refused exists_ => exact absurd absent exists_

/-- The creator goes on. -/
theorem Won.exec (won : Won variant getpid state creator)
    (alive : (state.process creator).alive = true)
    (effect : Effect variant getpid creator state.file (state.pc creator) file pc) :
    Won variant getpid ⟨file, Function.update state.process creator ⟨pc, true⟩⟩ creator := by
  obtain ⟨inside, refused, content, owner⟩ := won
  simp only [alive, true_and] at owner
  generalize state.pc creator = before at effect inside content owner
  cases effect with
  | created _ | refused _ => cases inside
  | locked granted =>
    obtain ⟨kept, owned⟩ := LockFile.setLock_eq_some granted
    exact .moved refused rfl (kept.trans content) owned
  | denied denied =>
    obtain ⟨other, owned, _⟩ := LockFile.setLock_eq_none denied
    rw [owner] at owned
    cases owned
  | truncated => exact .moved refused rfl rfl owner
  | written =>
    refine .moved refused rfl ?_ owner
    simp [LockFile.write, content]

/-- Another start finds the file there. -/
theorem Won.refuse (won : Won variant getpid state creator) (different : pid ≠ creator)
    (effect : Effect variant getpid pid state.file (state.pc pid) file pc) :
    Won variant getpid ⟨file, Function.update state.process pid ⟨pc, true⟩⟩ creator := by
  obtain ⟨inside, refused, content, owner⟩ := won
  have same : file = state.file ∧ pc = variant.openFailed := by
    have here := refused pid different
    generalize state.pc pid = before at effect here
    cases effect with
    | created created =>
      rw [(LockFile.create_eq_some created).1] at content
      cases content
    | refused _ => exact ⟨rfl, rfl⟩
    | locked _ | denied _ | truncated | written =>
      rcases here with fresh | failed
      · cases fresh
      · cases variant <;> cases failed
  obtain ⟨rfl, rfl⟩ := same
  have apart : creator ≠ pid := different.symm
  have still := pc_other state state.file ⟨variant.openFailed, true⟩ apart
  refine ⟨by rwa [still], fun other distinct => ?_, by rwa [still], ?_⟩
  · by_cases equal : other = pid
    · subst equal
      rw [pc_self]
      exact .inr rfl
    · rw [pc_other _ _ _ equal]
      exact refused other distinct
  · rw [still]
    simpa [apart] using owner

/-- A death takes back the lock, and nothing else. -/
theorem Won.die (won : Won variant getpid state creator) (pid : Pid) :
    Won variant getpid ⟨state.file.drop pid,
      Function.update state.process pid ⟨state.pc pid, false⟩⟩ creator := by
  obtain ⟨inside, refused, content, owner⟩ := won
  have still : State.pc ⟨state.file.drop pid,
      Function.update state.process pid ⟨state.pc pid, false⟩⟩ = state.pc := by
    rw [pc_update]
    exact Function.update_eq_self pid state.pc
  refine ⟨by rwa [still], by rwa [still], by rwa [still, LockFile.drop_content], ?_⟩
  rw [still, LockFile.drop_owner, owner]
  by_cases equal : creator = pid
  · subst equal
    simp only [Function.update_self]
    by_cases holding : (state.process creator).alive = true ∧ state.pc creator ≠ .lockFile
    · simp [holding]
    · simp [holding]
  · simp only [Function.update_of_ne equal]
    by_cases holding : (state.process creator).alive = true ∧ state.pc creator ≠ .lockFile
    · simp [holding, equal]
    · simp [holding]

theorem Won.next (won : Won variant getpid state creator)
    (taken : (machine variant getpid).next state action = some (after, emitted)) :
    Won variant getpid after creator := by
  rcases next_process taken with ⟨pid, file, pc, alive, effect, rfl⟩ | ⟨pid, rfl⟩
  · by_cases equal : pid = creator
    · subst equal
      exact won.exec alive effect
    · exact won.refuse equal effect
  · exact won.die pid

theorem Untouched.next (untouched : Untouched state)
    (taken : (machine variant getpid).next state action = some (after, emitted)) :
    Untouched after ∨ ∃ creator, Won variant getpid after creator := by
  rcases next_process taken with ⟨pid, file, pc, _, effect, rfl⟩ | ⟨pid, rfl⟩
  · exact .inr ⟨pid, untouched.exec effect⟩
  · obtain ⟨waiting, absent, unlocked⟩ := untouched
    refine .inl ⟨fun other => ?_, ?_, ?_⟩
    · rw [pc_update]
      exact (congrFun (Function.update_eq_self pid state.pc) other).trans (waiting other)
    · rwa [LockFile.drop_content]
    · simp [LockFile.drop_owner, unlocked]

/-- In every run the first start that creates the file wins, and has won for good. -/
theorem first_start_wins
    (run : (machine variant getpid).Run Machine.anything actions events state) :
    (Untouched state ∨ ∃ creator, Won variant getpid state creator) ∧
      ∀ creator later shown after, Won variant getpid state creator →
        (machine variant getpid).Path Machine.anything state later shown after →
        Won variant getpid after creator := by
  constructor
  · refine run.invariant
      (fun _ state => Untouched state ∨ ∃ creator, Won variant getpid state creator)
      (.inl ⟨fun _ => rfl, rfl, rfl⟩) ?_
    rintro events state action after emitted (untouched | ⟨creator, won⟩) _ taken
    · exact untouched.next taken
    · exact .inr ⟨creator, won.next taken⟩
  · intro creator later shown after won path
    exact path.invariant (fun _ state => Won variant getpid state creator) won
      fun _ _ _ _ _ won _ taken => won.next taken

/-- The second start is refused, and the first one dies after it has written its number. -/
def firstDies : List (Action Bool) :=
  [.exec true, .exec false, .exec true, .exec true, .exec true, .die true]

theorem first_start_wins_dies : ∃ events state,
    (machine .main fun pid => if pid then 42 else 43).Run Machine.anything firstDies events state ∧
    state.pc false = .returned 1 ∧ state.file = ⟨some (pidText 42), none⟩ := by
  let view (state : State Bool) (_ : List Empty) :=
    (state.pc true, state.pc false, (state.process true).alive)
  obtain ⟨events, state, run, seen⟩ : ∃ events state,
      (machine .main fun pid => if pid then 42 else 43).Run Machine.anything firstDies events
        state ∧ view state events = (.returned 0, .returned 1, false) :=
    Machine.Path.ofView view firstDies (fun _ _ _ => trivial) rfl
  simp only [view, Prod.mk.injEq] at seen
  obtain ⟨passed, refused, dead⟩ := seen
  rcases (first_start_wins run).1 with untouched | ⟨creator, won⟩
  · have waiting := untouched.waiting true
    rw [passed] at waiting
    cases waiting
  · obtain rfl : creator = true := by
      cases creator with
      | true => rfl
      | false =>
        have inside := won.inside
        rw [refused] at inside
        cases inside
    have content := won.content
    have owner := won.owner
    rw [passed] at content
    simp only [dead, Bool.false_eq_true, false_and, ↓reduceIte] at content owner
    exact ⟨events, state, run, refused, by rw [← content, ← owner]⟩

end OsLabs.Daemon
