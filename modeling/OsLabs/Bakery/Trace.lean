import OsLabs.Bakery.Effect

/-! Which step of an activation shows which event, and what the events of a run
say about how far an activation has got. -/

namespace OsLabs.Bakery

variable {Tid : Type}

/-- The activation has drawn its ticket, and may have given it up since. -/
def Pc.drawn : Pc → Bool
  | .arrive | .lock | .setChoosing | .scan _ _ | .scanTake _ | .draw _ => false
  | .clearChoosing | .unlock | .reread | .waitChoosing _ _ | .waitNonzero _ _ | .waitLess _ _
  | .waitLessOwn _ _ _ | .waitEqual _ _ | .waitEqualOwn _ _ _ | .fillClient _ | .fillTicket _
  | .fillPosition _ | .fillStatus _ | .lockAgain _ | .release _ | .unlockAgain _ | .reply _
  | .finished => true

/-- The steps that show an event. -/
inductive Shows (tid : Tid) (shared : Shared Tid) : Pc → Event Tid → Pc → Prop where
  | locked : Shows tid shared .lock (.locked tid) .setChoosing
  | drew (max : Int) :
    Shows tid shared (.draw max) (.drew tid (int32 (max + 1))) .clearChoosing
  | unlocked : Shows tid shared .unlock (.unlocked tid) .reread
  | returned (ticket : Int) :
    Shows tid shared .reread (.returned tid ticket) (.waitChoosing ticket 0)
  | entered {pc : Pc} (ticket : Int) (drawn : pc.drawn = true) :
    Shows tid shared pc (.entered tid) (.fillClient ticket)
  | released (ticket : Int) :
    Shows tid shared (.release ticket) (.released tid) (.unlockAgain ticket)
  | replied (ticket : Int) :
    Shows tid shared (.reply ticket) (.replied tid shared.result) .finished

variable {argp : Tid → Request} {tid : Tid} {shared shared' : Shared Tid}
variable {pc pc' : Pc} {emitted : List (Event Tid)}

/-- A round of the waiting loop is silent until the loop is left. -/
theorem WaitNext.shows (shared : Shared Tid) (drawn : pc.drawn = true)
    (next : WaitNext tid ticket i pc' emitted) :
    (emitted = [] ∧ pc'.drawn = pc.drawn) ∨
      ∃ event, emitted = [event] ∧ Shows tid shared pc event pc' := by
  cases next with
  | again more => exact .inl ⟨rfl, drawn.symm⟩
  | done all => exact .inr ⟨.entered tid, rfl, .entered ticket drawn⟩

/-- A step shows at most one event. -/
theorem step_shows (stepped : step argp tid shared pc = some (shared', pc', emitted)) :
    (emitted = [] ∧ pc'.drawn = pc.drawn) ∨
      ∃ event, emitted = [event] ∧ Shows tid shared pc event pc' := by
  cases step_effect stepped with
  | arrive | setChoosing | greater | clearChoosing | choosing | notChoosing | nonzero | waitLess
  | less | notLess | waitEqual | equal | fillClient | fillTicket | fillPosition | fillStatus
  | lockAgain | unlockAgain => exact .inl ⟨rfl, rfl⟩
  | notGreater _ next | scanTake next => cases next <;> exact .inl ⟨rfl, rfl⟩
  | zero _ next | notEqual _ next => exact next.shows shared rfl
  | lock _ => exact .inr ⟨_, rfl, .locked⟩
  | draw max => exact .inr ⟨_, rfl, .drew max⟩
  | unlock => exact .inr ⟨_, rfl, .unlocked⟩
  | reread => exact .inr ⟨_, rfl, .returned _⟩
  | release ticket => exact .inr ⟨_, rfl, .released ticket⟩
  | reply ticket => exact .inr ⟨_, rfl, .replied ticket⟩

/-- The draws that a run has shown are those of the activations that have drawn. -/
structure Drawn (events : List (Event Tid)) (pcs : Tid → Pc) : Prop where
  drew : ∀ tid, (∃ ticket, .drew tid ticket ∈ events) ↔ (pcs tid).drawn = true
  unlocked : ∀ tid, .unlocked tid ∈ events → (pcs tid).drawn = true

theorem Drawn.initial : Drawn ([] : List (Event Tid)) (fun _ => .arrive) :=
  ⟨fun _ => by simp [Pc.drawn], fun _ member => by simp at member⟩

variable [DecidableEq Tid]

/-- An event that is no draw, shown by a step that draws nothing. -/
theorem Drawn.keep {events : List (Event Tid)} {pcs : Tid → Pc} (drawn : Drawn events pcs)
    (same : pc'.drawn = (pcs tid).drawn) (noDraw : ∀ other ticket, .drew other ticket ∉ emitted)
    (unlocks : ∀ other, .unlocked other ∈ emitted → other = tid ∧ pc'.drawn = true) :
    Drawn (events ++ emitted) (Function.update pcs tid pc') := by
  have flag := Threads.update_flag Pc.drawn same
  refine ⟨fun other => ?_, fun other member => ?_⟩
  · rw [flag, ← drawn.drew]
    simp [noDraw]
  · rw [flag]
    rcases List.mem_append.mp member with before | now
    · exact drawn.unlocked other before
    · obtain ⟨rfl, after⟩ := unlocks other now
      exact same ▸ after

theorem Drawn.draw {events : List (Event Tid)} {pcs : Tid → Pc} (drawn : Drawn events pcs)
    (ticket : Int) :
    Drawn (events ++ [.drew tid ticket]) (Function.update pcs tid .clearChoosing) := by
  refine ⟨fun other => ?_, fun other member => ?_⟩
  · by_cases equal : other = tid
    · subst equal
      simp [Pc.drawn]
    · rw [Function.update_of_ne equal, ← drawn.drew]
      simp [equal]
  · have before : .unlocked other ∈ events := by simpa using member
    by_cases equal : other = tid
    · subst equal
      simp [Pc.drawn]
    · rw [Function.update_of_ne equal]
      exact drawn.unlocked other before

theorem Drawn.ofRun {allowed : Threads.State Tid (Shared Tid) Pc → Tid → Prop}
    (run : (threads argp).machine.Run allowed actions events state) : Drawn events state.pcs := by
  refine Threads.invariant (fun events _ pcs => Drawn events pcs) .initial ?_ run
  intro events shared pcs tid shared' pc emitted drawn _ stepped
  rcases step_shows stepped with ⟨rfl, same⟩ | ⟨event, rfl, shows⟩
  · exact drawn.keep same (by simp) (by simp)
  · generalize here : pcs tid = before at shows
    cases shows with
    | drew max => exact drawn.draw _
    | unlocked => exact drawn.keep (by rw [here]; rfl) (by simp) (by simp [Pc.drawn])
    | entered ticket hasDrawn =>
      exact drawn.keep (by rw [here, hasDrawn]; rfl) (by simp) (by simp)
    | locked | returned ticket | released ticket | replied ticket =>
      exact drawn.keep (by rw [here]; rfl) (by simp) (by simp)

theorem next_shows {state : Threads.State Tid (Shared Tid) Pc}
    (taken : (threads argp).machine.next state tid = some (after, [event])) :
    ∃ shared' pc', after = ⟨shared', Function.update state.pcs tid pc'⟩ ∧
      Shows tid state.shared (state.pcs tid) event pc' := by
  obtain ⟨shared', pc', stepped, rfl⟩ := Threads.next_cases taken
  rcases step_shows stepped with ⟨none, _⟩ | ⟨shown, same, shows⟩
  · cases none
  · cases same
    exact ⟨shared', pc', rfl, shows⟩

/-- An event of a run was shown by a step of its own, after exactly the events
that precede it. -/
theorem shown_step {allowed : Threads.State Tid (Shared Tid) Pc → Tid → Prop}
    (run : (threads argp).machine.Run allowed actions events state)
    (place : events = before ++ event :: behind) :
    ∃ past current tid shared' pc', (threads argp).machine.Run allowed past before current ∧
      Shows tid current.shared (current.pcs tid) event pc' ∧
      (threads argp).machine.Run allowed (past ++ [tid]) (before ++ [event])
        ⟨shared', Function.update current.pcs tid pc'⟩ := by
  obtain ⟨past, seen, current, tid, after, emitted, early, late, _, path, permitted, taken, shown,
    rfl, _⟩ := run.emission place
  obtain ⟨shared', pc', stepped, rfl⟩ := Threads.next_cases taken
  have step := path.step permitted taken
  rcases step_shows stepped with ⟨rfl, _⟩ | ⟨event', rfl, shows⟩
  · simp at shown
  · rcases early with _ | ⟨first, rest⟩
    · obtain ⟨rfl, _⟩ := List.cons.inj shown
      rw [List.append_nil]
      exact ⟨past, current, tid, shared', pc', path, shows, step⟩
    · simp at shown

end OsLabs.Bakery
