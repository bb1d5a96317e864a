import OsLabs.Bakery.Effect
import OsLabs.Bakery.Invariant

/-! bakery_server.c refines a line of ticket holders that is served from the
front, as long as the requests in flight have ids of their own. -/

namespace OsLabs.Bakery

variable {Tid : Type}

/-- What an activation does, seen as a move in the line. -/
def Event.place? : Event Tid → Option (TicketQueue.Event Tid)
  | .drew tid ticket => some (.drew tid ticket)
  | .entered tid => some (.entered tid)
  | .released tid => some (.left tid)
  | .locked _ | .unlocked _ | .returned _ _ | .replied _ _ => none

variable [DecidableEq Tid] {argp : Tid → Request} {shared : Shared Tid} {pcs : Tid → Pc}
variable {queue : TicketQueue.State Tid} {tid : Tid}

/-- The line answers a step of an activation. -/
def Answered (argp : Tid → Request) (shared' : Shared Tid) (pcs' : Tid → Pc)
    (emitted : List (Event Tid)) (queue : TicketQueue.State Tid) : Prop :=
  ∃ moves queue', TicketQueue.machine.Path Machine.anything queue moves
      (emitted.filterMap Event.place?) queue' ∧
    Orderly argp shared' pcs' queue'

/-- The line does not move when a step writes no ticket and nobody returns from
the waiting loop. -/
theorem Orderly.silent {pc : Pc} (orderly : Orderly argp shared pcs queue)
    (mutex : ∀ other, (Function.update pcs tid pc other).locks = true ↔
      shared'.mutex = some other)
    (number : shared'.number = shared.number) (flying : pc.inFlight = (pcs tid).inFlight)
    (holding : pc.holds = (pcs tid).holds)
    (outline : pc.Outline shared.number (argp tid).clientId)
    (unseen : emitted.filterMap Event.place? = []) :
    Answered argp shared' (Function.update pcs tid pc) emitted queue := by
  refine ⟨[], queue, ?_, orderly.move mutex number flying holding outline⟩
  rw [unseen]
  exact .start

/-- What the invariant asks of a point of the program besides its outline. -/
def Pc.flags (pc : Pc) : Bool × Bool × Bool := (pc.locks, pc.inFlight, pc.holds)

/-- The same for a step that does not touch the mutex either. -/
theorem Orderly.stay {pc : Pc} (orderly : Orderly argp shared pcs queue)
    (flags : pc.flags = (pcs tid).flags) (mutex : shared'.mutex = shared.mutex)
    (number : shared'.number = shared.number)
    (outline : pc.Outline shared.number (argp tid).clientId)
    (unseen : emitted.filterMap Event.place? = []) :
    Answered argp shared' (Function.update pcs tid pc) emitted queue := by
  simp only [Pc.flags, Prod.mk.injEq] at flags
  obtain ⟨locks, flying, holding⟩ := flags
  exact orderly.silent (mutex ▸ orderly.owned.keep locks) number flying holding outline unseen

/-- The next round of the waiting loop, or the return from it. -/
theorem Orderly.waitNext {pc : Pc} (orderly : Orderly argp shared pcs queue)
    (flags : (pcs tid).flags = (false, true, true))
    (passed : Passed shared.number (shared.number (argp tid).clientId) i)
    (next : WaitNext tid ticket i pc emitted) :
    Answered argp shared (Function.update pcs tid pc) emitted queue := by
  cases next with
  | again more => exact orderly.stay flags.symm rfl rfl passed rfl
  | done last =>
    have all : Passed shared.number (shared.number (argp tid).clientId) MAX_CLIENTS :=
      passed.mono last
    obtain ⟨locks, flying, holding⟩ : (pcs tid).locks = false ∧ (pcs tid).inFlight = true ∧
        (pcs tid).holds = true := by simpa [Pc.flags] using flags
    have front := orderly.front holding all
    refine ⟨[.enter tid], queue, .single trivial ?_,
      orderly.move (orderly.owned.keep locks.symm) rfl flying.symm holding.symm all⟩
    simp [TicketQueue.machine, front, Event.place?]

/-- The scan ends with the greatest ticket, and otherwise goes on. -/
theorem Orderly.scanNext {max : Int} {pc : Pc} (orderly : Orderly argp shared pcs queue)
    (flags : (pcs tid).flags = (true, true, false)) (greatest : Greatest shared.number i max)
    (next : ScanNext max i pc) : Answered argp shared (Function.update pcs tid pc) [] queue := by
  cases next with
  | again more => exact orderly.stay flags.symm rfl rfl greatest rfl
  | done all => exact orderly.stay flags.symm rfl rfl (greatest.mono all) rfl

/-- Every step of an activation keeps the invariant, and the line answers it. -/
theorem Orderly.step (orderly : Orderly argp shared pcs queue)
    (permitted : admissible argp ⟨shared, pcs⟩ tid)
    (stepped : Bakery.step argp tid shared (pcs tid) = some (shared', pc, emitted)) :
    Answered argp shared' (Function.update pcs tid pc) emitted queue := by
  have outline := orderly.outline tid
  have effect := step_effect stepped
  simp only [admissible] at permitted
  generalize here : pcs tid = before at effect outline permitted
  cases effect with
  | arrive =>
    obtain ⟨nonneg, below, fresh⟩ := permitted
    exact ⟨[], queue, .start, orderly.arrive here ⟨nonneg, below⟩ fresh⟩
  | lock free =>
    exact orderly.silent (orderly.owned.lock free rfl) rfl (by rw [here]; rfl) (by rw [here]; rfl)
      trivial rfl
  | setChoosing => exact orderly.stay (by rw [here]; rfl) rfl rfl (.zero _) rfl
  | greater i more => exact orderly.stay (by rw [here]; rfl) rfl rfl ⟨_, outline, more⟩ rfl
  | notGreater less next => exact orderly.scanNext (by rw [here]; rfl) (outline.keep less) next
  | scanTake next =>
    obtain ⟨max, greatest, more⟩ := outline
    exact orderly.scanNext (by rw [here]; rfl) (greatest.take more) next
  | draw max =>
    obtain ⟨ticket, kept⟩ := orderly.draw here permitted
    refine ⟨[.draw tid], _, .single trivial ?_, kept⟩
    simp [TicketQueue.machine, Event.place?, ticket]
  | clearChoosing => exact orderly.stay (by rw [here]; rfl) rfl rfl trivial rfl
  | unlock =>
    exact orderly.silent (orderly.owned.unlock (by rw [here]; rfl) rfl) rfl (by rw [here]; rfl)
      (by rw [here]; rfl) trivial rfl
  | reread =>
    have none : Passed shared.number (shared.number (argp tid).clientId) 0 :=
      fun index nonneg below => by omega
    exact orderly.stay (by rw [here]; rfl) rfl rfl none rfl
  | choosing ticket set => exact orderly.stay (by rw [here]) rfl rfl outline rfl
  | notChoosing ticket clear | nonzero ticket taken =>
    exact orderly.stay (by rw [here]; rfl) rfl rfl outline rfl
  | zero none next => exact orderly.waitNext (by rw [here]; rfl) (outline.succ (.inl none)) next
  | waitLess ticket i => exact orderly.stay (by rw [here]; rfl) rfl rfl ⟨outline, .inr⟩ rfl
  | less ticket i before => exact orderly.stay (by rw [here]; rfl) rfl rfl outline.1 rfl
  | notLess ticket i behind =>
    have passed := outline.1.succ (outline.2 behind)
    exact orderly.stay (by rw [here]; rfl) rfl rfl passed rfl
  | waitEqual ticket i => exact orderly.stay (by rw [here]; rfl) rfl rfl outline rfl
  | equal ticket before =>
    exact orderly.stay (by rw [here]; rfl) rfl rfl (outline.mono (Nat.le_succ _)) rfl
  | notEqual behind next => exact orderly.waitNext (by rw [here]; rfl) outline next
  | fillClient ticket | fillTicket ticket | fillPosition ticket | fillStatus ticket =>
    exact orderly.stay (by rw [here]; rfl) rfl rfl outline rfl
  | lockAgain ticket free =>
    exact orderly.silent (orderly.owned.lock free rfl) rfl (by rw [here]; rfl) (by rw [here]; rfl)
      outline rfl
  | release ticket =>
    obtain ⟨front, kept⟩ := orderly.release here
    refine ⟨[.leave tid], _, .single trivial ?_, kept⟩
    simp [TicketQueue.machine, Event.place?, front]
  | unlockAgain ticket =>
    exact orderly.silent (orderly.owned.unlock (by rw [here]; rfl) rfl) rfl (by rw [here]; rfl)
      (by rw [here]; rfl) trivial rfl
  | reply ticket => exact orderly.stay (by rw [here]; rfl) rfl rfl trivial rfl

/-- The server refines the line of ticket holders. -/
theorem refines_queue (argp : Tid → Request) :
    (threads argp).machine.Simulates (admissible argp) TicketQueue.machine Machine.anything
      Event.place? some
      (fun state queue => Orderly argp state.shared state.pcs queue) := by
  apply Threads.simulates (fun shared pcs queue => Orderly argp shared pcs queue)
  · exact Orderly.initial argp
  · intro shared pcs queue tid shared' pc emitted orderly permitted stepped
    obtain ⟨moves, queue', path, kept⟩ := orderly.step permitted stepped
    exact ⟨moves, _, queue', path, List.filterMap_some, kept⟩

end OsLabs.Bakery
