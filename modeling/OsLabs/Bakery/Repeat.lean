import OsLabs.Bakery.Solo
import OsLabs.Bakery.Trace

/-! Requests whose ids repeat. A ticket is kept per id and not per request: it is
safe as long as nobody else assigns to the entry that it is in. -/

namespace OsLabs.Bakery

/-- About to assign to the own entry of `number`. -/
def Pc.assigns : Pc → Bool
  | .draw _ | .release _ => true
  | _ => false

/-- Between the unlock in `get_ticket` and `number[client_id] = 0`. -/
def Pc.ticketed : Pc → Bool
  | .clearChoosing | .unlock => false
  | pc => pc.holds

variable {Tid : Type}

/-- No activation assigns to an entry of `number` in which another one, of the
same id, has its ticket. -/
def ownEntry (argp : Tid → Request) (state : Threads.State Tid (Shared Tid) Pc) (tid : Tid) :
    Prop :=
  (state.pcs tid).assigns = true → ∀ other, other ≠ tid → (state.pcs other).holds = true →
    (argp other).clientId ≠ (argp tid).clientId

/-- The entry of an activation holds the one ticket that it has drawn until it
gives it up, and this is the ticket that `get_ticket` has returned to it. -/
structure KeepsTickets (argp : Tid → Request) (events : List (Event Tid))
    (state : Threads.State Tid (Shared Tid) Pc) : Prop where
  kept : ∀ tid, (state.pcs tid).ticketed = true →
    .drew tid (state.shared.number (argp tid).clientId) ∈ events
  once : ∀ tid first second, .drew tid first ∈ events → .drew tid second ∈ events →
    first = second
  returned : ∀ tid ticket, .returned tid ticket ∈ events → .drew tid ticket ∈ events

variable {argp : Tid → Request} {tid : Tid} {shared shared' : Shared Tid} {pc pc' : Pc}
variable {emitted : List (Event Tid)}

theorem Pc.holds_of_ticketed (ticketed : pc.ticketed = true) : pc.holds = true := by
  cases pc <;> first | rfl | exact ticketed

/-- Tickets come and go with the assignments to `number` only. -/
theorem step_keeps_number (idle : pc.assigns = false)
    (stepped : step argp tid shared pc = some (shared', pc', emitted)) :
    shared'.number = shared.number ∧ pc'.holds = pc.holds := by
  cases step_effect stepped with
  | draw | release => cases idle
  | notGreater _ next | scanTake next | zero _ next | notEqual _ next =>
    cases next <;> exact ⟨rfl, rfl⟩
  | _ => exact ⟨rfl, rfl⟩

variable [DecidableEq Tid]

/-- Whoever has drawn a ticket and not given it up finds it in its entry. -/
theorem kept_of_run (run : (threads argp).machine.Run (ownEntry argp) actions events state)
    (tid : Tid) (holds : (state.pcs tid).holds = true) :
    .drew tid (state.shared.number (argp tid).clientId) ∈ events := by
  refine Threads.invariant (fun events shared pcs => ∀ tid, (pcs tid).holds = true →
    .drew tid (shared.number (argp tid).clientId) ∈ events) (fun _ holds => by cases holds) ?_ run
    tid holds
  intro events shared pcs tid shared' pc emitted kept permitted stepped
  have others : (∀ index, index ≠ (argp tid).clientId ∨ (pcs tid).assigns = false →
      shared'.number index = shared.number index) → ∀ other, other ≠ tid →
      (pcs other).holds = true →
      .drew other (shared'.number (argp other).clientId) ∈ events ++ emitted := by
    intro same other different holds
    have apart : (argp other).clientId ≠ (argp tid).clientId ∨ (pcs tid).assigns = false := by
      cases assigns : (pcs tid).assigns with
      | false => exact .inr rfl
      | true => exact .inl (permitted assigns other different holds)
    rw [same _ apart]
    exact List.mem_append_left _ (kept other holds)
  refine (Function.forall_update_iff pcs (fun tid pc => pc.holds = true →
    .drew tid (shared'.number (argp tid).clientId) ∈ events ++ emitted)).mpr ?_
  cases assigns : (pcs tid).assigns with
  | false =>
    obtain ⟨same, holding⟩ := step_keeps_number assigns stepped
    refine ⟨fun holds => ?_, others fun index _ => by rw [same]⟩
    rw [same]
    exact List.mem_append_left _ (kept tid (holding ▸ holds))
  | true =>
    have effect := step_effect stepped
    generalize here : pcs tid = before at assigns effect others
    cases effect with
    | draw max =>
      exact ⟨fun _ => by simp, others fun index apart =>
        if_neg (apart.resolve_right Bool.noConfusion)⟩
    | release ticket =>
      exact ⟨fun holds => (nomatch holds), others fun index apart =>
        if_neg (apart.resolve_right Bool.noConfusion)⟩
    | _ => cases assigns

variable {allowed : Threads.State Tid (Shared Tid) Pc → Tid → Prop}

/-- An activation that draws has not drawn before. -/
theorem drew_fresh (run : (threads argp).machine.Run allowed actions events state)
    (place : events = before ++ .drew tid ticket :: behind) (earlier : Int) :
    .drew tid earlier ∉ before := by
  intro member
  obtain ⟨past, current, actor, shared', pc', path, shows, _⟩ := shown_step run place
  have drawn := ((Drawn.ofRun path).drew tid).mp ⟨earlier, member⟩
  generalize here : current.pcs actor = pc at shows
  cases shows with
  | drew max =>
    rw [here] at drawn
    cases drawn

theorem drew_once (run : (threads argp).machine.Run allowed actions events state)
    (one : .drew tid first ∈ events) (two : .drew tid second ∈ events) : first = second := by
  obtain ⟨before, behind, place⟩ := List.append_of_mem one
  rw [place, List.mem_append, List.mem_cons] at two
  rcases two with early | same | late
  · exact absurd early (drew_fresh run place second)
  · cases same
    rfl
  · obtain ⟨between, rest, parts⟩ := List.append_of_mem late
    rw [parts, ← List.cons_append, ← List.append_assoc] at place
    exact absurd (by simp) (drew_fresh run place first)

/-- `get_ticket` returns what it finds in the entry, which is the ticket drawn. -/
theorem returned_drawn (run : (threads argp).machine.Run (ownEntry argp) actions events state)
    (returned : .returned tid ticket ∈ events) : .drew tid ticket ∈ events := by
  obtain ⟨before, behind, place⟩ := List.append_of_mem returned
  obtain ⟨past, seen, current, actor, after, emitted, early, late, _, path, _, taken, shown,
    parts, _⟩ := run.emission place
  obtain ⟨shared', pc', stepped, rfl⟩ := Threads.next_cases taken
  have member : .returned tid ticket ∈ emitted := by simp [shown]
  have effect : Effect (argp actor) actor current.shared (current.pcs actor) shared' pc' emitted :=
    step_effect stepped
  generalize here : current.pcs actor = pc at effect
  cases effect with
  | reread =>
    obtain ⟨rfl, rfl⟩ : tid = actor ∧ ticket = current.shared.number (argp actor).clientId := by
      simpa using member
    have kept := kept_of_run path tid (by rw [here]; rfl)
    rw [place, parts]
    simp [kept]
  | zero _ next | notEqual _ next => cases next <;> simp at member
  | _ => simp at member

/-- No ticket is lost as long as no activation assigns to an entry in which
another one has its ticket. The ids need not be distinct for it. -/
theorem keepsTickets_of_ownEntry
    (run : (threads argp).machine.Run (ownEntry argp) actions events state) :
    KeepsTickets argp events state where
  kept tid ticketed := kept_of_run run tid (Pc.holds_of_ticketed ticketed)
  once _ _ _ := drew_once run
  returned _ _ := returned_drawn run

/-- Two requests of client 1. -/
def twins : Bool → Request :=
  fun _ => ⟨1, Vector.replicate 50 0, Vector.replicate 100 0⟩

/-- The second request of client 1 arrives when the first one has been answered. -/
theorem keepsTickets_of_ownEntry_twins : ∃ actions events state,
    (threads twins).machine.Run (ownEntry twins) actions events state ∧
    (state.pcs false).ticketed = true ∧ .returned false 1 ∈ events ∧
    KeepsTickets twins events state := by
  have idle : Idle (threads twins).shared := ⟨rfl, fun _ => rfl, fun _ => rfl⟩
  obtain ⟨shared, idle, service⟩ := Alone.service twins true (fun _ => .arrive) idle (by decide)
    (fun _ _ flies => by cases flies)
  let pcs : Bool → Pc := Function.update (fun _ => .arrive) true .finished
  have small : ∀ index, shared.number index < INT_MAX := by
    intro index
    rw [idle.number]
    decide
  obtain ⟨max, shared', greatest, draw, _⟩ := Alone.draw twins false pcs idle.free (by decide)
    (fun other _ flies => by cases other <;> cases flies) small
  obtain rfl : max = 0 := by
    rcases greatest.attained with zero | ⟨index, same⟩
    · exact zero
    · rw [← same, idle.number]
  have alone : ∀ (tid : Bool) (pcs : Bool → Pc),
      (∀ other, other ≠ tid → (pcs other).holds = false) →
      ∀ shared pc, admissible twins ⟨shared, Function.update pcs tid pc⟩ tid →
        ownEntry twins ⟨shared, Function.update pcs tid pc⟩ tid := by
    intro tid pcs none shared pc _ _ other different holds
    change (Function.update pcs tid pc other).holds = true at holds
    rw [Function.update_of_ne different, none other different] at holds
    cases holds
  have quiet : ∀ other, other ≠ false → (pcs other).holds = false := by
    intro other different
    cases other
    · exact absurd rfl different
    · rfl
  obtain ⟨_, served⟩ := (service.strengthen (alone true _ fun _ _ => rfl)).path rfl
  obtain ⟨_, drawn⟩ := (draw.strengthen (alone false pcs quiet)).path rfl
  have run := served.append drawn
  exact ⟨_, _, _, run, rfl, by simp, keepsTickets_of_ownEntry run⟩

/-- Whether or not its id is in flight already, a request draws a ticket. -/
theorem drawn_anyway (argp : Tid → Request) (tid : Tid) (pcs : Tid → Pc) (here : pcs tid = .arrive)
    (free : shared.mutex = none) (small : ∀ index, shared.number index < INT_MAX) :
    ∃ max shared' actions, Greatest shared.number MAX_CLIENTS max ∧
      (threads argp).machine.Path Machine.anything ⟨shared, pcs⟩ actions
        [.locked tid, .drew tid (max + 1), .unlocked tid, .returned tid (max + 1)]
        ⟨shared', Function.update pcs tid (.waitChoosing (max + 1) 0)⟩ ∧
      shared'.mutex = none ∧
      shared'.number = fun i => if i = (argp tid).clientId then max + 1 else shared.number i := by
  obtain ⟨max, shared', greatest, ⟨count, draw⟩, free', number, _⟩ :=
    Alone.draw_of_lock argp tid pcs free small
  have arrived : (threads argp).step tid shared (pcs tid) = some (shared, .lock, []) := by
    rw [here]
    rfl
  have arrive : (threads argp).machine.Path Machine.anything ⟨shared, pcs⟩ [tid] []
      ⟨shared, Function.update pcs tid .lock⟩ := .single trivial (Threads.next_step arrived)
  exact ⟨max, shared', _, greatest, arrive.append (draw.weaken fun _ _ _ => trivial), free',
    number⟩

/-- When it arrives earlier, its ticket overwrites the one of the first request. -/
theorem ticket_overwritten : ∃ actions events state,
    (∀ tid, 0 ≤ (twins tid).clientId ∧ (twins tid).clientId < MAX_CLIENTS) ∧
    (threads twins).machine.Run Machine.anything actions events state ∧
    (state.pcs true).ticketed = true ∧ .drew true 1 ∈ events ∧ state.shared.number 1 = 2 ∧
    ¬ KeepsTickets twins events state := by
  obtain ⟨max, shared, _, greatest, first, free, number⟩ :=
    drawn_anyway twins true (fun _ => .arrive) rfl
      (rfl : (threads twins).shared.mutex = none) (fun _ => (by decide : (0 : Int) < INT_MAX))
  obtain rfl : max = 0 := by
    rcases greatest.attained with zero | ⟨_, zero⟩
    · exact zero
    · exact zero.symm
  let pcs : Bool → Pc := Function.update (fun _ => .arrive) true (.waitChoosing 1 0)
  have tickets : ∀ index, shared.number index = if index = 1 then 1 else 0 :=
    fun index => congrFun number index
  have small : ∀ index, shared.number index < INT_MAX := by
    intro index
    rw [tickets]
    split <;> decide
  obtain ⟨max, shared', _, greatest, second, _, number'⟩ :=
    drawn_anyway twins false pcs rfl free small
  obtain rfl : max = 1 := by
    have above := greatest.above 1 (by decide) (by decide)
    rw [tickets, if_pos rfl] at above
    rcases greatest.attained with zero | ⟨index, same⟩
    · omega
    · rw [tickets] at same
      split at same <;> omega
  have overwritten : shared'.number 1 = 2 := by
    rw [number']
    rfl
  have ranged : (0 : Int) ≤ 1 ∧ (1 : Int) < MAX_CLIENTS := by decide
  refine ⟨_, _, _, fun _ => ranged, first.append second, rfl, by simp, overwritten,
    fun keeps => ?_⟩
  have kept := keeps.kept true rfl
  change Event.drew true (shared'.number 1) ∈ _ at kept
  rw [overwritten] at kept
  simp at kept

end OsLabs.Bakery
