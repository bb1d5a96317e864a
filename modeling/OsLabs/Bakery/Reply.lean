import OsLabs.Bakery.Solo
import OsLabs.Bakery.Trace
import OsLabs.Machine.Handover

/-! Whose response is encoded for a request. `result` is one static object: what
an activation has filled in stays there until the next one fills it in, whether
or not its reply has been encoded by then. -/

namespace OsLabs.Bakery

/-- About to store into `result`. -/
def Pc.fills : Pc → Bool
  | .fillClient _ | .fillTicket _ | .fillPosition _ | .fillStatus _ => true
  | _ => false

/-- Has stored into `result`, and its reply has not been encoded yet. -/
def Pc.pending : Pc → Bool
  | .fillTicket _ | .fillPosition _ | .fillStatus _ | .lockAgain _ | .release _ | .unlockAgain _
  | .reply _ => true
  | _ => false

/-- The ticket that `get_ticket` has returned to an activation. -/
def Pc.ticket? : Pc → Option Int
  | .arrive | .lock | .setChoosing | .scan _ _ | .scanTake _ | .draw _ | .clearChoosing | .unlock
  | .reread | .finished => none
  | .waitChoosing ticket _ | .waitNonzero ticket _ | .waitLess ticket _ | .waitLessOwn ticket _ _
  | .waitEqual ticket _ | .waitEqualOwn ticket _ _ | .fillClient ticket | .fillTicket ticket
  | .fillPosition ticket | .fillStatus ticket | .lockAgain ticket | .release ticket
  | .unlockAgain ticket | .reply ticket => some ticket

/-- What an activation has stored into `result` so far. -/
def Pc.Filled (request : Request) (result : Response) : Pc → Prop
  | .fillTicket _ => result.clientId = request.clientId
  | .fillPosition ticket => result.clientId = request.clientId ∧ result.ticketNumber = ticket
  | .fillStatus ticket | .lockAgain ticket | .release ticket | .unlockAgain ticket
  | .reply ticket => result.clientId = request.clientId ∧ result.ticketNumber = ticket ∧
      result.queuePosition = ticket
  | _ => True

variable {Tid : Type}

/-- No activation stores into `result` while another one has stored into it and
its reply has not been encoded yet. -/
def undisturbed : Threads.State Tid (Shared Tid) Pc → Tid → Prop :=
  Threads.spares Pc.fills Pc.pending

variable {argp : Tid → Request} {tid : Tid} {shared shared' : Shared Tid} {pc pc' : Pc}

theorem Pc.filled_of_not_pending (idle : pc.pending = false) (request : Request)
    (result : Response) : pc.Filled request result := by
  cases pc <;> trivial

/-- What a step keeps of the static result and of the ticket that it is about. -/
structure Keeps (request : Request) (tid : Tid) (pc : Pc) (result result' : Response) (pc' : Pc)
    (emitted : List (Event Tid)) : Prop where
  untouched : pc.fills = false → result' = result
  filled : pc.Filled request result → pc'.Filled request result'
  ticket : ∀ ticket, pc'.ticket? = some ticket →
    pc.ticket? = some ticket ∨ .returned tid ticket ∈ emitted

theorem step_keeps (stepped : step argp tid shared pc = some (shared', pc', emitted)) :
    Keeps (argp tid) tid pc shared.result shared'.result pc' emitted := by
  cases step_effect stepped with
  | arrive | lock | setChoosing | greater | draw | clearChoosing | unlock | reply =>
    exact ⟨fun _ => rfl, fun _ => trivial, fun _ known => nomatch known⟩
  | notGreater _ next | scanTake next =>
    cases next <;> exact ⟨fun _ => rfl, fun _ => trivial, fun _ known => nomatch known⟩
  | reread =>
    refine ⟨fun _ => rfl, fun _ => trivial, fun ticket known => .inr ?_⟩
    obtain rfl := Option.some.inj known
    exact List.mem_singleton.mpr rfl
  | choosing | notChoosing | nonzero | waitLess | less | notLess | waitEqual | equal =>
    exact ⟨fun _ => rfl, fun _ => trivial, fun _ known => .inl known⟩
  | zero _ next | notEqual _ next =>
    cases next <;> exact ⟨fun _ => rfl, fun _ => trivial, fun _ known => .inl known⟩
  | fillClient =>
    exact ⟨fun filling => (nomatch filling), fun _ => rfl, fun _ known => .inl known⟩
  | fillTicket =>
    exact ⟨fun filling => (nomatch filling), fun filled => ⟨filled, rfl⟩, fun _ known => .inl known⟩
  | fillPosition =>
    exact ⟨fun filling => (nomatch filling), fun filled => ⟨filled.1, filled.2, rfl⟩,
      fun _ known => .inl known⟩
  | fillStatus =>
    exact ⟨fun filling => (nomatch filling), fun filled => filled, fun _ known => .inl known⟩
  | lockAgain | release | unlockAgain =>
    exact ⟨fun _ => rfl, fun filled => filled, fun _ known => .inl known⟩

variable [DecidableEq Tid]

/-- What has been stored into `result` is still there while a reply is pending. -/
theorem filled_of_run (run : (threads argp).machine.Run undisturbed actions events state)
    (tid : Tid) : (state.pcs tid).Filled (argp tid) state.shared.result := by
  refine Threads.assertions_of_spares (fun shared => shared.result)
    (fun tid result pc => pc.Filled (argp tid) result) (fun _ => trivial) ?_ ?_ ?_ run tid
  · intro tid shared pc shared' pc' emitted filled stepped
    exact (step_keeps stepped).filled filled
  · intro tid shared pc shared' pc' emitted filling stepped
    exact (step_keeps stepped).untouched filling
  · intro tid pc before idle _ after
    exact Pc.filled_of_not_pending idle _ _

/-- The ticket that an activation works with is the one that it was returned. -/
theorem returned_of_run {allowed : Threads.State Tid (Shared Tid) Pc → Tid → Prop}
    (run : (threads argp).machine.Run allowed actions events state) (tid : Tid) (ticket : Int)
    (known : (state.pcs tid).ticket? = some ticket) : .returned tid ticket ∈ events := by
  refine Threads.invariant (fun events _ pcs => ∀ tid ticket, (pcs tid).ticket? = some ticket →
    .returned tid ticket ∈ events) (fun _ _ known => by cases known) ?_ run tid ticket known
  intro events shared pcs tid shared' pc emitted returned _ stepped
  refine (Function.forall_update_iff pcs (fun tid pc => ∀ ticket, pc.ticket? = some ticket →
    .returned tid ticket ∈ events ++ emitted)).mpr ⟨fun ticket known => ?_, ?_⟩
  · rcases (step_keeps stepped).ticket ticket known with before | now
    · exact List.mem_append_left _ (returned tid ticket before)
    · exact List.mem_append_right _ now
  · intro other _ ticket known
    exact List.mem_append_left _ (returned other ticket known)

/-- Every reply that has been encoded carries the client of its request and the
ticket that `get_ticket` has returned to the activation. -/
def RepliesToOwn (argp : Tid → Request) (events : List (Event Tid)) : Prop :=
  ∀ before tid response behind, events = before ++ .replied tid response :: behind →
    response.clientId = (argp tid).clientId ∧
    ∃ ticket, .returned tid ticket ∈ before ∧ response.ticketNumber = ticket ∧
      response.queuePosition = ticket

/-- That holds as long as no activation stores into `result` while the reply of
another one is pending. The ids need not be distinct for it. -/
theorem replies_of_undisturbed
    (run : (threads argp).machine.Run undisturbed actions events state) :
    RepliesToOwn argp events := by
  intro before tid response behind place
  obtain ⟨past, current, actor, shared', pc', earlier, shows, _⟩ := shown_step run place
  generalize here : current.pcs actor = pc at shows
  cases shows with
  | replied ticket =>
    have filled := filled_of_run earlier tid
    rw [here] at filled
    obtain ⟨client, number, position⟩ := filled
    have returned := returned_of_run earlier tid ticket (by rw [here]; rfl)
    exact ⟨client, ticket, returned, number, position⟩

/-- While the others are not about to be answered, an activation that goes alone disturbs
nobody. -/
theorem Alone.undisturbed (alone : Alone argp tid pcs shared pc emitted shared' pc')
    (others : ∀ other, other ≠ tid → (pcs other).pending = false) (here : pcs tid = pc) :
    ∃ actions, (threads argp).machine.Path Bakery.undisturbed ⟨shared, pcs⟩ actions emitted
      ⟨shared', Function.update pcs tid pc'⟩ := by
  refine (alone.strengthen fun shared pc _ _ other different => ?_).path here
  change (Function.update pcs tid pc other).pending = false
  rw [Function.update_of_ne different]
  exact others other different

/-- Both requests have drawn their tickets when the first is served; it has been answered
when the second is served. -/
theorem replies_of_undisturbed_overlap : ∃ actions events state,
    (threads pair).machine.Run undisturbed actions events state ∧
    events = drawnEvents ++ [.entered true, .released true, .replied true (filled pair true 1),
      .entered false, .released false, .replied false (filled pair false 2)] ∧
    RepliesToOwn pair events := by
  obtain ⟨actions, shared, begun, drawn⟩ := pair_drawn
  have early : (threads pair).machine.Run undisturbed actions drawnEvents ⟨shared, drawnPcs⟩ := by
    refine begun.weaken fun state tid permitted _ other different => ?_
    rcases permitted.2 other different with here | here <;> rw [here] <;> rfl
  have reply : Alone pair true drawnPcs (firstServed shared) (.reply 1)
      [.replied true (filled pair true 1)] (firstServed shared) .finished := .step rfl rfl
  obtain ⟨_, first⟩ := Alone.undisturbed ((drawn.first drawnPcs).trans reply) (by decide) rfl
  let answered : Bool → Pc := Function.update drawnPcs true .finished
  let full : Shared Bool := { firstServed shared with result := filled pair false 2 }
  have freed : full.mutex = none := drawn.free
  have fill : Alone pair false answered (firstServed shared) (.fillClient 2) [] full
      (.lockAgain 2) := Alone.fill 2
  let left : Shared Bool := { full with
    number := fun i => if i = (pair false).clientId then 0 else full.number i }
  have release : Alone pair false answered full (.lockAgain 2) [.released false] left (.reply 2) :=
    Alone.release freed 2
  have reply' : Alone pair false answered left (.reply 2) [.replied false (filled pair false 2)]
      left .finished := .step rfl rfl
  have served := (((drawn.second answered).trans fill).trans release).trans reply'
  obtain ⟨_, second⟩ := Alone.undisturbed served (by decide) rfl
  have run := (early.append first).append second
  exact ⟨_, _, _, run, rfl, replies_of_undisturbed run⟩

/-- Without the restriction, client 0 is sent the response to client 1. -/
theorem replies_mixed : ∃ actions events state,
    (threads pair).machine.Run (admissible pair) actions events state ∧
    .replied true (filled pair false 2) ∈ events ∧ ¬ RepliesToOwn pair events := by
  obtain ⟨actions, shared, pcs, run, replying, filling⟩ := overlap
  let mixed : Shared Bool := { shared with result := filled pair false 2 }
  have fill : Alone pair false pcs shared (.fillClient 2) [] mixed (.lockAgain 2) := Alone.fill 2
  obtain ⟨more, second⟩ := fill.path filling
  have reply : Alone pair true (Function.update pcs false (.lockAgain 2)) mixed (.reply 1)
      [.replied true (filled pair false 2)] mixed .finished := .step rfl rfl
  obtain ⟨last, replied⟩ := reply.path (by rwa [Function.update_of_ne (by decide)])
  refine ⟨_, _, _, (run.append second).append replied, by simp, fun own => ?_⟩
  obtain ⟨client, _⟩ := own _ true (filled pair false 2) [] rfl
  exact absurd client (by decide)

end OsLabs.Bakery
