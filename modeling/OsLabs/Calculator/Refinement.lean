import OsLabs.Calculator.Answers
import OsLabs.Calculator.Replies

/-! The threads of the calculator client, as they are modelled alone, are an abstraction of
the whole: whatever the network does and whoever else calls the server, a thread is
answered for its own request or not at all. -/

namespace OsLabs.Calculator

open Xdr

universe u v w

variable {Num : Type u} {Tid : Type v} {Other : Type w} [DecidableEq Tid] [DecidableEq Other]

/-- A round of a thread is over. -/
def Point.past (i : Nat) : Point → Prop
  | .create => False
  | .clear j | .call j | .waiting j | .decode j _ | .read j => i < j
  | .finished => True

theorem past_loop (within : j ≤ i) : (Point.loop (i + 1)).past j := by
  unfold Point.loop
  split
  · exact Nat.lt_succ_of_le within
  · trivial

/-- The round that an event ends. -/
def Event.round : Event Tid Num → Tid × Nat
  | .failed tid i => (tid, i)
  | .received tid i _ => (tid, i)

/-- The rounds of the threads have ended in one way each. -/
structure Ended (events : List (Event Tid Num)) (points : Tid → Point) : Prop where
  past : ∀ event ∈ events, (points event.round.1).past event.round.2
  once : ∀ event ∈ events, ∀ other ∈ events, event.round = other.round → event = other

section Moves

variable {arith : Arithmetic Num} {float : FloatBits Num}
variable {request : Tid → Nat → CALCULATOR Num} {creates : Tid → Bool}
variable {clntRes clntRes' : CALCULATOR Num} {points points' : Tid → Point}
variable {action : Action Tid Other} {emitted : List (Event Tid Num)}

omit [DecidableEq Other] in
/-- What is past stays so. -/
theorem Moves.past
    (moves : Moves arith float request creates clntRes points action clntRes' points' emitted)
    (passed : (points tid).past i) : (points' tid).past i := by
  have update : ∀ turn point, ((points turn).past i → point.past i) →
      (Function.update points turn point tid).past i := by
    intro turn point kept
    by_cases same : tid = turn
    · subst same
      simpa using kept passed
    · simpa [Function.update_of_ne same] using passed
  cases moves with
  | create turn here => exact update turn _ fun before => by rw [here] at before; cases before
  | clear turn j here | call turn j here | accept turn j here | decode turn j here =>
    exact update turn _ fun before => by rwa [here] at before
  | giveUp turn j here | read turn j here =>
    refine update turn _ fun before => past_loop ?_
    rw [here] at before
    exact Nat.le_of_lt before
  | elsewhere => exact passed

omit [DecidableEq Other] in
/-- An event ends a round that is not over yet. -/
theorem Moves.ends
    (moves : Moves arith float request creates clntRes points action clntRes' points' emitted)
    (shown : event ∈ emitted) : emitted = [event] ∧
      ¬ (points event.round.1).past event.round.2 ∧ (points' event.round.1).past event.round.2 := by
  cases moves with
  | giveUp tid i here | read tid i here =>
    obtain rfl := List.mem_singleton.mp shown
    refine ⟨rfl, ?_, ?_⟩
    · simp [Event.round, here, Point.past]
    · simpa [Event.round] using past_loop (Nat.le_refl i)
  | _ => cases shown

omit [DecidableEq Other] in
theorem Ended.step (ended : Ended events points)
    (moves : Moves arith float request creates clntRes points action clntRes' points' emitted) :
    Ended (events ++ emitted) points' := by
  have fresh : ∀ event ∈ events, ∀ other ∈ emitted, event.round ≠ other.round := by
    intro event old other new same
    have before := ended.past event old
    rw [same] at before
    exact (moves.ends new).2.1 before
  refine ⟨fun event member => ?_, fun event member other also same => ?_⟩
  · rcases List.mem_append.mp member with old | new
    · exact moves.past (ended.past event old)
    · exact (moves.ends new).2.2
  · rcases List.mem_append.mp member with old | new <;>
      rcases List.mem_append.mp also with before | now
    · exact ended.once event old other before same
    · exact absurd same (fresh event old other now)
    · exact absurd same.symm (fresh other before event new)
    · rw [(moves.ends now).1] at new
      exact List.mem_singleton.mp new

/-- A reply has been taken in this round. -/
def Accepted (events : List (Event Tid Num)) (points : Tid → Point) (tid : Tid) (i : Nat) : Prop :=
  (∃ value, .received tid i value ∈ events) ∨ (∃ reply, points tid = .decode i reply) ∨
    points tid = .read i

/-- What becomes of the requests is what has become of them. -/
structure Agrees (network : Network Tid) (events : List (Event Tid Num)) (points : Tid → Point) :
    Prop where
  failed : ∀ tid i, .failed tid i ∈ events → network.delivery tid i = .requestLost
  answered : ∀ tid i, Accepted events points tid i → network.delivery tid i = .answered

omit [DecidableEq Tid] in
theorem Ended.agrees (ended : Ended events points) (creates : Tid → Bool) :
    ∃ network : Network Tid, network.creates = creates ∧ Agrees network events points := by
  classical
  refine ⟨⟨creates, fun tid i => if .failed tid i ∈ events then .requestLost else .answered⟩, rfl,
    fun tid i failed => if_pos failed, fun tid i accepted => if_neg fun failed => ?_⟩
  have passed : (points tid).past i := ended.past _ failed
  rcases accepted with ⟨value, received⟩ | ⟨reply, here⟩ | here
  · cases ended.once _ failed _ received rfl
  · rw [here] at passed
    exact Nat.lt_irrefl i passed
  · rw [here] at passed
    exact Nat.lt_irrefl i passed

omit [DecidableEq Other] in
/-- A reply that has been taken stays taken. -/
theorem Moves.accepted
    (moves : Moves arith float request creates clntRes points action clntRes' points' emitted)
    (accepted : Accepted events points tid i) : Accepted (events ++ emitted) points' tid i := by
  have kept : ∀ turn point, points turn ≠ points tid →
      Function.update points turn point tid = points tid := by
    intro turn point different
    exact Function.update_of_ne (fun same => different (by rw [same])) ..
  rcases accepted with ⟨value, received⟩ | ⟨reply, decodes⟩ | reads
  · exact .inl ⟨value, List.mem_append_left _ received⟩
  · right
    cases moves with
    | decode turn j here =>
      by_cases same : turn = tid
      · subst same
        rw [decodes] at here
        obtain ⟨rfl, rfl⟩ := Point.decode.inj here
        exact .inr (Function.update_self ..)
      · exact .inl ⟨reply, (Function.update_of_ne (Ne.symm same) ..).trans decodes⟩
    | elsewhere => exact .inl ⟨reply, decodes⟩
    | create turn here | clear turn j here | call turn j here | accept turn j here
    | giveUp turn j here | read turn j here =>
      refine .inl ⟨reply, (kept turn _ ?_).trans decodes⟩
      rw [here, decodes]
      exact Point.noConfusion
  · cases moves with
    | read turn j here =>
      by_cases same : turn = tid
      · subst same
        rw [reads] at here
        obtain rfl := Point.read.inj here
        exact .inl ⟨clntRes.result, by simp⟩
      · exact .inr (.inr ((Function.update_of_ne (Ne.symm same) ..).trans reads))
    | elsewhere => exact .inr (.inr reads)
    | create turn here | clear turn j here | call turn j here | accept turn j here
    | giveUp turn j here | decode turn j here =>
      refine .inr (.inr ((kept turn _ ?_).trans reads))
      rw [here, reads]
      exact Point.noConfusion

omit [DecidableEq Other] in
/-- What agrees after a step has agreed before it. -/
theorem Agrees.before {network : Network Tid} (agrees : Agrees network (events ++ emitted) points')
    (moves : Moves arith float request creates clntRes points action clntRes' points' emitted) :
    Agrees network events points :=
  ⟨fun tid i failed => agrees.failed tid i (List.mem_append_left _ failed),
    fun tid i accepted => agrees.answered tid i (moves.accepted accepted)⟩

/-- The point in the model of the threads alone, where a call is over in one step. -/
def Point.pc (arith : Arithmetic Num) (request : Nat → CALCULATOR Num) : Point → Pc Num
  | .create => .create
  | .clear i => .clear i
  | .call i | .waiting i => .call i
  | .decode i _ => .decode i (calculatorProc1Svc arith (request i) (.zeroed arith))
  | .read i => .read i
  | .finished => .finished

theorem pc_loop (arith : Arithmetic Num) (request : Nat → CALCULATOR Num) (i : Nat) :
    (Point.loop i).pc arith request = Pc.loop i := by
  unfold Point.loop Pc.loop
  split <;> rfl

/-- The threads alone are where those of the whole are. -/
structure Shadows (arith : Arithmetic Num) (request : Tid → Nat → CALCULATOR Num)
    (clntRes : CALCULATOR Num) (points : Tid → Point)
    (shadow : Threads.State Tid (Shared Num) (Pc Num)) : Prop where
  clntRes : shadow.shared.clntRes = clntRes
  pcs : ∀ tid, shadow.pcs tid = (points tid).pc arith (request tid)

omit [DecidableEq Tid] in
theorem Shadows.stands {shadow : Threads.State Tid (Shared Num) (Pc Num)}
    (shadows : Shadows arith request clntRes points shadow) (here : points tid = point) :
    shadow.pcs tid = point.pc arith (request tid) := by
  rw [shadows.pcs, here]

omit [DecidableEq Other] in
theorem Shadows.update {shadow : Threads.State Tid (Shared Num) (Pc Num)} {shared : Shared Num}
    (shadows : Shadows arith request clntRes points shadow) (same : shared.clntRes = clntRes')
    (moved : pc = point.pc arith (request tid)) :
    Shadows arith request clntRes' (Function.update points tid point)
      ⟨shared, Function.update shadow.pcs tid pc⟩ := by
  refine ⟨same, fun other => ?_⟩
  by_cases here : other = tid
  · subst here
    simpa using moved
  · simpa [Function.update_of_ne here] using shadows.pcs other

omit [DecidableEq Other] in
/-- The threads alone answer every step of the whole. -/
theorem Moves.answered {network : Network Tid} {shadow : Threads.State Tid (Shared Num) (Pc Num)}
    {permitted : Threads.State Tid (Shared Num) (Pc Num) → Tid → Prop}
    (moves : Moves arith float request network.creates clntRes points action clntRes' points'
      emitted)
    (agrees : Agrees network (events ++ emitted) points')
    (shadows : Shadows arith request clntRes points shadow)
    (met : ∀ tid, action = .run tid ∨ (shadow.pcs tid).stores = false → permitted shadow tid) :
    ∃ moves shadow', (threads arith request network).machine.Path permitted shadow moves emitted
      shadow' ∧ Shadows arith request clntRes' points' shadow' := by
  have path : ∀ tid shared pc, permitted shadow tid →
      step arith request network tid shadow.shared (shadow.pcs tid) = some (shared, pc, emitted) →
      (threads arith request network).machine.Path permitted shadow [tid] emitted
        ⟨shared, Function.update shadow.pcs tid pc⟩ :=
    fun tid shared pc allowed stepped => .single allowed (Threads.next_step stepped)
  cases moves with
  | create tid here =>
    have pc := shadows.stands here
    refine ⟨_, _, path tid _ _ (met tid (.inl rfl)) (by rw [pc]; rfl),
      shadows.update shadows.clntRes ?_⟩
    split
    · exact (pc_loop ..).symm
    · rfl
  | clear tid i here =>
    have pc := shadows.stands here
    exact ⟨_, _, path tid _ _ (met tid (.inl rfl)) (by rw [pc]; rfl), shadows.update rfl rfl⟩
  | call tid i here =>
    have pc := shadows.stands here
    have waits : Shadows arith request clntRes (Function.update points tid (.waiting i))
        ⟨shadow.shared, Function.update shadow.pcs tid (.call i)⟩ :=
      shadows.update shadows.clntRes rfl
    have same : Function.update shadow.pcs tid (.call i) = shadow.pcs := by
      change shadow.pcs tid = .call i at pc
      rw [← pc, Function.update_eq_self]
    rw [same] at waits
    exact ⟨_, _, .start, waits⟩
  | accept tid i here =>
    have pc := shadows.stands here
    have delivered : network.delivery tid i = .answered :=
      agrees.answered tid i (.inr (.inl ⟨_, Function.update_self ..⟩))
    let result := calculatorProc1Svc arith (request tid i) shadow.shared.result
    refine ⟨_, _, path tid { shadow.shared with result := result } (.decode i result)
      (met tid (.inr (by rw [pc]; rfl))) ?_, shadows.update shadows.clntRes rfl⟩
    rw [pc]
    simp only [Point.pc, step, delivered]
    rfl
  | giveUp tid i here =>
    have pc := shadows.stands here
    have lost : network.delivery tid i = .requestLost := agrees.failed tid i (by simp)
    refine ⟨_, _, path tid shadow.shared (.loop (i + 1)) (met tid (.inr (by rw [pc]; rfl))) ?_,
      shadows.update shadows.clntRes (pc_loop ..).symm⟩
    rw [pc]
    simp only [Point.pc, step, lost]
  | decode tid i here =>
    have pc := shadows.stands here
    exact ⟨_, _, path tid _ _ (met tid (.inl rfl)) (by rw [pc]; rfl), shadows.update rfl rfl⟩
  | read tid i here =>
    have pc := shadows.stands here
    refine ⟨_, _, path tid shadow.shared (.loop (i + 1)) (met tid (.inl rfl)) ?_,
      shadows.update shadows.clntRes (pc_loop ..).symm⟩
    rw [pc, ← shadows.clntRes]
    rfl
  | elsewhere => exact ⟨_, _, .start, shadows⟩

end Moves

/-- No thread clears `clnt_res` or decodes into it while another one has decoded its
reply and not read it yet. -/
def Whole.undisturbed (whole : Whole Tid Other Num) : Action Tid Other → Prop
  | .run tid => (whole.points tid).stores = true →
      ∀ other, other ≠ tid → (whole.points other).unread = false
  | .accept _ _ | .giveUp _ | .elsewhere _ => True

theorem stores_pc (arith : Arithmetic Num) (request : Nat → CALCULATOR Num) (point : Point) :
    (point.pc arith request).stores = point.stores := by
  cases point <;> rfl

theorem unread_pc (arith : Arithmetic Num) (request : Nat → CALCULATOR Num) (point : Point) :
    (point.pc arith request).unread = point.unread := by
  cases point <;> rfl

omit [DecidableEq Tid] [DecidableEq Other] in
/-- The threads alone are as undisturbed as they are in the whole. -/
theorem Shadows.undisturbed {arith : Arithmetic Num} {request : Tid → Nat → CALCULATOR Num}
    {state : Whole Tid Other Num} {shadow : Threads.State Tid (Shared Num) (Pc Num)}
    {action : Action Tid Other}
    (shadows : Shadows arith request state.clntRes state.points shadow)
    (permitted : state.undisturbed action) (tid : Tid)
    (turn : action = .run tid ∨ (shadow.pcs tid).stores = false) :
    Calculator.undisturbed shadow tid := by
  intro stores other different
  rcases turn with rfl | spared
  · rw [shadows.pcs, stores_pc] at stores
    rw [shadows.pcs, unread_pc]
    exact permitted stores other different
  · rw [spared] at stores
    cases stores

section Run

variable {arith : Arithmetic Num} {float : FloatBits Num} {sender receiver : Rpc.Buffers}
variable {request : Tid → Nat → CALCULATOR Num} {creates : Tid → Bool}
variable {allowed : Whole Tid Other Num → Action Tid Other → Prop}

/-- What a run leaves behind, and the runs of the threads alone that are like it. -/
theorem shadows_of_run (drawn : ∀ tid i, Drawn (request tid i))
    (permitted : Threads.State Tid (Shared Num) (Pc Num) → Tid → Prop)
    (met : ∀ state action shadow tid, allowed state action →
      Shadows arith request state.clntRes state.points shadow →
      action = .run tid ∨ (shadow.pcs tid).stores = false → permitted shadow tid)
    (run : (whole arith float sender receiver request creates).Run allowed actions events state) :
    Fits arith float receiver request state ∧ Ended events state.points ∧
      ∀ network : Network Tid, network.creates = creates → Agrees network events state.points →
        ∃ moves shadow, (threads arith request network).machine.Run permitted moves events shadow ∧
          Shadows arith request state.clntRes state.points shadow := by
  induction run with
  | start =>
    refine ⟨.init, ⟨fun _ member => by simp at member, fun _ member => by simp at member⟩, ?_⟩
    exact fun network _ _ => ⟨[], _, .start, rfl, fun _ => rfl⟩
  | step path passes taken ih =>
    obtain ⟨fits, ended, shadowed⟩ := ih
    obtain ⟨fits', moves⟩ := fits.step drawn taken
    refine ⟨fits', ended.step moves, ?_⟩
    rintro network rfl agrees
    obtain ⟨first, shadow, before, shadows⟩ := shadowed network rfl (agrees.before moves)
    obtain ⟨more, shadow', answer, shadows'⟩ :=
      moves.answered agrees shadows fun tid => met _ _ shadow tid passes shadows
    exact ⟨first ++ more, shadow', before.append answer, shadows'⟩

/-- Whatever becomes of the datagrams and whoever else calls the server, the threads do
what they do alone over a network that answers each request with its own result or not
at all; and they disturb each other there only if they do so here. -/
theorem refines_threads (drawn : ∀ tid i, Drawn (request tid i))
    (run : (whole arith float sender receiver request creates).Run allowed actions events state) :
    ∃ network : Network Tid,
      (∃ moves shadow, (threads arith request network).machine.Run Machine.anything moves events
        shadow ∧ shadow.shared.clntRes = state.clntRes) ∧
      ((whole arith float sender receiver request creates).Run Whole.undisturbed actions events
          state → ∃ moves shadow,
        (threads arith request network).machine.Run undisturbed moves events shadow) := by
  obtain ⟨_, ended, shadowed⟩ :=
    shadows_of_run drawn Machine.anything (fun _ _ _ _ _ _ _ => trivial) run
  obtain ⟨network, same, agrees⟩ := ended.agrees creates
  refine ⟨network, ?_, fun spared => ?_⟩
  · obtain ⟨moves, shadow, followed, shadows⟩ := shadowed network same agrees
    exact ⟨moves, shadow, followed, shadows.clntRes⟩
  · obtain ⟨_, _, undisturbed⟩ := shadows_of_run drawn Calculator.undisturbed
      (fun _ _ _ tid permitted shadows => shadows.undisturbed permitted tid) spared
    obtain ⟨moves, shadow, followed, _⟩ := undisturbed network same agrees
    exact ⟨moves, shadow, followed⟩

end Run

/-- Words in the place of floats. -/
def words : Arithmetic UInt32 :=
  ⟨(· + ·), (· - ·), (· * ·), (· / ·), id, fun left right => left < right, 0, 1⟩

/-- Two threads that ask for 1 + 2 and for 10 + 20. -/
def sums : Bool → Nat → CALCULATOR UInt32
  | true, _ => ⟨ADD, 1, 2, 0⟩
  | false, _ => ⟨ADD, 10, 20, 0⟩

theorem drawn_sums (tid : Bool) (i : Nat) : Drawn (sums tid i) := by
  cases tid <;> exact (by decide : 0 ≤ ADD ∧ ADD < 4)

/-- The two threads, another client, and a network for datagrams. -/
abbrev wordsWhole : Machine (Whole Bool Unit UInt32) (Action Bool Unit) (Event Bool UInt32) :=
  whole words ⟨id, id, fun _ => rfl⟩ .datagram .datagram sums fun _ => true

/-- Both threads ask, and the second one's reply is decoded before the first one reads its
own. -/
def crossing : List (Action Bool Unit) :=
  [.run true, .run true, .run true, .run false, .run false, .run false, .elsewhere (.deliver 0),
    .elsewhere (.deliver 1), .accept true 0, .run true, .accept false 1, .run false, .run true]

theorem refines_threads_crossing : ∃ state, wordsWhole.Run Machine.anything crossing
      [.received true 0 30] state ∧
    ∃ network moves shadow, (threads words sums network).machine.Run Machine.anything moves
      [.received true 0 30] shadow ∧ shadow.shared.clntRes = state.clntRes := by
  obtain ⟨events, state, run, rfl⟩ : ∃ events state,
      wordsWhole.Run Machine.anything crossing events state ∧ events = [.received true 0 30] :=
    Machine.Path.ofView (fun _ events => events) crossing (fun _ _ _ => trivial)
      (by decide +kernel)
  obtain ⟨network, alone, _⟩ := refines_threads drawn_sums run
  exact ⟨state, run, network, alone⟩

section Own

variable {arith : Arithmetic Num} {float : FloatBits Num} {sender receiver : Rpc.Buffers}
variable {request : Tid → Nat → CALCULATOR Num} {creates : Tid → Bool}
variable {state : Whole Tid Other Num}

/-- A thread that has read its result undisturbed has read the value that the server
computes for its own request. -/
theorem received_own (drawn : ∀ tid i, Drawn (request tid i))
    (run : (whole arith float sender receiver request creates).Run Whole.undisturbed actions events
      state)
    (member : .received tid i value ∈ events) : value = outcome arith (request tid i) := by
  obtain ⟨_, ended, undisturbed⟩ := shadows_of_run drawn Calculator.undisturbed
    (fun _ _ _ tid permitted shadows => shadows.undisturbed permitted tid) run
  obtain ⟨network, same, agrees⟩ := ended.agrees creates
  obtain ⟨moves, shadow, followed, _⟩ := undisturbed network same agrees
  obtain ⟨past, seen, current, actor, shared, pc, emitted, earlier, stepped, shown⟩ :=
    Threads.shown followed member
  obtain ⟨rfl, here, rfl⟩ := (step_keeps stepped).received tid i value shown
  have own := own_of_run earlier tid
  rw [here] at own
  rw [own (.zeroed arith)]
  rfl

end Own

/-- The other one of the two threads has nothing to read when one of them stores. -/
def sparing (state : Whole Bool Unit UInt32) : Action Bool Unit → Bool
  | .run tid => !(state.points tid).stores || !(state.points !tid).unread
  | .accept _ _ | .giveUp _ | .elsewhere _ => true

theorem sparing_sound (state : Whole Bool Unit UInt32) (action : Action Bool Unit)
    (spares : sparing state action = true) : state.undisturbed action := by
  cases action with
  | run tid =>
    intro stores other different
    obtain rfl : other = !tid := by
      cases tid <;> cases other <;> first | rfl | exact absurd rfl different
    simpa [sparing, stores] using spares
  | accept | giveUp | elsewhere => trivial

/-- A call of another client is refused; the request of the first thread is delivered
twice, and it is the second reply that arrives. -/
def twice : List (Action Bool Unit) :=
  [.run true, .run true, .run true, .elsewhere (.ask () ⟨7, []⟩), .elsewhere (.deliver 1),
    .elsewhere (.deliver 0), .elsewhere (.deliver 0), .accept true 2, .run true, .run true]

theorem received_own_twice : ∃ state, wordsWhole.Run Whole.undisturbed twice
      [.received true 0 3] state ∧ 3 = outcome words (sums true 0) := by
  obtain ⟨events, state, path, rfl⟩ : ∃ events state,
      (wordsWhole.restrict sparing).Run Machine.anything twice events state ∧
      events = [.received true 0 3] :=
    Machine.Path.ofView (fun _ events => events) twice (fun _ _ _ => trivial) (by decide +kernel)
  have run : wordsWhole.Run Whole.undisturbed twice [.received true 0 3] state :=
    path.ofRestrict sparing_sound
  exact ⟨state, run, received_own drawn_sums run (by simp)⟩


end OsLabs.Calculator
