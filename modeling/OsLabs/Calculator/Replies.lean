import OsLabs.Calculator.Exchange

/-! What the server of the calculator answers, and what that makes of a step of the whole: a
reply that a thread takes is one to its own request, and can be decoded. -/

namespace OsLabs.Calculator

open Xdr

universe u v w

variable {Num : Type u}

def calculatorLayout (float : FloatBits Num) : Layout (CALCULATOR Num) :=
  (Layout.int.field CALCULATOR.op fun objp op => { objp with op := op }).append <|
  ((Layout.float float).field CALCULATOR.arg1 fun objp arg1 => { objp with arg1 := arg1 }).append <|
  ((Layout.float float).field CALCULATOR.arg2 fun objp arg2 => { objp with arg2 := arg2 }).append
  ((Layout.float float).field CALCULATOR.result fun objp result => { objp with result := result })

theorem xdr_CALCULATOR_follows (float : FloatBits Num) :
    (xdr_CALCULATOR float).Follows (calculatorLayout float) :=
  (xdrInt_follows.field _ _ fun _ => rfl).andThen <|
    ((xdrFloat_follows float).field _ _ fun _ => rfl).andThen <|
      ((xdrFloat_follows float).field _ _ fun _ => rfl).andThen
        ((xdrFloat_follows float).field _ _ fun _ => rfl)

theorem calculator_small (float : FloatBits Num) :
    (calculatorLayout float).width ≤ Rpc.UDPMSGSIZE := by
  change 16 ≤ 8800
  decide

/-- `rand() % 4`. -/
def Drawn (request : CALCULATOR Num) : Prop := 0 ≤ request.op ∧ request.op < 4

theorem read_write_calculator (float : FloatBits Num) {object : CALCULATOR Num}
    (drawn : Drawn object) (zeroed : CALCULATOR Num) :
    (calculatorLayout float).read ((calculatorLayout float).write object) zeroed = object := by
  obtain ⟨low, high⟩ := drawn
  have int : object.op.bmod 4294967296 = object.op := by
    refine Int.bmod_eq_of_le ?_ ?_ <;> omega
  simp [calculatorLayout, int]

section Server

variable (arith : Arithmetic Num) (float : FloatBits Num) (buffers : Rpc.Buffers)

/-- What the server says to the arguments `argp`. -/
def answer (argp : CALCULATOR Num) : Rpc.ReplyBody :=
  .success ((calculatorLayout float).write (calculatorProc1Svc arith argp (.zeroed arith)))

/-- A call of the procedure with arguments that can be decoded is answered with its result. -/
def Right (call : Rpc.CallBody) (reply : Rpc.ReplyBody) : Prop :=
  call.proc = CALCULATOR_PROC → ∀ argp,
    buffers.decode (xdr_CALCULATOR float) call.arguments (.zeroed arith) = some argp →
    reply = answer arith float argp

variable {arith float buffers}

theorem service_serves : (service arith float buffers).Serves (fun _ _ => True) (fun _ => True)
    (Right arith float buffers) where
  init := trivial
  take result call _ _ := by
    simp only [service, calculatorProg1]
    split
    · rename_i null
      refine ⟨trivial, fun proc => ?_⟩
      rw [null] at proc
      cases proc
    · split
      · split
        · rename_i failed
          refine ⟨trivial, fun _ argp decoded => ?_⟩
          rw [failed] at decoded
          cases decoded
        · rename_i argp decoded
          refine ⟨trivial, fun _ other same => ?_⟩
          obtain rfl := Option.some.inj (decoded.symm.trans same)
          rw [buffers.sendreply_eq (xdr_CALCULATOR_follows float) _ (calculator_small float),
            calculatorProc1Svc_static arith argp result (.zeroed arith)]
          rfl
      · exact ⟨trivial, fun proc => absurd proc ‹_›⟩
  work _ _ move := move.elim

theorem handles_shows (Client : Type v) :
    (handles Client).Shows (fun _ => True) (fun _ => True) (Right arith float buffers)
      (fun _ => True) where
  init _ := trivial
  asks _ _ _ _ _ _ := trivial
  resumes _ _ _ _ _ _ _ _ := ⟨trivial, fun _ _ => trivial⟩

end Server

/-- The call that carries a request. -/
def carried (float : FloatBits Num) (argp : CALCULATOR Num) : Rpc.CallBody :=
  ⟨CALCULATOR_PROC, (calculatorLayout float).write argp⟩

theorem Right.own {reply : Rpc.ReplyBody} (drawn : Drawn argp)
    (right : Right arith float buffers (carried float argp) reply) :
    reply = answer arith float argp := by
  refine right rfl argp ?_
  rw [carried, buffers.decode_write (xdr_CALCULATOR_follows float),
    read_write_calculator float drawn]

variable {Tid : Type v} {Other : Type w} [DecidableEq Tid] [DecidableEq Other]

/-- Every reply that is on its way is a right one to the call that it belongs to. -/
abbrev Honest (arith : Arithmetic Num) (float : FloatBits Num) (receiver : Rpc.Buffers)
    (network : Rpc.State (Handle Tid Other) (CALCULATOR Num) Unit Rpc.CallBody Rpc.ReplyBody) :
    Prop :=
  Rpc.Consistent (handles (Handle Tid Other)) (fun _ _ => True) (fun _ => True) (fun _ => True)
    (Right arith float receiver) network

/-- What the network and the points of the threads have in common. -/
structure Fits (arith : Arithmetic Num) (float : FloatBits Num) (receiver : Rpc.Buffers)
    (request : Tid → Nat → CALCULATOR Num) (whole : Whole Tid Other Num) : Prop where
  honest : Honest arith float receiver whole.network
  asked : ∀ tid i, whole.points tid = .waiting i →
    whole.network.waiting (.inl tid) = some (carried float (request tid i))
  replied : ∀ tid i reply, whole.points tid = .decode i reply →
    reply = answer arith float (request tid i)

/-- What a step does to the object of the stub and to the points. -/
inductive Moves (arith : Arithmetic Num) (float : FloatBits Num)
    (request : Tid → Nat → CALCULATOR Num) (creates : Tid → Bool) (clntRes : CALCULATOR Num)
    (points : Tid → Point) : Action Tid Other → CALCULATOR Num → (Tid → Point) →
    List (Event Tid Num) → Prop where
  | create (tid : Tid) (here : points tid = .create) :
    Moves arith float request creates clntRes points (.run tid) clntRes
      (Function.update points tid (if creates tid then .loop 0 else .finished)) []
  | clear (tid : Tid) (i : Nat) (here : points tid = .clear i) :
    Moves arith float request creates clntRes points (.run tid) (.zeroed arith)
      (Function.update points tid (.call i)) []
  | call (tid : Tid) (i : Nat) (here : points tid = .call i) :
    Moves arith float request creates clntRes points (.run tid) clntRes
      (Function.update points tid (.waiting i)) []
  | accept (tid : Tid) (i : Nat) (here : points tid = .waiting i) :
    Moves arith float request creates clntRes points (.accept tid index) clntRes
      (Function.update points tid (.decode i (answer arith float (request tid i)))) []
  | giveUp (tid : Tid) (i : Nat) (here : points tid = .waiting i) :
    Moves arith float request creates clntRes points (.giveUp tid) clntRes
      (Function.update points tid (.loop (i + 1))) [.failed tid i]
  | decode (tid : Tid) (i : Nat) (here : points tid = .decode i reply) :
    Moves arith float request creates clntRes points (.run tid)
      (calculatorProc1Svc arith (request tid i) (.zeroed arith))
      (Function.update points tid (.read i)) []
  | read (tid : Tid) (i : Nat) (here : points tid = .read i) :
    Moves arith float request creates clntRes points (.run tid) clntRes
      (Function.update points tid (.loop (i + 1))) [.received tid i clntRes.result]
  | elsewhere : Moves arith float request creates clntRes points (.elsewhere action) clntRes
      points []

section Step

variable {arith : Arithmetic Num} {float : FloatBits Num} {sender receiver : Rpc.Buffers}
variable {request : Tid → Nat → CALCULATOR Num} {creates : Tid → Bool}
variable {state after : Whole Tid Other Num}

theorem Fits.init : Fits arith float receiver request
    ((whole arith float sender receiver request creates).init : Whole Tid Other Num) where
  honest := .init service_serves (handles_shows _)
  asked _ _ here := by cases here
  replied _ _ _ here := by cases here

omit [DecidableEq Other] in
/-- A thread goes on while the others wait for what they have asked. -/
theorem Fits.go (fits : Fits arith float receiver request state)
    {net : Rpc.State (Handle Tid Other) (CALCULATOR Num) Unit Rpc.CallBody Rpc.ReplyBody}
    (honest : Honest arith float receiver net)
    (others : ∀ other, other ≠ tid →
      net.waiting (.inl other) = state.network.waiting (.inl other))
    (asked : ∀ i, point = .waiting i →
      net.waiting (.inl tid) = some (carried float (request tid i)))
    (replied : ∀ i reply, point = .decode i reply → reply = answer arith float (request tid i))
    (clntRes : CALCULATOR Num) :
    Fits arith float receiver request
      ⟨net, clntRes, Function.update state.points tid point⟩ := by
  refine ⟨honest, fun other i here => ?_, fun other i reply here => ?_⟩
  · by_cases same : other = tid
    · subst same
      exact asked i (by simpa using here)
    · rw [others other same]
      exact fits.asked other i (by simpa [Function.update_of_ne same] using here)
  · by_cases same : other = tid
    · subst same
      exact replied i reply (by simpa using here)
    · exact fits.replied other i reply (by simpa [Function.update_of_ne same] using here)

omit [DecidableEq Other] in
/-- A thread goes on by itself. -/
theorem Fits.goAlone (fits : Fits arith float receiver request state) (tid : Tid)
    (asks : ∀ i, point ≠ .waiting i) (decodes : ∀ i reply, point ≠ .decode i reply)
    (clntRes : CALCULATOR Num) :
    Fits arith float receiver request
      ⟨state.network, clntRes, Function.update state.points tid point⟩ :=
  fits.go fits.honest (fun _ _ => rfl) (fun i same => absurd same (asks i))
    (fun i reply same => absurd same (decodes i reply)) clntRes

theorem loop_ne_waiting (i j : Nat) : Point.loop i ≠ .waiting j := by
  unfold Point.loop
  split <;> simp

theorem loop_ne_decode (i j : Nat) (reply : Rpc.ReplyBody) : Point.loop i ≠ .decode j reply := by
  unfold Point.loop
  split <;> simp

/-- A step of the network leaves the threads as they are. -/
theorem Fits.transmit (fits : Fits arith float receiver request state)
    {moved : Rpc.Action (Handle Tid Other) Empty Rpc.CallBody}
    (sent : state.transmit arith float receiver moved = some after) :
    Honest arith float receiver after.network ∧
    after = { state with network := after.network } ∧
    ∀ client, moved.client? ≠ some client →
      after.network.waiting client = state.network.waiting client := by
  obtain ⟨⟨network, emitted⟩, taken, rfl⟩ := Option.map_eq_some_iff.mp sent
  have effect := Rpc.step_effect taken
  exact ⟨(fits.honest.step service_serves (handles_shows _) effect).1, rfl,
    fun _ other => effect.waiting other⟩

/-- What is sent for a thread is what it waits for. -/
theorem transmit_ask {handle : Handle Tid Other} {body : Rpc.CallBody}
    (sent : state.transmit arith float receiver (.ask handle body) = some after) :
    after.network.waiting handle = some body := by
  obtain ⟨⟨network, emitted⟩, taken, rfl⟩ := Option.map_eq_some_iff.mp sent
  cases Rpc.step_effect taken with
  | asked client free asks =>
    obtain ⟨_, rfl⟩ := Prod.mk.inj (Option.some.inj asks)
    exact Function.update_self ..

/-- A reply that is taken is one to the request that the thread waits for. -/
theorem transmit_accept {handle : Handle Tid Other}
    (sent : state.transmit arith float receiver (.accept handle index) = some after)
    (there : state.network.replies[index]? = some (call, reply))
    (waits : state.network.waiting handle = some body) : call = state.network.call handle := by
  obtain ⟨⟨network, emitted⟩, taken, rfl⟩ := Option.map_eq_some_iff.mp sent
  simp only [exchange, Rpc.machine, Rpc.next, there, waits] at taken
  split at taken
  · assumption
  · cases taken

/-- What the stub makes of the answer, whatever its object held before. -/
theorem result_answer (buffers : Rpc.Buffers) {argp : CALCULATOR Num} (drawn : Drawn argp)
    (clntRes : CALCULATOR Num) :
    buffers.result (xdr_CALCULATOR float) clntRes (some (answer arith float argp)) =
      some (calculatorProc1Svc arith argp (.zeroed arith)) := by
  have same : Drawn (calculatorProc1Svc arith argp (.zeroed arith)) := drawn
  rw [answer, Rpc.Buffers.result, buffers.decode_write (xdr_CALCULATOR_follows float),
    read_write_calculator float same]

/-- What a thread does by itself, and that the network and the threads go on fitting. -/
theorem Fits.runs (fits : Fits arith float receiver request state)
    (drawn : ∀ tid i, Drawn (request tid i))
    (taken : (whole arith float sender receiver request creates).next state (.run tid) =
      some (after, emitted)) :
    Fits arith float receiver request after ∧
      Moves arith float request creates state.clntRes state.points (.run tid : Action Tid Other)
        after.clntRes after.points emitted := by
  cases here : state.points tid with
  | create =>
    simp only [whole, Whole.next, here, Option.some.injEq, Prod.mk.injEq] at taken
    obtain ⟨rfl, rfl⟩ := taken
    refine ⟨fits.goAlone tid (fun i => ?_) (fun i reply => ?_) _, .create tid here⟩
    · split
      · exact loop_ne_waiting 0 i
      · exact Point.noConfusion
    · split
      · exact loop_ne_decode 0 i reply
      · exact Point.noConfusion
  | clear i =>
    simp only [whole, Whole.next, here, Option.some.injEq, Prod.mk.injEq] at taken
    obtain ⟨rfl, rfl⟩ := taken
    exact ⟨fits.goAlone tid (fun _ => Point.noConfusion) (fun _ _ => Point.noConfusion) _,
      .clear tid i here⟩
  | call i =>
    simp only [whole, Whole.next, here,
      sender.encode_eq (xdr_CALCULATOR_follows float) _ (calculator_small float)] at taken
    obtain ⟨final, sent, same⟩ := Option.map_eq_some_iff.mp taken
    obtain ⟨rfl, rfl⟩ := Prod.mk.inj same
    obtain ⟨honest, moved, others⟩ := fits.transmit sent
    have asked := transmit_ask sent
    rw [moved]
    refine ⟨fits.go honest (fun other different => others _ ?_) (fun j same => ?_)
      (fun _ _ => Point.noConfusion) _, .call tid i here⟩
    · simpa [Rpc.Action.client?] using Ne.symm different
    · cases same
      exact asked
  | decode i reply =>
    obtain rfl := fits.replied tid i reply here
    simp only [whole, Whole.next, here, result_answer sender (drawn tid i), Option.some.injEq,
      Prod.mk.injEq] at taken
    obtain ⟨rfl, rfl⟩ := taken
    exact ⟨fits.goAlone tid (fun _ => Point.noConfusion) (fun _ _ => Point.noConfusion) _,
      .decode tid i here⟩
  | read i =>
    simp only [whole, Whole.next, here, Option.some.injEq, Prod.mk.injEq] at taken
    obtain ⟨rfl, rfl⟩ := taken
    exact ⟨fits.goAlone tid (loop_ne_waiting _) (loop_ne_decode _) _, .read tid i here⟩
  | waiting i | finished => simp [whole, Whole.next, here] at taken

/-- What a step does, and that the network and the threads go on fitting. -/
theorem Fits.step (fits : Fits arith float receiver request state)
    (drawn : ∀ tid i, Drawn (request tid i))
    (taken : (whole arith float sender receiver request creates).next state action =
      some (after, emitted)) :
    Fits arith float receiver request after ∧
      Moves arith float request creates state.clntRes state.points action after.clntRes
        after.points emitted := by
  cases action with
  | run tid => exact fits.runs drawn taken
  | accept tid index =>
    simp only [whole, Whole.next] at taken
    split at taken
    · rename_i i call reply here there
      obtain ⟨final, sent, same⟩ := Option.map_eq_some_iff.mp taken
      obtain ⟨rfl, rfl⟩ := Prod.mk.inj same
      have waits := fits.asked tid i here
      obtain rfl := transmit_accept sent there waits
      obtain ⟨honest, moved, others⟩ := fits.transmit sent
      have right := fits.honest.right waits (List.mem_of_getElem? there)
      obtain rfl := right.own (drawn tid i)
      rw [moved]
      refine ⟨fits.go honest (fun other different => others _ ?_)
        (fun _ => Point.noConfusion) (fun j other same => ?_) _, .accept tid i here⟩
      · simpa [Rpc.Action.client?] using Ne.symm different
      · cases same
        rfl
    · cases taken
  | giveUp tid =>
    simp only [whole, Whole.next] at taken
    split at taken
    · rename_i i here
      obtain ⟨final, sent, same⟩ := Option.map_eq_some_iff.mp taken
      obtain ⟨rfl, rfl⟩ := Prod.mk.inj same
      obtain ⟨honest, moved, others⟩ := fits.transmit sent
      rw [moved]
      refine ⟨fits.go honest (fun other different => others _ ?_)
        (fun j same => absurd same (loop_ne_waiting _ j))
        (fun j reply same => absurd same (loop_ne_decode _ j reply)) _, .giveUp tid i here⟩
      simpa [Rpc.Action.client?] using Ne.symm different
    · cases taken
  | elsewhere moved =>
    obtain ⟨final, sent, same⟩ := Option.map_eq_some_iff.mp taken
    obtain ⟨rfl, rfl⟩ := Prod.mk.inj same
    obtain ⟨honest, same, others⟩ := fits.transmit sent
    rw [same]
    refine ⟨⟨honest, fun tid i here => ?_, fits.replied⟩, .elsewhere⟩
    rw [others]
    · exact fits.asked tid i here
    · cases moved <;> simp [outside, Rpc.Action.client?]

end Step

end OsLabs.Calculator
