import OsLabs.RpcCalc.Client
import OsLabs.RpcCalc.Handover

/-! What the client of RPC/calc prints. Between its arguments and the result lie two
encodings, a network that loses and repeats datagrams, and a thread of the server that
computes while another one waits for it. -/

namespace OsLabs.RpcCalc

open Xdr

universe u v

variable {Num : Type u}

/-- One of the calls before the hand-over fails. -/
def Failures.any (failures : Failures) : Prop :=
  failures.malloc = true ∨ failures.mutexInit = true ∨ failures.condInit = true ∨
    failures.create = true

/-- The value of a call that was not handed over. -/
def State.Refused (arith : Arithmetic Num) (failures : Failures) (state : State Num) : Prop :=
  match state.caller with
  | .cleanUp _ true => failures.any
  | .returning | .finished => state.worker = .absent → failures.any ∧ state.result = arith.zero
  | _ => True

variable {arith : Arithmetic Num} {argp : CALCULATOR_ARGS Num} {failures : Failures}
variable {state after : State Num} {emitted : List (Event Num)}

/-- The caller gives up only because of a failure. -/
theorem cleanUp_of_failure
    (taken : (machine arith argp failures).next state action = some (after, emitted))
    (gives : after.caller = .cleanUp calls true) :
    (∃ calls, state.caller = .cleanUp calls true) ∨ failures.any := by
  cases action with
  | caller =>
    simp only [machine, next, calculate1Svc] at taken
    cases here : state.caller with
    | malloc =>
      obtain ⟨rfl, _⟩ : _ ∧ _ := by simpa [here] using taken
      cases failed : failures.malloc with
      | true => exact .inr (.inl failed)
      | false => simp [failed] at gives
    | mutexInit =>
      obtain ⟨rfl, _⟩ : _ ∧ _ := by simpa [here] using taken
      cases failed : failures.mutexInit with
      | true => exact .inr (.inr (.inl failed))
      | false => simp [failed] at gives
    | condInit =>
      obtain ⟨rfl, _⟩ : _ ∧ _ := by simpa [here] using taken
      cases failed : failures.condInit with
      | true => exact .inr (.inr (.inr (.inl failed)))
      | false => simp [failed] at gives
    | create =>
      cases failed : failures.create with
      | true => exact .inr (.inr (.inr (.inr failed)))
      | false =>
        obtain ⟨rfl, _⟩ : _ ∧ _ := by simpa [here, failed] using taken
        cases gives
    | lock =>
      obtain ⟨locked, _, rfl, _⟩ : ∃ locked, _ ∧ _ ∧ _ := by simpa [here] using taken
      cases gives
    | cleanUp calls failed =>
      cases calls with
      | nil =>
        obtain ⟨rfl, _⟩ : _ ∧ _ := by simpa [here] using taken
        cases gives
      | cons call calls =>
        obtain ⟨rfl, _⟩ : _ ∧ _ := by simpa [here] using taken
        obtain ⟨rfl, rfl⟩ : _ ∧ _ := by simpa using gives
        exact .inl ⟨_, rfl⟩
    | asleep | finished => simp [here] at taken
    | test =>
      obtain ⟨rfl, _⟩ : _ ∧ _ := by simpa [here] using taken
      dsimp only at gives
      split at gives <;> cases gives
    | fill | wait | unlock | load | returning =>
      obtain ⟨rfl, _⟩ : _ ∧ _ := by simpa [here] using taken
      cases gives
  | worker =>
    left
    cases next_effect taken with
    | signal here =>
      change state.caller.woken = _ at gives
      cases caller : state.caller <;> rw [caller] at gives <;> cases gives
      exact ⟨_, rfl⟩
    | computes | store | workerLock | setDone | workerUnlock => exact ⟨calls, gives⟩
  | spurious =>
    cases next_effect taken with
    | spurious here => cases gives

/-- How the call is going that the server is busy with. -/
structure Going (arith : Arithmetic Num) (argp : CALCULATOR_ARGS Num) (failures : Failures)
    (state : State Num) : Prop where
  consistent : Consistent arith argp state
  refused : state.Refused arith failures

theorem Going.entry (arith : Arithmetic Num) (argp : CALCULATOR_ARGS Num)
    (failures other : Failures) (result : Num) :
    Going arith argp failures { (machine arith argp other).init with result := result } where
  consistent := (Consistent.initial arith argp other).move rfl rfl
  refused := trivial

/-- What a call returns that was not handed over. -/
theorem zero_of_effect (effect : Effect arith argp state action after emitted)
    (going : Going arith argp failures state) (absent : after.worker = .absent)
    (left : after.caller = .returning ∨ after.caller = .finished) :
    failures.any ∧ after.result = arith.zero := by
  have refused := going.refused
  have meets := going.consistent.meets
  unfold State.Refused at refused
  cases effect with
  | @leave failed here =>
    rw [here] at refused meets
    cases failed with
    | true => exact ⟨refused, rfl⟩
    | false =>
      rw [absent] at meets
      cases meets.1
  | «return» here =>
    rw [here] at refused
    exact refused absent
  | @prepares pc next =>
    change pc = .returning ∨ pc = .finished at left
    generalize state.caller = before at next
    rcases left with rfl | rfl <;> cases next
  | computes next => exact absurd absent next.early.2.1
  | fill | create | lock | notDone | done | wait | unlock | load | tearDown | spurious =>
    rcases left with left | left <;> cases left
  | store | workerLock | setDone | signal | workerUnlock => cases absent

theorem Going.step (going : Going arith argp failures state)
    (taken : (machine arith argp failures).next state action = some (after, emitted)) :
    Going arith argp failures after := by
  have effect := next_effect taken
  refine ⟨going.consistent.step effect, ?_⟩
  have refused := going.refused
  unfold State.Refused at refused ⊢
  split
  · rename_i calls gives
    rcases cleanUp_of_failure taken gives with ⟨before, here⟩ | failed
    · rwa [here] at refused
    · exact failed
  · exact fun absent => zero_of_effect effect going absent (.inl ‹_›)
  · exact fun absent => zero_of_effect effect going absent (.inr ‹_›)
  · trivial

/-- What is returned: the value of the operation, or 0 after a failure. -/
def Returns (arith : Arithmetic Num) (failed : Prop) (argp : CALCULATOR_ARGS Num) (value : Num) :
    Prop :=
  value = outcome arith argp ∨ failed ∧ value = arith.zero

theorem Going.returns (going : Going arith argp failures state)
    (here : state.caller = .finished) : Returns arith failures.any argp state.result := by
  have meets := going.consistent.meets
  have refused := going.refused
  unfold State.Refused at refused
  rw [here] at meets refused
  rcases meets with absent | ⟨_, same⟩
  · exact .inr (refused absent)
  · exact .inl same

def argsLayout (float : FloatBits Num) : Layout (CALCULATOR_ARGS Num) :=
  (Layout.int.field CALCULATOR_ARGS.op fun objp op => { objp with op := op }).append <|
  ((Layout.float float).field CALCULATOR_ARGS.arg1
    fun objp arg1 => { objp with arg1 := arg1 }).append
  ((Layout.float float).field CALCULATOR_ARGS.arg2 fun objp arg2 => { objp with arg2 := arg2 })

theorem xdr_CALCULATOR_ARGS_follows (float : FloatBits Num) :
    (xdr_CALCULATOR_ARGS float).Follows (argsLayout float) :=
  (xdrInt_follows.field _ _ fun _ => rfl).andThen <|
    ((xdrFloat_follows float).field _ _ fun _ => rfl).andThen
      ((xdrFloat_follows float).field _ _ fun _ => rfl)

theorem float_small (float : FloatBits Num) : (Layout.float float).width ≤ Rpc.UDPMSGSIZE := by
  change 4 ≤ 8800
  decide

theorem args_small (float : FloatBits Num) : (argsLayout float).width ≤ Rpc.UDPMSGSIZE := by
  change 12 ≤ 8800
  decide

/-- What has been drawn arrives as it was. -/
theorem read_write_draw (float : FloatBits Num) (draw : Draw Num) (zeroed : CALCULATOR_ARGS Num) :
    (argsLayout float).read ((argsLayout float).write draw.args) zeroed = draw.args := by
  have int : draw.operation.op.bmod 4294967296 = draw.operation.op := by
    cases draw.operation <;> decide
  simp [argsLayout, Draw.args, int]

section Service

variable (arith : Arithmetic Num) (float : FloatBits Num) (buffers : Rpc.Buffers)
variable (failures : Nat → Failures)

/-- The server is idle, or busy with the arguments of the call. -/
def Serving (server : Server Num) : Option Rpc.CallBody → Prop
  | none => server.current = none
  | some call => call.proc = CALCULATE ∧ ∃ argp state, server.current = some (argp, state) ∧
      buffers.decode (xdr_CALCULATOR_ARGS float) call.arguments (.zeroed arith) = some argp ∧
      Going arith argp (failures server.returned) state

/-- A reply to the procedure carries the value for the arguments of the call. -/
def Right (call : Rpc.CallBody) (reply : Rpc.ReplyBody) : Prop :=
  call.proc = CALCULATE → ∀ results, reply = .success results → ∃ argp value,
    buffers.decode (xdr_CALCULATOR_ARGS float) call.arguments (.zeroed arith) = some argp ∧
    Returns arith (∃ count, (failures count).any) argp value ∧
    results = (Layout.float float).write value

variable {arith float buffers failures}

theorem service_serves : (service arith float buffers failures).Serves
    (Serving arith float buffers failures) (fun _ => True)
    (Right arith float buffers failures) where
  init := rfl
  take server call idle _ := by
    simp only [service, calculatorProg1]
    split
    · rename_i null
      refine ⟨idle, fun proc => ?_⟩
      rw [null] at proc
      cases proc
    · split
      · rename_i proc
        split
        · exact ⟨idle, fun _ _ same => nomatch same⟩
        · rename_i argp decoded
          exact ⟨proc, argp, _, rfl, decoded, .entry arith argp _ _ server.result⟩
      · exact ⟨idle, fun proc => absurd proc ‹_›⟩
  work server call action result busy works := by
    obtain ⟨proc, argp, state, current, decoded, going⟩ := busy
    simp only [service, Server.work, current] at works
    obtain ⟨⟨after, emitted⟩, taken, rfl⟩ := Option.map_eq_some_iff.mp works
    have goes := going.step taken
    by_cases ended : after.caller = .finished
    · simp only [if_pos ended]
      refine ⟨rfl, fun _ results same => ⟨argp, after.result, decoded, ?_, ?_⟩⟩
      · exact (goes.returns ended).imp_right fun ⟨failed, zero⟩ => ⟨⟨_, failed⟩, zero⟩
      · rw [buffers.sendreply_eq (xdrFloat_follows float) _ (float_small float)] at same
        exact (Rpc.ReplyBody.success.inj same).symm
    · simp only [if_neg ended]
      exact ⟨proc, argp, after, rfl, decoded, goes⟩

/-- What is printed of a result: the value for the arguments that are printed, or 0
after a failure in the server. -/
def Line.Good (arith : Arithmetic Num) (failures : Nat → Failures) : Line Num → Prop
  | .result draw value => Returns arith (∃ count, (failures count).any) draw.args value
  | .failed => True

theorem caller_shows (Client : Type v) (sender : Rpc.Buffers) :
    (caller Client arith float sender).Shows (fun _ => True) (fun _ => True)
      (Right arith float buffers failures) (Line.Good arith failures) where
  init _ := trivial
  asks _ _ _ _ _ _ := trivial
  resumes before draw after call answer _ asked right := by
    refine ⟨trivial, ?_⟩
    obtain ⟨arguments, encoded, same⟩ := Option.map_eq_some_iff.mp asked
    obtain ⟨rfl, rfl⟩ := Prod.mk.inj same
    intro shown member
    simp only [caller] at member
    split at member
    · obtain rfl := List.mem_singleton.mp member
      trivial
    · rename_i value taken
      obtain rfl := List.mem_singleton.mp member
      obtain ⟨results, rfl, read⟩ := Rpc.Buffers.result_eq_some taken
      obtain ⟨argp, computed, decoded, returns, rfl⟩ := right _ rfl rfl results rfl
      rw [sender.encode_eq (xdr_CALCULATOR_ARGS_follows float) _ (args_small float)] at encoded
      obtain rfl := Option.some.inj encoded
      rw [buffers.decode_write (xdr_CALCULATOR_ARGS_follows float), read_write_draw] at decoded
      rw [sender.decode_write (xdrFloat_follows float), read_write_float] at read
      obtain rfl := Option.some.inj decoded
      obtain rfl := Option.some.inj read
      exact returns

end Service

variable {Client : Type v} [DecidableEq Client]

/-- Any number of clients, whatever becomes of their datagrams and however the threads
of the server take turns. -/
theorem prints_right (arith : Arithmetic Num) (float : FloatBits Num)
    (sender receiver : Rpc.Buffers) (failures : Nat → Failures)
    (run : (exchange Client arith float sender receiver failures).Run Machine.anything actions
      events network) (client : Client) (draw : Draw Num) (value : Num)
    (printed : .shown client (.result draw value) ∈ events) :
    value = outcome arith draw.args ∨ (∃ count, (failures count).any) ∧ value = arith.zero := by
  unfold exchange at run
  have good : (Line.result draw value).Good arith failures :=
    Rpc.shown_good service_serves (caller_shows Client sender) run printed
  exact good

/-- Words in the place of floats. -/
def words : Arithmetic UInt32 := ⟨(· + ·), (· - ·), (· * ·), (· / ·), 0, (· != 0)⟩

/-- The request is delivered twice, and the second reply is the one that arrives. -/
def twice : List (Rpc.Action Unit Action (Draw UInt32)) :=
  let served : List (Rpc.Action Unit Action (Draw UInt32)) := tooEarly.map .work
  .ask () ⟨7, .mul, 6⟩ :: .deliver 0 :: served ++ .deliver 0 :: served ++ [.accept () 1]

def product : Rpc.Event Unit Rpc.CallBody Rpc.ReplyBody (Line UInt32) :=
  .shown () (.result ⟨7, .mul, 6⟩ 42)

theorem prints_right_twice : ∃ events network,
    (exchange Unit words ⟨id, id, fun _ => rfl⟩ .datagram .datagram
      fun _ => ⟨false, false, false, false⟩).Run Machine.anything twice events network ∧
    product ∈ events ∧
    (42 = outcome words (Draw.args ⟨7, .mul, 6⟩) ∨
      (∃ _ : Nat, Failures.any ⟨false, false, false, false⟩) ∧ 42 = words.zero) := by
  obtain ⟨events, network, run, printed⟩ : ∃ events network,
      (exchange Unit words ⟨id, id, fun _ => rfl⟩ .datagram .datagram
        fun _ => ⟨false, false, false, false⟩).Run Machine.anything twice events network ∧
      decide (product ∈ events) = true :=
    Machine.Path.ofView (fun _ events => decide (product ∈ events)) twice (fun _ _ _ => trivial)
      (by decide +kernel)
  have member := of_decide_eq_true printed
  exact ⟨events, network, run, member,
    prints_right words _ .datagram .datagram _ run () _ 42 member⟩

end OsLabs.RpcCalc
