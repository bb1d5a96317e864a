import OsLabs.Calculator.Client
import OsLabs.Machine.Handover

/-! Whose answer a thread of the calculator client reads. -/

namespace OsLabs.Calculator

universe u v

variable {Tid : Type v} {Num : Type u}
variable {arith : Arithmetic Num} {request : Tid → Nat → CALCULATOR Num} {network : Network Tid}

/-- No thread clears `clnt_res` or decodes into it while another one has decoded
its reply and not read it yet. -/
def undisturbed : Threads.State Tid (Shared Num) (Pc Num) → Tid → Prop :=
  Threads.spares Pc.stores Pc.unread

/-- The reply that is on its way to a thread, or lies decoded in `clnt_res`, is
the one to its own request. -/
def Pc.Own (arith : Arithmetic Num) (request : Nat → CALCULATOR Num)
    (clntRes : CALCULATOR Num) : Pc Num → Prop
  | .decode i reply => ∀ result, reply = calculatorProc1Svc arith (request i) result
  | .read i => ∀ result, clntRes = calculatorProc1Svc arith (request i) result
  | _ => True

theorem loop_own (arith : Arithmetic Num) (request : Nat → CALCULATOR Num)
    (clntRes : CALCULATOR Num) (i : Nat) : (Pc.loop i).Own arith request clntRes := by
  unfold Pc.loop
  split <;> trivial

theorem own_of_not_unread {pc : Pc Num} (read : pc.unread = false)
    (own : pc.Own arith answers before) (after : CALCULATOR Num) :
    pc.Own arith answers after := by
  cases pc with
  | read i => cases read
  | decode i reply => exact own
  | create | clear i | call i | finished => trivial

/-- What a step keeps of the reply object, and when it shows a received value. -/
structure Keeps (arith : Arithmetic Num) (request : Nat → CALCULATOR Num) (tid : Tid) (pc : Pc Num)
    (clntRes clntRes' : CALCULATOR Num) (pc' : Pc Num) (emitted : List (Event Tid Num)) : Prop where
  own : pc.Own arith request clntRes → pc'.Own arith request clntRes'
  untouched : pc.stores = false → clntRes' = clntRes
  received : ∀ other i value, .received other i value ∈ emitted →
    other = tid ∧ pc = .read i ∧ value = clntRes.result

theorem step_keeps {shared : Shared Num} {pc : Pc Num}
    (stepped : step arith request network tid shared pc = some (shared', pc', emitted)) :
    Keeps arith (request tid) tid pc shared.clntRes shared'.clntRes pc' emitted := by
  cases pc with
  | create =>
    simp only [step, Option.some.injEq, Prod.mk.injEq] at stepped
    obtain ⟨rfl, rfl, rfl⟩ := stepped
    refine ⟨fun _ => ?_, fun _ => rfl, by simp⟩
    split
    · exact loop_own ..
    · trivial
  | clear i =>
    simp only [step, Option.some.injEq, Prod.mk.injEq] at stepped
    obtain ⟨rfl, rfl, rfl⟩ := stepped
    exact ⟨fun _ => trivial, fun keeps => (by cases keeps), by simp⟩
  | call i =>
    simp only [step] at stepped
    split at stepped <;> simp only [Option.some.injEq, Prod.mk.injEq] at stepped <;>
      obtain ⟨rfl, rfl, rfl⟩ := stepped
    · exact ⟨fun _ => loop_own .., fun _ => rfl, by simp⟩
    · exact ⟨fun _ => loop_own .., fun _ => rfl, by simp⟩
    · exact ⟨fun _ result => calculatorProc1Svc_static .., fun _ => rfl, by simp⟩
  | decode i reply =>
    simp only [step, Option.some.injEq, Prod.mk.injEq] at stepped
    obtain ⟨rfl, rfl, rfl⟩ := stepped
    exact ⟨fun own => own, fun keeps => (by cases keeps), by simp⟩
  | read i =>
    simp only [step, Option.some.injEq, Prod.mk.injEq] at stepped
    obtain ⟨rfl, rfl, rfl⟩ := stepped
    refine ⟨fun _ => loop_own .., fun _ => rfl, fun other round value member => ?_⟩
    obtain ⟨rfl, rfl, rfl⟩ := Event.received.inj (List.mem_singleton.mp member)
    exact ⟨rfl, rfl, rfl⟩
  | finished => cases stepped

variable [DecidableEq Tid]

theorem own_of_run
    (run : (threads arith request network).machine.Run undisturbed actions events state)
    (tid : Tid) : (state.pcs tid).Own arith (request tid) state.shared.clntRes := by
  refine Threads.assertions_of_spares (fun shared => shared.clntRes)
    (fun tid clntRes pc => pc.Own arith (request tid) clntRes) (fun _ => trivial) ?_ ?_ ?_ run tid
  · intro tid shared pc shared' pc' emitted own stepped
    exact (step_keeps stepped).own own
  · intro tid shared pc shared' pc' emitted keeps stepped
    exact (step_keeps stepped).untouched keeps
  · intro tid pc before read own after
    exact own_of_not_unread read own after

/-- Every value that a thread has read is the one that `calculator_proc_1_svc`
computes for the request which the thread has sent. -/
def AnswersOwn (arith : Arithmetic Num) (request : Tid → Nat → CALCULATOR Num)
    (events : List (Event Tid Num)) : Prop :=
  ∀ tid i value, .received tid i value ∈ events →
    ∀ result, value = (calculatorProc1Svc arith (request tid i) result).result

/-- That holds as long as `clnt_res` is left alone between a decoding and the
read that follows it. -/
theorem answers_of_undisturbed
    (run : (threads arith request network).machine.Run undisturbed actions events state) :
    AnswersOwn arith request events := by
  intro tid i value member result
  obtain ⟨past, seen, current, actor, shared, pc, emitted, earlier, stepped, shown⟩ :=
    Threads.shown run member
  obtain ⟨rfl, here, rfl⟩ := (step_keeps stepped).received tid i value shown
  have own := own_of_run earlier tid
  rw [here] at own
  rw [own result]

/-- Arithmetic on integers, of which none but 0 is below `tiny`. -/
def integers : Arithmetic Int where
  add := (· + ·)
  sub := (· - ·)
  mul := (· * ·)
  div := (· / ·)
  fabs := fun value => value.natAbs
  less := fun left right => left < right
  zero := 0
  tiny := 1

/-- A network that loses nothing. -/
def reliable : Network Bool := ⟨fun _ => true, fun _ _ => .answered⟩

/-- Two threads that ask for 1 + 2 and for 10 + 20. -/
def additions : Bool → Nat → CALCULATOR Int
  | true, _ => ⟨ADD, 1, 2, 0⟩
  | false, _ => ⟨ADD, 10, 20, 0⟩

/-- The second thread clears `clnt_res` and sends its request before the first has decoded
its reply, and decodes its own when the first has read. -/
def takingTurns : List Bool := [true, true, true, false, false, false, true, true, false, false]

theorem answers_of_undisturbed_overlap : ∃ events state,
    (threads integers additions reliable).machine.Run undisturbed takingTurns events state ∧
    events = [.received true 0 3, .received false 0 30] ∧
    AnswersOwn integers additions events := by
  let test (state : Threads.State Bool (Shared Int) (Pc Int)) (tid : Bool) : Bool :=
    !(state.pcs tid).stores || !(state.pcs (!tid)).unread
  obtain ⟨events, state, path, seen⟩ : ∃ events state,
      ((threads integers additions reliable).machine.restrict test).Run Machine.anything
        takingTurns events state ∧ events = [.received true 0 3, .received false 0 30] :=
    Machine.Path.ofView (fun _ events => events) takingTurns (fun _ _ _ => trivial) rfl
  have run : (threads integers additions reliable).machine.Run undisturbed takingTurns events
      state := by
    refine path.ofRestrict fun state tid passed stores other different => ?_
    have opposite : other = !tid := by
      cases other <;> cases tid <;> first | rfl | exact absurd rfl different
    simpa [test, stores, opposite] using passed
  exact ⟨events, state, run, seen, answers_of_undisturbed run⟩

/-- The reply to the first thread is overwritten by the reply to the second one
before the first has read it. -/
theorem answers_mixed : ∃ actions events state,
    (threads integers additions reliable).machine.Run Machine.anything actions events state ∧
    events = [.received true 0 30] ∧ ¬ AnswersOwn integers additions events := by
  let schedule : List Bool := [true, true, true, false, false, false, true, false, true]
  obtain ⟨events, state, run, seen⟩ : ∃ events state,
      (threads integers additions reliable).machine.Run Machine.anything schedule events state ∧
      events = [.received true 0 30] :=
    Machine.Path.ofView (fun _ events => events) schedule (fun _ _ _ => trivial) rfl
  refine ⟨schedule, events, state, run, seen, fun own => ?_⟩
  have value := own true 0 30 (by simp [seen]) (.zeroed integers)
  exact absurd value (by decide)

end OsLabs.Calculator
