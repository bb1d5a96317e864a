import OsLabs.Ipc.Pipe
import OsLabs.Machine.Run
import Mathlib.Logic.Function.Basic

/-! fifth.c: two children, each of which writes its message into a pipe when it has
got a SIGINT, and the parent, which waits for both and reads two messages. -/

namespace OsLabs.Lab01.Fifth

/-- A string in a row of `messages[2][32]`. -/
structure Message where
  text : List UInt8
  nonempty : text ≠ []
  nonzero : 0 ∉ text
  fits : text.length < 32

/-- `char[32]`. -/
def Message.array (message : Message) : List UInt8 :=
  message.text ++ List.replicate (32 - message.text.length) 0

def strlen (array : List UInt8) : Nat := array.findIdx (· = 0)

/-- What a child does up to its exit; its calls of `close` succeed. -/
inductive ChildPc where
  | unborn
  | test
  | sleep
  | retest
  | write
  | close
  | exited (status : Nat)
deriving DecidableEq

structure Child where
  pc : ChildPc
  flag : Bool
deriving DecidableEq

inductive MainPc where
  | fork (i : Fin 2)
  | waitpid (i : Fin 2)
  | close
  | read (i : Fin 2)
  | exited (status : Nat)
deriving DecidableEq

structure State where
  main : MainPc
  flag : Bool
  child : Fin 2 → Child
  pipe : List UInt8

/-- The parent goes on (`false` when its call fails), a child goes on, or a process
gets a SIGINT. -/
inductive Action where
  | main (success : Bool)
  | child (i : Fin 2)
  | sigint (child : Option (Fin 2))
deriving DecidableEq

inductive Event where
  | wrote (i : Fin 2)
  | noSignal (i : Fin 2)
  | perror (text : String)
  | read (i : Fin 2) (bytes : List UInt8)
deriving DecidableEq

/-- A loop `for (int i = 0; i < 2; i++)`, and the code behind it. -/
def again (i : Fin 2) (loop : Fin 2 → MainPc) (behind : MainPc) : MainPc :=
  if i = 0 then loop 1 else behind

/-- The reads that have been made. -/
def MainPc.done : MainPc → List (Fin 2)
  | .read 1 => [0]
  | .exited 0 => [0, 1]
  | _ => []

/-- Every write end is closed by the time of the reads: an empty pipe is read as such. -/
def mainStep (messages : Fin 2 → Message) (state : State) (success : Bool) :
    Option (State × List Event) :=
  match state.main with
  | .fork i =>
    if success then
      some ({ state with
        main := again i .fork (.waitpid 0)
        child := Function.update state.child i ⟨.test, state.flag⟩ }, [])
    else some ({ state with main := .exited 1 }, [.perror "fork"])
  -- waitpid(childPIDS[i], &wstatus, 0), with SA_RESTART
  | .waitpid i =>
    match (state.child i).pc with
    | .exited _ => some ({ state with main := again i .waitpid .close }, [])
    | _ => none
  | .close => some ({ state with main := .read 0 }, [])
  -- read(pipefd[0], buf, strlen(messages[i]))
  | .read i =>
    let count := strlen (messages i).array
    some ({ state with main := again i .read (.exited 0), pipe := state.pipe.drop count },
      [.read i (state.pipe.take count)])
  | .exited _ => none

def childStep (messages : Fin 2 → Message) (state : State) (i : Fin 2) :
    Option (State × List Event) :=
  let goes (pc : ChildPc) : State :=
    { state with child := Function.update state.child i ⟨pc, (state.child i).flag⟩ }
  match (state.child i).pc with
  | .test => some (goes (if (state.child i).flag then .write else .sleep), [])
  | .sleep => some (goes .retest, [])
  | .retest =>
    if (state.child i).flag then some (goes .write, [])
    else some (goes (.exited 0), [.noSignal i])
  -- write(pipefd[1], messages[i], strlen(messages[i]))
  | .write =>
    let array := (messages i).array
    some ({ goes .close with pipe := state.pipe ++ array.take (strlen array) }, [.wrote i])
  | .close => some (goes (.exited 0), [])
  | .unborn | .exited _ => none

def sigHandler (state : State) : Option (Fin 2) → State
  | none => { state with flag := true }
  | some i => { state with child := Function.update state.child i ⟨(state.child i).pc, true⟩ }

def machine (messages : Fin 2 → Message) : Machine State Action Event where
  init := ⟨.fork 0, false, fun _ => ⟨.unborn, false⟩, []⟩
  next state action :=
    match action with
    | .main success => mainStep messages state success
    | .child i => childStep messages state i
    | .sigint child => some (sigHandler state child, [])

def Event.writer? : Event → Option (Fin 2)
  | .wrote i => some i
  | _ => none

def Event.read? : Event → Option (Fin 2 × List UInt8)
  | .read i bytes => some (i, bytes)
  | _ => none

/-- The children that have written, in this order. -/
def writers (events : List Event) : List (Fin 2) := events.filterMap Event.writer?

/-- What the reads have returned. -/
def reads (events : List Event) : List (Fin 2 × List UInt8) := events.filterMap Event.read?

/-- Each read returns the message of its child, or nothing if that has not written. -/
def Framed (messages : Fin 2 → Message) (events : List Event) : Prop :=
  ∀ i bytes, .read i bytes ∈ events →
    bytes = if .wrote i ∈ events then (messages i).text else []

/-- Child 1 does not write, or after child 0, or the two messages give the same bytes
in either order. -/
def Ordered (messages : Fin 2 → Message) (order : List (Fin 2)) : Prop :=
  1 ∉ order ∨ order = [0, 1] ∨
    order = [1, 0] ∧ (messages 0).text ++ (messages 1).text =
      (messages 1).text ++ (messages 0).text

/-- What a child goes on to, without writing. -/
inductive ChildPc.Next (flag : Bool) : ChildPc → ChildPc → Prop where
  | write (set : flag = true) : ChildPc.Next flag .test .write
  | sleep : ChildPc.Next flag .test .sleep
  | retest : ChildPc.Next flag .sleep .retest
  | woken (set : flag = true) : ChildPc.Next flag .retest .write
  | exit : ChildPc.Next flag .close (.exited 0)

/-- What one step does. -/
inductive Effect (messages : Fin 2 → Message) (state : State) :
    Action → State → List Event → Prop where
  | fork (here : state.main = .fork i) :
    Effect messages state (.main true)
      { state with
        main := again i .fork (.waitpid 0)
        child := Function.update state.child i ⟨.test, state.flag⟩ } []
  | forkFailed (here : state.main = .fork i) :
    Effect messages state (.main false) { state with main := .exited 1 } [.perror "fork"]
  | waitpid (here : state.main = .waitpid i) (ended : (state.child i).pc = .exited status) :
    Effect messages state (.main success)
      { state with main := again i .waitpid .close } []
  | close (here : state.main = .close) :
    Effect messages state (.main success) { state with main := .read 0 } []
  | read (here : state.main = .read i) :
    Effect messages state (.main success)
      { state with
        main := again i .read (.exited 0)
        pipe := state.pipe.drop (strlen (messages i).array) }
      [.read i (state.pipe.take (strlen (messages i).array))]
  | child (next : ChildPc.Next (state.child i).flag (state.child i).pc pc) :
    Effect messages state (.child i)
      { state with child := Function.update state.child i ⟨pc, (state.child i).flag⟩ } []
  | noSignal (here : (state.child i).pc = .retest) (unset : (state.child i).flag = false) :
    Effect messages state (.child i)
      { state with child := Function.update state.child i ⟨.exited 0, (state.child i).flag⟩ }
      [.noSignal i]
  | write (here : (state.child i).pc = .write) :
    Effect messages state (.child i)
      { state with
        child := Function.update state.child i ⟨.close, (state.child i).flag⟩
        pipe := state.pipe ++ (messages i).array.take (strlen (messages i).array) }
      [.wrote i]
  | sigint (child : Option (Fin 2)) :
    Effect messages state (.sigint child) (sigHandler state child) []

variable {messages : Fin 2 → Message} {state after : State} {emitted : List Event}

theorem mainStep_effect (taken : mainStep messages state success = some (after, emitted)) :
    Effect messages state (.main success) after emitted := by
  unfold mainStep at taken
  split at taken
  · next i here =>
    cases success with
    | true =>
      obtain ⟨rfl, rfl⟩ := Prod.mk.inj (Option.some.inj taken)
      exact .fork here
    | false =>
      obtain ⟨rfl, rfl⟩ := Prod.mk.inj (Option.some.inj taken)
      exact .forkFailed here
  · next i here =>
    split at taken
    · next status ended =>
      obtain ⟨rfl, rfl⟩ := Prod.mk.inj (Option.some.inj taken)
      exact .waitpid here ended
    · cases taken
  · next here =>
    obtain ⟨rfl, rfl⟩ := Prod.mk.inj (Option.some.inj taken)
    exact .close here
  · next i here =>
    obtain ⟨rfl, rfl⟩ := Prod.mk.inj (Option.some.inj taken)
    exact .read here
  · cases taken

theorem childStep_effect (taken : childStep messages state i = some (after, emitted)) :
    Effect messages state (.child i) after emitted := by
  unfold childStep at taken
  dsimp only at taken
  split at taken
  · next here =>
    obtain ⟨rfl, rfl⟩ := Prod.mk.inj (Option.some.inj taken)
    refine .child ?_
    rw [here]
    split
    · next set => exact .write set
    · exact .sleep
  · next here =>
    obtain ⟨rfl, rfl⟩ := Prod.mk.inj (Option.some.inj taken)
    exact .child (here ▸ .retest)
  · next here =>
    split at taken
    · next set =>
      obtain ⟨rfl, rfl⟩ := Prod.mk.inj (Option.some.inj taken)
      exact .child (here ▸ .woken set)
    · next unset =>
      obtain ⟨rfl, rfl⟩ := Prod.mk.inj (Option.some.inj taken)
      exact .noSignal here (Bool.eq_false_iff.mpr unset)
  · next here =>
    obtain ⟨rfl, rfl⟩ := Prod.mk.inj (Option.some.inj taken)
    exact .write here
  · next here =>
    obtain ⟨rfl, rfl⟩ := Prod.mk.inj (Option.some.inj taken)
    exact .child (here ▸ .exit)
  · cases taken
  · cases taken

theorem next_effect (taken : (machine messages).next state action = some (after, emitted)) :
    Effect messages state action after emitted := by
  cases action with
  | main success => exact mainStep_effect taken
  | child i => exact childStep_effect taken
  | sigint child =>
    obtain ⟨rfl, rfl⟩ := Prod.mk.inj (Option.some.inj taken)
    exact .sigint child

/-- `strlen` finds the end of the text. -/
theorem strlen_array (message : Message) : strlen message.array = message.text.length := by
  have room : 0 < 32 - message.text.length := Nat.sub_pos_of_lt message.fits
  obtain ⟨spare, same⟩ := Nat.exists_eq_succ_of_ne_zero (Nat.ne_of_gt room)
  have clean : message.text.findIdx (· = 0) = message.text.length := by
    refine List.findIdx_eq_length_of_false fun byte member => decide_eq_false fun zero => ?_
    exact message.nonzero (zero ▸ member)
  rw [strlen, Message.array, same, List.replicate_succ, List.findIdx_append, clean,
    if_neg (Nat.lt_irrefl _), List.findIdx_cons]
  simp

theorem take_array (message : Message) :
    message.array.take (strlen message.array) = message.text := by
  rw [strlen_array, Message.array, List.take_left]

end OsLabs.Lab01.Fifth
