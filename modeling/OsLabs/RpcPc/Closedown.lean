import OsLabs.RpcPc.Server
import Mathlib.Data.List.Count
import Mathlib.Tactic.SplitIfs

/-! When the server of pc_svc.c ends. The flag is set exactly while a call is being
handled, so `closedown` never takes a call away; and the alarm of a server that a port
monitor has started is always due again. -/

namespace OsLabs.RpcPc

/-- The descriptors below `size` that are in use. -/
def inUse (isset : Nat → Bool) (i left : Nat) : Nat := (List.range' i left).countP isset

/-- The loop of `closedown` stops at two, and counts them all otherwise. -/
theorem openfd_eq (isset : Nat → Bool) (left i count : Nat) (few : count ≤ 2) :
    openfd isset left i count = min 2 (count + inUse isset i left) := by
  induction left generalizing i count with
  | zero => simp [openfd, inUse, Nat.min_eq_right few]
  | succ left ih =>
    simp only [openfd, inUse, List.range'_succ, List.countP_cons]
    by_cases more : count < 2
    · rw [if_pos more, ih _ _ (by split <;> omega), inUse]
      split <;> omega
    · rw [if_neg more]
      omega

/-- No descriptor is in use. -/
theorem openfd_eq_zero_iff (isset : Nat → Bool) (size : Nat) :
    openfd isset size 0 0 = 0 ↔ ∀ fd < size, isset fd = false := by
  rw [openfd_eq isset size 0 0 (by decide)]
  have none : inUse isset 0 size = 0 ↔ ∀ fd < size, isset fd = false := by
    rw [inUse, ← List.range_eq_range', List.countP_eq_zero]
    simp
  rw [← none]
  omega

/-- Within the set, what lies behind it plays no part. -/
theorem openfd_FD_ISSET_eq_zero_iff (inside : size ≤ FD_SETSIZE) (svcFdset behind : Nat → Bool) :
    openfd (FD_ISSET svcFdset behind) size 0 0 = 0 ↔ ∀ fd < size, svcFdset fd = false := by
  rw [openfd_eq_zero_iff]
  refine forall_congr' fun fd => forall_congr' fun below => ?_
  rw [FD_ISSET, if_pos (Nat.lt_of_lt_of_le below inside)]

/-- The reply is one that the procedure may get. -/
def Reply.Answers (proc : Nat) : Reply → Prop
  | .void => proc = NULLPROC
  | .noproc => proc ≠ NULLPROC ∧ proc ≠ consume ∧ proc ≠ produce
  | .char _ | .decode | .systemerr => proc = consume ∨ proc = produce

/-- The points that belong to the procedure. -/
def Pc.Of (proc : Nat) : Pc → Prop
  | .sendVoid => Reply.void.Answers proc
  | .noproc => Reply.noproc.Answers proc
  | .getargs | .decode | .callLocal | .sendreply _ | .systemerr => Reply.decode.Answers proc
  | .setDirty | .switch | .freeargs | .msgout | .clearDirty => True

/-- Nothing has been sent yet. -/
def Pc.unanswered : Pc → Bool
  | .freeargs | .msgout | .clearDirty => false
  | _ => true

/-- What a step of `pc_prog_1` does. -/
inductive Goes (state : State) (proc : Nat) : Pc → State → List Event → Prop where
  | enters : Goes state proc .setDirty
      { state with rpcsvcdirty := true, serving := some (proc, .switch) } [.entered proc]
  | moves (inside : pc ≠ .setDirty ∧ pc' ≠ .setDirty) (fits : pc'.Of proc)
      (kept : pc'.unanswered = true → pc.unanswered = true) :
      Goes state proc pc { state with serving := some (proc, pc') } []
  | sends (inside : pc ≠ .setDirty ∧ pc' ≠ .setDirty) (fits : pc'.Of proc)
      (first : pc.unanswered = true ∧ pc'.unanswered = false) (answers : reply.Answers proc) :
      Goes state proc pc { state with serving := some (proc, pc') } [.sent reply]
  | aborts : Goes state proc .msgout { state with running := false } [.exited 1]
  | leaves :
    Goes state proc .clearDirty { state with rpcsvcdirty := false, serving := none } [.left]

theorem goes_of_step {state after : State} (fits : pc.Of proc)
    (stepped : pcProg1 state proc pc outcome = some (after, emitted)) :
    Goes state proc pc after emitted := by
  cases pc with
  | setDirty =>
    cases outcome <;> cases stepped
    exact .enters
  | switch =>
    cases outcome <;> cases stepped
    refine .moves ?_ ?_ ?_
    · split_ifs <;> simp
    · split_ifs with null known
      · exact null
      · exact known
      · exact ⟨null, not_or.mp known⟩
    · simp [Pc.unanswered]
  | sendVoid =>
    cases outcome <;> cases stepped
    · exact .sends (by simp) trivial (by simp [Pc.unanswered]) fits
    · exact .moves (by simp) trivial (by simp [Pc.unanswered])
  | noproc =>
    cases outcome <;> cases stepped
    exact .sends (by simp) trivial (by simp [Pc.unanswered]) fits
  | getargs =>
    cases outcome <;> cases stepped
    · exact .moves (by simp) fits (by simp [Pc.unanswered])
    · exact .moves (by simp) fits (by simp [Pc.unanswered])
  | decode =>
    cases outcome <;> cases stepped
    exact .sends (by simp) trivial (by simp [Pc.unanswered]) fits
  | callLocal =>
    cases outcome with
    | success | failure => cases stepped
    | returned result =>
      cases result <;> cases stepped
      · exact .moves (by simp) trivial (by simp [Pc.unanswered])
      · exact .moves (by simp) fits (by simp [Pc.unanswered])
  | sendreply result =>
    cases outcome <;> cases stepped
    · exact .sends (by simp) trivial (by simp [Pc.unanswered]) fits
    · exact .moves (by simp) fits (by simp [Pc.unanswered])
  | systemerr =>
    cases outcome <;> cases stepped
    exact .sends (by simp) trivial (by simp [Pc.unanswered]) fits
  | freeargs =>
    cases outcome <;> cases stepped
    · exact .moves (by simp) trivial (by simp [Pc.unanswered])
    · exact .moves (by simp) trivial (by simp [Pc.unanswered])
  | msgout =>
    cases outcome <;> cases stepped
    exact .aborts
  | clearDirty =>
    cases outcome <;> cases stepped
    exact .leaves

/-- What `closedown` does. -/
inductive Closes (getdtablesize : Nat) (state : State) : State × List Event → Prop where
  | rearms (size : Nat) (known : size = state.size ∨ size = getdtablesize) :
      Closes getdtablesize state ({ state with size := size, alarm := true }, [])
  | ends (size : Nat) (known : size = state.size ∨ size = getdtablesize)
      (clean : state.rpcsvcdirty = false) :
      Closes getdtablesize state ({ state with size := size, running := false }, [.exited 0])

theorem closes (getdtablesize : Nat) (behind : Nat → Bool) (state : State) :
    Closes getdtablesize state (closedown getdtablesize behind state) := by
  unfold closedown
  split
  · exact .rearms state.size (.inl rfl)
  · rename_i clean
    have clean : state.rpcsvcdirty = false := by simpa using clean
    split
    · exact .ends state.size (.inl rfl) clean
    · have known : (if state.size = 0 then getdtablesize else state.size) = state.size ∨
          (if state.size = 0 then getdtablesize else state.size) = getdtablesize := by
        split
        · exact .inr rfl
        · exact .inl rfl
      dsimp only
      generalize (if state.size = 0 then getdtablesize else state.size) = size at known ⊢
      generalize (if state.rpcpmstart then 0 else 1) = least
      split
      · exact .ends size known clean
      · exact .rearms size known

/-- Nothing but a datagram socket, or no connection that is left, makes it end. -/
def State.Deserted (state : State) (getdtablesize : Nat) : Prop :=
  state.rpcfdtype = .SOCK_DGRAM ∨ ∀ fd < getdtablesize, state.svcFdset fd = false

theorem closedown_ends_iff (inside : getdtablesize ≤ FD_SETSIZE) (behind : Nat → Bool)
    (state : State) (started : state.rpcpmstart = true) (running : state.running = true)
    (known : state.size = 0 ∨ state.size = getdtablesize) :
    (closedown getdtablesize behind state).1.running = false ↔
      state.rpcsvcdirty = false ∧ state.Deserted getdtablesize := by
  have size : (if state.size = 0 then getdtablesize else state.size) = getdtablesize := by
    split <;> omega
  unfold closedown State.Deserted
  rw [size, started]
  cases state.rpcsvcdirty with
  | true => simp [running]
  | false =>
    by_cases datagram : state.rpcfdtype = .SOCK_DGRAM
    · simp [datagram, State.exit]
    · simp only [datagram, Bool.false_eq_true, if_false, if_true, Nat.le_zero, true_and, false_or,
        openfd_FD_ISSET_eq_zero_iff inside]
      split
      · rename_i empty
        simpa [State.exit] using empty
      · rename_i open'
        simpa [running] using open'

/-- What holds in every state of a server that was started as `started`. -/
structure Kept (getdtablesize : Nat) (started state : State) : Prop where
  dirty : state.rpcsvcdirty = true ↔ ∃ proc pc, state.serving = some (proc, pc) ∧ pc ≠ .setDirty
  fits : ∀ proc pc, state.serving = some (proc, pc) → pc.Of proc
  socket : state.rpcpmstart = started.rpcpmstart ∧ state.rpcfdtype = started.rpcfdtype
  size : state.size = 0 ∨ state.size = getdtablesize
  alarm : state.running = true → state.alarm = state.rpcpmstart

theorem Kept.goes (kept : Kept getdtablesize started state)
    (serving : state.serving = some (proc, pc)) (goes : Goes state proc pc after emitted) :
    Kept getdtablesize started after := by
  cases goes with
  | enters =>
    refine { kept with dirty := by simp, fits := ?_ }
    rintro _ _ ⟨⟩
    trivial
  | moves inside fits _ =>
    have dirty := kept.dirty.mpr ⟨proc, pc, serving, inside.1⟩
    refine { kept with dirty := by simp [dirty, inside.2], fits := ?_ }
    rintro _ _ ⟨⟩
    exact fits
  | sends inside fits _ _ =>
    have dirty := kept.dirty.mpr ⟨proc, pc, serving, inside.1⟩
    refine { kept with dirty := by simp [dirty, inside.2], fits := ?_ }
    rintro _ _ ⟨⟩
    exact fits
  | aborts => exact { kept with alarm := nofun }
  | leaves => exact { kept with dirty := by simp, fits := nofun }

theorem Kept.step (kept : Kept getdtablesize started state)
    (taken : (server getdtablesize started).next state action = some (after, emitted)) :
    Kept getdtablesize started after := by
  obtain ⟨running, taken⟩ := Option.ite_none_right_eq_some.mp taken
  cases action with
  | receive proc =>
    obtain ⟨idle, taken⟩ := Option.ite_none_right_eq_some.mp taken
    cases taken
    have clean := kept.dirty
    rw [idle] at clean
    refine { kept with dirty := ?_, fits := ?_ }
    · simp only [clean]
      simp
    · rintro _ _ ⟨⟩
      trivial
  | opens fd =>
    obtain ⟨idle, taken⟩ := Option.ite_none_right_eq_some.mp taken
    cases taken
    exact { kept with }
  | destroys fd =>
    obtain ⟨idle, taken⟩ := Option.ite_none_right_eq_some.mp taken
    cases taken
    exact { kept with }
  | go outcome =>
    obtain ⟨⟨proc, pc⟩, serving, stepped⟩ := Option.bind_eq_some_iff.mp taken
    exact kept.goes serving (goes_of_step (kept.fits proc pc serving) stepped)
  | sigalrm behind =>
    obtain ⟨due, taken⟩ := Option.ite_none_right_eq_some.mp taken
    have pmstart : state.rpcpmstart = true := by rw [← kept.alarm running, due]
    have effect := closes getdtablesize behind { state with alarm := false }
    rw [Option.some.inj taken] at effect
    have size : ∀ size, size = state.size ∨ size = getdtablesize →
        size = 0 ∨ size = getdtablesize := by
      rintro size (rfl | rfl)
      · exact kept.size
      · exact .inr rfl
    cases effect with
    | rearms new known =>
      exact { kept with size := size new known, alarm := fun _ => pmstart.symm }
    | ends new known clean =>
      exact { kept with size := size new known, alarm := nofun }

theorem ok_of_bind {first : Except ε α} {second : α → Except ε β}
    (done : first >>= second = .ok result) :
    ∃ value, first = .ok value ∧ second value = .ok result := by
  cases first with
  | error status => cases done
  | ok value => exact ⟨value, rfl, done⟩

theorem kept_of_main (begun : main host = .ok started) :
    Kept host.getdtablesize started started ∧ started.running = true ∧
      started.rpcsvcdirty = false := by
  obtain ⟨⟨pmstart, type⟩, _, begun⟩ := ok_of_bind begun
  obtain ⟨udp, _, begun⟩ := ok_of_bind begun
  obtain ⟨tcp, _, begun⟩ := ok_of_bind begun
  split at begun
  · cases begun
  · cases begun
    exact ⟨⟨by simp, nofun, ⟨rfl, rfl⟩, .inl rfl, fun _ => rfl⟩, rfl, rfl⟩

/-- A call that `pc_prog_1` has begun to handle, and the reply to it. -/
structure Episode where
  proc : Nat
  reply : Option Reply

def Episode.Fits (episode : Episode) : Prop :=
  ∀ reply ∈ episode.reply, reply.Answers episode.proc

def Episode.opened (episode : Episode) : List Event :=
  .entered episode.proc :: episode.reply.toList.map .sent

def Episode.log (episode : Episode) : List Event := episode.opened ++ [.left]

/-- What the log shows behind the calls that have been handled. -/
inductive Rest (state : State) : List Event → Prop where
  | idle (running : state.running = true) (clean : state.rpcsvcdirty = false) : Rest state []
  | ended (stopped : state.running = false) : Rest state [.exited 0]
  | busy (episode : Episode) (fits : episode.Fits) (running : state.running = true)
      (serving : state.serving = some (episode.proc, pc)) (inside : pc ≠ .setDirty)
      (first : pc.unanswered = true → episode.reply = none) : Rest state episode.opened
  | aborted (episode : Episode) (fits : episode.Fits) (stopped : state.running = false) :
      Rest state (episode.opened ++ [.exited 1])

def Logged (events : List Event) (state : State) : Prop :=
  ∃ (episodes : List Episode) (rest : List Event), (∀ episode ∈ episodes, episode.Fits) ∧
    events = episodes.flatMap Episode.log ++ rest ∧ Rest state rest

/-- A step that goes on with the last part of the log. -/
theorem Logged.extend {episodes : List Episode} (fits : ∀ episode ∈ episodes, episode.Fits)
    (shown : events = episodes.flatMap Episode.log ++ rest) (rests : Rest after (rest ++ emitted)) :
    Logged (events ++ emitted) after :=
  ⟨episodes, rest ++ emitted, fits, by rw [shown, List.append_assoc], rests⟩

/-- A step that shows nothing and moves no call. -/
theorem Rest.quiet (rests : Rest state rest) (running : after.running = state.running)
    (dirty : after.rpcsvcdirty = state.rpcsvcdirty) (serving : after.serving = state.serving) :
    Rest after (rest ++ []) := by
  rw [List.append_nil]
  cases rests with
  | idle runs clean => exact .idle (running.trans runs) (dirty.trans clean)
  | ended stopped => exact .ended (running.trans stopped)
  | busy episode fits runs serves inside first =>
    exact .busy episode fits (running.trans runs) (serving.trans serves) inside first
  | aborted episode fits stopped => exact .aborted episode fits (running.trans stopped)

/-- The server runs, so it is idle or busy. -/
theorem Rest.cases (rests : Rest state rest) (kept : Kept getdtablesize started state)
    (runs : state.running = true) :
    rest = [] ∧ state.rpcsvcdirty = false ∨ ∃ episode pc, rest = Episode.opened episode ∧
      episode.Fits ∧ state.rpcsvcdirty = true ∧ state.serving = some (episode.proc, pc) ∧
      (pc.unanswered = true → episode.reply = none) := by
  cases rests with
  | idle _ clean => exact .inl ⟨rfl, clean⟩
  | ended stopped =>
    rw [runs] at stopped
    cases stopped
  | busy episode fits _ serving inside first =>
    have dirty := kept.dirty.mpr ⟨_, _, serving, inside⟩
    exact .inr ⟨episode, _, rfl, fits, dirty, serving, first⟩
  | aborted episode fits stopped =>
    rw [runs] at stopped
    cases stopped

theorem Logged.goes (logged : Logged events state) (kept : Kept getdtablesize started state)
    (running : state.running = true) (serving : state.serving = some (proc, pc))
    (goes : Goes state proc pc after emitted) : Logged (events ++ emitted) after := by
  obtain ⟨episodes, rest, fits, shown, rests⟩ := logged
  rcases rests.cases kept running with
    ⟨rfl, clean⟩ | ⟨episode, pc', rfl, answers, dirty, same, first⟩
  · have outside : pc = .setDirty := by
      by_contra inside
      rw [kept.dirty.mpr ⟨proc, pc, serving, inside⟩] at clean
      cases clean
    subst outside
    cases goes with
    | enters =>
      exact .extend fits shown (.busy ⟨proc, none⟩ nofun running rfl nofun fun _ => rfl)
    | moves inside => exact absurd rfl inside.1
    | sends inside => exact absurd rfl inside.1
  · obtain ⟨rfl, rfl⟩ : episode.proc = proc ∧ pc' = pc := by simpa [serving, eq_comm] using same
    cases goes with
    | enters =>
      obtain ⟨_, _, here, inside⟩ := kept.dirty.mp dirty
      rw [serving] at here
      cases here
      exact absurd rfl inside
    | moves inside _ kept =>
      refine .extend fits shown ?_
      rw [List.append_nil]
      exact .busy episode answers running rfl inside.2 fun unanswered => first (kept unanswered)
    | @sends _ _ reply inside _ order right =>
      have none := first order.1
      have opened :
          episode.opened ++ [.sent reply] = Episode.opened ⟨episode.proc, some reply⟩ := by
        simp [Episode.opened, none]
      refine .extend fits shown ?_
      rw [opened]
      refine .busy _ ?_ running rfl inside.2 fun unanswered => ?_
      · rintro _ ⟨⟩
        exact right
      · rw [order.2] at unanswered
        cases unanswered
    | aborts => exact .extend fits shown (.aborted episode answers rfl)
    | leaves =>
      refine ⟨episodes ++ [episode], [], ?_, ?_, .idle running rfl⟩
      · intro other member
        rcases List.mem_append.mp member with old | new
        · exact fits other old
        · rw [List.mem_singleton.mp new]
          exact answers
      · rw [shown, List.flatMap_append, List.flatMap_singleton, Episode.log, List.append_nil,
          List.append_assoc]

theorem Logged.step (logged : Logged events state) (kept : Kept getdtablesize started state)
    (taken : (server getdtablesize started).next state action = some (after, emitted)) :
    Logged (events ++ emitted) after := by
  obtain ⟨running, taken⟩ := Option.ite_none_right_eq_some.mp taken
  cases action with
  | go outcome =>
    obtain ⟨⟨proc, pc⟩, serving, stepped⟩ := Option.bind_eq_some_iff.mp taken
    exact logged.goes kept running serving (goes_of_step (kept.fits proc pc serving) stepped)
  | receive proc =>
    obtain ⟨idle, taken⟩ := Option.ite_none_right_eq_some.mp taken
    cases taken
    obtain ⟨episodes, rest, fits, shown, rests⟩ := logged
    rcases rests.cases kept running with ⟨rfl, clean⟩ | ⟨episode, pc, _, _, _, busy, _⟩
    · exact .extend fits shown (.idle running clean)
    · rw [idle] at busy
      cases busy
  | opens fd | destroys fd =>
    obtain ⟨idle, taken⟩ := Option.ite_none_right_eq_some.mp taken
    cases taken
    obtain ⟨episodes, rest, fits, shown, rests⟩ := logged
    exact .extend fits shown (rests.quiet rfl rfl rfl)
  | sigalrm behind =>
    obtain ⟨due, taken⟩ := Option.ite_none_right_eq_some.mp taken
    obtain ⟨episodes, rest, fits, shown, rests⟩ := logged
    have effect := closes getdtablesize behind { state with alarm := false }
    rw [Option.some.inj taken] at effect
    cases effect with
    | rearms size known => exact .extend fits shown (rests.quiet rfl rfl rfl)
    | ends size known clean =>
      rcases rests.cases kept running with ⟨rfl, _⟩ | ⟨episode, pc, _, _, dirty, _, _⟩
      · exact .extend fits shown (.ended rfl)
      · rw [show state.rpcsvcdirty = false from clean] at dirty
        cases dirty

section Runs

variable {host : Host} {started state : State}

theorem kept_of_run (begun : main host = .ok started)
    (run : (server host.getdtablesize started).Run allowed actions events state) :
    Kept host.getdtablesize started state := by
  refine run.invariant (fun _ state => Kept host.getdtablesize started state)
    (kept_of_main begun).1 ?_
  intro events state action after emitted kept _ taken
  exact kept.step taken

/-- SIGALRM reaches just the servers that a port monitor has started, any of them at any
time. Where the table of descriptors is no larger than `svc_fdset`, it ends the server
exactly if no call is between the setting and the clearing of the flag and the socket is
a datagram socket or no descriptor is in use, and otherwise changes nothing. -/
theorem sigalrm_ends_iff (begun : main host = .ok started)
    (inside : host.getdtablesize ≤ FD_SETSIZE)
    (run : (server host.getdtablesize started).Run Machine.anything actions events state)
    (running : state.running = true) :
    (state.rpcpmstart = false → ∀ behind,
      (server host.getdtablesize started).next state (.sigalrm behind) = none) ∧
    (state.rpcpmstart = true → ∀ behind, ∃ after emitted,
      (server host.getdtablesize started).next state (.sigalrm behind) = some (after, emitted) ∧
      (after.running = false ↔ (∀ proc pc, state.serving = some (proc, pc) → pc = .setDirty) ∧
        state.Deserted host.getdtablesize) ∧
      (after.running = true → after = { state with size := after.size } ∧ emitted = [])) := by
  have kept := kept_of_run begun run
  have alarm := kept.alarm running
  refine ⟨fun alone behind => ?_, fun monitored behind => ?_⟩
  · simp [server, next, alarm, alone]
  · have due : state.alarm = true := by rw [alarm, monitored]
    let alarmed : State := { state with alarm := false }
    have taken : (server host.getdtablesize started).next state (.sigalrm behind) =
        some (closedown host.getdtablesize behind alarmed) := by
      simp only [server, next, if_pos running, if_pos due, alarmed]
    have ends := closedown_ends_iff inside behind alarmed monitored running kept.size
    have effect := closes host.getdtablesize behind alarmed
    generalize closedown host.getdtablesize behind alarmed = result at taken ends effect
    obtain ⟨after, emitted⟩ := result
    refine ⟨after, emitted, taken, ends.trans (and_congr ?_ Iff.rfl), fun runs => ?_⟩
    · rw [← Bool.not_eq_true, kept.dirty]
      push Not
      rfl
    · cases effect with
      | rearms size known => exact ⟨by rw [← due], rfl⟩
      | ends size known clean => cases runs

/-- A connection that inetd has accepted. -/
def accepted : Host := ⟨some true, some .SOCK_STREAM, .failed, none, false, some 0, true, 4⟩

def connected : State :=
  ⟨true, .SOCK_STREAM, false, 0, fun fd => (none = some fd) || (some 0 = some fd), true, none, true⟩

/-- A signal that comes in a call, and one that comes when the connection is closed. -/
def interrupted : List Action :=
  [.receive consume, .go .success, .sigalrm fun _ => true]

def abandoned : List Action :=
  interrupted ++ [.go .success, .go .success, .go (.returned (some 65)), .go .success, .go .success,
    .go .success, .destroys 0, .sigalrm fun _ => true]

theorem sigalrm_ends_iff_connected : ∃ events state,
    main accepted = .ok connected ∧
    (server 4 connected).Run Machine.anything interrupted events state ∧ state.running = true ∧
    (state.rpcpmstart = true → ∀ behind, ∃ after emitted,
      (server 4 connected).next state (.sigalrm behind) = some (after, emitted) ∧
      (after.running = false ↔ (∀ proc pc, state.serving = some (proc, pc) → pc = .setDirty) ∧
        state.Deserted 4) ∧
      (after.running = true → after = { state with size := after.size } ∧ emitted = [])) := by
  obtain ⟨events, state, run, running⟩ : ∃ events state,
      (server 4 connected).Run Machine.anything interrupted events state ∧ state.running = true :=
    Machine.Path.ofView (fun (state : State) _ => state.running) interrupted
      (fun _ _ _ => trivial) rfl
  have begun : main accepted = .ok connected := rfl
  exact ⟨events, state, begun, run, running, (sigalrm_ends_iff begun (by decide) run running).2⟩

/-- Whenever SIGALRM comes, the log of the server is one of calls that have been handled
one after the other, each answered at most once and as its procedure demands, and the
exit by `closedown` comes after such calls only. -/
theorem serves_in_turn (begun : main host = .ok started)
    (run : (server host.getdtablesize started).Run Machine.anything actions events state) :
    ∃ (episodes : List Episode) (rest : List Event), (∀ episode ∈ episodes, episode.Fits) ∧
      events = episodes.flatMap Episode.log ++ rest ∧
      (rest = [] ∨ rest = [.exited 0] ∨ ∃ episode : Episode, episode.Fits ∧
        (rest = episode.opened ∨ rest = episode.opened ++ [.exited 1])) := by
  have holds := run.invariant
    (fun events state => Logged events state ∧ Kept host.getdtablesize started state) ?_ ?_
  · obtain ⟨episodes, rest, fits, shown, rests⟩ := holds.1
    refine ⟨episodes, rest, fits, shown, ?_⟩
    cases rests with
    | idle => exact .inl rfl
    | ended => exact .inr (.inl rfl)
    | busy episode answers => exact .inr (.inr ⟨episode, answers, .inl rfl⟩)
    | aborted episode answers => exact .inr (.inr ⟨episode, answers, .inr rfl⟩)
  · obtain ⟨kept, running, clean⟩ := kept_of_main begun
    exact ⟨⟨[], [], nofun, rfl, .idle running clean⟩, kept⟩
  · intro events state action after emitted holds _ taken
    exact ⟨holds.1.step holds.2 taken, holds.2.step taken⟩

theorem serves_in_turn_connected : ∃ events state,
    main accepted = .ok connected ∧
    (server 4 connected).Run Machine.anything abandoned events state ∧
    events = [.entered consume, .sent (.char 65), .left, .exited 0] ∧
    ∃ (episodes : List Episode) (rest : List Event), (∀ episode ∈ episodes, episode.Fits) ∧
      events = episodes.flatMap Episode.log ++ rest ∧
      (rest = [] ∨ rest = [.exited 0] ∨ ∃ episode : Episode, episode.Fits ∧
        (rest = episode.opened ∨ rest = episode.opened ++ [.exited 1])) := by
  obtain ⟨events, state, run, shown⟩ : ∃ events state,
      (server 4 connected).Run Machine.anything abandoned events state ∧
      events = [.entered consume, .sent (.char 65), .left, .exited 0] :=
    Machine.Path.ofView (fun _ events => events) abandoned (fun _ _ _ => trivial) rfl
  have begun : main accepted = .ok connected := rfl
  exact ⟨events, state, begun, run, shown, serves_in_turn begun run⟩

end Runs

end OsLabs.RpcPc
