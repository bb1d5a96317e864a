import OsLabs.Machine.Run

/-! pc_svc.c: a server that a port monitor may have started, and that `closedown` ends
when SIGALRM finds it without work. The signal may come at any point of `pc_prog_1`. -/

namespace OsLabs.RpcPc

/-- `_rpcfdtype`; it is 0 unless `getsockopt` sets it. -/
inductive FdType where
  | unset
  | SOCK_STREAM
  | SOCK_DGRAM
  | other
deriving DecidableEq

def NULLPROC : Nat := 0

def consume : Nat := 1

def produce : Nat := 2

/-- The bits of `svc_fdset`. -/
def FD_SETSIZE : Nat := 1024

/-- What is sent for a call: `svc_sendreply` with nothing or a `char`, `svcerr_noproc`,
`svcerr_decode` or `svcerr_systemerr`. -/
inductive Reply where
  | void
  | char (result : UInt8)
  | noproc
  | decode
  | systemerr
deriving DecidableEq

/-- The points of `pc_prog_1`, each named after what comes next; `callLocal` calls
`consume_1_svc` or `produce_1_svc`. -/
inductive Pc where
  | setDirty
  | switch
  | sendVoid
  | noproc
  | getargs
  | decode
  | callLocal
  | sendreply (result : UInt8)
  | systemerr
  | freeargs
  | msgout
  | clearDirty
deriving DecidableEq

structure State where
  rpcpmstart : Bool
  rpcfdtype : FdType
  rpcsvcdirty : Bool
  /-- The static object of `closedown`. -/
  size : Nat
  svcFdset : Nat → Bool
  /-- `alarm` has been called, and the signal has not come yet. -/
  alarm : Bool
  /-- The procedure of the call that `svc_run` has handed to `pc_prog_1`. -/
  serving : Option (Nat × Pc)
  running : Bool

inductive Event where
  | entered (proc : Nat)
  | sent (reply : Reply)
  | left
  | exited (status : Int)
deriving DecidableEq

/-- What a call of the library or of a procedure returns. -/
inductive Outcome where
  | success
  | failure
  | returned (result : Option UInt8)

/-- `svc_run` gets a call, or opens or destroys a transport between two calls. The signal
comes with the memory that it finds behind `svc_fdset`. -/
inductive Action where
  | receive (proc : Nat)
  | opens (fd : Nat)
  | destroys (fd : Nat)
  | go (outcome : Outcome)
  | sigalrm (behind : Nat → Bool)

def State.exit (state : State) (status : Int) : State × List Event :=
  ({ state with running := false }, [.exited status])

/-- It checks no bound: a larger descriptor is looked up behind the set. -/
def FD_ISSET (svcFdset behind : Nat → Bool) (fd : Nat) : Bool :=
  if fd < FD_SETSIZE then svcFdset fd else behind fd

/-- The loop of `closedown` over the `left` descriptors from `i` on. -/
def openfd (isset : Nat → Bool) : Nat → Nat → Nat → Nat
  | 0, _, openfd' => openfd'
  | left + 1, i, openfd' =>
    if openfd' < 2 then openfd isset left (i + 1) (if isset i then openfd' + 1 else openfd')
    else openfd'

def closedown (getdtablesize : Nat) (behind : Nat → Bool) (state : State) :
    State × List Event :=
  if state.rpcsvcdirty then ({ state with alarm := true }, [])
  else if state.rpcfdtype = .SOCK_DGRAM then state.exit 0
  else
    let size := if state.size = 0 then getdtablesize else state.size
    if openfd (FD_ISSET state.svcFdset behind) size 0 0 ≤ (if state.rpcpmstart then 0 else 1)
    then { state with size := size }.exit 0
    else ({ state with size := size, alarm := true }, [])

/-- One step of `pc_prog_1`. -/
def pcProg1 (state : State) (proc : Nat) : Pc → Outcome → Option (State × List Event)
  | .setDirty, .success =>
    some ({ state with rpcsvcdirty := true, serving := some (proc, .switch) }, [.entered proc])
  | .switch, .success =>
    let pc := if proc = NULLPROC then .sendVoid
      else if proc = consume ∨ proc = produce then .getargs else .noproc
    some ({ state with serving := some (proc, pc) }, [])
  | .sendVoid, .success =>
    some ({ state with serving := some (proc, .clearDirty) }, [.sent .void])
  | .sendVoid, .failure => some ({ state with serving := some (proc, .clearDirty) }, [])
  | .noproc, .success =>
    some ({ state with serving := some (proc, .clearDirty) }, [.sent .noproc])
  | .getargs, .success => some ({ state with serving := some (proc, .callLocal) }, [])
  | .getargs, .failure => some ({ state with serving := some (proc, .decode) }, [])
  | .decode, .success =>
    some ({ state with serving := some (proc, .clearDirty) }, [.sent .decode])
  -- result = (*local)(&argument, rqstp);
  | .callLocal, .returned none => some ({ state with serving := some (proc, .freeargs) }, [])
  | .callLocal, .returned (some result) =>
    some ({ state with serving := some (proc, .sendreply result) }, [])
  | .sendreply result, .success =>
    some ({ state with serving := some (proc, .freeargs) }, [.sent (.char result)])
  | .sendreply _, .failure => some ({ state with serving := some (proc, .systemerr) }, [])
  | .systemerr, .success =>
    some ({ state with serving := some (proc, .freeargs) }, [.sent .systemerr])
  | .freeargs, .success => some ({ state with serving := some (proc, .clearDirty) }, [])
  | .freeargs, .failure => some ({ state with serving := some (proc, .msgout) }, [])
  | .msgout, .success => some (state.exit 1)
  | .clearDirty, .success => some ({ state with rpcsvcdirty := false, serving := none }, [.left])
  | _, _ => none

def next (getdtablesize : Nat) (state : State) : Action → Option (State × List Event)
  | .receive proc =>
    if state.serving = none then some ({ state with serving := some (proc, .setDirty) }, [])
    else none
  | .opens fd =>
    if state.serving = none then
      some ({ state with svcFdset := fun other => other = fd || state.svcFdset other }, [])
    else none
  | .destroys fd =>
    if state.serving = none then
      some ({ state with svcFdset := fun other => other ≠ fd && state.svcFdset other }, [])
    else none
  | .go outcome => state.serving.bind fun (proc, pc) => pcProg1 state proc pc outcome
  | .sigalrm behind =>
    if state.alarm then some (closedown getdtablesize behind { state with alarm := false })
    else none

/-- The process from the call of `svc_run` on, which never returns. -/
def server (getdtablesize : Nat) (started : State) : Machine State Action Event where
  init := started
  next state action := if state.running then next getdtablesize state action else none

inductive Forked where
  | failed
  | parent
  | child

/-- What the calls of `main` return: `getsockname` tells whether the family is AF_INET,
the calls that create a transport its descriptor. -/
structure Host where
  getsockname : Option Bool
  getsockopt : Option FdType
  fork : Forked
  svcudpCreate : Option Nat
  registersUdp : Bool
  /-- `svcfd_create` or `svctcp_create`. -/
  svctcpCreate : Option Nat
  registersTcp : Bool
  getdtablesize : Nat

/-- `_rpcpmstart` and `_rpcfdtype`, or the status that `main` exits with. -/
def Host.detect (host : Host) : Except Int (Bool × FdType) :=
  match host.getsockname with
  | some inet =>
    if inet then
      match host.getsockopt with
      | some type => .ok (true, type)
      | none => .error 1
    else .error 1
  | none =>
    match host.fork with
    | .failed => .error 1
    | .parent => .error 0
    | .child => .ok (false, .unset)

/-- A transport that is created and registered if it fits the socket. -/
def transport (wanted : Bool) (created : Option Nat) (registers : Bool) :
    Except Int (Option Nat) :=
  if wanted then
    match created with
    | some fd => if registers then .ok (some fd) else .error 1
    | none => .error 1
  else .ok none

/-- `main` up to the call of `svc_run`. -/
def main (host : Host) : Except Int State := do
  let (pmstart, type) ← host.detect
  let udp ← transport (type = .unset || type = .SOCK_DGRAM) host.svcudpCreate host.registersUdp
  let tcp ← transport (type = .unset || type = .SOCK_STREAM) host.svctcpCreate host.registersTcp
  if udp = none ∧ tcp = none then .error 1
  else
    -- signal(SIGALRM, closedown) and alarm(_RPCSVC_CLOSEDOWN) if (_rpcpmstart)
    return { rpcpmstart := pmstart, rpcfdtype := type, rpcsvcdirty := false, size := 0,
             svcFdset := fun fd => udp = some fd || tcp = some fd, alarm := pmstart,
             serving := none, running := true }

end OsLabs.RpcPc
