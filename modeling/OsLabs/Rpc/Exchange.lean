import Mathlib.Logic.Function.Basic
import OsLabs.Machine.Run

/-! Remote calls over a network that may lose datagrams, deliver them more than once
and in any order. Every call carries a transaction id that is new for its client, who
takes a reply only if it carries the id of the call it is waiting for, and who may give
up waiting. Nothing is ever taken out of the network: what is lost is not delivered. -/

namespace OsLabs.Rpc

universe u v w x y z r s

/-- A server that handles one request at a time: a request that it takes is answered
at once, or by one of the steps that follow. -/
structure Service (Server : Type u) (Move : Type v) (Query : Type w) (Answer : Type x) where
  init : Server
  take : Server → Query → Server × Option Answer
  work : Server → Move → Option (Server × Option Answer)

/-- A client: what it may ask, and how it goes on with the answer or without one. -/
structure Caller (Client : Type u) (Local : Type y) (Choice : Type z) (Query : Type w)
    (Answer : Type x) (Shown : Type r) where
  init : Client → Local
  ask : Local → Choice → Option (Local × Query)
  resume : Local → Option Answer → Local × List Shown

structure Call (Client : Type u) where
  client : Client
  xid : Nat
deriving DecidableEq

structure State (Client : Type u) (Server : Type v) (Local : Type w) (Query : Type x)
    (Answer : Type y) where
  server : Server
  /-- The request that the server has taken and not answered yet. -/
  handling : Option (Call Client × Query)
  locals : Client → Local
  /-- The transaction id of the last call of a client. -/
  xid : Client → Nat
  /-- What a client has asked, and waits to be answered. -/
  waiting : Client → Option Query
  requests : List (Call Client × Query)
  replies : List (Call Client × Answer)

inductive Action (Client : Type u) (Move : Type v) (Choice : Type w) where
  | ask (client : Client) (choice : Choice)
  /-- A copy of some request reaches the server. -/
  | deliver (index : Nat)
  | work (move : Move)
  /-- A copy of some reply reaches a client. -/
  | accept (client : Client) (index : Nat)
  | giveUp (client : Client)

inductive Event (Client : Type u) (Query : Type v) (Answer : Type w) (Shown : Type x) where
  | asked (call : Call Client) (query : Query)
  | answered (call : Call Client) (query : Query) (answer : Answer)
  | accepted (call : Call Client) (query : Query) (answer : Answer)
  | shown (client : Client) (shown : Shown)
deriving DecidableEq

variable {Client : Type u} {Server : Type v} {Move : Type w} {Query : Type x} {Answer : Type y}
variable {Local : Type z} {Choice : Type r} {Shown : Type s}

section Machine

variable [DecidableEq Client]

/-- The call that a client has made last. -/
def State.call (state : State Client Server Local Query Answer) (client : Client) : Call Client :=
  ⟨client, state.xid client⟩

/-- The answer, if there is one already, sets off for the client. -/
def State.answer (state : State Client Server Local Query Answer) (call : Call Client)
    (query : Query) : Server × Option Answer → State Client Server Local Query Answer
  | (server, none) => { state with server := server, handling := some (call, query) }
  | (server, some answer) =>
    { state with server := server, handling := none, replies := state.replies ++ [(call, answer)] }

def answered (call : Call Client) (query : Query) (answer : Option Answer) :
    List (Event Client Query Answer Shown) :=
  answer.toList.map (.answered call query)

def State.resume (state : State Client Server Local Query Answer)
    (caller : Caller Client Local Choice Query Answer Shown) (client : Client)
    (answer : Option Answer) :
    State Client Server Local Query Answer × List (Event Client Query Answer Shown) :=
  let (after, shown) := caller.resume (state.locals client) answer
  ({ state with
    locals := Function.update state.locals client after
    waiting := Function.update state.waiting client none }, shown.map (.shown client))

def next (service : Service Server Move Query Answer)
    (caller : Caller Client Local Choice Query Answer Shown)
    (state : State Client Server Local Query Answer) : Action Client Move Choice →
    Option (State Client Server Local Query Answer × List (Event Client Query Answer Shown))
  | .ask client choice =>
    if (state.waiting client).isSome then none
    else (caller.ask (state.locals client) choice).map fun (after, query) =>
      let call : Call Client := ⟨client, state.xid client + 1⟩
      ({ state with
        locals := Function.update state.locals client after
        xid := Function.update state.xid client call.xid
        waiting := Function.update state.waiting client (some query)
        requests := state.requests ++ [(call, query)] }, [.asked call query])
  | .deliver index =>
    match state.handling, state.requests[index]? with
    | none, some (call, query) =>
      let result := service.take state.server query
      some (state.answer call query result, answered call query result.2)
    | _, _ => none
  | .work move =>
    match state.handling with
    | none => none
    | some (call, query) => (service.work state.server move).map fun result =>
        (state.answer call query result, answered call query result.2)
  | .accept client index =>
    match state.waiting client, state.replies[index]? with
    | some query, some (call, answer) =>
      if call = state.call client then
        let (after, events) := state.resume caller client (some answer)
        some (after, .accepted call query answer :: events)
      else none
    | _, _ => none
  | .giveUp client => (state.waiting client).map fun _ => state.resume caller client none

def machine (service : Service Server Move Query Answer)
    (caller : Caller Client Local Choice Query Answer Shown) :
    Machine (State Client Server Local Query Answer) (Action Client Move Choice)
      (Event Client Query Answer Shown) where
  init := ⟨service.init, none, caller.init, fun _ => 0, fun _ => none, [], []⟩
  next := next service caller

/-- What a step can do. -/
inductive Effect (service : Service Server Move Query Answer)
    (caller : Caller Client Local Choice Query Answer Shown)
    (state : State Client Server Local Query Answer) : Action Client Move Choice →
    State Client Server Local Query Answer → List (Event Client Query Answer Shown) → Prop where
  | asked (client : Client) (free : state.waiting client = none)
      (asks : caller.ask (state.locals client) choice = some (after, query)) :
      Effect service caller state (.ask client choice)
        { state with
          locals := Function.update state.locals client after
          xid := Function.update state.xid client (state.xid client + 1)
          waiting := Function.update state.waiting client (some query)
          requests := state.requests ++ [(⟨client, state.xid client + 1⟩, query)] }
        [.asked ⟨client, state.xid client + 1⟩ query]
  | taken (idle : state.handling = none) (sent : (call, query) ∈ state.requests) :
      Effect service caller state (.deliver index)
        (state.answer call query (service.take state.server query))
        (answered call query (service.take state.server query).2)
  | worked (busy : state.handling = some (call, query))
      (works : service.work state.server move = some result) :
      Effect service caller state (.work move) (state.answer call query result)
        (answered call query result.2)
  | accepted (client : Client) (waits : state.waiting client = some query)
      (sent : (state.call client, answer) ∈ state.replies) :
      Effect service caller state (.accept client index)
        (state.resume caller client (some answer)).1
        (.accepted (state.call client) query answer ::
          (state.resume caller client (some answer)).2)
  | gaveUp (client : Client) (waits : state.waiting client = some query) :
      Effect service caller state (.giveUp client) (state.resume caller client none).1
        (state.resume caller client none).2

variable {service : Service Server Move Query Answer}
variable {caller : Caller Client Local Choice Query Answer Shown}
variable {state after : State Client Server Local Query Answer}

theorem step_effect {action : Action Client Move Choice}
    {emitted : List (Event Client Query Answer Shown)}
    (taken : (machine service caller).next state action = some (after, emitted)) :
    Effect service caller state action after emitted := by
  cases action with
  | ask client choice =>
    simp only [machine, next] at taken
    split at taken
    · cases taken
    · rename_i free
      obtain ⟨⟨final, query⟩, asks, same⟩ := Option.map_eq_some_iff.mp taken
      obtain ⟨rfl, rfl⟩ := Prod.mk.inj same
      exact .asked client (by simpa using free) asks
  | deliver index =>
    simp only [machine, next] at taken
    split at taken
    · rename_i call query idle sent
      obtain ⟨rfl, rfl⟩ := Prod.mk.inj (Option.some.inj taken)
      exact .taken idle (List.mem_of_getElem? sent)
    · cases taken
  | work move =>
    simp only [machine, next] at taken
    split at taken
    · cases taken
    · rename_i call query busy
      obtain ⟨result, works, same⟩ := Option.map_eq_some_iff.mp taken
      obtain ⟨rfl, rfl⟩ := Prod.mk.inj same
      exact .worked busy works
  | accept client index =>
    simp only [machine, next] at taken
    split at taken
    · rename_i query call answer waits sent
      split at taken
      · rename_i own
        subst own
        obtain ⟨rfl, rfl⟩ := Prod.mk.inj (Option.some.inj taken)
        exact .accepted client waits (List.mem_of_getElem? sent)
      · cases taken
    · cases taken
  | giveUp client =>
    obtain ⟨query, waits, same⟩ := Option.map_eq_some_iff.mp taken
    obtain ⟨rfl, rfl⟩ := Prod.mk.inj same
    exact .gaveUp client waits

/-- The client whose turn it is. -/
def Action.client? : Action Client Move Choice → Option Client
  | .ask client _ | .accept client _ | .giveUp client => some client
  | .deliver _ | .work _ => none

/-- The others go on waiting for what they have asked. -/
theorem Effect.waiting {action : Action Client Move Choice}
    {emitted : List (Event Client Query Answer Shown)}
    (effect : Effect service caller state action after emitted)
    (other : action.client? ≠ some client) : after.waiting client = state.waiting client := by
  cases effect with
  | asked turn | accepted turn | gaveUp turn =>
    have different : client ≠ turn := fun same => other (by rw [same]; rfl)
    exact Function.update_of_ne different ..
  | taken | worked =>
    simp only [State.answer]
    split <;> rfl

end Machine

variable {service : Service Server Move Query Answer}
variable {caller : Caller Client Local Choice Query Answer Shown}
variable {state after : State Client Server Local Query Answer}

/-- What the state of a server is after a step for the request `query`. -/
def Settles (Inv : Server → Option Query → Prop) (Right : Query → Answer → Prop) (query : Query) :
    Server × Option Answer → Prop
  | (server, none) => Inv server (some query)
  | (server, some answer) => Inv server none ∧ Right query answer

/-- A server that answers what it is asked rightly, as long as it is asked nothing
but what it admits; `Inv` speaks of the request that is being handled. -/
structure Service.Serves (service : Service Server Move Query Answer)
    (Inv : Server → Option Query → Prop) (Admits : Query → Prop)
    (Right : Query → Answer → Prop) : Prop where
  init : Inv service.init none
  take : ∀ server query, Inv server none → Admits query →
    Settles Inv Right query (service.take server query)
  work : ∀ server query move result, Inv server (some query) →
    service.work server move = some result → Settles Inv Right query result

/-- A client that asks what is admitted, and shows what is good when it is given right
answers. -/
structure Caller.Shows (caller : Caller Client Local Choice Query Answer Shown) (Inv : Local → Prop)
    (Admits : Query → Prop) (Right : Query → Answer → Prop) (Good : Shown → Prop) : Prop where
  init : ∀ client, Inv (caller.init client)
  asks : ∀ before choice after query, Inv before → caller.ask before choice = some (after, query) →
    Admits query
  resumes : ∀ before choice after query answer, Inv before →
    caller.ask before choice = some (after, query) → (∀ given ∈ answer, Right query given) →
    Inv (caller.resume after answer).1 ∧ ∀ shown ∈ (caller.resume after answer).2, Good shown

/-- What the network and the parties agree on. -/
structure Consistent (caller : Caller Client Local Choice Query Answer Shown)
    (Inv : Server → Option Query → Prop) (InvLocal : Local → Prop) (Admits : Query → Prop)
    (Right : Query → Answer → Prop) (state : State Client Server Local Query Answer) : Prop where
  issued : ∀ call query, (call, query) ∈ state.requests → call.xid ≤ state.xid call.client
  sole : ∀ call query other, (call, query) ∈ state.requests → (call, other) ∈ state.requests →
    query = other
  admitted : ∀ call query, (call, query) ∈ state.requests → Admits query
  replied : ∀ call answer, (call, answer) ∈ state.replies →
    ∃ query, (call, query) ∈ state.requests ∧ Right query answer
  handled : ∀ call query, state.handling = some (call, query) → (call, query) ∈ state.requests
  kept : Inv state.server (state.handling.map Prod.snd)
  rests : ∀ client, state.waiting client = none → InvLocal (state.locals client)
  waits : ∀ client query, state.waiting client = some query →
    (state.call client, query) ∈ state.requests ∧ ∃ before choice, InvLocal before ∧
      caller.ask before choice = some (state.locals client, query)

namespace Consistent

variable {Inv : Server → Option Query → Prop} {InvLocal : Local → Prop} {Admits : Query → Prop}
variable {Right : Query → Answer → Prop} {Good : Shown → Prop}

/-- The server has done a step for a request that has been sent. -/
theorem settled (consistent : Consistent caller Inv InvLocal Admits Right state)
    (sent : (call, query) ∈ state.requests) (settles : Settles Inv Right query result) :
    Consistent caller Inv InvLocal Admits Right (state.answer call query result) := by
  obtain ⟨server, answer⟩ := result
  cases answer with
  | none =>
    refine { consistent with handled := ?_, kept := settles }
    intro other question busy
    obtain ⟨rfl, rfl⟩ := Prod.mk.inj (Option.some.inj busy)
    exact sent
  | some answer =>
    refine { consistent with replied := ?_, handled := ?_, kept := settles.1 }
    · intro other given replied
      rcases List.mem_append.mp replied with old | new
      · exact consistent.replied other given old
      · obtain ⟨rfl, rfl⟩ := Prod.mk.inj (List.mem_singleton.mp new)
        exact ⟨query, sent, settles.2⟩
    · intro other question busy
      cases busy

/-- A reply to the call that a client is waiting for is one to its own request. -/
theorem right (consistent : Consistent caller Inv InvLocal Admits Right state)
    (waiting : state.waiting client = some query)
    (sent : (state.call client, answer) ∈ state.replies) : Right query answer := by
  obtain ⟨asked, _⟩ := consistent.waits client query waiting
  obtain ⟨question, issued, right⟩ := consistent.replied _ answer sent
  rwa [consistent.sole _ _ _ asked issued]

variable [DecidableEq Client]

theorem init (serves : service.Serves Inv Admits Right)
    (shows : caller.Shows InvLocal Admits Right Good) :
    Consistent caller Inv InvLocal Admits Right
      ((machine service caller).init : State Client Server Local Query Answer) where
  issued _ _ sent := nomatch sent
  sole _ _ _ sent := nomatch sent
  admitted _ _ sent := nomatch sent
  replied _ _ sent := nomatch sent
  handled _ _ busy := nomatch busy
  kept := serves.init
  rests client _ := shows.init client
  waits _ _ waiting := nomatch waiting

theorem asked (shows : caller.Shows InvLocal Admits Right Good)
    (consistent : Consistent caller Inv InvLocal Admits Right state) (client : Client)
    (free : state.waiting client = none)
    (asks : caller.ask (state.locals client) choice = some (local', query)) :
    Consistent caller Inv InvLocal Admits Right
      { state with
        locals := Function.update state.locals client local'
        xid := Function.update state.xid client (state.xid client + 1)
        waiting := Function.update state.waiting client (some query)
        requests := state.requests ++ [(⟨client, state.xid client + 1⟩, query)] } := by
  have rested := consistent.rests client free
  have fresh : ∀ question, (⟨client, state.xid client + 1⟩, question) ∉ state.requests := by
    intro question sent
    exact Nat.not_succ_le_self _ (consistent.issued _ _ sent)
  refine ⟨?_, ?_, ?_, ?_, ?_, consistent.kept, ?_, ?_⟩
  · intro call question sent
    rcases List.mem_append.mp sent with old | new
    · have before := consistent.issued call question old
      by_cases same : call.client = client
      · subst same
        simp only [Function.update_self]
        omega
      · simpa [Function.update_of_ne same] using before
    · obtain ⟨rfl, rfl⟩ := Prod.mk.inj (List.mem_singleton.mp new)
      simp
  · intro call question other sent again
    rcases List.mem_append.mp sent with old | new <;>
      rcases List.mem_append.mp again with first | last
    · exact consistent.sole call question other old first
    · obtain ⟨rfl, rfl⟩ := Prod.mk.inj (List.mem_singleton.mp last)
      exact absurd old (fresh _)
    · obtain ⟨rfl, rfl⟩ := Prod.mk.inj (List.mem_singleton.mp new)
      exact absurd first (fresh _)
    · exact (Prod.mk.inj (List.mem_singleton.mp new)).2.trans
        (Prod.mk.inj (List.mem_singleton.mp last)).2.symm
  · intro call question sent
    rcases List.mem_append.mp sent with old | new
    · exact consistent.admitted call question old
    · obtain ⟨rfl, rfl⟩ := Prod.mk.inj (List.mem_singleton.mp new)
      exact shows.asks _ _ _ _ rested asks
  · intro call given replied
    obtain ⟨question, sent, right⟩ := consistent.replied call given replied
    exact ⟨question, List.mem_append_left _ sent, right⟩
  · intro call question busy
    exact List.mem_append_left _ (consistent.handled call question busy)
  · intro other rests
    by_cases same : other = client
    · subst same
      simp at rests
    · simp only [Function.update_of_ne same] at rests ⊢
      exact consistent.rests other rests
  · intro other question waiting
    by_cases same : other = client
    · subst same
      obtain rfl : query = question := by simpa using waiting
      refine ⟨by simp [State.call], state.locals other, choice, rested, ?_⟩
      simpa using asks
    · simp only [Function.update_of_ne same] at waiting
      obtain ⟨sent, before, choice, inv, asks⟩ := consistent.waits other question waiting
      refine ⟨?_, before, choice, inv, ?_⟩
      · simp only [State.call, Function.update_of_ne same]
        exact List.mem_append_left _ sent
      · simpa [Function.update_of_ne same] using asks

/-- A client goes on, with a reply to its own call or without one. -/
theorem resume (shows : caller.Shows InvLocal Admits Right Good)
    (consistent : Consistent caller Inv InvLocal Admits Right state) (client : Client)
    (waiting : state.waiting client = some query)
    (sent : ∀ given ∈ answer, (state.call client, given) ∈ state.replies) :
    Consistent caller Inv InvLocal Admits Right (state.resume caller client answer).1 ∧
      ∀ other shown, .shown other shown ∈ (state.resume caller client answer).2 → Good shown := by
  obtain ⟨_, before, choice, inv, asks⟩ := consistent.waits client query waiting
  have right : ∀ given ∈ answer, Right query given :=
    fun given member => consistent.right waiting (sent given member)
  obtain ⟨kept, good⟩ := shows.resumes before choice _ query answer inv asks right
  refine ⟨{ consistent with rests := ?_, waits := ?_ }, ?_⟩
  · intro other rests
    by_cases same : other = client
    · subst same
      simpa [State.resume] using kept
    · simp only [State.resume, Function.update_of_ne same] at rests ⊢
      exact consistent.rests other rests
  · intro other question waits
    by_cases same : other = client
    · subst same
      simp [State.resume] at waits
    · simp only [State.resume, Function.update_of_ne same] at waits ⊢
      exact consistent.waits other question waits
  · intro other shown member
    simp only [State.resume, List.mem_map, Event.shown.injEq] at member
    obtain ⟨_, listed, rfl, rfl⟩ := member
    exact good _ listed

theorem step (serves : service.Serves Inv Admits Right)
    (shows : caller.Shows InvLocal Admits Right Good)
    (consistent : Consistent caller Inv InvLocal Admits Right state)
    (effect : Effect service caller state action after emitted) :
    Consistent caller Inv InvLocal Admits Right after ∧
      ∀ client shown, .shown client shown ∈ emitted → Good shown := by
  have silent : ∀ call query given client shown,
      .shown client shown ∉
        (answered call query given : List (Event Client Query Answer Shown)) := by
    intro call query given client shown member
    simp [answered] at member
  cases effect with
  | asked client free asks =>
    exact ⟨consistent.asked shows client free asks, fun _ _ member => by simp at member⟩
  | taken idle sent =>
    have kept : Inv state.server none := by simpa [idle] using consistent.kept
    have settles := serves.take _ _ kept (consistent.admitted _ _ sent)
    exact ⟨consistent.settled sent settles, fun _ _ member => absurd member (silent _ _ _ _ _)⟩
  | worked busy works =>
    rename_i call query move result
    have kept : Inv state.server (some query) := by simpa [busy] using consistent.kept
    have settles := serves.work _ _ _ _ kept works
    exact ⟨consistent.settled (consistent.handled _ _ busy) settles,
      fun _ _ member => absurd member (silent _ _ _ _ _)⟩
  | accepted client waits sent =>
    rename_i query answer index
    obtain ⟨next, good⟩ := consistent.resume shows client waits (fun given member => by
      obtain rfl : answer = given := Option.mem_some.mp member
      exact sent)
    refine ⟨next, fun other shown member => ?_⟩
    rcases List.mem_cons.mp member with same | listed
    · cases same
    · exact good other shown listed
  | gaveUp client waits => exact consistent.resume shows client waits (by simp)

end Consistent

theorem Consistent.ofRun [DecidableEq Client] {Inv : Server → Option Query → Prop}
    {InvLocal : Local → Prop} {Admits : Query → Prop} {Right : Query → Answer → Prop}
    {Good : Shown → Prop} (serves : service.Serves Inv Admits Right)
    (shows : caller.Shows InvLocal Admits Right Good)
    (run : (machine service caller).Run allowed actions events state) :
    Consistent caller Inv InvLocal Admits Right state ∧
      ∀ client shown, .shown client shown ∈ events → Good shown := by
  refine run.invariant (fun events state => Consistent caller Inv InvLocal Admits Right state ∧
    ∀ client shown, .shown client shown ∈ events → Good shown)
    ⟨.init serves shows, fun _ _ member => (nomatch member)⟩ ?_
  intro events state action after emitted holds _ taken
  obtain ⟨consistent, good⟩ := holds.1.step serves shows (step_effect taken)
  refine ⟨consistent, fun client shown member => ?_⟩
  rcases List.mem_append.mp member with old | new
  · exact holds.2 client shown old
  · exact good client shown new

/-- Whatever the network does, and whoever gives up when, clients show only what is
good: every answer that is accepted has been given to the very request. -/
theorem shown_good [DecidableEq Client] {Inv : Server → Option Query → Prop}
    {InvLocal : Local → Prop} {Admits : Query → Prop} {Right : Query → Answer → Prop}
    {Good : Shown → Prop} (serves : service.Serves Inv Admits Right)
    (shows : caller.Shows InvLocal Admits Right Good)
    (run : (machine service caller).Run allowed actions events state)
    (member : .shown client shown ∈ events) : Good shown :=
  (Consistent.ofRun serves shows run).2 client shown member

end OsLabs.Rpc
