import Mathlib.Data.List.Pairwise
import OsLabs.Rpc.Exchange

/-! What the log of an exchange tells: every answer that is accepted was given before,
every answer that is given was asked for before, and no call is made twice. With a
server that numbers its answers, calls get numbers in the order in which they are made. -/

namespace OsLabs.Rpc

universe u v w x y z r s

variable {Client : Type u} {Server : Type v} {Move : Type w} {Query : Type x} {Answer : Type y}
variable {Local : Type z} {Choice : Type r} {Shown : Type s}
variable {service : Service Server Move Query Answer}
variable {caller : Caller Client Local Choice Query Answer Shown}
variable {state after : State Client Server Local Query Answer}
variable {events emitted : List (Event Client Query Answer Shown)}

/-- What holds of any server and any client. -/
abbrev Sound (caller : Caller Client Local Choice Query Answer Shown)
    (state : State Client Server Local Query Answer) : Prop :=
  Consistent caller (fun _ _ => True) (fun _ => True) (fun _ => True) (fun _ _ => True) state

theorem Service.serves_anything (service : Service Server Move Query Answer) :
    service.Serves (fun _ _ => True) (fun _ => True) (fun _ _ => True) where
  init := trivial
  take server query _ _ := by
    unfold Settles
    split <;> simp
  work server query move result _ _ := by
    unfold Settles
    split <;> simp

theorem Caller.shows_anything (caller : Caller Client Local Choice Query Answer Shown) :
    caller.Shows (fun _ => True) (fun _ : Query => True) (fun _ (_ : Answer) => True)
      (fun _ => True) where
  init _ := trivial
  asks _ _ _ _ _ _ := trivial
  resumes _ _ _ _ _ _ _ _ := ⟨trivial, fun _ _ => trivial⟩

/-- What the log knows of the datagrams in the network. -/
structure Logged (events : List (Event Client Query Answer Shown))
    (state : State Client Server Local Query Answer) : Prop where
  sent : ∀ call query, (call, query) ∈ state.requests ↔ .asked call query ∈ events
  given : ∀ call answer, (call, answer) ∈ state.replies →
    ∃ query, .answered call query answer ∈ events ∧ (call, query) ∈ state.requests

theorem server_answer (state : State Client Server Local Query Answer) (call : Call Client)
    (query : Query) (result : Server × Option Answer) :
    (state.answer call query result).server = result.1 := by
  obtain ⟨server, _ | answer⟩ := result <;> rfl

/-- The server has done a step for the request `query`. -/
theorem Logged.settled (logged : Logged events state) (sent : (call, query) ∈ state.requests)
    (result : Server × Option Answer) :
    Logged (events ++ answered call query result.2) (state.answer call query result) := by
  obtain ⟨server, answer⟩ := result
  cases answer with
  | none =>
    refine ⟨fun other question => ?_, fun other answer replied => ?_⟩
    · simpa [answered, State.answer] using logged.sent other question
    · simpa [answered, State.answer] using logged.given other answer replied
  | some answer =>
    refine ⟨fun other question => ?_, fun other given replied => ?_⟩
    · simpa [answered, State.answer] using logged.sent other question
    · rcases List.mem_append.mp replied with old | new
      · obtain ⟨question, given, sent⟩ := logged.given other given old
        exact ⟨question, List.mem_append_left _ given, sent⟩
      · obtain ⟨rfl, rfl⟩ := Prod.mk.inj (List.mem_singleton.mp new)
        exact ⟨query, by simp [answered], sent⟩

/-- A step that sends nothing. -/
theorem Logged.quiet (logged : Logged events state)
    (same : after.requests = state.requests ∧ after.replies = state.replies)
    (silent : ∀ call query, .asked call query ∉ emitted) : Logged (events ++ emitted) after := by
  refine ⟨fun call query => ?_, fun call answer replied => ?_⟩
  · rw [same.1, logged.sent]
    simp [silent]
  · rw [same.2] at replied
    obtain ⟨query, given, sent⟩ := logged.given call answer replied
    exact ⟨query, List.mem_append_left _ given, same.1 ▸ sent⟩

/-- The number that is given out. -/
def Event.number? (number : Query → Answer → Option Int) :
    Event Client Query Answer Shown → Option Int
  | .answered _ query answer => number query answer
  | .asked _ _ | .accepted _ _ _ | .shown _ _ => none

/-- They do not give out the same number. -/
def Event.Apart (number : Query → Answer → Option Int)
    (left right : Event Client Query Answer Shown) : Prop :=
  ∀ value, left.number? number = some value → right.number? number ≠ some value

instance (number : Query → Answer → Option Int) :
    Std.Symm (Event.Apart number : Event Client Query Answer Shown → _ → Prop) where
  symm _ _ apart value shown taken := apart value taken shown

variable [DecidableEq Client]

theorem Logged.step (logged : Logged events state) (sound : Sound caller state)
    (effect : Effect service caller state action after emitted) :
    Logged (events ++ emitted) after := by
  cases effect with
  | asked client free asks =>
    refine ⟨fun call query => ?_, fun call answer replied => ?_⟩
    · simp [logged.sent call query]
    · obtain ⟨query, given, sent⟩ := logged.given call answer replied
      exact ⟨query, List.mem_append_left _ given, List.mem_append_left _ sent⟩
  | taken idle sent => exact logged.settled sent _
  | worked busy works => exact logged.settled (sound.handled _ _ busy) _
  | accepted client waits sent => exact logged.quiet ⟨rfl, rfl⟩ (by simp [State.resume])
  | gaveUp client waits => exact logged.quiet ⟨rfl, rfl⟩ (by simp [State.resume])

theorem Logged.ofRun (run : (machine service caller).Run allowed actions events state) :
    Logged events state ∧ Sound caller state := by
  refine run.invariant (fun events state => Logged events state ∧ Sound caller state) ?_ ?_
  · refine ⟨⟨fun call query => ?_, fun _ _ replied => nomatch replied⟩, ?_⟩
    · simp [machine]
    · exact .init service.serves_anything caller.shows_anything
  · intro events state action after emitted holds _ taken
    have effect := step_effect taken
    exact ⟨holds.1.step holds.2 effect,
      (holds.2.step service.serves_anything caller.shows_anything effect).1⟩

/-- What the log of an exchange tells. -/
structure Accounted (events : List (Event Client Query Answer Shown)) : Prop where
  /-- Every answer that is accepted has been given to the very request. -/
  accepted : ∀ before call query answer behind,
    events = before ++ .accepted call query answer :: behind → .answered call query answer ∈ before
  /-- Every answer that is given has been asked for. -/
  answered : ∀ before call query answer behind,
    events = before ++ .answered call query answer :: behind → .asked call query ∈ before
  /-- No call is made twice. -/
  asked : ∀ before call query behind,
    events = before ++ .asked call query :: behind → ∀ other, .asked call other ∉ before

theorem Effect.answered_mem (effect : Effect service caller state action after emitted)
    (sound : Sound caller state) (member : .answered call query answer ∈ emitted) :
    (call, query) ∈ state.requests := by
  cases effect with
  | asked => simp at member
  | taken idle sent =>
    obtain ⟨_, rfl, rfl⟩ : _ ∧ _ ∧ _ := by simpa [answered] using member
    exact sent
  | worked busy works =>
    obtain ⟨_, rfl, rfl⟩ : _ ∧ _ ∧ _ := by simpa [answered] using member
    exact sound.handled _ _ busy
  | accepted => simp [State.resume] at member
  | gaveUp => simp [State.resume] at member

theorem Effect.accepted_mem (effect : Effect service caller state action after emitted)
    (sound : Sound caller state) (member : .accepted call query answer ∈ emitted) :
    (call, query) ∈ state.requests ∧ (call, answer) ∈ state.replies := by
  cases effect with
  | asked => simp at member
  | taken | worked => simp [Rpc.answered] at member
  | accepted client waits sent =>
    obtain ⟨rfl, rfl, rfl⟩ : _ ∧ _ ∧ _ := by simpa [State.resume] using member
    exact ⟨(sound.waits client _ waits).1, sent⟩
  | gaveUp => simp [State.resume] at member

theorem Effect.asked_fresh (effect : Effect service caller state action after emitted)
    (sound : Sound caller state) (place : emitted = early ++ .asked call query :: late) :
    early = [] ∧ ∀ other, (call, other) ∉ state.requests := by
  have member : .asked call query ∈ emitted := by simp [place]
  cases effect with
  | asked client free asks =>
    obtain ⟨rfl, rfl⟩ : _ ∧ _ := by simpa using member
    refine ⟨?_, fun other sent => Nat.not_succ_le_self _ (sound.issued _ _ sent)⟩
    cases early with
    | nil => rfl
    | cons head tail => simp at place
  | taken | worked => simp [Rpc.answered] at member
  | accepted => simp [State.resume] at member
  | gaveUp => simp [State.resume] at member

theorem accounted (run : (machine service caller).Run allowed actions events state) :
    Accounted events := by
  refine ⟨?_, ?_, ?_⟩
  · intro before call query answer behind place
    obtain ⟨past, seen, state, action, after, emitted, early, late, rest, path, _, taken, shown,
      rfl, _⟩ := run.emission place
    obtain ⟨logged, sound⟩ := Logged.ofRun path
    have member : .accepted call query answer ∈ emitted := by simp [shown]
    obtain ⟨sent, replied⟩ := (step_effect taken).accepted_mem sound member
    obtain ⟨question, given, asked⟩ := logged.given call answer replied
    rw [sound.sole _ _ _ sent asked]
    exact List.mem_append_left _ given
  · intro before call query answer behind place
    obtain ⟨past, seen, state, action, after, emitted, early, late, rest, path, _, taken, shown,
      rfl, _⟩ := run.emission place
    obtain ⟨logged, sound⟩ := Logged.ofRun path
    have member : .answered call query answer ∈ emitted := by simp [shown]
    have sent := (step_effect taken).answered_mem sound member
    exact List.mem_append_left _ ((logged.sent call query).mp sent)
  · intro before call query behind place
    obtain ⟨past, seen, state, action, after, emitted, early, late, rest, path, _, taken, shown,
      rfl, _⟩ := run.emission place
    obtain ⟨logged, sound⟩ := Logged.ofRun path
    obtain ⟨rfl, fresh⟩ := (step_effect taken).asked_fresh sound shown
    intro other member
    rw [List.append_nil] at member
    exact fresh other ((logged.sent call other).mpr member)

/-- A step of the server: a number that it gives out is above the level it had before,
and up to the level it has then. -/
def Climbs (level : Server → Int) (number : Query → Answer → Option Int) (query : Query)
    (server : Server) (result : Server × Option Answer) : Prop :=
  level server ≤ level result.1 ∧ ∀ answer ∈ result.2, ∀ value ∈ number query answer,
    level server < value ∧ value ≤ level result.1

/-- A server that numbers its answers, as long as it is `Low`. -/
structure Service.Numbers (service : Service Server Move Query Answer)
    (Inv : Server → Option Query → Prop) (Admits : Query → Prop) (Low : Server → Prop)
    (level : Server → Int) (number : Query → Answer → Option Int) : Prop where
  take : ∀ server query, Inv server none → Admits query → Low server →
    Climbs level number query server (service.take server query)
  work : ∀ server query move result, Inv server (some query) → Low server →
    service.work server move = some result → Climbs level number query server result

/-- The server does a step only while it is `Low`. -/
def whileLow (Low : Server → Prop) (state : State Client Server Local Query Answer) :
    Action Client Move Choice → Prop
  | .deliver _ | .work _ => Low state.server
  | .ask _ _ | .accept _ _ | .giveUp _ => True

section Numbered

variable {Inv : Server → Option Query → Prop} {InvLocal : Local → Prop} {Admits : Query → Prop}
variable {Right : Query → Answer → Prop} {Good : Shown → Prop} {Low : Server → Prop}
variable {level : Server → Int} {number : Query → Answer → Option Int}

/-- The numbers given out so far increase, up to the level of the server. -/
structure Numbered (level : Server → Int) (number : Query → Answer → Option Int)
    (events : List (Event Client Query Answer Shown)) (server : Server) : Prop where
  increase : (events.filterMap (Event.number? number)).Pairwise (· < ·)
  bounded : ∀ value ∈ events.filterMap (Event.number? number), value ≤ level server

omit [DecidableEq Client] in
theorem Numbered.quiet (numbered : Numbered level number events server)
    (silent : emitted.filterMap (Event.number? number) = []) :
    Numbered level number (events ++ emitted) server := by
  refine ⟨?_, ?_⟩ <;> rw [List.filterMap_append, silent, List.append_nil]
  · exact numbered.increase
  · exact numbered.bounded

omit [DecidableEq Client] in
theorem numbers_answered (number : Query → Answer → Option Int) (call : Call Client)
    (query : Query) (given : Option Answer) :
    (answered call query given : List (Event Client Query Answer Shown)).filterMap
      (Event.number? number) = (given.bind (number query)).toList := by
  cases given with
  | none => rfl
  | some answer =>
    cases taken : number query answer <;> simp [answered, Event.number?, taken]

omit [DecidableEq Client] in
theorem Numbered.climb (numbered : Numbered level number events server)
    (climbs : Climbs level number query server result) :
    Numbered level number (events ++ answered call query result.2) result.1 := by
  obtain ⟨up, inside⟩ := climbs
  cases taken : result.2.bind (number query) with
  | none =>
    refine ⟨?_, ?_⟩ <;> rw [List.filterMap_append, numbers_answered, taken, Option.toList_none,
      List.append_nil]
    · exact numbered.increase
    · exact fun value member => Int.le_trans (numbered.bounded value member) up
  | some value =>
    obtain ⟨answer, given, shown⟩ := Option.bind_eq_some_iff.mp taken
    obtain ⟨above, below⟩ := inside answer given value shown
    refine ⟨?_, ?_⟩ <;> rw [List.filterMap_append, numbers_answered, taken, Option.toList_some]
    · refine List.pairwise_append.mpr ⟨numbered.increase, List.pairwise_singleton _ _, ?_⟩
      intro old member new same
      rw [List.mem_singleton.mp same]
      exact Int.lt_of_le_of_lt (numbered.bounded old member) above
    · intro other member
      rcases List.mem_append.mp member with old | new
      · exact Int.le_trans (numbered.bounded other old) up
      · rw [List.mem_singleton.mp new]
        exact below

theorem Numbered.ofRun (serves : service.Serves Inv Admits Right)
    (shows : caller.Shows InvLocal Admits Right Good)
    (numbers : service.Numbers Inv Admits Low level number)
    (run : (machine service caller).Run (whileLow Low) actions events state) :
    Numbered level number events state.server := by
  have holds := run.invariant (fun events state => Numbered level number events state.server ∧
    Consistent caller Inv InvLocal Admits Right state) ?_ ?_
  · exact holds.1
  · exact ⟨⟨by simp, by simp⟩, .init serves shows⟩
  · intro events state action after emitted holds low taken
    obtain ⟨numbered, consistent⟩ := holds
    have effect := step_effect taken
    refine ⟨?_, (consistent.step serves shows effect).1⟩
    cases effect with
    | asked => exact numbered.quiet (by simp [Event.number?])
    | @taken call query index idle sent =>
      have kept : Inv state.server none := by simpa [idle] using consistent.kept
      have climbs := numbers.take _ query kept (consistent.admitted _ _ sent) low
      rw [server_answer]
      exact numbered.climb climbs
    | @worked call query move result busy works =>
      have kept : Inv state.server (some query) := by simpa [busy] using consistent.kept
      rw [server_answer]
      exact numbered.climb (numbers.work _ _ _ _ kept low works)
    | accepted => exact numbered.quiet (by simp [Event.number?, State.resume])
    | gaveUp => exact numbered.quiet (by simp [Event.number?, State.resume, Function.comp_def])

/-- A call that is made after another one has been answered gets a higher number. -/
theorem number_lt (serves : service.Serves Inv Admits Right)
    (shows : caller.Shows InvLocal Admits Right Good)
    (numbers : service.Numbers Inv Admits Low level number)
    (run : (machine service caller).Run (whileLow Low) actions events state)
    (place : events = before ++ .asked second request :: behind)
    (first : .accepted call query answer ∈ before) (one : number query answer = some lower)
    (last : .accepted second request reply ∈ events)
    (other : number request reply = some upper) : lower < upper := by
  have log := accounted run
  have increase := (Numbered.ofRun serves shows numbers run).increase
  have early : .answered call query answer ∈ before := by
    obtain ⟨front, back, rfl⟩ := List.append_of_mem first
    have given := log.accepted front call query answer (back ++ .asked second request :: behind)
      (by simp [place])
    exact List.mem_append_left _ given
  have late : .answered second request reply ∈ behind := by
    obtain ⟨front, back, cut⟩ := List.append_of_mem last
    have given : .answered second request reply ∈ events := by
      rw [cut]
      exact List.mem_append_left _ (log.accepted front _ _ _ back cut)
    rw [place] at given
    rcases List.mem_append.mp given with sooner | later
    · obtain ⟨head, tail, rfl⟩ := List.append_of_mem sooner
      have asked := log.answered head second request reply (tail ++ .asked second request :: behind)
        (by simp [place])
      exact absurd (List.mem_append_left _ asked) (log.asked _ second request behind place request)
    · simpa using later
  rw [place, List.filterMap_append] at increase
  refine (List.pairwise_append.mp increase).2.2 lower ?_ upper ?_
  · exact List.mem_filterMap.mpr ⟨_, early, one⟩
  · exact List.mem_filterMap.mpr ⟨_, List.mem_cons_of_mem _ late, other⟩

/-- No two calls get the same number. -/
theorem number_ne (serves : service.Serves Inv Admits Right)
    (shows : caller.Shows InvLocal Admits Right Good)
    (numbers : service.Numbers Inv Admits Low level number)
    (run : (machine service caller).Run (whileLow Low) actions events state)
    (first : .accepted call query answer ∈ events) (one : number query answer = some value)
    (last : .accepted second request reply ∈ events)
    (other : number request reply = some value) : call = second := by
  have log := accounted run
  have increase := (Numbered.ofRun serves shows numbers run).increase
  have given : ∀ {call query answer}, .accepted call query answer ∈ events →
      .answered call query answer ∈ events := by
    intro call query answer member
    obtain ⟨front, back, cut⟩ := List.append_of_mem member
    rw [cut]
    exact List.mem_append_left _ (log.accepted front _ _ _ back cut)
  by_contra different
  have apart : events.Pairwise (Event.Apart number) := by
    refine (List.pairwise_filterMap.mp increase).imp fun below value taken same => ?_
    exact Int.lt_irrefl value (below value taken value same)
  have distinct : Event.Apart number _ _ := apart.forall (given first) (given last)
    (by simp [different])
  exact distinct value one other

end Numbered

end OsLabs.Rpc
