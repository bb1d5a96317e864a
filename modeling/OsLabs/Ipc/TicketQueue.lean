import OsLabs.Machine.Run
import Mathlib.Data.List.Basic

/-! A line of ticket holders that is served from the front. Tickets are numbered
one after the other; the numbering starts again once nobody is in line. -/

namespace OsLabs.TicketQueue

universe u

/-- `first` is the ticket at the front of the line, or the next one to be drawn. -/
structure State (Tid : Type u) where
  line : List Tid
  first : Int

inductive Action (Tid : Type u) where
  | draw (tid : Tid)
  | enter (tid : Tid)
  | leave (tid : Tid)

inductive Event (Tid : Type u) where
  | drew (tid : Tid) (ticket : Int)
  | entered (tid : Tid)
  | left (tid : Tid)

variable {Tid : Type u}

/-- The next ticket to be drawn. -/
def State.ticket (state : State Tid) : Int := state.first + state.line.length

def machine [DecidableEq Tid] : Machine (State Tid) (Action Tid) (Event Tid) where
  init := ⟨[], 1⟩
  next
    | state, .draw tid =>
      some ({ state with line := state.line ++ [tid] }, [.drew tid state.ticket])
    | state, .enter tid =>
      if state.line.head? = some tid then some (state, [.entered tid]) else none
    | state, .leave tid =>
      if state.line.head? = some tid then
        some (⟨state.line.tail, if state.line.tail = [] then 1 else state.first + 1⟩, [.left tid])
      else none

def Event.drawer? : Event Tid → Option Tid
  | .drew tid _ => some tid
  | .entered _ | .left _ => none

def Event.ticket? : Event Tid → Option Int
  | .drew _ ticket => some ticket
  | .entered _ | .left _ => none

def Event.leaver? : Event Tid → Option Tid
  | .left tid => some tid
  | .drew _ _ | .entered _ => none

/-- What a line has let through by the time it reaches `state`. -/
structure History (events : List (Event Tid)) (state : State Tid) : Prop where
  order : events.filterMap Event.drawer? = events.filterMap Event.leaver? ++ state.line
  last : state.line ≠ [] → (events.filterMap Event.ticket?).getLast? = some (state.ticket - 1)
  restart : state.line = [] → state.first = 1
  positive : 1 ≤ state.first

/-- Whoever had drawn a ticket before the front of the line did has left. -/
theorem History.left_of_drew {early events : List (Event Tid)} (history : History events state)
    (parts : events = early ++ late) (front : state.line.head? = some tid)
    (drew : other ∈ early.filterMap Event.drawer?) (later : tid ∉ early.filterMap Event.drawer?) :
    other ∈ events.filterMap Event.leaver? := by
  obtain ⟨rest, line⟩ : ∃ rest, state.line = tid :: rest := List.head?_eq_some_iff.mp front
  have order := history.order
  rw [line, parts, List.filterMap_append] at order
  rcases List.append_eq_append_iff.mp order with ⟨gone, left, _⟩ | ⟨waiting, left, behind⟩
  · rw [parts, left]
    exact List.mem_append_left gone drew
  · cases waiting with
    | nil =>
      rw [parts]
      simpa [left] using drew
    | cons first waiting =>
      obtain ⟨rfl, _⟩ := List.cons.inj behind
      exact absurd (by simp [left]) later

/-- By the time that somebody has come to the front of the line, just those have left who
were in line before. -/
theorem History.passed {before between : List (Event Tid)} {final : State Tid}
    (early : History before state) (late : History (before ++ between) final)
    (line : state.line = ahead ++ [tid]) (front : final.line.head? = some tid)
    (once : ((before ++ between).filterMap Event.drawer?).Nodup) :
    between.filterMap Event.leaver? = ahead := by
  obtain ⟨rest, first⟩ : ∃ rest, final.line = tid :: rest := List.head?_eq_some_iff.mp front
  have order := late.order
  simp only [List.filterMap_append, early.order, line, first, List.append_assoc,
    List.append_cancel_left_eq, List.singleton_append] at order
  rw [List.filterMap_append, early.order, line, List.append_assoc, List.append_assoc] at once
  have apart := (List.nodup_append.mp once).2.1
  have absent : tid ∉ ahead := fun member =>
    (List.nodup_append.mp apart).2.2 tid member tid (by simp) rfl
  have never : tid ∉ between.filterMap Event.drawer? := by
    have behind := (List.nodup_append.mp apart).2.1
    simpa using (List.nodup_cons.mp behind).1
  exact ((List.append_cons_inj_of_notMem absent never).mp order).1.symm

/-- The tickets drawn since nobody was in line, and how many of them are in line. -/
structure Spell where
  drawn : Nat
  waiting : Nat

def Spell.next (spell : Spell) : Event Tid → Spell
  | .drew _ _ => ⟨spell.drawn + 1, spell.waiting + 1⟩
  | .entered _ => spell
  | .left _ => if spell.waiting ≤ 1 then ⟨0, 0⟩ else ⟨spell.drawn, spell.waiting - 1⟩

def spell (events : List (Event Tid)) : Spell := events.foldl Spell.next ⟨0, 0⟩

theorem spell_drawn_le (events : List (Event Tid)) : (spell events).drawn ≤ events.length := by
  induction events using List.reverseRecOn with
  | nil => exact Nat.le_refl 0
  | append_singleton events event ih =>
    rw [spell, List.foldl_append, ← spell, List.length_append, List.length_singleton]
    cases event with
    | drew => exact Nat.add_le_add_right ih 1
    | entered => exact Nat.le_succ_of_le ih
    | left =>
      simp only [List.foldl_cons, List.foldl_nil, Spell.next]
      split
      · exact Nat.zero_le _
      · exact Nat.le_succ_of_le ih

/-- The ticket to come counts the tickets of the spell. -/
structure Spell.Counts (spell : Spell) (state : State Tid) : Prop where
  waiting : spell.waiting = state.line.length
  ticket : state.ticket = spell.drawn + 1

variable [DecidableEq Tid]

theorem History.initial : History [] (machine : Machine (State Tid) _ _).init :=
  ⟨rfl, fun nonempty => absurd rfl nonempty, fun _ => rfl, Int.le_refl 1⟩

theorem History.step {state after : State Tid} (history : History events state)
    (taken : machine.next state action = some (after, emitted)) :
    History (events ++ emitted) after := by
  obtain ⟨order, last, restart, positive⟩ := history
  cases action with
  | draw tid =>
    obtain ⟨rfl, rfl⟩ : _ ∧ _ := by simpa [machine] using taken
    refine ⟨?_, fun _ => ?_, fun empty => by simp at empty, positive⟩
    · simp [Event.drawer?, Event.leaver?, order]
    · simp [Event.ticket?, State.ticket]
      omega
  | enter tid =>
    obtain ⟨_, rfl, rfl⟩ : _ ∧ _ ∧ _ := by simpa [machine] using taken
    refine ⟨?_, fun nonempty => ?_, restart, positive⟩
    · simp [List.filterMap_cons, Event.drawer?, Event.leaver?, order]
    · simpa [List.filterMap_cons, Event.ticket?] using last nonempty
  | leave tid =>
    obtain ⟨front, rfl, rfl⟩ : _ ∧ _ ∧ _ := by simpa [machine] using taken
    obtain ⟨rest, line⟩ : ∃ rest, state.line = tid :: rest := List.head?_eq_some_iff.mp front
    rw [line] at order
    refine ⟨?_, ?_, ?_, ?_⟩
    · simpa [List.filterMap_cons, Event.drawer?, Event.leaver?, line] using order
    · intro nonempty
      have more : rest ≠ [] := by simpa [line] using nonempty
      have ticket := last (by simp [line])
      simp only [State.ticket, line] at ticket ⊢
      simp [Event.ticket?, ticket, more]
      omega
    · intro empty
      exact if_pos empty
    · change 1 ≤ if state.line.tail = [] then 1 else state.first + 1
      split <;> omega

theorem History.ofRun {state : State Tid} {allowed : State Tid → Action Tid → Prop}
    (run : machine.Run allowed actions events state) : History events state := by
  induction run with
  | start => exact .initial
  | step _ _ taken ih => exact ih.step taken

theorem Spell.Counts.step {spell : Spell} {state after : State Tid} (counts : spell.Counts state)
    (taken : machine.next state action = some (after, emitted)) :
    (emitted.foldl Spell.next spell).Counts after := by
  obtain ⟨waiting, ticket⟩ := counts
  cases action with
  | draw tid =>
    obtain ⟨rfl, rfl⟩ : _ ∧ _ := by simpa [machine] using taken
    refine ⟨by simp [Spell.next, waiting], ?_⟩
    simp only [State.ticket, List.length_append, List.length_singleton, List.foldl_cons,
      List.foldl_nil, Spell.next] at ticket ⊢
    omega
  | enter tid =>
    obtain ⟨_, rfl, rfl⟩ : _ ∧ _ ∧ _ := by simpa [machine] using taken
    exact ⟨waiting, ticket⟩
  | leave tid =>
    obtain ⟨front, rfl, rfl⟩ : _ ∧ _ ∧ _ := by simpa [machine] using taken
    obtain ⟨rest, line⟩ : ∃ rest, state.line = tid :: rest := List.head?_eq_some_iff.mp front
    rw [line, List.length_cons] at waiting
    rw [State.ticket, line, List.length_cons] at ticket
    simp only [List.foldl_cons, List.foldl_nil, Spell.next, line, List.tail_cons]
    cases rest with
    | nil =>
      rw [List.length_nil] at waiting
      rw [if_pos (by omega)]
      exact ⟨rfl, rfl⟩
    | cons second rest =>
      rw [List.length_cons] at waiting ticket
      rw [if_neg (by omega)]
      refine ⟨by simp [waiting], ?_⟩
      simp only [State.ticket, List.length_cons, reduceCtorEq, ↓reduceIte]
      omega

theorem Spell.Counts.ofRun {state : State Tid} {allowed : State Tid → Action Tid → Prop}
    (run : machine.Run allowed actions events state) : (spell events).Counts state := by
  refine run.invariant (fun events state => (spell events).Counts state) ⟨rfl, rfl⟩ ?_
  intro events state action after emitted counts _ taken
  rw [spell, List.foldl_append]
  exact counts.step taken

end OsLabs.TicketQueue
