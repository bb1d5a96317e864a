import OsLabs.Machine.Run
import Mathlib.Data.List.Range
import Mathlib.Logic.Function.Basic

/-! A bounded first-in first-out channel carrying a fixed stream of items, and
its representation as a circular buffer. -/

namespace OsLabs.Channel

universe u

/-- How many items of the stream have been stored and loaded so far. -/
structure State where
  stored : Nat
  loaded : Nat

inductive Action where
  | store
  | load

inductive Event (Item : Type u) where
  | stored (item : Item)
  | loaded (item : Item)

variable {Item : Type u}

/-- A store needs room, a load needs an item. Items leave in the order of the
stream, which is the order in which they came. -/
def machine (capacity : Nat) (stream : Nat → Item) : Machine State Action (Event Item) where
  init := ⟨0, 0⟩
  next
    | state, .store =>
      if state.stored < state.loaded + capacity then
        some ({ state with stored := state.stored + 1 }, [.stored (stream state.stored)])
      else none
    | state, .load =>
      if state.loaded < state.stored then
        some ({ state with loaded := state.loaded + 1 }, [.loaded (stream state.loaded)])
      else none

def Event.storedItem? : Event Item → Option Item
  | .stored item => some item
  | .loaded _ => none

def Event.loadedItem? : Event Item → Option Item
  | .stored _ => none
  | .loaded item => some item

/-- What a channel has let through by the time it reaches `state`. -/
structure History (capacity : Nat) (stream : Nat → Item) (events : List (Event Item))
    (state : State) : Prop where
  stores : events.filterMap Event.storedItem? = (List.range state.stored).map stream
  loads : events.filterMap Event.loadedItem? = (List.range state.loaded).map stream
  available : state.loaded ≤ state.stored
  bounded : state.stored ≤ state.loaded + capacity

variable {capacity : Nat} {stream : Nat → Item}

theorem History.initial : History capacity stream [] (machine capacity stream).init :=
  ⟨rfl, rfl, Nat.le_refl 0, Nat.zero_le _⟩

theorem History.step (history : History capacity stream events state)
    (taken : (machine capacity stream).next state action = some (after, emitted)) :
    History capacity stream (events ++ emitted) after := by
  cases action with
  | store =>
    obtain ⟨room, rfl, rfl⟩ : state.stored < state.loaded + capacity ∧
        { state with stored := state.stored + 1 } = after ∧
        [Event.stored (stream state.stored)] = emitted := by
      simpa [machine] using taken
    refine ⟨?_, ?_, Nat.le_succ_of_le history.available, room⟩
    · simp [Event.storedItem?, history.stores, List.range_succ]
    · simp [Event.loadedItem?, history.loads]
  | load =>
    obtain ⟨available, rfl, rfl⟩ : state.loaded < state.stored ∧
        { state with loaded := state.loaded + 1 } = after ∧
        [Event.loaded (stream state.loaded)] = emitted := by
      simpa [machine] using taken
    refine ⟨?_, ?_, available, ?_⟩
    · simp [Event.storedItem?, history.stores]
    · simp [Event.loadedItem?, history.loads, List.range_succ]
    · have bounded := history.bounded
      change state.stored ≤ state.loaded + 1 + capacity
      omega

theorem History.path {allowed : State → Action → Prop}
    (history : History capacity stream events state)
    (path : (machine capacity stream).Path allowed state actions emitted after) :
    History capacity stream (events ++ emitted) after := by
  induction path with
  | start => simpa using history
  | step _ _ taken ih =>
    rw [← List.append_assoc]
    exact ih.step taken

theorem History.ofRun {allowed : State → Action → Prop}
    (run : (machine capacity stream).Run allowed actions events state) :
    History capacity stream events state :=
  History.initial.path run

/-- The numbered items of a finite part of the stream. -/
theorem getElem?_stream :
    ((List.range count).map stream)[number]? = some item ↔
      number < count ∧ stream number = item := by
  rw [List.getElem?_map]
  by_cases inside : number < count
  · simp [inside]
  · simp [inside]

/-- The unread items of the channel, each in the slot of its number. -/
def Holds (capacity : Nat) (stream : Nat → Item) (slots : Nat → Item) (state : State) : Prop :=
  ∀ number, state.loaded ≤ number → number < state.stored →
    slots (number % capacity) = stream number

/-- Two numbers less than one turn apart never share a slot. -/
theorem slot_ne (order : first < second) (turn : second < first + capacity) :
    first % capacity ≠ second % capacity := by
  intro same
  have divides : capacity ∣ second - first :=
    Nat.dvd_of_mod_eq_zero (Nat.sub_mod_eq_zero_of_mod_eq same.symm)
  have bound := Nat.le_of_dvd (by omega) divides
  omega

theorem Holds.store (holds : Holds capacity stream slots state)
    (room : state.stored < state.loaded + capacity) :
    Holds capacity stream
      (Function.update slots (state.stored % capacity) (stream state.stored))
      { state with stored := state.stored + 1 } := by
  intro number unread written
  rcases Nat.lt_succ_iff_lt_or_eq.mp written with earlier | rfl
  · have apart : number % capacity ≠ state.stored % capacity :=
      slot_ne earlier (by change state.loaded ≤ number at unread; omega)
    rw [Function.update_of_ne apart]
    exact holds number unread earlier
  · exact Function.update_self ..

theorem Holds.load (holds : Holds capacity stream slots state) :
    Holds capacity stream slots { state with loaded := state.loaded + 1 } :=
  fun number unread written => holds number (Nat.le_of_succ_le unread) written

/-- Advancing an offset by one and wrapping it at the capacity follows the
number of the item. -/
theorem advance_wrap (full : number % capacity + 1 = capacity) :
    (number + 1) % capacity = 0 := by
  rw [← Nat.mod_add_mod, full, Nat.mod_self]

theorem advance_stay (positive : 0 < capacity) (short : number % capacity + 1 ≠ capacity) :
    (number + 1) % capacity = number % capacity + 1 := by
  have bound := Nat.mod_lt number positive
  rw [← Nat.mod_add_mod, Nat.mod_eq_of_lt (by omega)]

end OsLabs.Channel
