import OsLabs.Ipc.Channel
import OsLabs.Lab03.Alphabet

/-! What the children of prod_cons.c and prod_cons_mac.c share, and the critical
sections of their producers and consumers, which are the same word for word in
the two programs. Every load and every store is a step of its own. -/

namespace OsLabs.Lab03

def ELEMENTS : Nat := 32

/-- `main` lays out the segment as the letter, the two pointers and the slots.
The pointers are kept as offsets from `storage`. -/
structure Storage where
  letter : UInt8
  producep : Nat
  consumep : Nat
  slots : Nat → UInt8

/-- The segment as `main` leaves it to the children. -/
def Storage.create : Storage := ⟨'a'.toUInt8, 0, 0, fun _ => 0⟩

/-- SEMAPHORE_EMPTY, SEMAPHORE_FULL and SEMAPHORE_BINARY of prod_cons.c, and
sem_empty, sem_full and sem_binary of prod_cons_mac.c. -/
inductive Semaphore where
  | empty
  | full
  | binary
deriving DecidableEq

/-- What the children share. -/
structure Shared where
  sem : Semaphore → Nat
  storage : Storage

/-- Change one semaphore. -/
def Shared.set (shared : Shared) (num : Semaphore) (value : Nat) : Shared :=
  { shared with sem := Function.update shared.sem num value }

@[simp] theorem Shared.sem_set (shared : Shared) (num : Semaphore) (value : Nat) :
    (shared.set num value).sem = Function.update shared.sem num value := rfl

/-- The values that `main` gives the semaphores before it forks. -/
def initialSem : Semaphore → Nat
  | .empty => ELEMENTS
  | .full => 0
  | .binary => 1

inductive Role where
  | producer
  | consumer
deriving DecidableEq

/-- Two children, one of each role. -/
def pair : Bool → Role
  | true => .producer
  | false => .consumer

/-- The token that a role takes before its section. -/
def Role.takes : Role → Semaphore
  | .producer => .empty
  | .consumer => .full

/-- The token that a role gives after its section. -/
def Role.gives : Role → Semaphore
  | .producer => .full
  | .consumer => .empty

/-- `put` and `get` are the lines that are printed; `stored` and `loaded` are
the accesses to the slots. -/
inductive Event (Pid : Type) where
  | put (pid : Pid) (value : UInt8)
  | stored (place : Nat) (value : UInt8)
  | loaded (place : Nat) (value : UInt8)
  | get (pid : Pid) (value : UInt8)
deriving DecidableEq

/-- The points between the two semaphore calls of a loop iteration, each named
after the access that comes next. Arguments are what has been loaded. -/
inductive Section where
  | printLetter
  | loadProducep
  | storeProducep (place : Nat)
  | loadLetter (place : Nat)
  | storeSlot (place : Nat) (value : UInt8)
  | loadIncrement
  | storeIncrement (value : UInt8)
  | testLetter
  | wrapLetter
  | testProducep
  | wrapProducep
  | loadConsumep
  | loadSlot (place : Nat)
  | loadAdvance
  | storeAdvance (place : Nat)
  | testConsumep
  | wrapConsumep
deriving DecidableEq

def Role.entry : Role → Section
  | .producer => .printLetter
  | .consumer => .loadConsumep

def Section.role : Section → Role
  | .loadConsumep | .loadSlot _ | .loadAdvance | .storeAdvance _ | .testConsumep
  | .wrapConsumep => .consumer
  | _ => .producer

variable {Pid : Type}

/-- One access; `none` for the next point is the end of the section. -/
def Section.step (pid : Pid) (storage : Storage) :
    Section → Storage × Option Section × List (Event Pid)
  -- printf("%d put %c\n", getpid(), *letter);
  | .printLetter => (storage, some .loadProducep, [.put pid storage.letter])
  -- *((*producep)++) = *letter; in the order in which the operands stand
  | .loadProducep => (storage, some (.storeProducep storage.producep), [])
  | .storeProducep place =>
    ({ storage with producep := place + 1 }, some (.loadLetter place), [])
  | .loadLetter place => (storage, some (.storeSlot place storage.letter), [])
  | .storeSlot place value =>
    ({ storage with slots := Function.update storage.slots place value }, some .loadIncrement,
      [.stored place value])
  -- (*letter)++;
  | .loadIncrement => (storage, some (.storeIncrement storage.letter), [])
  | .storeIncrement value => ({ storage with letter := value + 1 }, some .testLetter, [])
  -- if (*letter == 'z' + 1) *letter = 'a';
  | .testLetter =>
    (storage, some (if storage.letter = 'z'.toUInt8 + 1 then .wrapLetter else .testProducep), [])
  | .wrapLetter => ({ storage with letter := 'a'.toUInt8 }, some .testProducep, [])
  -- if (*producep - storage == ELEMENTS) *producep = storage;
  | .testProducep =>
    (storage, if storage.producep = ELEMENTS then some .wrapProducep else none, [])
  | .wrapProducep => ({ storage with producep := 0 }, none, [])
  -- printf("%d get %c\n", getpid(), **consumep);
  | .loadConsumep => (storage, some (.loadSlot storage.consumep), [])
  | .loadSlot place =>
    (storage, some .loadAdvance,
      [.loaded place (storage.slots place), .get pid (storage.slots place)])
  -- (*consumep)++;
  | .loadAdvance => (storage, some (.storeAdvance storage.consumep), [])
  | .storeAdvance place => ({ storage with consumep := place + 1 }, some .testConsumep, [])
  -- if (*consumep - storage == ELEMENTS) *consumep = storage;
  | .testConsumep =>
    (storage, if storage.consumep = ELEMENTS then some .wrapConsumep else none, [])
  | .wrapConsumep => ({ storage with consumep := 0 }, none, [])

/-- A slot access as its offset and value. -/
def Event.store? : Event Pid → Option (Nat × UInt8)
  | .stored place value => some (place, value)
  | _ => none

def Event.load? : Event Pid → Option (Nat × UInt8)
  | .loaded place value => some (place, value)
  | _ => none

/-- The slot accesses, seen as the traffic of a channel. -/
def Event.traffic? : Event Pid → Option (Channel.Event (Nat × UInt8))
  | .stored place value => some (.stored (place, value))
  | .loaded place value => some (.loaded (place, value))
  | _ => none

/-- What the channel carries: the letters in order, around the slots. -/
def slotStream (number : Nat) : Nat × UInt8 := (number % ELEMENTS, letterAt number)

theorem storedItem?_traffic? (events : List (Event Pid)) :
    (events.filterMap Event.traffic?).filterMap Channel.Event.storedItem? =
      events.filterMap Event.store? := by
  rw [List.filterMap_filterMap]
  congr 1
  funext event
  cases event <;> rfl

theorem loadedItem?_traffic? (events : List (Event Pid)) :
    (events.filterMap Event.traffic?).filterMap Channel.Event.loadedItem? =
      events.filterMap Event.load? := by
  rw [List.filterMap_filterMap]
  congr 1
  funext event
  cases event <;> rfl

/-- The channel that a section stands for moves at its slot access only. -/
def Section.moves (channel : Channel.State) : Section → Channel.State
  | .storeSlot .. => { channel with stored := channel.stored + 1 }
  | .loadSlot _ => { channel with loaded := channel.loaded + 1 }
  | _ => channel

/-- The section owns one unread item that is on no semaphore: a producer after
its store, a consumer before its load. -/
def Section.claims : Section → Bool
  | .loadIncrement | .storeIncrement _ | .testLetter | .wrapLetter | .testProducep
  | .wrapProducep | .loadConsumep | .loadSlot _ => true
  | _ => false

/-- At the end of a section only a producer still owns its item. -/
def Role.claims (role : Role) : Option Section → Bool
  | some point => point.claims
  | none => decide (role = .producer)

/-- Where the letter and the pointers stand while the slots hold the unread
items. -/
structure Layout (channel : Channel.State) (storage : Storage) (letter : UInt8)
    (producep consumep : Nat) : Prop where
  letter : storage.letter = letter
  producep : storage.producep = producep
  consumep : storage.consumep = consumep
  holds : Channel.Holds ELEMENTS letterAt storage.slots channel

/-- Between two critical sections. -/
def Settled (channel : Channel.State) (storage : Storage) : Prop :=
  Layout channel storage (letterAt channel.stored) (channel.stored % ELEMENTS)
    (channel.loaded % ELEMENTS)

/-- The proof outline of the two sections: what holds of the storage at each
point, given how far the channel has got. -/
def Section.Outline (channel : Channel.State) (storage : Storage) : Section → Prop
  | .printLetter | .loadProducep =>
    channel.stored < channel.loaded + ELEMENTS ∧ Settled channel storage
  | .storeProducep place =>
    channel.stored < channel.loaded + ELEMENTS ∧ Settled channel storage ∧
      place = channel.stored % ELEMENTS
  | .loadLetter place =>
    channel.stored < channel.loaded + ELEMENTS ∧ place = channel.stored % ELEMENTS ∧
      Layout channel storage (letterAt channel.stored) (place + 1) (channel.loaded % ELEMENTS)
  | .storeSlot place value =>
    channel.stored < channel.loaded + ELEMENTS ∧ place = channel.stored % ELEMENTS ∧
      value = letterAt channel.stored ∧
      Layout channel storage value (place + 1) (channel.loaded % ELEMENTS)
  | .loadIncrement =>
    ∃ number, channel.stored = number + 1 ∧
      Layout channel storage (letterAt number) (number % ELEMENTS + 1) (channel.loaded % ELEMENTS)
  | .storeIncrement value =>
    ∃ number, channel.stored = number + 1 ∧ value = letterAt number ∧
      Layout channel storage value (number % ELEMENTS + 1) (channel.loaded % ELEMENTS)
  | .testLetter =>
    ∃ number, channel.stored = number + 1 ∧
      Layout channel storage (letterAt number + 1) (number % ELEMENTS + 1)
        (channel.loaded % ELEMENTS)
  | .wrapLetter =>
    ∃ number, channel.stored = number + 1 ∧ letterAt number + 1 = 'z'.toUInt8 + 1 ∧
      Layout channel storage (letterAt number + 1) (number % ELEMENTS + 1)
        (channel.loaded % ELEMENTS)
  | .testProducep =>
    ∃ number, channel.stored = number + 1 ∧
      Layout channel storage (letterAt channel.stored) (number % ELEMENTS + 1)
        (channel.loaded % ELEMENTS)
  | .wrapProducep =>
    ∃ number, channel.stored = number + 1 ∧ number % ELEMENTS + 1 = ELEMENTS ∧
      Layout channel storage (letterAt channel.stored) ELEMENTS (channel.loaded % ELEMENTS)
  | .loadConsumep => channel.loaded < channel.stored ∧ Settled channel storage
  | .loadSlot place =>
    channel.loaded < channel.stored ∧ Settled channel storage ∧ place = channel.loaded % ELEMENTS
  | .loadAdvance =>
    ∃ number, channel.loaded = number + 1 ∧
      Layout channel storage (letterAt channel.stored) (channel.stored % ELEMENTS)
        (number % ELEMENTS)
  | .storeAdvance place =>
    ∃ number, channel.loaded = number + 1 ∧ place = number % ELEMENTS ∧
      Layout channel storage (letterAt channel.stored) (channel.stored % ELEMENTS) place
  | .testConsumep =>
    ∃ number, channel.loaded = number + 1 ∧
      Layout channel storage (letterAt channel.stored) (channel.stored % ELEMENTS)
        (number % ELEMENTS + 1)
  | .wrapConsumep =>
    ∃ number, channel.loaded = number + 1 ∧ number % ELEMENTS + 1 = ELEMENTS ∧
      Layout channel storage (letterAt channel.stored) (channel.stored % ELEMENTS) ELEMENTS

/-- The outline at the next point, or the settled storage at the end. -/
def Section.After (channel : Channel.State) (storage : Storage) : Option Section → Prop
  | some point => point.Outline channel storage
  | none => Settled channel storage

theorem Settled.create : Settled ⟨0, 0⟩ Storage.create :=
  ⟨rfl, rfl, rfl, fun number _ written => absurd written (Nat.not_lt_zero number)⟩

/-- Every access keeps the outline, whatever the process. -/
theorem Section.step_outline (pid : Pid) {storage : Storage} {point : Section}
    (outline : point.Outline channel storage) :
    Section.After (point.moves channel) (point.step pid storage).1
      (point.step pid storage).2.1 := by
  cases point with
  | printLetter => exact outline
  | loadProducep => exact ⟨outline.1, outline.2, outline.2.producep⟩
  | storeProducep place =>
    obtain ⟨room, settled, same⟩ := outline
    exact ⟨room, same, settled.letter, rfl, settled.consumep, settled.holds⟩
  | loadLetter place =>
    obtain ⟨room, same, layout⟩ := outline
    exact ⟨room, same, layout.letter, rfl, layout.producep, layout.consumep, layout.holds⟩
  | storeSlot place value =>
    obtain ⟨room, rfl, rfl, layout⟩ := outline
    exact ⟨channel.stored, rfl, layout.letter, layout.producep, layout.consumep,
      layout.holds.store room⟩
  | loadIncrement =>
    obtain ⟨number, count, layout⟩ := outline
    exact ⟨number, count, layout.letter, rfl, layout.producep, layout.consumep, layout.holds⟩
  | storeIncrement value =>
    obtain ⟨number, count, rfl, layout⟩ := outline
    exact ⟨number, count, rfl, layout.producep, layout.consumep, layout.holds⟩
  | testLetter =>
    obtain ⟨number, count, layout⟩ := outline
    simp only [Section.step, Section.After]
    split
    · rename_i last
      exact ⟨number, count, layout.letter.symm.trans last, layout⟩
    · rename_i inner
      rw [layout.letter] at inner
      refine ⟨number, count, ?_, layout.producep, layout.consumep, layout.holds⟩
      change storage.letter = letterAt channel.stored
      rw [layout.letter, count, letterAt_succ inner]
  | wrapLetter =>
    obtain ⟨number, count, last, layout⟩ := outline
    refine ⟨number, count, ?_, layout.producep, layout.consumep, layout.holds⟩
    change 'a'.toUInt8 = letterAt channel.stored
    rw [count, letterAt_wrap last]
  | testProducep =>
    obtain ⟨number, count, layout⟩ := outline
    simp only [Section.step]
    split
    · rename_i full
      exact ⟨number, count, layout.producep.symm.trans full, layout.letter, full, layout.consumep,
        layout.holds⟩
    · rename_i short
      rw [layout.producep] at short
      refine ⟨layout.letter, ?_, layout.consumep, layout.holds⟩
      change storage.producep = channel.stored % ELEMENTS
      rw [layout.producep, count, Channel.advance_stay (by decide) short]
  | wrapProducep =>
    obtain ⟨number, count, full, layout⟩ := outline
    refine ⟨layout.letter, ?_, layout.consumep, layout.holds⟩
    change 0 = channel.stored % ELEMENTS
    rw [count, Channel.advance_wrap full]
  | loadConsumep => exact ⟨outline.1, outline.2, outline.2.consumep⟩
  | loadSlot place =>
    obtain ⟨_, settled, rfl⟩ := outline
    exact ⟨channel.loaded, rfl, settled.letter, settled.producep, settled.consumep,
      settled.holds.load⟩
  | loadAdvance =>
    obtain ⟨number, count, layout⟩ := outline
    exact ⟨number, count, layout.consumep, layout.letter, layout.producep, rfl, layout.holds⟩
  | storeAdvance place =>
    obtain ⟨number, count, rfl, layout⟩ := outline
    exact ⟨number, count, layout.letter, layout.producep, rfl, layout.holds⟩
  | testConsumep =>
    obtain ⟨number, count, layout⟩ := outline
    simp only [Section.step]
    split
    · rename_i full
      exact ⟨number, count, layout.consumep.symm.trans full, layout.letter, layout.producep, full,
        layout.holds⟩
    · rename_i short
      rw [layout.consumep] at short
      refine ⟨layout.letter, layout.producep, ?_, layout.holds⟩
      change storage.consumep = channel.loaded % ELEMENTS
      rw [layout.consumep, count, Channel.advance_stay (by decide) short]
  | wrapConsumep =>
    obtain ⟨number, count, full, layout⟩ := outline
    refine ⟨layout.letter, layout.producep, ?_, layout.holds⟩
    change 0 = channel.loaded % ELEMENTS
    rw [count, Channel.advance_wrap full]

/-- The slots hold the unread items at every point of a section. -/
theorem Section.Outline.holds {point : Section} (outline : point.Outline channel storage) :
    Channel.Holds ELEMENTS letterAt storage.slots channel := by
  cases point with
  | printLetter | loadProducep | loadConsumep => exact outline.2.holds
  | storeProducep | loadSlot => exact outline.2.1.holds
  | loadLetter => exact outline.2.2.holds
  | storeSlot => exact outline.2.2.2.holds
  | loadIncrement | testLetter | testProducep | loadAdvance | testConsumep =>
    obtain ⟨_, _, layout⟩ := outline
    exact layout.holds
  | storeIncrement | wrapLetter | wrapProducep | storeAdvance | wrapConsumep =>
    obtain ⟨_, _, _, layout⟩ := outline
    exact layout.holds

/-- A consumer enters with an item to load, a producer with none. -/
theorem Role.entry_claims (role : Role) : role.entry.claims = decide (role = .consumer) := by
  cases role <;> rfl

/-- The channel answers every access with the same traffic. -/
theorem Section.step_traffic (pid : Pid) {storage : Storage} {point : Section}
    (outline : point.Outline channel storage) :
    ∃ moves, (Channel.machine ELEMENTS slotStream).Path Machine.anything channel moves
      ((point.step pid storage).2.2.filterMap Event.traffic?) (point.moves channel) := by
  cases point with
  | storeSlot place value =>
    obtain ⟨room, rfl, rfl, _⟩ := outline
    exact ⟨[.store], .single trivial (by simp [Channel.machine, room, slotStream, Section.moves,
      Section.step, Event.traffic?])⟩
  | loadSlot place =>
    obtain ⟨available, settled, rfl⟩ := outline
    have front := settled.holds channel.loaded (Nat.le_refl _) available
    exact ⟨[.load], .single trivial (by simp [Channel.machine, available, slotStream, front,
      Section.moves, Section.step, Event.traffic?])⟩
  | _ => exact ⟨[], .start⟩

/-- The next point belongs to the same section. -/
theorem Section.step_role (pid : Pid) (storage : Storage) (point : Section)
    (next : (point.step pid storage).2.1 = some point') : point'.role = point.role := by
  cases point with
  | testLetter =>
    simp only [Section.step, Option.some.injEq] at next
    split at next <;> (cases next; rfl)
  | testProducep | testConsumep =>
    simp only [Section.step, Option.ite_none_right_eq_some, Option.some.injEq] at next
    obtain ⟨_, rfl⟩ := next
    rfl
  | wrapProducep | wrapConsumep => cases next
  | _ =>
    cases next
    rfl

/-- An item is stored when a producer starts to own it, and loaded when a
consumer ceases to. -/
theorem Section.step_claims (pid : Pid) (storage : Storage) (point : Section)
    (channel : Channel.State) :
    (point.moves channel).stored + channel.loaded + point.claims.toNat =
      channel.stored + (point.moves channel).loaded +
        (point.role.claims (point.step pid storage).2.1).toNat := by
  cases point with
  | storeSlot place value =>
    change channel.stored + 1 + channel.loaded + 0 = channel.stored + channel.loaded + 1
    omega
  | loadSlot place =>
    change channel.stored + channel.loaded + 1 = channel.stored + (channel.loaded + 1) + 0
    omega
  | testLetter | testProducep | testConsumep =>
    simp only [Section.step]
    split <;> rfl
  | _ => rfl

end OsLabs.Lab03
