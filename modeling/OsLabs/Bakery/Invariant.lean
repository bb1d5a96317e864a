import OsLabs.Bakery.Server
import OsLabs.Ipc.TicketQueue
import OsLabs.Machine.Owner
import Mathlib.Data.List.Nodup

/-! The invariant of bakery_server.c: the entries of `number` are the tickets of
a line, and an activation in the waiting loop has passed no smaller one. -/

namespace OsLabs.Bakery

/-- `max` is the greatest ticket among the first `bound` entries. -/
structure Greatest (number : Int → Int) (bound : Nat) (max : Int) : Prop where
  above : ∀ index : Int, 0 ≤ index → index < bound → number index ≤ max
  attained : max = 0 ∨ ∃ index, number index = max
  nonneg : 0 ≤ max

/-- None of the first `bound` entries is a ticket before `own`. -/
def Passed (number : Int → Int) (own : Int) (bound : Nat) : Prop :=
  ∀ index : Int, 0 ≤ index → index < bound → number index = 0 ∨ own ≤ number index

theorem Passed.mono (passed : Passed number own bound) (less : smaller ≤ bound) :
    Passed number own smaller := by
  intro index nonneg below
  exact passed index nonneg (by omega)

theorem Passed.succ (passed : Passed number own bound)
    (next : number bound = 0 ∨ own ≤ number bound) : Passed number own (bound + 1) := by
  intro index nonneg below
  by_cases last : index = bound
  · subst last
    exact next
  · exact passed index nonneg (by omega)

theorem Greatest.mono {max : Int} (greatest : Greatest number bound max)
    (less : smaller ≤ bound) : Greatest number smaller max :=
  ⟨fun index nonneg below => greatest.above index nonneg (by omega), greatest.attained,
    greatest.nonneg⟩

theorem Greatest.zero (number : Int → Int) : Greatest number 0 0 :=
  ⟨fun index nonneg below => by omega, .inl rfl, Int.le_refl 0⟩

theorem Greatest.keep {max : Int} (greatest : Greatest number bound max)
    (less : number bound ≤ max) : Greatest number (bound + 1) max := by
  refine ⟨fun index nonneg below => ?_, greatest.attained, greatest.nonneg⟩
  by_cases last : index = bound
  · subst last
    exact less
  · exact greatest.above index nonneg (by omega)

theorem Greatest.take {max : Int} (greatest : Greatest number bound max)
    (more : max < number bound) : Greatest number (bound + 1) (number bound) := by
  refine ⟨fun index nonneg below => ?_, .inr ⟨bound, rfl⟩, ?_⟩
  · by_cases last : index = bound
    · subst last
      exact Int.le_refl _
    · have before := greatest.above index nonneg (by omega)
      omega
  · have nonneg := greatest.nonneg
    omega

/-- What holds of `number` while an activation is at a point of its program. -/
def Pc.Outline (number : Int → Int) (client : Int) : Pc → Prop
  | .scan i max => Greatest number i max
  | .scanTake i => ∃ max, Greatest number i max ∧ max < number i
  | .draw max => Greatest number MAX_CLIENTS max
  | .waitChoosing _ i | .waitNonzero _ i | .waitLess _ i => Passed number (number client) i
  | .waitLessOwn _ i value =>
    Passed number (number client) i ∧
      (number client ≤ value → number i = 0 ∨ number client ≤ number i)
  | .waitEqual _ i | .waitEqualOwn _ i _ => Passed number (number client) (i + 1)
  | .fillClient _ | .fillTicket _ | .fillPosition _ | .fillStatus _ | .lockAgain _ | .release _ =>
    Passed number (number client) MAX_CLIENTS
  | .arrive | .lock | .setChoosing | .clearChoosing | .unlock | .reread | .unlockAgain _ | .reply _
  | .finished => True

variable {Tid : Type}

/-- The activations in flight have ids of their own, those that hold tickets form
the line, and `number` has their tickets and nothing else. -/
structure Orderly (argp : Tid → Request) (shared : Shared Tid) (pcs : Tid → Pc)
    (queue : TicketQueue.State Tid) : Prop where
  mutex : ∀ tid, (pcs tid).locks = true ↔ shared.mutex = some tid
  ranged : ∀ tid, (pcs tid).inFlight = true →
    0 ≤ (argp tid).clientId ∧ (argp tid).clientId < MAX_CLIENTS
  distinct : ∀ tid other, (pcs tid).inFlight = true → (pcs other).inFlight = true →
    (argp tid).clientId = (argp other).clientId → tid = other
  member : ∀ tid, tid ∈ queue.line ↔ (pcs tid).holds = true
  nodup : queue.line.Nodup
  tickets : ∀ (place : Nat) tid, queue.line[place]? = some tid →
    shared.number (argp tid).clientId = queue.first + place
  zero : ∀ index, (∀ tid ∈ queue.line, (argp tid).clientId ≠ index) → shared.number index = 0
  positive : 1 ≤ queue.first
  restart : queue.line = [] → queue.first = 1
  outline : ∀ tid, (pcs tid).Outline shared.number (argp tid).clientId

variable {argp : Tid → Request} {shared : Shared Tid} {pcs : Tid → Pc}
variable {queue : TicketQueue.State Tid}

theorem Pc.inFlight_of_holds {pc : Pc} (holds : pc.holds = true) : pc.inFlight = true := by
  cases pc <;> first | rfl | exact holds

theorem Pc.holds_of_serves {pc : Pc} (serves : pc.serves = true) : pc.holds = true := by
  cases pc <;> first | rfl | exact serves

theorem Pc.Outline.passed {pc : Pc} (outline : pc.Outline number client)
    (serves : pc.serves = true) : Passed number (number client) MAX_CLIENTS := by
  cases pc <;> first | exact outline | cases serves

/-- An outline of an activation without the mutex survives new tickets behind its
own, and tickets given up. -/
theorem Pc.Outline.frame {pc : Pc} (outline : pc.Outline number client)
    (unlocked : pc.locks = false) (own : pc.holds = true → number' client = number client)
    (others : pc.holds = true → ∀ index, number' index = number index ∨ number' index = 0 ∨
      number client ≤ number' index) : pc.Outline number' client := by
  have kept {bound : Nat} (holds : pc.holds = true) (passed : Passed number (number client) bound) :
      Passed number' (number' client) bound := by
    intro index nonneg below
    rw [own holds]
    rcases others holds index with same | none | behind
    · rw [same]
      exact passed index nonneg below
    · exact .inl none
    · exact .inr behind
  cases pc with
  | setChoosing | scan _ _ | scanTake _ | draw _ | clearChoosing | unlock | release _
  | unlockAgain _ => cases unlocked
  | arrive | lock | reread | reply _ | finished => trivial
  | waitChoosing _ i | waitNonzero _ i | waitLess _ i => exact kept rfl outline
  | waitEqual _ i | waitEqualOwn _ i _ => exact kept rfl outline
  | fillClient _ | fillTicket _ | fillPosition _ | fillStatus _ | lockAgain _ =>
    exact kept rfl outline
  | waitLessOwn _ i value =>
    refine ⟨kept rfl outline.1, fun less => ?_⟩
    rw [own rfl] at less ⊢
    have before := outline.2 less
    rcases others rfl i with same | none | behind
    · rwa [same]
    · exact .inl none
    · exact .inr behind

namespace Orderly

theorem initial (argp : Tid → Request) :
    Orderly argp (threads argp).shared (fun _ => (threads argp).entry) ⟨[], 1⟩ where
  mutex _ := by simp [threads, Pc.locks]
  ranged _ flying := by cases flying
  distinct _ _ flying := by cases flying
  member _ := by simp [threads, Pc.holds, Pc.serves]
  nodup := List.nodup_nil
  tickets _ _ place := by simp at place
  zero _ _ := rfl
  positive := Int.le_refl 1
  restart _ := rfl
  outline _ := trivial

/-- The tickets held are the numbers from `first` on, as many as there are
activations in line. -/
theorem number_cases (orderly : Orderly argp shared pcs queue) (index : Int) :
    shared.number index = 0 ∨ ∃ (place : Nat) (tid : Tid), queue.line[place]? = some tid ∧
      (argp tid).clientId = index ∧ place < queue.line.length ∧
      shared.number index = queue.first + place := by
  by_cases held : ∃ tid ∈ queue.line, (argp tid).clientId = index
  · obtain ⟨tid, member, rfl⟩ := held
    obtain ⟨place, bound, here⟩ := List.getElem_of_mem member
    have found : queue.line[place]? = some tid := by rw [List.getElem?_eq_getElem bound, here]
    exact .inr ⟨place, tid, found, rfl, bound, orderly.tickets place tid found⟩
  · exact .inl (orderly.zero index fun tid member same => held ⟨tid, member, same⟩)

/-- The ticket of an activation in line. -/
theorem held (orderly : Orderly argp shared pcs queue) (holds : (pcs tid).holds = true) :
    ∃ place : Nat, queue.line[place]? = some tid ∧ place < queue.line.length ∧
      shared.number (argp tid).clientId = queue.first + place := by
  obtain ⟨place, bound, here⟩ := List.getElem_of_mem ((orderly.member tid).mpr holds)
  have found : queue.line[place]? = some tid := by rw [List.getElem?_eq_getElem bound, here]
  exact ⟨place, found, bound, orderly.tickets place tid found⟩

/-- An activation that has passed all entries is at the front of the line. -/
theorem front (orderly : Orderly argp shared pcs queue) (holds : (pcs tid).holds = true)
    (passed : Passed shared.number (shared.number (argp tid).clientId) MAX_CLIENTS) :
    queue.line.head? = some tid := by
  obtain ⟨place, found, _, ticket⟩ := orderly.held holds
  cases line : queue.line with
  | nil => simp [line] at found
  | cons first rest =>
    have here : queue.line[0]? = some first := by simp [line]
    have member : first ∈ queue.line := by simp [line]
    have firstHolds := (orderly.member first).mp member
    obtain ⟨nonneg, below⟩ := orderly.ranged first (Pc.inFlight_of_holds firstHolds)
    have least := orderly.tickets 0 first here
    have positive := orderly.positive
    have before := passed _ nonneg below
    have none : place = 0 := by omega
    rw [none, line] at found
    simpa using found

/-- At most one activation is being served. -/
theorem serves_unique (orderly : Orderly argp shared pcs queue) (first : (pcs tid).serves = true)
    (second : (pcs other).serves = true) : tid = other := by
  have front := orderly.front (Pc.holds_of_serves first) ((orderly.outline tid).passed first)
  have same := orderly.front (Pc.holds_of_serves second) ((orderly.outline other).passed second)
  exact Option.some.inj (front.symm.trans same)

theorem owned (orderly : Orderly argp shared pcs queue) :
    Threads.Owner Pc.locks shared.mutex pcs := orderly.mutex

/-- The ticket that is drawn is the next one of the line. -/
theorem drawn {max : Int} (orderly : Orderly argp shared pcs queue)
    (greatest : Greatest shared.number MAX_CLIENTS max) : max + 1 = queue.ticket := by
  have positive := orderly.positive
  cases Nat.eq_zero_or_pos queue.line.length with
  | inl none =>
    have empty : queue.line = [] := List.length_eq_zero_iff.mp none
    have zero : ∀ index, shared.number index = 0 := fun index =>
      orderly.zero index (by simp [empty])
    have largest : max = 0 := by
      rcases greatest.attained with largest | ⟨index, largest⟩
      · exact largest
      · rw [← largest, zero]
    rw [TicketQueue.State.ticket, orderly.restart empty, none, largest]
    rfl
  | inr some =>
    have bound : queue.line.length - 1 < queue.line.length := by omega
    have found := List.getElem?_eq_getElem bound
    have holds := (orderly.member _).mp (List.getElem_mem bound)
    obtain ⟨nonneg, below⟩ := orderly.ranged _ (Pc.inFlight_of_holds holds)
    have last := orderly.tickets _ _ found
    have above := greatest.above _ nonneg below
    have attained : max ≤ queue.first + (queue.line.length - 1 : Nat) := by
      rcases greatest.attained with largest | ⟨index, largest⟩
      · omega
      · rcases orderly.number_cases index with none | ⟨place, _, _, _, inside, ticket⟩
        · omega
        · omega
    rw [TicketQueue.State.ticket]
    omega

/-- Whoever holds a ticket has an entry of its own. -/
theorem apart (orderly : Orderly argp shared pcs queue) (flies : (pcs tid).inFlight = true)
    (different : other ≠ tid) (holds : (pcs other).holds = true) :
    (argp other).clientId ≠ (argp tid).clientId :=
  fun same => different (orderly.distinct other tid (Pc.inFlight_of_holds holds) flies same)

theorem int32_of_bounds (nonneg : 0 ≤ value) (below : value ≤ INT_MAX) : int32 value = value := by
  rw [int32, Int.bmod_def, UInt32.size]
  unfold INT_MAX at below
  omega

variable [DecidableEq Tid] {tid : Tid} {pc : Pc}

/-- While the mutex is held for a change of `number`, the other outlines stand if
the tickets held by others are kept and none is put before them. -/
theorem outline_update (orderly : Orderly argp shared pcs queue) (locks : (pcs tid).locks = true)
    (own : pc.Outline number (argp tid).clientId)
    (kept : ∀ other, other ≠ tid → (pcs other).holds = true →
      number (argp other).clientId = shared.number (argp other).clientId)
    (behind : ∀ other, other ≠ tid → (pcs other).holds = true → ∀ index,
      number index = shared.number index ∨ number index = 0 ∨
        shared.number (argp other).clientId ≤ number index) :
    ∀ other, (Function.update pcs tid pc other).Outline number (argp other).clientId := by
  refine (Function.forall_update_iff pcs
    (fun other pc => pc.Outline number (argp other).clientId)).mpr ⟨own, fun other different => ?_⟩
  have unlocked : (pcs other).locks = false := by
    by_contra locked
    exact different (orderly.owned.unique (by simpa using locked) locks)
  exact (orderly.outline other).frame unlocked (kept other different) (behind other different)

/-- A step that writes no ticket. -/
theorem move (orderly : Orderly argp shared pcs queue)
    (mutex : ∀ other, (Function.update pcs tid pc other).locks = true ↔
      shared'.mutex = some other)
    (number : shared'.number = shared.number) (flying : pc.inFlight = (pcs tid).inFlight)
    (holding : pc.holds = (pcs tid).holds)
    (outline : pc.Outline shared.number (argp tid).clientId) :
    Orderly argp shared' (Function.update pcs tid pc) queue := by
  refine ⟨mutex, ?_, ?_, ?_, orderly.nodup, ?_, ?_, orderly.positive, orderly.restart, ?_⟩
  · intro other
    rw [Threads.update_flag Pc.inFlight flying]
    exact orderly.ranged other
  · intro one other
    rw [Threads.update_flag Pc.inFlight flying, Threads.update_flag Pc.inFlight flying]
    exact orderly.distinct one other
  · intro other
    rw [Threads.update_flag Pc.holds holding]
    exact orderly.member other
  · rw [number]
    exact orderly.tickets
  · rw [number]
    exact orderly.zero
  · rw [number]
    exact (Function.forall_update_iff pcs
      (fun other pc => pc.Outline shared.number (argp other).clientId)).mpr
        ⟨outline, fun other _ => orderly.outline other⟩

/-- A request arrives. -/
theorem arrive (orderly : Orderly argp shared pcs queue) (here : pcs tid = .arrive)
    (ranged : 0 ≤ (argp tid).clientId ∧ (argp tid).clientId < MAX_CLIENTS)
    (fresh : ∀ other, (pcs other).inFlight = true →
      (argp other).clientId ≠ (argp tid).clientId) :
    Orderly argp shared (Function.update pcs tid .lock) queue := by
  have holding : Pc.lock.holds = (pcs tid).holds := by rw [here]; rfl
  have flying : ∀ other, (Function.update pcs tid .lock other).inFlight = true →
      other = tid ∨ (pcs other).inFlight = true := by
    intro other flies
    by_cases equal : other = tid
    · exact .inl equal
    · rw [Function.update_of_ne equal] at flies
      exact .inr flies
  refine ⟨orderly.owned.keep (by rw [here]; rfl), ?_, ?_, ?_, orderly.nodup, orderly.tickets,
    orderly.zero, orderly.positive, orderly.restart, ?_⟩
  · intro other flies
    rcases flying other flies with rfl | flies
    · exact ranged
    · exact orderly.ranged other flies
  · intro one other oneFlies otherFlies same
    rcases flying one oneFlies with rfl | oneFlew
    · rcases flying other otherFlies with rfl | otherFlew
      · rfl
      · exact absurd same.symm (fresh other otherFlew)
    · rcases flying other otherFlies with rfl | otherFlew
      · exact absurd same (fresh one oneFlew)
      · exact orderly.distinct one other oneFlew otherFlew same
  · intro other
    rw [Threads.update_flag Pc.holds holding]
    exact orderly.member other
  · exact (Function.forall_update_iff pcs
      (fun other pc => pc.Outline shared.number (argp other).clientId)).mpr
        ⟨trivial, fun other _ => orderly.outline other⟩

/-- A ticket is drawn. -/
theorem draw {max : Int} (orderly : Orderly argp shared pcs queue) (here : pcs tid = .draw max)
    (below : max < INT_MAX) :
    int32 (max + 1) = queue.ticket ∧
    Orderly argp { shared with
        number := fun i => if i = (argp tid).clientId then int32 (max + 1) else shared.number i }
      (Function.update pcs tid .clearChoosing) { queue with line := queue.line ++ [tid] } := by
  have greatest : Greatest shared.number MAX_CLIENTS max := by
    have outline := orderly.outline tid
    rwa [here] at outline
  have ticket : int32 (max + 1) = queue.ticket := by
    rw [← orderly.drawn greatest]
    have nonneg := greatest.nonneg
    exact int32_of_bounds (by omega) (by omega)
  have locks : (pcs tid).locks = true := by rw [here]; rfl
  have flies : (pcs tid).inFlight = true := by rw [here]; rfl
  have flying : Pc.clearChoosing.inFlight = (pcs tid).inFlight := by rw [here]; rfl
  have out : tid ∉ queue.line := by
    rw [orderly.member, here]
    simp [Pc.holds, Pc.serves]
  have apart : ∀ other, (pcs other).holds = true →
      (argp other).clientId ≠ (argp tid).clientId := by
    intro other holds
    refine orderly.apart flies ?_ holds
    rintro rfl
    rw [here] at holds
    cases holds
  refine ⟨ticket, orderly.owned.keep (by rw [here]; rfl), ?_, ?_, ?_, ?_, ?_, ?_,
    orderly.positive, by simp, ?_⟩
  · intro other
    rw [Threads.update_flag Pc.inFlight flying]
    exact orderly.ranged other
  · intro one other
    rw [Threads.update_flag Pc.inFlight flying, Threads.update_flag Pc.inFlight flying]
    exact orderly.distinct one other
  · intro other
    rw [List.mem_append, List.mem_singleton]
    by_cases equal : other = tid
    · subst equal
      simp [Pc.holds]
    · rw [Function.update_of_ne equal, orderly.member]
      simp [equal]
  · rw [List.nodup_append]
    refine ⟨orderly.nodup, List.nodup_singleton tid, ?_⟩
    rintro other member _ single rfl
    rw [List.mem_singleton] at single
    exact out (single ▸ member)
  · intro place other found
    by_cases inside : place < queue.line.length
    · rw [List.getElem?_append_left inside] at found
      have holds := (orderly.member other).mp (List.mem_of_getElem? found)
      simp only [apart other holds, ↓reduceIte]
      exact orderly.tickets place other found
    · rw [List.getElem?_append_right (Nat.le_of_not_lt inside)] at found
      obtain ⟨bound, _⟩ := List.getElem?_eq_some_iff.mp found
      have last : place = queue.line.length := by
        rw [List.length_singleton] at bound
        omega
      rw [last, Nat.sub_self, List.getElem?_cons_zero] at found
      cases found
      simp only [↓reduceIte, ticket, TicketQueue.State.ticket, last]
  · intro index absent
    have other : index ≠ (argp tid).clientId := fun same => absent tid (by simp) same.symm
    simp only [other, ↓reduceIte]
    exact orderly.zero index fun holder member => absent holder (by simp [member])
  · refine orderly.outline_update locks trivial ?_ ?_
    · intro other _ holds
      simp [apart other holds]
    · intro other _ holds index
      obtain ⟨place, _, inside, own⟩ := orderly.held holds
      by_cases same : index = (argp tid).clientId
      · right; right
        simp only [same, ↓reduceIte, ticket, own, TicketQueue.State.ticket]
        omega
      · left
        simp [same]

/-- A ticket is given up, which is the one at the front of the line. -/
theorem release {ticket : Int} (orderly : Orderly argp shared pcs queue)
    (here : pcs tid = .release ticket) :
    queue.line.head? = some tid ∧
    Orderly argp { shared with
        number := fun i => if i = (argp tid).clientId then 0 else shared.number i }
      (Function.update pcs tid (.unlockAgain ticket))
      ⟨queue.line.tail, if queue.line.tail = [] then 1 else queue.first + 1⟩ := by
  have locks : (pcs tid).locks = true := by rw [here]; rfl
  have holds : (pcs tid).holds = true := by rw [here]; rfl
  have front : queue.line.head? = some tid :=
    orderly.front holds ((orderly.outline tid).passed (by rw [here]; rfl))
  obtain ⟨rest, line⟩ : ∃ rest, queue.line = tid :: rest := List.head?_eq_some_iff.mp front
  have nodup := orderly.nodup
  rw [line] at nodup
  obtain ⟨out, nodup⟩ := List.nodup_cons.mp nodup
  have flies : (pcs tid).inFlight = true := by rw [here]; rfl
  have gone : ∀ other, other ≠ tid →
      Function.update pcs tid (.unlockAgain ticket) other = pcs other :=
    fun other different => Function.update_of_ne different ..
  refine ⟨front, orderly.owned.keep (by rw [here]; rfl), ?_, ?_, ?_, by rwa [line], ?_, ?_, ?_,
    fun empty => if_pos empty, ?_⟩
  · intro other flies
    by_cases equal : other = tid
    · subst equal
      simp [Pc.inFlight, Pc.holds, Pc.serves] at flies
    · rw [gone other equal] at flies
      exact orderly.ranged other flies
  · intro one other oneFlies otherFlies
    by_cases equal : one = tid
    · subst equal
      simp [Pc.inFlight, Pc.holds, Pc.serves] at oneFlies
    · by_cases equal' : other = tid
      · subst equal'
        simp [Pc.inFlight, Pc.holds, Pc.serves] at otherFlies
      · rw [gone one equal] at oneFlies
        rw [gone other equal'] at otherFlies
        exact orderly.distinct one other oneFlies otherFlies
  · intro other
    rw [line]
    by_cases equal : other = tid
    · subst equal
      simp [out, Pc.holds, Pc.serves]
    · rw [gone other equal, ← orderly.member, line]
      simp [equal]
  · intro place other found
    rw [line] at found
    have member : other ∈ rest := List.mem_of_getElem? found
    have different : other ≠ tid := fun same => out (same ▸ member)
    have held := (orderly.member other).mp (by rw [line]; exact List.mem_cons_of_mem _ member)
    have before := orderly.tickets (place + 1) other (by rw [line]; simpa using found)
    have more : rest ≠ [] := List.ne_nil_of_mem member
    simp only [orderly.apart flies different held, ↓reduceIte, line, List.tail_cons, more, before]
    omega
  · intro index absent
    by_cases same : index = (argp tid).clientId
    · simp [same]
    · simp only [same, ↓reduceIte]
      refine orderly.zero index fun holder member => ?_
      rw [line] at member absent
      rcases List.mem_cons.mp member with rfl | member
      · exact Ne.symm same
      · exact absent holder member
  · have positive := orderly.positive
    change 1 ≤ if queue.line.tail = [] then 1 else queue.first + 1
    split <;> omega
  · refine orderly.outline_update locks trivial ?_ ?_
    · intro other different held
      simp [orderly.apart flies different held]
    · intro other _ _ index
      by_cases same : index = (argp tid).clientId
      · right; left
        simp [same]
      · left
        simp [same]

end Orderly

end OsLabs.Bakery
