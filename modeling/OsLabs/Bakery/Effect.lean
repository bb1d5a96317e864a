import OsLabs.Bakery.Server

/-! What one step of an activation does. The invariants are proved from this, so
that none of them has to unfold the step. -/

namespace OsLabs.Bakery

variable {Tid : Type}

/-- The scan in `get_ticket` goes on at an index, or ends. -/
inductive ScanNext (max : Int) (i : Nat) : Pc → Prop where
  | again (more : i < MAX_CLIENTS) : ScanNext max i (.scan i max)
  | done (all : MAX_CLIENTS ≤ i) : ScanNext max i (.draw max)

/-- The loop of `wait_for_turn` goes on at an index, or the function returns. -/
inductive WaitNext (tid : Tid) (ticket : Int) (i : Nat) : Pc → List (Event Tid) → Prop where
  | again (more : i < MAX_CLIENTS) : WaitNext tid ticket i (.waitChoosing ticket i) []
  | done (all : MAX_CLIENTS ≤ i) : WaitNext tid ticket i (.fillClient ticket) [.entered tid]

inductive Effect (request : Request) (tid : Tid) (shared : Shared Tid) :
    Pc → Shared Tid → Pc → List (Event Tid) → Prop where
  | arrive : Effect request tid shared .arrive shared .lock []
  | lock (free : shared.mutex = none) :
    Effect request tid shared .lock { shared with mutex := some tid } .setChoosing [.locked tid]
  | setChoosing :
    Effect request tid shared .setChoosing
      { shared with choosing := fun i => if i = request.clientId then 1 else shared.choosing i }
      (.scan 0 0) []
  | greater (i : Nat) {max : Int} (more : max < shared.number i) :
    Effect request tid shared (.scan i max) shared (.scanTake i) []
  | notGreater {i : Nat} {max : Int} (less : shared.number i ≤ max)
      (next : ScanNext max (i + 1) pc) : Effect request tid shared (.scan i max) shared pc []
  | scanTake {i : Nat} (next : ScanNext (shared.number i) (i + 1) pc) :
    Effect request tid shared (.scanTake i) shared pc []
  | draw (max : Int) :
    Effect request tid shared (.draw max)
      { shared with
        number := fun i => if i = request.clientId then int32 (max + 1) else shared.number i }
      .clearChoosing [.drew tid (int32 (max + 1))]
  | clearChoosing :
    Effect request tid shared .clearChoosing
      { shared with choosing := fun i => if i = request.clientId then 0 else shared.choosing i }
      .unlock []
  | unlock :
    Effect request tid shared .unlock { shared with mutex := none } .reread [.unlocked tid]
  | reread :
    Effect request tid shared .reread shared (.waitChoosing (shared.number request.clientId) 0)
      [.returned tid (shared.number request.clientId)]
  | choosing (ticket : Int) {i : Nat} (set : shared.choosing i ≠ 0) :
    Effect request tid shared (.waitChoosing ticket i) shared (.waitChoosing ticket i) []
  | notChoosing (ticket : Int) {i : Nat} (clear : shared.choosing i = 0) :
    Effect request tid shared (.waitChoosing ticket i) shared (.waitNonzero ticket i) []
  | nonzero (ticket : Int) {i : Nat} (taken : shared.number i ≠ 0) :
    Effect request tid shared (.waitNonzero ticket i) shared (.waitLess ticket i) []
  | zero {ticket : Int} {i : Nat} (none : shared.number i = 0)
      (next : WaitNext tid ticket (i + 1) pc emitted) :
    Effect request tid shared (.waitNonzero ticket i) shared pc emitted
  | waitLess (ticket : Int) (i : Nat) :
    Effect request tid shared (.waitLess ticket i) shared
      (.waitLessOwn ticket i (shared.number i)) []
  | less (ticket : Int) (i : Nat) {value : Int} (before : value < shared.number request.clientId) :
    Effect request tid shared (.waitLessOwn ticket i value) shared (.waitNonzero ticket i) []
  | notLess (ticket : Int) (i : Nat) {value : Int}
      (behind : shared.number request.clientId ≤ value) :
    Effect request tid shared (.waitLessOwn ticket i value) shared (.waitEqual ticket i) []
  | waitEqual (ticket : Int) (i : Nat) :
    Effect request tid shared (.waitEqual ticket i) shared
      (.waitEqualOwn ticket i (shared.number i)) []
  | equal (ticket : Int) {i : Nat} {value : Int}
      (before : value = shared.number request.clientId ∧ i < request.clientId) :
    Effect request tid shared (.waitEqualOwn ticket i value) shared (.waitNonzero ticket i) []
  | notEqual {ticket : Int} {i : Nat} {value : Int}
      (behind : ¬ (value = shared.number request.clientId ∧ i < request.clientId))
      (next : WaitNext tid ticket (i + 1) pc emitted) :
    Effect request tid shared (.waitEqualOwn ticket i value) shared pc emitted
  | fillClient (ticket : Int) :
    Effect request tid shared (.fillClient ticket)
      { shared with result := { shared.result with clientId := request.clientId } }
      (.fillTicket ticket) []
  | fillTicket (ticket : Int) :
    Effect request tid shared (.fillTicket ticket)
      { shared with result := { shared.result with ticketNumber := ticket } }
      (.fillPosition ticket) []
  | fillPosition (ticket : Int) :
    Effect request tid shared (.fillPosition ticket)
      { shared with result := { shared.result with queuePosition := ticket } }
      (.fillStatus ticket) []
  | fillStatus (ticket : Int) :
    Effect request tid shared (.fillStatus ticket)
      { shared with
        result := { shared.result with status := snprintf 200 (message request ticket) } }
      (.lockAgain ticket) []
  | lockAgain (ticket : Int) (free : shared.mutex = none) :
    Effect request tid shared (.lockAgain ticket) { shared with mutex := some tid }
      (.release ticket) []
  | release (ticket : Int) :
    Effect request tid shared (.release ticket)
      { shared with number := fun i => if i = request.clientId then 0 else shared.number i }
      (.unlockAgain ticket) [.released tid]
  | unlockAgain (ticket : Int) :
    Effect request tid shared (.unlockAgain ticket) { shared with mutex := none }
      (.reply ticket) []
  | reply (ticket : Int) :
    Effect request tid shared (.reply ticket) shared .finished [.replied tid shared.result]

theorem scanNext_scanFrom (max : Int) (i : Nat) : ScanNext max i (.scanFrom i max) := by
  by_cases more : i < MAX_CLIENTS
  · rw [Pc.scanFrom, if_pos more]
    exact .again more
  · rw [Pc.scanFrom, if_neg more]
    exact .done (Nat.le_of_not_lt more)

theorem waitNext_waitFrom (tid : Tid) (ticket : Int) (i : Nat) :
    WaitNext tid ticket i (waitFrom tid ticket i).1 (waitFrom tid ticket i).2 := by
  by_cases more : i < MAX_CLIENTS
  · rw [waitFrom, if_pos more]
    exact .again more
  · rw [waitFrom, if_neg more]
    exact .done (Nat.le_of_not_lt more)

variable {argp : Tid → Request} {tid : Tid} {shared shared' : Shared Tid} {pc pc' : Pc}
variable {emitted : List (Event Tid)}

theorem step_effect (stepped : step argp tid shared pc = some (shared', pc', emitted)) :
    Effect (argp tid) tid shared pc shared' pc' emitted := by
  cases pc with
  | lock =>
    simp only [step] at stepped
    split at stepped
    · obtain ⟨rfl, rfl, rfl⟩ : _ ∧ _ ∧ _ := by simpa using stepped
      exact .lock ‹_›
    · cases stepped
  | lockAgain ticket =>
    simp only [step] at stepped
    split at stepped
    · obtain ⟨rfl, rfl, rfl⟩ : _ ∧ _ ∧ _ := by simpa using stepped
      exact .lockAgain ticket ‹_›
    · cases stepped
  | scan i max =>
    obtain ⟨rfl, rfl, rfl⟩ : _ ∧ _ ∧ _ := by simpa [step] using stepped
    by_cases more : max < shared.number i
    · rw [if_pos more]
      exact .greater i more
    · rw [if_neg more]
      exact .notGreater (Int.not_lt.mp more) (scanNext_scanFrom ..)
  | scanTake i =>
    obtain ⟨rfl, rfl, rfl⟩ : _ ∧ _ ∧ _ := by simpa [step] using stepped
    exact .scanTake (scanNext_scanFrom ..)
  | waitChoosing ticket i =>
    obtain ⟨rfl, rfl, rfl⟩ : _ ∧ _ ∧ _ := by simpa only [step, Option.some.injEq,
      Prod.mk.injEq] using stepped
    by_cases set : shared.choosing i ≠ 0
    · rw [if_pos set]
      exact .choosing ticket set
    · rw [if_neg set]
      exact .notChoosing ticket (not_not.mp set)
  | waitNonzero ticket i =>
    by_cases taken : shared.number i ≠ 0
    · simp only [step, if_pos taken, Option.some.injEq, Prod.mk.injEq] at stepped
      obtain ⟨rfl, rfl, rfl⟩ := stepped
      exact .nonzero ticket taken
    · simp only [step, if_neg taken, Option.some.injEq, Prod.mk.injEq] at stepped
      obtain ⟨rfl, same⟩ := stepped
      have next := waitNext_waitFrom tid ticket (i + 1)
      rw [same] at next
      exact .zero (not_not.mp taken) next
  | waitLessOwn ticket i value =>
    obtain ⟨rfl, rfl, rfl⟩ : _ ∧ _ ∧ _ := by simpa [step] using stepped
    by_cases before : value < shared.number (argp tid).clientId
    · rw [if_pos before]
      exact .less ticket i before
    · rw [if_neg before]
      exact .notLess ticket i (Int.not_lt.mp before)
  | waitEqualOwn ticket i value =>
    by_cases before : value = shared.number (argp tid).clientId ∧ i < (argp tid).clientId
    · simp only [step, if_pos before, Option.some.injEq, Prod.mk.injEq] at stepped
      obtain ⟨rfl, rfl, rfl⟩ := stepped
      exact .equal ticket before
    · simp only [step, if_neg before, Option.some.injEq, Prod.mk.injEq] at stepped
      obtain ⟨rfl, same⟩ := stepped
      have next := waitNext_waitFrom tid ticket (i + 1)
      rw [same] at next
      exact .notEqual before next
  | arrive | setChoosing | draw max | clearChoosing | unlock | reread | waitLess ticket i
  | waitEqual ticket i | fillClient ticket | fillTicket ticket | fillPosition ticket
  | fillStatus ticket | release ticket | unlockAgain ticket | reply ticket =>
    obtain ⟨rfl, rfl, rfl⟩ : _ ∧ _ ∧ _ := by simpa [step] using stepped
    constructor
  | finished => cases stepped

end OsLabs.Bakery
