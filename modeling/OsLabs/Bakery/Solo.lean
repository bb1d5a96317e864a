import OsLabs.Bakery.Invariant

/-! How far an activation gets while the others stand still: through the draw of
its ticket, through the waiting loop when no ticket is before its own, and
through its service. -/

namespace OsLabs.Bakery

variable {Tid : Type} [DecidableEq Tid] {argp : Tid → Request} {tid : Tid}
variable {pcs : Tid → Pc} {shared shared' : Shared Tid}

/-- Nothing but the arrival of a request and the draw of a ticket is restricted. -/
def Pc.restricted : Pc → Bool
  | .arrive | .draw _ => true
  | _ => false

omit [DecidableEq Tid] in
theorem admissible_of_not_restricted {state : Threads.State Tid (Shared Tid) Pc}
    (free : (state.pcs tid).restricted = false) : admissible argp state tid := by
  unfold admissible
  cases here : state.pcs tid with
  | arrive | draw _ =>
    rw [here] at free
    cases free
  | _ => trivial

/-- An activation moves alone among admissible runs. -/
abbrev Alone (argp : Tid → Request) (tid : Tid) (pcs : Tid → Pc) :=
  (threads argp).Solo (admissible argp) tid pcs

theorem Alone.step {pc pc' : Pc} (free : pc.restricted = false)
    (stepped : Bakery.step argp tid shared pc = some (shared', pc', emitted)) :
    Alone argp tid pcs shared pc emitted shared' pc' :=
  .single (admissible_of_not_restricted (by simpa using free)) stepped

/-- The scan of `get_ticket` finds the greatest ticket. -/
theorem Alone.scan {max : Int} (greatest : Greatest shared.number i max)
    (inside : i ≤ MAX_CLIENTS) :
    ∃ max', Greatest shared.number MAX_CLIENTS max' ∧
      Alone argp tid pcs shared (.scanFrom i max) [] shared (.draw max') := by
  induction left : MAX_CLIENTS - i generalizing i max with
  | zero =>
    have all : i = MAX_CLIENTS := by omega
    subst all
    refine ⟨max, greatest, ?_⟩
    rw [Pc.scanFrom, if_neg (Nat.lt_irrefl _)]
    exact .refl
  | succ left ih =>
    have more : i < MAX_CLIENTS := by omega
    rw [Pc.scanFrom, if_pos more]
    by_cases bigger : shared.number i > max
    · obtain ⟨max', found, rest⟩ := ih (greatest.take bigger) more (by omega)
      have test : Alone argp tid pcs shared (.scan i max) [] shared (.scanTake i) :=
        .step rfl (by simp [Bakery.step, bigger])
      have take : Alone argp tid pcs shared (.scanTake i) [] shared
          (.scanFrom (i + 1) (shared.number i)) := .step rfl rfl
      exact ⟨max', found, (test.trans take).trans rest⟩
    · obtain ⟨max', found, rest⟩ := ih (greatest.keep (Int.not_lt.mp bigger)) more (by omega)
      have test : Alone argp tid pcs shared (.scan i max) [] shared (.scanFrom (i + 1) max) :=
        .step rfl (by simp [Bakery.step, bigger])
      exact ⟨max', found, test.trans rest⟩

/-- The waiting loop does not stop at an entry that is no ticket before the own
one. -/
def Clear (number : Int → Int) (client : Int) (i : Nat) : Prop :=
  number i = 0 ∨ (number client ≤ number i ∧ ¬ (number i = number client ∧ i < client))

/-- One round of the waiting loop. -/
theorem Alone.round {i : Nat} (quiet : shared.choosing i = 0)
    (clear : Clear shared.number (argp tid).clientId i) (ticket : Int) :
    Alone argp tid pcs shared (.waitChoosing ticket i) (waitFrom tid ticket (i + 1)).2 shared
      (waitFrom tid ticket (i + 1)).1 := by
  have choosing : Alone argp tid pcs shared (.waitChoosing ticket i) [] shared
      (.waitNonzero ticket i) := .step rfl (by simp [Bakery.step, quiet])
  by_cases none : shared.number i = 0
  · have skip : Alone argp tid pcs shared (.waitNonzero ticket i) (waitFrom tid ticket (i + 1)).2
        shared (waitFrom tid ticket (i + 1)).1 := .step rfl (by simp [Bakery.step, none])
    exact choosing.trans skip
  · obtain ⟨behind, distinct⟩ := clear.resolve_left none
    have taken : Alone argp tid pcs shared (.waitNonzero ticket i) [] shared
        (.waitLess ticket i) := .step rfl (by simp [Bakery.step, none])
    have load : Alone argp tid pcs shared (.waitLess ticket i) [] shared
        (.waitLessOwn ticket i (shared.number i)) := .step rfl rfl
    have less : Alone argp tid pcs shared (.waitLessOwn ticket i (shared.number i)) [] shared
        (.waitEqual ticket i) := .step rfl (by simp [Bakery.step, Int.not_lt.mpr behind])
    have again : Alone argp tid pcs shared (.waitEqual ticket i) [] shared
        (.waitEqualOwn ticket i (shared.number i)) := .step rfl rfl
    have pass : Alone argp tid pcs shared (.waitEqualOwn ticket i (shared.number i))
        (waitFrom tid ticket (i + 1)).2 shared (waitFrom tid ticket (i + 1)).1 :=
      .step rfl (by simp only [Bakery.step, if_neg distinct])
    exact ((((choosing.trans taken).trans load).trans less).trans again).trans pass

/-- The waiting loop ends when no ticket is before the own one. -/
theorem Alone.wait {i : Nat} (quiet : ∀ j : Nat, i ≤ j → j < MAX_CLIENTS → shared.choosing j = 0)
    (clear : ∀ j, i ≤ j → j < MAX_CLIENTS → Clear shared.number (argp tid).clientId j)
    (inside : i < MAX_CLIENTS) (ticket : Int) :
    Alone argp tid pcs shared (.waitChoosing ticket i) [.entered tid] shared
      (.fillClient ticket) := by
  induction left : MAX_CLIENTS - i generalizing i with
  | zero => omega
  | succ left ih =>
    have round : Alone argp tid pcs shared (.waitChoosing ticket i)
        (waitFrom tid ticket (i + 1)).2 shared (waitFrom tid ticket (i + 1)).1 :=
      .round (quiet i (Nat.le_refl i) inside) (clear i (Nat.le_refl i) inside) ticket
    by_cases more : i + 1 < MAX_CLIENTS
    · rw [waitFrom, if_pos more] at round
      have rest := ih (fun j after => quiet j (by omega)) (fun j after => clear j (by omega)) more
        (by omega)
      exact round.trans rest
    · rwa [waitFrom, if_neg more] at round

/-- What an activation that holds the mutex alone has done before its draw. -/
def chosen (argp : Tid → Request) (tid : Tid) (shared : Shared Tid) : Shared Tid :=
  { shared with
    choosing := fun i => if i = (argp tid).clientId then 1 else shared.choosing i
    mutex := some tid }

/-- An activation gets to its draw while nobody else has the mutex. -/
theorem Alone.reach_draw (argp : Tid → Request) (tid : Tid) (pcs : Tid → Pc)
    (free : shared.mutex = none) :
    ∃ max, Greatest shared.number MAX_CLIENTS max ∧
      Alone argp tid pcs shared .lock [.locked tid] (chosen argp tid shared) (.draw max) := by
  let locked : Shared Tid := { shared with mutex := some tid }
  obtain ⟨max, greatest, scan⟩ : ∃ max,
      Greatest (chosen argp tid shared).number MAX_CLIENTS max ∧
      Alone argp tid pcs (chosen argp tid shared) (.scanFrom 0 0) [] (chosen argp tid shared)
        (.draw max) :=
    Alone.scan (.zero _) (Nat.zero_le _)
  have lock : Alone argp tid pcs shared .lock [.locked tid] locked .setChoosing :=
    .step rfl (by simp only [Bakery.step, free]; rfl)
  have set : Alone argp tid pcs locked .setChoosing [] (chosen argp tid shared) (.scanFrom 0 0) :=
    .step rfl rfl
  exact ⟨max, greatest, (lock.trans set).trans scan⟩

/-- An activation draws its ticket while nobody else has the mutex. -/
theorem Alone.draw_of_lock (argp : Tid → Request) (tid : Tid) (pcs : Tid → Pc)
    (free : shared.mutex = none) (small : ∀ index, shared.number index < INT_MAX) :
    ∃ max shared', Greatest shared.number MAX_CLIENTS max ∧
      Alone argp tid pcs shared .lock
        [.locked tid, .drew tid (max + 1), .unlocked tid, .returned tid (max + 1)] shared'
        (.waitChoosing (max + 1) 0) ∧
      shared'.mutex = none ∧
      shared'.number = (fun i => if i = (argp tid).clientId then max + 1 else shared.number i) ∧
      (∀ i, shared.choosing i = 0 → shared'.choosing i = 0) := by
  obtain ⟨max, greatest, reach⟩ := Alone.reach_draw argp tid pcs free
  have below : max < INT_MAX := by
    rcases greatest.attained with rfl | ⟨index, rfl⟩
    · decide
    · exact small index
  have nonneg := greatest.nonneg
  have ticket : int32 (max + 1) = max + 1 :=
    Orderly.int32_of_bounds (by omega) (by omega)
  let drawn : Shared Tid := { chosen argp tid shared with
    number := fun i => if i = (argp tid).clientId then max + 1 else shared.number i }
  let cleared : Shared Tid := { drawn with
    choosing := fun i => if i = (argp tid).clientId then 0 else drawn.choosing i }
  let unlocked : Shared Tid := { cleared with mutex := none }
  have draw : Alone argp tid pcs (chosen argp tid shared) (.draw max) [.drew tid (max + 1)] drawn
      .clearChoosing := by
    refine .single ?_ ?_
    · simpa only [admissible, Function.update_self] using below
    · change Bakery.step argp tid (chosen argp tid shared) (.draw max) = _
      simp only [Bakery.step, ticket]
      rfl
  have clear : Alone argp tid pcs drawn .clearChoosing [] cleared .unlock := .step rfl rfl
  have unlock : Alone argp tid pcs cleared .unlock [.unlocked tid] unlocked .reread :=
    .step rfl rfl
  have reread : Alone argp tid pcs unlocked .reread [.returned tid (max + 1)] unlocked
      (.waitChoosing (max + 1) 0) := by
    refine .step rfl ?_
    have own : unlocked.number (argp tid).clientId = max + 1 := if_pos rfl
    have first : 0 < MAX_CLIENTS := by decide
    simp only [Bakery.step, own, waitFrom, if_pos first]
  refine ⟨max, unlocked, greatest, ?_, rfl, rfl, fun i quiet => ?_⟩
  · exact (((reach.trans draw).trans clear).trans unlock).trans reread
  · change (if i = (argp tid).clientId then 0
      else if i = (argp tid).clientId then 1 else shared.choosing i) = 0
    split
    · rfl
    · exact quiet

/-- A request arrives. -/
theorem Alone.arrive (ranged : 0 ≤ (argp tid).clientId ∧ (argp tid).clientId < MAX_CLIENTS)
    (fresh : ∀ other, other ≠ tid → (pcs other).inFlight = true →
      (argp other).clientId ≠ (argp tid).clientId) :
    Alone argp tid pcs shared .arrive [] shared .lock := by
  refine .single ?_ rfl
  simp only [admissible, Function.update_self]
  refine ⟨ranged.1, ranged.2, fun other flies => ?_⟩
  by_cases same : other = tid
  · subst same
    simp [Pc.inFlight, Pc.holds, Pc.serves] at flies
  · rw [Function.update_of_ne same] at flies
    exact fresh other same flies

/-- A request arrives and draws its ticket while nobody else has the mutex. -/
theorem Alone.draw (argp : Tid → Request) (tid : Tid) (pcs : Tid → Pc) (free : shared.mutex = none)
    (ranged : 0 ≤ (argp tid).clientId ∧ (argp tid).clientId < MAX_CLIENTS)
    (fresh : ∀ other, other ≠ tid → (pcs other).inFlight = true →
      (argp other).clientId ≠ (argp tid).clientId)
    (small : ∀ index, shared.number index < INT_MAX) :
    ∃ max shared', Greatest shared.number MAX_CLIENTS max ∧
      Alone argp tid pcs shared .arrive
        [.locked tid, .drew tid (max + 1), .unlocked tid, .returned tid (max + 1)] shared'
        (.waitChoosing (max + 1) 0) ∧
      shared'.mutex = none ∧
      shared'.number = (fun i => if i = (argp tid).clientId then max + 1 else shared.number i) ∧
      (∀ i, shared.choosing i = 0 → shared'.choosing i = 0) := by
  have arrive : Alone argp tid pcs shared .arrive [] shared .lock := .arrive ranged fresh
  obtain ⟨max, shared', greatest, draw, rest⟩ := Alone.draw_of_lock argp tid pcs free small
  exact ⟨max, shared', greatest, arrive.trans draw, rest⟩

/-- What an activation leaves in the static result. -/
def filled (argp : Tid → Request) (tid : Tid) (ticket : Int) : Response :=
  ⟨(argp tid).clientId, ticket, ticket, snprintf 200 (message (argp tid) ticket)⟩

/-- An activation that is being served fills in the result. -/
theorem Alone.fill (ticket : Int) :
    Alone argp tid pcs shared (.fillClient ticket) []
      { shared with result := filled argp tid ticket } (.lockAgain ticket) := by
  have client : Alone argp tid pcs shared (.fillClient ticket) []
      { shared with result := { shared.result with clientId := (argp tid).clientId } }
      (.fillTicket ticket) := .step rfl rfl
  exact ((client.trans (Alone.step rfl rfl)).trans (Alone.step rfl rfl)).trans (Alone.step rfl rfl)

/-- Then it gives up its ticket. -/
theorem Alone.release (free : shared.mutex = none) (ticket : Int) :
    Alone argp tid pcs shared (.lockAgain ticket) [.released tid]
      { shared with number := fun i => if i = (argp tid).clientId then 0 else shared.number i }
      (.reply ticket) := by
  obtain ⟨choosing, number, mutex, result⟩ := shared
  cases free
  have lock : Alone argp tid pcs ⟨choosing, number, none, result⟩ (.lockAgain ticket) []
      ⟨choosing, number, some tid, result⟩ (.release ticket) := .step rfl rfl
  exact (lock.trans (Alone.step rfl rfl)).trans (Alone.step rfl rfl)

/-- Nobody holds a ticket or is drawing one. -/
structure Idle (shared : Shared Tid) : Prop where
  free : shared.mutex = none
  number : ∀ index, shared.number index = 0
  choosing : ∀ index, shared.choosing index = 0

/-- A request that finds nobody in the shop is served at once, with ticket 1. -/
theorem Alone.service (argp : Tid → Request) (tid : Tid) (pcs : Tid → Pc) (idle : Idle shared)
    (ranged : 0 ≤ (argp tid).clientId ∧ (argp tid).clientId < MAX_CLIENTS)
    (fresh : ∀ other, other ≠ tid → (pcs other).inFlight = true →
      (argp other).clientId ≠ (argp tid).clientId) :
    ∃ shared', Idle shared' ∧ Alone argp tid pcs shared .arrive
      [.locked tid, .drew tid 1, .unlocked tid, .returned tid 1, .entered tid, .released tid,
        .replied tid (filled argp tid 1)] shared' .finished := by
  have small : ∀ index, shared.number index < INT_MAX := by
    intro index
    rw [idle.number]
    decide
  obtain ⟨max, shared₁, greatest, draw, free, number, quiet⟩ :=
    Alone.draw argp tid pcs idle.free ranged fresh small
  obtain rfl : max = 0 := by
    rcases greatest.attained with zero | ⟨index, same⟩
    · exact zero
    · rw [← same, idle.number]
  have choosing : ∀ index, shared₁.choosing index = 0 :=
    fun index => quiet index (idle.choosing index)
  have tickets : ∀ index, shared₁.number index = if index = (argp tid).clientId then 1 else 0 := by
    intro index
    rw [number]
    simp [idle.number]
  have clear : ∀ j, 0 ≤ j → j < MAX_CLIENTS →
      Clear shared₁.number (argp tid).clientId j := by
    intro j _ _
    simp only [Clear, tickets]
    grind
  have wait : Alone argp tid pcs shared₁ (.waitChoosing 1 0) [.entered tid] shared₁
      (.fillClient 1) := .wait (fun j _ _ => choosing j) clear (by decide) 1
  let shared₂ : Shared Tid := { shared₁ with result := filled argp tid 1 }
  have freed : shared₂.mutex = none := free
  let shared₃ : Shared Tid := { shared₂ with
    number := fun i => if i = (argp tid).clientId then 0 else shared₂.number i }
  have release : Alone argp tid pcs shared₂ (.lockAgain 1) [.released tid] shared₃ (.reply 1) :=
    Alone.release freed 1
  have reply : Alone argp tid pcs shared₃ (.reply 1) [.replied tid (filled argp tid 1)] shared₃
      .finished := .step rfl rfl
  refine ⟨shared₃, ⟨free, fun index => ?_, choosing⟩, ?_⟩
  · change (if index = (argp tid).clientId then 0 else shared₁.number index) = 0
    rw [tickets]
    split <;> rfl
  · exact (((draw.trans wait).trans (Alone.fill 1)).trans release).trans reply

/-- Two requests, of clients 0 and 1. -/
def pair : Bool → Request
  | true => ⟨0, Vector.replicate 50 0, Vector.replicate 100 0⟩
  | false => ⟨1, Vector.replicate 50 0, Vector.replicate 100 0⟩

/-- Everybody else has yet to come, or waits for its turn with the first ticket. -/
def apart (state : Threads.State Bool (Shared Bool) Pc) (tid : Bool) : Prop :=
  admissible pair state tid ∧
    ∀ other, other ≠ tid → state.pcs other = .arrive ∨ state.pcs other = .waitChoosing 1 0

/-- The tickets of both requests are drawn, and nobody is at it. -/
structure PairDrawn (shared : Shared Bool) : Prop where
  free : shared.mutex = none
  choosing : ∀ index, shared.choosing index = 0
  number : ∀ index, shared.number index = if index = 1 then 2 else if index = 0 then 1 else 0

def drawnPcs : Bool → Pc :=
  Function.update (Function.update (fun _ => .arrive) true (.waitChoosing 1 0)) false
    (.waitChoosing 2 0)

def drawnEvents : List (Event Bool) :=
  [.locked true, .drew true 1, .unlocked true, .returned true 1,
    .locked false, .drew false 2, .unlocked false, .returned false 2]

/-- Both requests draw their tickets, one after the other. -/
theorem pair_drawn : ∃ actions shared,
    (threads pair).machine.Run apart actions drawnEvents ⟨shared, drawnPcs⟩ ∧
    PairDrawn shared := by
  have start : ∀ index, (threads pair).shared.number index < INT_MAX :=
    fun _ => (by decide : (0 : Int) < INT_MAX)
  obtain ⟨max, shared₁, greatest, draw, free₁, number₁, quiet₁⟩ :=
    Alone.draw pair true (fun _ => .arrive) (rfl : (threads pair).shared.mutex = none) (by decide)
      (fun _ _ flies => by cases flies) start
  obtain rfl : max = 0 := by
    rcases greatest.attained with zero | ⟨_, zero⟩
    · exact zero
    · exact zero.symm
  have apart₁ : ∀ shared pc,
      admissible pair ⟨shared, Function.update (fun _ => .arrive) true pc⟩ true →
      apart ⟨shared, Function.update (fun _ => .arrive) true pc⟩ true := by
    refine fun shared pc permitted => ⟨permitted, fun other different => ?_⟩
    cases other
    · exact .inl rfl
    · exact absurd rfl different
  obtain ⟨actions₁, path₁⟩ := (draw.strengthen apart₁).path rfl
  let pcs₁ : Bool → Pc := Function.update (fun _ => .arrive) true (.waitChoosing 1 0)
  have fresh : ∀ other, other ≠ false → (pcs₁ other).inFlight = true →
      (pair other).clientId ≠ (pair false).clientId := by
    intro other different _
    cases other
    · exact absurd rfl different
    · decide
  have tickets : ∀ index, shared₁.number index = if index = 0 then 1 else 0 :=
    fun index => congrFun number₁ index
  have small : ∀ index, shared₁.number index < INT_MAX := by
    intro index
    rw [tickets]
    split <;> decide
  obtain ⟨max, shared₂, greatest, draw, free₂, number₂, quiet₂⟩ :=
    Alone.draw pair false pcs₁ free₁ (by decide) fresh small
  obtain rfl : max = 1 := by
    have above := greatest.above 0 (by decide) (by decide)
    rw [tickets, if_pos rfl] at above
    rcases greatest.attained with zero | ⟨index, same⟩
    · omega
    · rw [tickets] at same
      split at same <;> omega
  have apart₂ : ∀ shared pc, admissible pair ⟨shared, Function.update pcs₁ false pc⟩ false →
      apart ⟨shared, Function.update pcs₁ false pc⟩ false := by
    refine fun shared pc permitted => ⟨permitted, fun other different => ?_⟩
    cases other
    · exact absurd rfl different
    · exact .inr rfl
  obtain ⟨actions₂, path₂⟩ := (draw.strengthen apart₂).path rfl
  refine ⟨_, shared₂, path₁.append path₂, free₂, fun index => quiet₂ index (quiet₁ index rfl),
    fun index => ?_⟩
  rw [← tickets]
  exact congrFun number₂ index

/-- What the first of them leaves when it has given up its ticket. -/
def firstServed (shared : Shared Bool) : Shared Bool :=
  { shared with
    result := filled pair true 1
    number := fun i => if i = (pair true).clientId then 0 else shared.number i }

theorem PairDrawn.first {shared : Shared Bool} (drawn : PairDrawn shared)
    (pcs : Bool → Pc) :
    Alone pair true pcs shared (.waitChoosing 1 0) [.entered true, .released true]
      (firstServed shared) (.reply 1) := by
  have clear : ∀ j, 0 ≤ j → j < MAX_CLIENTS → Clear shared.number (pair true).clientId j := by
    intro j _ _
    change Clear shared.number 0 j
    simp only [Clear, drawn.number]
    omega
  have wait : Alone pair true pcs shared (.waitChoosing 1 0) [.entered true] shared
      (.fillClient 1) := .wait (fun j _ _ => drawn.choosing j) clear (by decide) 1
  let full : Shared Bool := { shared with result := filled pair true 1 }
  have freed : full.mutex = none := drawn.free
  have release : Alone pair true pcs full (.lockAgain 1) [.released true] (firstServed shared)
      (.reply 1) := Alone.release freed 1
  exact (wait.trans (Alone.fill 1)).trans release

/-- Then it is the turn of the other one. -/
theorem PairDrawn.second {shared : Shared Bool} (drawn : PairDrawn shared)
    (pcs : Bool → Pc) :
    Alone pair false pcs (firstServed shared) (.waitChoosing 2 0) [.entered false]
      (firstServed shared) (.fillClient 2) := by
  have first : 0 < MAX_CLIENTS := by decide
  have quiet : ∀ j : Nat, 0 ≤ j → j < MAX_CLIENTS → (firstServed shared).choosing j = 0 :=
    fun j _ _ => drawn.choosing j
  refine .wait quiet (fun j _ _ => ?_) first 2
  change Clear (fun i => if i = 0 then 0 else shared.number i) 1 j
  simp only [Clear, drawn.number]
  omega

/-- What the two activations of the next run have shown. -/
def overlapEvents : List (Event Bool) :=
  drawnEvents ++ [.entered true, .released true, .entered false]

/-- The first request is served and gives up its ticket, but has not replied yet
when the second is about to be served. -/
theorem overlap : ∃ actions shared pcs, (threads pair).machine.Run (admissible pair) actions
    overlapEvents ⟨shared, pcs⟩ ∧ pcs true = .reply 1 ∧ pcs false = .fillClient 2 := by
  obtain ⟨actions, shared, run, drawn⟩ := pair_drawn
  obtain ⟨_, leaving⟩ := (drawn.first drawnPcs).path rfl
  obtain ⟨_, entering⟩ := (drawn.second (Function.update drawnPcs true (.reply 1))).path rfl
  exact ⟨_, firstServed shared, _,
    ((run.weaken fun _ _ permitted => permitted.1).append leaving).append entering, rfl, rfl⟩

end OsLabs.Bakery
