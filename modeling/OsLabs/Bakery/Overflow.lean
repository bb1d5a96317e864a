import OsLabs.Bakery.Order

/-! `max_num + 1`: the numbering starts again only when nobody holds a ticket, so
that it is bounded by the number of tickets drawn since then, and by nothing else. -/

namespace OsLabs.Bakery

variable {Tid : Type}

/-- Requests arrive with ids that are in range and not in flight. -/
def arrivals (argp : Tid → Request) (state : Threads.State Tid (Shared Tid) Pc) (tid : Tid) :
    Prop :=
  state.pcs tid = .arrive → 0 ≤ (argp tid).clientId ∧ (argp tid).clientId < MAX_CLIENTS ∧
    ∀ other, (state.pcs other).inFlight = true → (argp other).clientId ≠ (argp tid).clientId

/-- The evaluation of `max_num + 1` in `get_ticket`. -/
structure Draws (argp : Tid → Request) (state : Threads.State Tid (Shared Tid) Pc) (max : Int) :
    Prop where
  /-- The sum is an `int`. -/
  fits : -INT_MAX - 1 ≤ max + 1 ∧ max + 1 ≤ INT_MAX
  /-- The ticket is greater than every ticket that is held. -/
  greatest : ∀ other, (state.pcs other).holds = true →
    state.shared.number (argp other).clientId < int32 (max + 1)

/-- The tickets drawn since nobody held one. -/
def drawnInSpell (events : List (Event Tid)) : Nat :=
  (TicketQueue.spell (events.filterMap Event.place?)).drawn

theorem drawnInSpell_le (events : List (Event Tid)) : drawnInSpell events ≤ events.length :=
  (TicketQueue.spell_drawn_le _).trans (List.length_filterMap_le ..)

variable {argp : Tid → Request}

theorem arrivals_of_admissible {state : Threads.State Tid (Shared Tid) Pc}
    (permitted : admissible argp state tid) : arrivals argp state tid := by
  intro here
  simpa only [admissible, here] using permitted

variable [DecidableEq Tid]

/-- What holds whenever an activation draws its ticket in the course of a run: `seen`
has been shown by then. -/
def AtDraws (argp : Tid → Request) (actions : List Tid)
    (Holds : List (Event Tid) → Threads.State Tid (Shared Tid) Pc → Int → Prop) : Prop :=
  ∀ past tid rest seen state max, actions = past ++ tid :: rest →
    (threads argp).machine.Run (arrivals argp) past seen state →
    state.pcs tid = .draw max → Holds seen state max

theorem AtDraws.take {Holds : List (Event Tid) → Threads.State Tid (Shared Tid) Pc → Int → Prop}
    (draws : AtDraws argp (front ++ back) Holds) : AtDraws argp front Holds := by
  intro past tid rest seen state max parts
  exact draws past tid (rest ++ back) seen state max (by rw [parts]; simp)

/-- The greatest ticket is the number of tickets drawn since nobody held one. -/
theorem draw_of_admissible {max : Int}
    (run : (threads argp).machine.Run (admissible argp) actions events state)
    (here : state.pcs tid = .draw max) :
    max = drawnInSpell events ∧ ∀ other, (state.pcs other).holds = true →
      state.shared.number (argp other).clientId ≤ max := by
  obtain ⟨moves, shown, queue, followed, same, orderly⟩ := (refines_queue argp).run run
  rw [List.filterMap_some] at same
  subst same
  have greatest := orderly.outline tid
  rw [here] at greatest
  have ticket := orderly.drawn greatest
  have counts := (TicketQueue.Spell.Counts.ofRun followed).ticket
  refine ⟨?_, fun other holds => ?_⟩
  · rw [drawnInSpell]
    omega
  · obtain ⟨nonneg, below⟩ := orderly.ranged other (Pc.inFlight_of_holds holds)
    exact greatest.above _ nonneg below

/-- A run is admissible as long as no ticket has grown out of its range. -/
theorem admissible_of_draws
    (run : (threads argp).machine.Run (arrivals argp) actions events state)
    (draws : AtDraws argp actions fun seen _ max => max < INT_MAX ∨ drawnInSpell seen < INT_MAX) :
    (threads argp).machine.Run (admissible argp) actions events state := by
  induction run with
  | start => exact .start
  | @step actions events state tid after emitted path permitted taken ih =>
    have before := ih draws.take
    refine before.step ?_ taken
    unfold admissible
    cases here : state.pcs tid with
    | arrive => exact permitted here
    | draw max =>
      obtain ⟨counted, _⟩ := draw_of_admissible before here
      rcases draws actions tid [] events state max rfl path here with small | short
      · exact small
      · exact counted ▸ short
    | _ => trivial

/-- A run that has shown few events has not drawn many tickets either. -/
theorem short_of_length (run : (threads argp).machine.Run (arrivals argp) actions events state)
    (few : events.length < INT_MAX) :
    AtDraws argp actions (fun seen _ _ => drawnInSpell seen < INT_MAX) := by
  intro past tid rest seen middle max parts before here
  obtain ⟨early, _, late, joined, first, _⟩ := run.split parts
  obtain ⟨rfl, _⟩ := first.unique before
  have bounded := drawnInSpell_le early
  rw [joined, List.length_append] at few
  omega

/-- The arithmetic of the tickets is right exactly as long as fewer than INT_MAX of
them have been drawn since nobody held one. -/
theorem draws_iff_short (run : (threads argp).machine.Run (arrivals argp) actions events state) :
    AtDraws argp actions (fun _ state max => Draws argp state max) ↔
      AtDraws argp actions (fun seen _ _ => drawnInSpell seen < INT_MAX) := by
  constructor
  · intro draws past tid rest seen state max parts before here
    have earlier : AtDraws argp past fun seen _ max =>
        max < INT_MAX ∨ drawnInSpell seen < INT_MAX := by
      subst parts
      intro early tid late shown middle greatest inside path there
      have fits := (draws.take early tid late shown middle greatest inside path there).fits
      exact .inl (by omega)
    obtain ⟨counted, _⟩ := draw_of_admissible (admissible_of_draws before earlier) here
    have fits := (draws past tid rest seen state max parts before here).fits
    omega
  · intro short past tid rest seen state max parts before here
    have earlier : AtDraws argp past fun seen _ max =>
        max < INT_MAX ∨ drawnInSpell seen < INT_MAX := by
      subst parts
      intro early tid late shown middle greatest inside path there
      exact .inr (short.take early tid late shown middle greatest inside path there)
    obtain ⟨counted, least⟩ := draw_of_admissible (admissible_of_draws before earlier) here
    have below := short past tid rest seen state max parts before here
    have ticket : int32 (max + 1) = max + 1 := Orderly.int32_of_bounds (by omega) (by omega)
    refine ⟨⟨?_, by omega⟩, fun other holds => ?_⟩
    · unfold INT_MAX
      omega
    · have most := least other holds
      rw [ticket]
      omega

/-- Two requests that overlap. -/
theorem draws_iff_short_pair : ∃ actions events state,
    (threads pair).machine.Run (arrivals pair) actions events state ∧
    .drew false 2 ∈ events ∧ AtDraws pair actions (fun _ state max => Draws pair state max) := by
  obtain ⟨actions, shared, drawn, _⟩ := pair_drawn
  have run : (threads pair).machine.Run (arrivals pair) actions drawnEvents _ :=
    drawn.weaken fun _ _ permitted => arrivals_of_admissible permitted.1
  exact ⟨actions, _, _, run, by simp [drawnEvents],
    (draws_iff_short run).mpr (short_of_length run (by decide))⟩

/-- Requests of clients 0 and 1 in turn. -/
def relay (index : Nat) : Request :=
  ⟨(index % 2 : Nat), Vector.replicate 50 0, Vector.replicate 100 0⟩

theorem relay_ranged (index : Nat) :
    0 ≤ (relay index).clientId ∧ (relay index).clientId < MAX_CLIENTS := by
  simp only [relay, MAX_CLIENTS]
  omega

theorem relay_next (index : Nat) : (relay index).clientId ≠ (relay (index + 1)).clientId := by
  simp only [relay]
  omega

/-- A request holds the only ticket; the ones before it have been answered, the ones
after it have not arrived. -/
structure Carries (index : Nat) (shared : Shared Nat) (pcs : Nat → Pc) : Prop where
  free : shared.mutex = none
  quiet : ∀ entry, shared.choosing entry = 0
  ticket : ∀ entry,
    shared.number entry = if entry = (relay index).clientId then (index : Int) + 1 else 0
  here : pcs index = .waitChoosing (index + 1) 0
  gone : ∀ other, other ≠ index → (pcs other).inFlight = false
  coming : ∀ other, index < other → pcs other = .arrive

theorem Carries.small (carries : Carries index shared pcs) (below : (index : Int) + 1 < INT_MAX)
    (entry : Int) : shared.number entry < INT_MAX := by
  rw [carries.ticket]
  split
  · exact below
  · decide

theorem Carries.fresh (carries : Carries index shared pcs) (other : Nat)
    (flies : (pcs other).inFlight = true) :
    (relay other).clientId ≠ (relay (index + 1)).clientId := by
  by_cases same : other = index
  · subst same
    exact relay_next other
  · rw [carries.gone other same] at flies
    cases flies

/-- The greatest ticket is the one that is held. -/
theorem Carries.greatest (carries : Carries index shared pcs) {max : Int}
    (greatest : Greatest shared.number MAX_CLIENTS max) : max = index + 1 := by
  obtain ⟨nonneg, below⟩ := relay_ranged index
  have above := greatest.above _ nonneg below
  rw [carries.ticket, if_pos rfl] at above
  rcases greatest.attained with zero | ⟨entry, same⟩
  · omega
  · rw [carries.ticket] at same
    split at same <;> omega

/-- The next request draws a ticket while the first one waits, which then is served. -/
theorem Carries.next (carries : Carries index shared pcs) (below : (index : Int) + 1 < INT_MAX) :
    ∃ actions events shared' pcs',
      (threads relay).machine.Path (admissible relay) ⟨shared, pcs⟩ actions events
        ⟨shared', pcs'⟩ ∧ Carries (index + 1) shared' pcs' := by
  obtain ⟨max, drawn, greatest, draw, free, number, quiet⟩ :=
    Alone.draw relay (index + 1) pcs carries.free (relay_ranged _)
      (fun other _ flies => carries.fresh other flies) (carries.small below)
  obtain rfl := carries.greatest greatest
  obtain ⟨_, drawing⟩ := draw.path (carries.coming (index + 1) (by omega))
  let waiting : Nat → Pc :=
    Function.update pcs (index + 1) (.waitChoosing ((index : Int) + 1 + 1) 0)
  have tickets : ∀ entry, drawn.number entry =
      if entry = (relay (index + 1)).clientId then (index : Int) + 1 + 1
      else if entry = (relay index).clientId then (index : Int) + 1 else 0 := by
    intro entry
    rw [number, ← carries.ticket]
  have apart := relay_next index
  have elsewhere : ∀ other, other ≠ index + 1 → waiting other = pcs other :=
    fun other different => Function.update_of_ne different ..
  have stands : waiting index = .waitChoosing (index + 1) 0 := by
    rw [elsewhere index (by omega)]
    exact carries.here
  have clear : ∀ entry, 0 ≤ entry → entry < MAX_CLIENTS →
      Clear drawn.number (relay index).clientId entry := by
    intro entry _ _
    unfold Clear
    rw [tickets, tickets, if_neg apart, if_pos rfl]
    split_ifs <;> omega
  have wait : Alone relay index waiting drawn (.waitChoosing (index + 1) 0) [.entered index] drawn
      (.fillClient (index + 1)) :=
    .wait (fun entry _ _ => quiet entry (carries.quiet entry)) clear (by decide) _
  let full : Shared Nat := { drawn with result := filled relay index (index + 1) }
  have freed : full.mutex = none := free
  let given : Shared Nat := { full with
    number := fun i => if i = (relay index).clientId then 0 else full.number i }
  have release : Alone relay index waiting full (.lockAgain (index + 1)) [.released index] given
      (.reply (index + 1)) := Alone.release freed _
  have reply : Alone relay index waiting given (.reply (index + 1)) [.replied index given.result]
      given .finished := .step rfl rfl
  obtain ⟨_, leaving⟩ := (((wait.trans (Alone.fill _)).trans release).trans reply).path stands
  refine ⟨_, _, given, _, drawing.append leaving, ⟨free, fun entry => quiet entry
    (carries.quiet entry), fun entry => ?_, ?_, fun other different => ?_, fun other after => ?_⟩⟩
  · change (if entry = (relay index).clientId then 0 else drawn.number entry) = _
    rw [tickets]
    split_ifs with own next <;> simp_all
  · rw [Function.update_of_ne (by omega)]
    exact Function.update_self ..
  · by_cases same : other = index
    · subst same
      rw [Function.update_self]
      rfl
    · rw [Function.update_of_ne same, elsewhere other different]
      exact carries.gone other same
  · rw [Function.update_of_ne (by omega), elsewhere other (by omega)]
    exact carries.coming other (by omega)

/-- The first request draws its ticket. -/
theorem Carries.first : ∃ actions events shared pcs,
    (threads relay).machine.Run (admissible relay) actions events ⟨shared, pcs⟩ ∧
    Carries 0 shared pcs := by
  have small : ∀ entry, (threads relay).shared.number entry < INT_MAX :=
    fun _ => (by decide : (0 : Int) < INT_MAX)
  obtain ⟨max, drawn, greatest, draw, free, number, quiet⟩ :=
    Alone.draw relay 0 (fun _ => .arrive) (rfl : (threads relay).shared.mutex = none)
      (relay_ranged 0) (fun _ _ flies => by cases flies) small
  obtain rfl : max = 0 := by
    rcases greatest.attained with zero | ⟨_, zero⟩
    · exact zero
    · exact zero.symm
  obtain ⟨_, drawing⟩ := draw.path rfl
  refine ⟨_, _, drawn, _, drawing, free, fun entry => quiet entry rfl,
    fun entry => congrFun number entry, Function.update_self .., fun other different => ?_,
    fun other after => ?_⟩
  · rw [Function.update_of_ne different]
    rfl
  · exact Function.update_of_ne (by omega) ..

/-- The tickets grow as long as there is always one that is held. -/
theorem Carries.reached (index : Nat) (below : (index : Int) < INT_MAX) :
    ∃ actions events shared pcs,
      (threads relay).machine.Run (admissible relay) actions events ⟨shared, pcs⟩ ∧
      Carries index shared pcs := by
  induction index with
  | zero => exact Carries.first
  | succ index ih =>
    obtain ⟨actions, events, shared, pcs, run, carries⟩ := ih (by omega)
    obtain ⟨more, shown, shared', pcs', path, next⟩ := carries.next (by omega)
    exact ⟨_, _, shared', pcs', run.append path, next⟩

/-- Requests that always overlap use up the range of `int`. -/
theorem relay_overflows : ∃ actions events state,
    (threads relay).machine.Run (arrivals relay) actions events state ∧
    ¬ AtDraws relay actions (fun _ state max => Draws relay state max) := by
  obtain ⟨index, last⟩ : ∃ index : Nat, (index : Int) + 1 = INT_MAX := ⟨2147483646, rfl⟩
  obtain ⟨actions, events, shared, pcs, run, carries⟩ := Carries.reached index (by omega)
  obtain ⟨max, greatest, reach⟩ := Alone.reach_draw relay (index + 1) pcs carries.free
  obtain rfl := carries.greatest greatest
  have arrive : Alone relay (index + 1) pcs shared .arrive [] shared .lock :=
    .arrive (relay_ranged _) fun other _ flies => carries.fresh other flies
  obtain ⟨_, reaching⟩ := (arrive.trans reach).path (carries.coming (index + 1) (by omega))
  have before : (threads relay).machine.Run (arrivals relay) _ _ _ :=
    (run.append reaching).weaken fun _ _ permitted => arrivals_of_admissible permitted
  have here : Function.update pcs (index + 1) (.draw ((index : Int) + 1)) (index + 1) =
      .draw ((index : Int) + 1) := Function.update_self ..
  obtain ⟨⟨shared', pc, shown⟩, drawing⟩ : ∃ after,
      (threads relay).step (index + 1) (chosen relay (index + 1) shared)
        (Function.update pcs (index + 1) (.draw ((index : Int) + 1)) (index + 1)) = some after := by
    rw [here]
    exact ⟨_, rfl⟩
  refine ⟨_, _, _, before.step (fun arrives => ?_) (Threads.next_step drawing), fun draws => ?_⟩
  · have clash : Pc.draw ((index : Int) + 1) = .arrive := here.symm.trans arrives
    cases clash
  · have fits := (draws _ (index + 1) [] _ _ _ rfl before here).fits
    omega

end OsLabs.Bakery
