import OsLabs.Lab03.Storage
import OsLabs.Machine.Tally

/-! The account of tokens, mutex and items that both buffer programs keep. A
program is seen through the stage that each child has reached; killed children
are counted at the stage where they were killed. -/

namespace OsLabs.Lab03

/-- `reserved` has the token but not yet the mutex, `closing` has ended its
section, `paying` has given the mutex back but not yet a token. -/
inductive Stage where
  | idle
  | reserved
  | inside (point : Section)
  | closing
  | paying

namespace Stage

/-- The child has the mutex. -/
def critical : Stage → Bool
  | .inside _ | .closing => true
  | .idle | .reserved | .paying => false

/-- The child has a token. -/
def holding : Stage → Bool
  | .idle => false
  | .reserved | .inside _ | .closing | .paying => true

/-- The child owns one unread item that FULL does not count. -/
def claims (role : Role) : Stage → Bool
  | .idle => false
  | .reserved => decide (role = .consumer)
  | .inside point => point.claims
  | .closing | .paying => decide (role = .producer)

/-- What holds of the storage while a child is at a stage. -/
def Outline (role : Role) (channel : Channel.State) (storage : Storage) : Stage → Prop
  | .inside point => point.role = role ∧ point.Outline channel storage
  | .closing => Settled channel storage
  | .idle | .reserved | .paying => True

/-- Only the child in the section looks at the storage. -/
theorem outline_of_not_critical {stage : Stage} (outside : stage.critical = false) (role : Role)
    (channel : Channel.State) (storage : Storage) : stage.Outline role channel storage := by
  cases stage with
  | inside point => cases outside
  | closing => cases outside
  | idle | reserved | paying => trivial

theorem holding_of_claims {stage : Stage} {role : Role} (owner : stage.claims role = true) :
    stage.holding = true := by
  cases stage with
  | idle => cases owner
  | reserved | inside _ | closing | paying => rfl

end Stage

variable {Pid : Type} [Fintype Pid]

/-- How many children have the mutex. -/
def criticals (stages : Pid → Stage) : Nat := tally (fun _ => Stage.critical) stages

/-- How many children hold a token. -/
def holders (stages : Pid → Stage) : Nat := tally (fun _ => Stage.holding) stages

/-- How many unread items are owned by a child and not counted by FULL. -/
def claimed (role : Pid → Role) (stages : Pid → Stage) : Nat :=
  tally (fun pid => Stage.claims (role pid)) stages

/-- Nobody owns an item when nobody holds a token. -/
theorem claimed_eq_zero (role : Pid → Role) (unheld : holders stages = 0) :
    claimed role stages = 0 := by
  apply tally_eq_zero.mpr
  intro pid
  have idle : (stages pid).holding = false := tally_eq_zero.mp unheld pid
  by_contra owner
  rw [Stage.holding_of_claims (by simpa using owner)] at idle
  cases idle

/-- Every token is on a semaphore, with a child, or lost by a child of some
role; every unread item is counted by FULL, owned, or lost. -/
structure Ledger (role : Pid → Role) (lost : Role → Nat) (shared : Shared)
    (stages : Pid → Stage) (channel : Channel.State) : Prop where
  mutex : shared.sem .binary + criticals stages = 1
  tokens : shared.sem .empty + shared.sem .full + holders stages +
    (lost .producer + lost .consumer) = ELEMENTS
  items : shared.sem .full + channel.loaded + claimed role stages + lost .consumer =
    channel.stored
  outline : ∀ pid, (stages pid).Outline (role pid) channel shared.storage
  idle : criticals stages = 0 → Settled channel shared.storage

variable {role : Pid → Role} {lost : Role → Nat} {shared : Shared} {stages : Pid → Stage}
variable {channel : Channel.State}

namespace Ledger

theorem initial (role : Pid → Role) :
    Ledger role (fun _ => 0) ⟨initialSem, .create⟩ (fun _ => .idle) ⟨0, 0⟩ := by
  have free : criticals (fun _ : Pid => Stage.idle) = 0 := tally_eq_zero.mpr fun _ => rfl
  have unheld : holders (fun _ : Pid => Stage.idle) = 0 := tally_eq_zero.mpr fun _ => rfl
  have unclaimed : claimed role (fun _ => Stage.idle) = 0 := tally_eq_zero.mpr fun _ => rfl
  exact ⟨by rw [free]; rfl, by rw [unheld]; rfl, by rw [unclaimed]; rfl, fun _ => trivial,
    fun _ => Settled.create⟩

theorem critical_unique (ledger : Ledger role lost shared stages channel)
    (first : (stages left).critical = true) (second : (stages right).critical = true) :
    left = right := by
  have mutex := ledger.mutex
  have bound : criticals stages ≤ 1 := by omega
  exact eq_of_tally_le_one bound first second

/-- No semaphore comes near the limits of the system. -/
theorem sem_le (ledger : Ledger role lost shared stages channel) (num : Semaphore) :
    shared.sem num ≤ ELEMENTS := by
  have mutex := ledger.mutex
  have tokens := ledger.tokens
  have positive : 1 ≤ ELEMENTS := by decide
  cases num <;> omega

/-- The slots hold the unread items at every moment, a section in progress or
abandoned included. -/
theorem holds (ledger : Ledger role lost shared stages channel) :
    Channel.Holds ELEMENTS letterAt shared.storage.slots channel := by
  rcases Nat.eq_zero_or_pos (criticals stages) with nobody | some
  · exact (ledger.idle nobody).holds
  · obtain ⟨pid, critical⟩ := exists_of_tally_pos some
    have outline := ledger.outline pid
    cases here : stages pid with
    | inside point =>
      rw [here] at outline
      exact outline.2.holds
    | closing =>
      rw [here] at outline
      exact outline.holds
    | idle | reserved | paying =>
      rw [here] at critical
      cases critical

/-- A producer that has reserved a slot finds it empty, a consumer that has
reserved an item finds it stored. -/
theorem entry_outline (ledger : Ledger role lost shared stages channel)
    (here : stages pid = .reserved) (settled : Settled channel shared.storage) :
    (Stage.inside (role pid).entry).Outline (role pid) channel shared.storage := by
  have tokens := ledger.tokens
  have items := ledger.items
  cases kind : role pid with
  | producer =>
    have unclaimed : (stages pid).claims (role pid) = false := by rw [here, kind]; rfl
    have held : (stages pid).holding = true := by rw [here]; rfl
    have room : claimed role stages < holders stages :=
      tally_lt (fun _ => Stage.holding_of_claims) held unclaimed
    exact ⟨rfl, by omega, settled⟩
  | consumer =>
    have owner : (stages pid).claims (role pid) = true := by rw [here, kind]; rfl
    have owned : 0 < claimed role stages := tally_pos pid owner
    exact ⟨rfl, by omega, settled⟩

variable [DecidableEq Pid]

/-- The account stays right when a child moves and what it has gained or given
up balances. -/
theorem balance (ledger : Ledger role lost shared stages channel) (stage : Stage)
    (mutex : shared'.sem .binary + stage.critical.toNat =
      shared.sem .binary + (stages pid).critical.toNat)
    (tokens : shared'.sem .empty + shared'.sem .full + stage.holding.toNat +
        (lost' .producer + lost' .consumer) =
      shared.sem .empty + shared.sem .full + (stages pid).holding.toNat +
        (lost .producer + lost .consumer))
    (items : shared'.sem .full + channel'.loaded + (stage.claims (role pid)).toNat +
        lost' .consumer + channel.stored =
      shared.sem .full + channel.loaded + ((stages pid).claims (role pid)).toNat +
        lost .consumer + channel'.stored)
    (outline : ∀ other, (Function.update stages pid stage other).Outline (role other) channel'
      shared'.storage)
    (idle : criticals (Function.update stages pid stage) = 0 → Settled channel' shared'.storage) :
    Ledger role lost' shared' (Function.update stages pid stage) channel' := by
  have sections : criticals (Function.update stages pid stage) + (stages pid).critical.toNat =
      criticals stages + stage.critical.toNat := tally_update _ stages pid stage
  have held : holders (Function.update stages pid stage) + (stages pid).holding.toNat =
      holders stages + stage.holding.toNat := tally_update _ stages pid stage
  have owned : claimed role (Function.update stages pid stage) +
        ((stages pid).claims (role pid)).toNat =
      claimed role stages + (stage.claims (role pid)).toNat := tally_update _ stages pid stage
  obtain ⟨mutex₀, tokens₀, items₀, _, _⟩ := ledger
  exact ⟨by omega, by omega, by omega, outline, idle⟩

/-- Nobody else stands in a section while one child does, so their outlines are
void. -/
theorem outline_update (ledger : Ledger role lost shared stages channel)
    (inside : (stages pid).critical = true) {stage : Stage}
    (outline : stage.Outline (role pid) channel' storage) (other : Pid) :
    (Function.update stages pid stage other).Outline (role other) channel' storage := by
  refine (Function.forall_update_iff stages
    (fun other stage => stage.Outline (role other) channel' storage)).mpr ⟨outline, ?_⟩ other
  intro other different
  apply Stage.outline_of_not_critical
  by_contra critical
  exact different (ledger.critical_unique (by simpa using critical) inside)

/-- A move between stages outside the section leaves every outline as it was. -/
theorem outline_outside (ledger : Ledger role lost shared stages channel) {stage : Stage}
    (outside : stage.critical = false) (other : Pid) :
    (Function.update stages pid stage other).Outline (role other) channel shared.storage :=
  (Function.forall_update_iff stages
    (fun other stage => stage.Outline (role other) channel shared.storage)).mpr
      ⟨Stage.outline_of_not_critical outside _ _ _, fun other _ => ledger.outline other⟩ other

theorem criticals_outside (here : (stages pid).critical = false) {stage : Stage}
    (outside : stage.critical = false) :
    criticals (Function.update stages pid stage) = criticals stages := by
  have moved : criticals (Function.update stages pid stage) + (stages pid).critical.toNat =
      criticals stages + stage.critical.toNat := tally_update _ stages pid stage
  simpa [here, outside] using moved

/-- A child takes its token. -/
theorem take (ledger : Ledger role lost shared stages channel) (here : stages pid = .idle)
    (token : shared.sem (role pid).takes ≠ 0) :
    Ledger role lost (shared.set (role pid).takes (shared.sem (role pid).takes - 1))
      (Function.update stages pid .reserved) channel := by
  refine ledger.balance .reserved ?_ ?_ ?_ (ledger.outline_outside rfl) ?_
  · rw [here]
    cases role pid <;> rfl
  · rw [here]
    cases kind : role pid <;> simp only [kind, Role.takes] at token ⊢ <;>
      (simp [Stage.holding]; omega)
  · rw [here]
    cases kind : role pid <;> simp only [kind, Role.takes] at token ⊢ <;> simp [Stage.claims]
    omega
  · rw [criticals_outside (by rw [here]; rfl) rfl]
    exact ledger.idle

/-- A child with a token takes the mutex and enters its section. -/
theorem enter (ledger : Ledger role lost shared stages channel) (here : stages pid = .reserved)
    (binary : shared.sem .binary ≠ 0) :
    Ledger role lost (shared.set .binary (shared.sem .binary - 1))
      (Function.update stages pid (.inside (role pid).entry)) channel := by
  have mutex := ledger.mutex
  have nobody : criticals stages = 0 := by omega
  have entry := ledger.entry_outline here (ledger.idle nobody)
  refine ledger.balance _ ?_ ?_ ?_ ?_ ?_
  · simp [here, Stage.critical]
    omega
  · simp [here, Stage.holding]
  · simp [here, Stage.claims, Role.entry_claims]
  · refine (Function.forall_update_iff stages
      (fun other stage => stage.Outline (role other) channel shared.storage)).mpr ⟨entry, ?_⟩
    intro other _
    exact Stage.outline_of_not_critical (tally_eq_zero.mp nobody other) _ _ _
  · intro none
    have entered := tally_eq_zero.mp none pid
    rw [Function.update_self] at entered
    cases entered

/-- An access of the section; at its end the child is `closing`. -/
theorem inside (ledger : Ledger role lost shared stages channel)
    (here : stages pid = .inside point)
    (stepped : point.step pid shared.storage = (storage, next, emitted)) :
    Ledger role lost { shared with storage := storage }
      (Function.update stages pid (next.elim .closing .inside)) (point.moves channel) := by
  obtain ⟨sameRole, outline⟩ : point.role = role pid ∧ point.Outline channel shared.storage := by
    simpa only [here, Stage.Outline] using ledger.outline pid
  have kept := Section.step_outline pid outline
  have owner := point.step_claims pid shared.storage channel
  rw [stepped] at kept
  simp only [sameRole, stepped] at owner
  have critical : (stages pid).critical = true := by rw [here]; rfl
  have staysCritical : (next.elim .closing Stage.inside).critical = true := by
    cases next <;> rfl
  have staysHolding : (next.elim .closing Stage.inside).holding = true := by
    cases next <;> rfl
  have after : (next.elim .closing Stage.inside).claims (role pid) = (role pid).claims next := by
    cases next <;> rfl
  refine ledger.balance _ ?_ ?_ ?_ (ledger.outline_update critical ?_) ?_
  · rw [critical, staysCritical]
  · rw [staysHolding, here]
    rfl
  · rw [after, here]
    change _ = shared.sem .full + channel.loaded + point.claims.toNat + _ + _
    dsimp only
    omega
  · cases next with
    | none => exact kept
    | some point' =>
      have fits : point'.role = point.role :=
        Section.step_role pid shared.storage point (by rw [stepped])
      exact ⟨fits.trans sameRole, kept⟩
  · intro none
    have entered := tally_eq_zero.mp none pid
    rw [Function.update_self, staysCritical] at entered
    cases entered

/-- The mutex goes back after a section. -/
theorem leave (ledger : Ledger role lost shared stages channel) (here : stages pid = .closing) :
    Ledger role lost (shared.set .binary (shared.sem .binary + 1))
      (Function.update stages pid .paying) channel := by
  have critical : (stages pid).critical = true := by rw [here]; rfl
  have settled : Settled channel shared.storage := by
    simpa only [here, Stage.Outline] using ledger.outline pid
  refine ledger.balance _ ?_ ?_ ?_ (ledger.outline_update critical trivial) (fun _ => settled)
  · simp [here, Stage.critical]
  · simp [here, Stage.holding]
  · simp [here, Stage.claims]

/-- The token of the other role follows. -/
theorem pay (ledger : Ledger role lost shared stages channel) (here : stages pid = .paying) :
    Ledger role lost (shared.set (role pid).gives (shared.sem (role pid).gives + 1))
      (Function.update stages pid .idle) channel := by
  refine ledger.balance _ ?_ ?_ ?_ (ledger.outline_outside rfl) ?_
  · rw [here]
    cases role pid <;> rfl
  · rw [here]
    cases role pid <;> (simp [Role.gives, Stage.holding]; omega)
  · rw [here]
    cases role pid <;> simp [Role.gives, Stage.claims]
    omega
  · rw [criticals_outside (by rw [here]; rfl) rfl]
    exact ledger.idle

/-- A child that exits between token and mutex takes its token with it. -/
theorem lose (ledger : Ledger role lost shared stages channel) (here : stages pid = .reserved) :
    Ledger role (Function.update lost (role pid) (lost (role pid) + 1)) shared
      (Function.update stages pid .idle) channel := by
  refine ledger.balance _ ?_ ?_ ?_ (ledger.outline_outside rfl) ?_
  · rw [here]
    rfl
  · rw [here]
    cases role pid <;> (simp [Stage.holding]; omega)
  · rw [here]
    cases role pid <;> simp [Stage.claims]
    omega
  · rw [criticals_outside (by rw [here]; rfl) rfl]
    exact ledger.idle

end Ledger

/-- The letters that have been loaded are those that were stored, in their order; the
slots hold the others. The accesses are pairs of offset and value. -/
structure Delivers (events : List (Event Pid)) (storage : Storage) : Prop where
  inOrder : ∀ (number place : Nat) (value : UInt8),
    (events.filterMap Event.load?)[number]? = some (place, value) →
    value = letterAt number ∧ (events.filterMap Event.store?)[number]? = some (place, value)
  available : (events.filterMap Event.load?).length ≤ (events.filterMap Event.store?).length
  bounded : (events.filterMap Event.store?).length ≤
    (events.filterMap Event.load?).length + ELEMENTS
  inside : ∀ access ∈ events.filterMap Event.store? ++ events.filterMap Event.load?,
    access.1 < ELEMENTS
  unread : ∀ (number place : Nat) (value : UInt8), (events.filterMap Event.load?).length ≤ number →
    (events.filterMap Event.store?)[number]? = some (place, value) → storage.slots place = value

theorem Ledger.delivers (ledger : Ledger role lost shared stages channel)
    (history : Channel.History ELEMENTS slotStream (events.filterMap Event.traffic?) channel) :
    Delivers events shared.storage := by
  have stores := history.stores
  have loads := history.loads
  rw [storedItem?_traffic?] at stores
  rw [loadedItem?_traffic?] at loads
  have available := history.available
  have bounded := history.bounded
  constructor <;> simp only [stores, loads, List.length_map, List.length_range]
  case available => exact available
  case bounded => exact bounded
  case inOrder =>
    intro number place value loaded
    obtain ⟨before, same⟩ := Channel.getElem?_stream.mp loaded
    obtain ⟨rfl, rfl⟩ := Prod.mk.inj same
    exact ⟨rfl, Channel.getElem?_stream.mpr ⟨by omega, rfl⟩⟩
  case inside =>
    intro access member
    rcases List.mem_append.mp member with member | member <;>
    · obtain ⟨number, _, rfl⟩ := List.mem_map.mp member
      exact Nat.mod_lt number (by decide)
  case unread =>
    intro number place value unread stored
    obtain ⟨written, same⟩ := Channel.getElem?_stream.mp stored
    obtain ⟨rfl, rfl⟩ := Prod.mk.inj same
    exact ledger.holds number unread written

end OsLabs.Lab03
