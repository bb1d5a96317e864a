import OsLabs.Bakery.Effect

/-! The indices at which a request is served. `client_id` comes off the wire as any
`int` and is nowhere compared with `MAX_CLIENTS`. -/

namespace OsLabs.Bakery

/-- The indices that the next step of an activation uses on `choosing` or `number`. -/
def Pc.indices (client : Int) : Pc → List Int
  | .scan i _ | .scanTake i | .waitChoosing _ i | .waitNonzero _ i | .waitLess _ i
  | .waitEqual _ i => [(i : Int)]
  | .setChoosing | .draw _ | .clearChoosing | .reread | .waitLessOwn _ _ _ | .waitEqualOwn _ _ _
  | .release _ => [client]
  | .arrive | .lock | .unlock | .fillClient _ | .fillTicket _ | .fillPosition _ | .fillStatus _
  | .lockAgain _ | .unlockAgain _ | .reply _ | .finished => []

/-- Two memories that agree where an activation looks. -/
structure Agree (indices : List Int) (shared other : Shared Unit) : Prop where
  mutex : other.mutex = shared.mutex
  result : other.result = shared.result
  choosing : ∀ index ∈ indices, other.choosing index = shared.choosing index
  number : ∀ index ∈ indices, other.number index = shared.number index

/-- A step of the activation that serves a request, with the memory around it. -/
structure Access where
  pc : Pc
  before : Shared Unit
  after : Shared Unit
  next : Pc
  emitted : List (Event Unit)

/-- A request is served while others, if there are any, do to the memory what they
like: `some` is what they leave. -/
def visit (request : Request) (shared : Shared Unit) :
    Machine (Shared Unit × Pc) (Option (Shared Unit)) Access where
  init := (shared, .arrive)
  next
    | (shared, pc), none =>
      (step (fun _ => request) () shared pc).map fun (shared', pc', emitted) =>
        ((shared', pc'), [⟨pc, shared, shared', pc', emitted⟩])
    | (_, pc), some other => some ((other, pc), [])

/-- A step keeps inside both arrays: on every memory that agrees at its indices it does the
same, and it changes the entries of its client only, where these are among the indices. -/
structure Access.Contained (request : Request) (access : Access) : Prop where
  inside : ∀ index ∈ access.pc.indices request.clientId, 0 ≤ index ∧ index < MAX_CLIENTS
  reads : ∀ other, Agree (access.pc.indices request.clientId) access.before other →
    ∃ other', step (fun _ => request) () other access.pc =
        some (other', access.next, access.emitted) ∧
      Agree (access.pc.indices request.clientId) access.after other'
  writes : ∀ index, access.after.choosing index ≠ access.before.choosing index ∨
      access.after.number index ≠ access.before.number index →
    index = request.clientId ∧ index ∈ access.pc.indices request.clientId

/-- Every step that serves the request does so, in every state of the arrays. -/
def Contained (request : Request) : Prop :=
  ∀ shared actions accesses final,
    (visit request shared).Run Machine.anything actions accesses final →
    ∀ access ∈ accesses, access.Contained request

variable {request : Request} {shared shared' other : Shared Unit} {pc pc' : Pc}
variable {emitted : List (Event Unit)}

/-- A step looks nowhere else. -/
theorem step_agrees (agree : Agree (pc.indices request.clientId) shared other)
    (stepped : step (fun _ => request) () shared pc = some (shared', pc', emitted)) :
    ∃ other', step (fun _ => request) () other pc = some (other', pc', emitted) ∧
      Agree (pc.indices request.clientId) shared' other' := by
  have ⟨mutex, result, choosing, number⟩ := agree
  cases pc with
  | lock | lockAgain ticket =>
    simp only [step] at stepped ⊢
    rw [mutex]
    split at stepped
    · obtain ⟨rfl, rfl, rfl⟩ : _ ∧ _ ∧ _ := by simpa using stepped
      exact ⟨_, rfl, ⟨rfl, result, choosing, number⟩⟩
    · cases stepped
  | scan i max | scanTake i | waitLess ticket i | waitEqual ticket i =>
    have same := number i (List.mem_singleton.mpr rfl)
    simp only [step, same] at stepped ⊢
    obtain ⟨rfl, rfl, rfl⟩ : _ ∧ _ ∧ _ := by simpa using stepped
    exact ⟨_, rfl, agree⟩
  | waitChoosing ticket i =>
    have same := choosing i (List.mem_singleton.mpr rfl)
    simp only [step, same, Option.some.injEq, Prod.mk.injEq] at stepped ⊢
    obtain ⟨rfl, moves⟩ := stepped
    exact ⟨other, ⟨rfl, moves⟩, agree⟩
  | waitNonzero ticket i =>
    have same := number i (List.mem_singleton.mpr rfl)
    by_cases taken : shared.number i ≠ 0
    · simp only [step, same, if_pos taken] at stepped ⊢
      obtain ⟨rfl, rfl, rfl⟩ : _ ∧ _ ∧ _ := by simpa using stepped
      exact ⟨_, rfl, agree⟩
    · simp only [step, same, if_neg taken, Option.some.injEq, Prod.mk.injEq] at stepped ⊢
      obtain ⟨rfl, moves⟩ := stepped
      exact ⟨other, ⟨rfl, moves⟩, agree⟩
  | waitEqualOwn ticket i value =>
    have same := number request.clientId (List.mem_singleton.mpr rfl)
    by_cases before : value = shared.number request.clientId ∧ i < request.clientId
    · simp only [step, same, if_pos before] at stepped ⊢
      obtain ⟨rfl, rfl, rfl⟩ : _ ∧ _ ∧ _ := by simpa using stepped
      exact ⟨_, rfl, agree⟩
    · simp only [step, same, if_neg before, Option.some.injEq, Prod.mk.injEq] at stepped ⊢
      obtain ⟨rfl, moves⟩ := stepped
      exact ⟨other, ⟨rfl, moves⟩, agree⟩
  | reread | waitLessOwn ticket i value =>
    have same := number request.clientId (List.mem_singleton.mpr rfl)
    simp only [step, same] at stepped ⊢
    obtain ⟨rfl, rfl, rfl⟩ : _ ∧ _ ∧ _ := by simpa using stepped
    exact ⟨_, rfl, agree⟩
  | reply ticket =>
    simp only [step, result] at stepped ⊢
    obtain ⟨rfl, rfl, rfl⟩ : _ ∧ _ ∧ _ := by simpa using stepped
    exact ⟨_, rfl, agree⟩
  | setChoosing | clearChoosing =>
    simp only [step] at stepped ⊢
    obtain ⟨rfl, rfl, rfl⟩ : _ ∧ _ ∧ _ := by simpa using stepped
    refine ⟨_, rfl, ⟨mutex, result, fun index used => ?_, number⟩⟩
    simp [List.mem_singleton.mp used]
  | draw max | release ticket =>
    simp only [step] at stepped ⊢
    obtain ⟨rfl, rfl, rfl⟩ : _ ∧ _ ∧ _ := by simpa using stepped
    refine ⟨_, rfl, ⟨mutex, result, choosing, fun index used => ?_⟩⟩
    simp [List.mem_singleton.mp used]
  | arrive =>
    simp only [step] at stepped ⊢
    obtain ⟨rfl, rfl, rfl⟩ : _ ∧ _ ∧ _ := by simpa using stepped
    exact ⟨_, rfl, agree⟩
  | unlock | unlockAgain ticket =>
    simp only [step] at stepped ⊢
    obtain ⟨rfl, rfl, rfl⟩ : _ ∧ _ ∧ _ := by simpa using stepped
    exact ⟨_, rfl, ⟨rfl, result, choosing, number⟩⟩
  | fillClient ticket | fillTicket ticket | fillPosition ticket | fillStatus ticket =>
    simp only [step, result] at stepped ⊢
    obtain ⟨rfl, rfl, rfl⟩ : _ ∧ _ ∧ _ := by simpa using stepped
    exact ⟨_, rfl, ⟨mutex, rfl, choosing, number⟩⟩
  | finished => cases stepped

/-- A step writes to the entries of its client only. -/
theorem step_writes
    (stepped : step (fun _ => request) () shared pc = some (shared', pc', emitted)) (index : Int)
    (changed : shared'.choosing index ≠ shared.choosing index ∨
      shared'.number index ≠ shared.number index) :
    index = request.clientId ∧ index ∈ pc.indices request.clientId := by
  have effect : Effect request () shared pc shared' pc' emitted := step_effect stepped
  cases effect with
  | setChoosing | clearChoosing | draw max | release ticket =>
    have own : index = request.clientId := by
      by_contra foreign
      simp [foreign] at changed
    exact ⟨own, List.mem_singleton.mpr own⟩
  | _ => simp at changed

/-- The loops stay below `MAX_CLIENTS`. -/
def Pc.Inside : Pc → Prop
  | .scan i _ | .scanTake i | .waitChoosing _ i | .waitNonzero _ i | .waitLess _ i
  | .waitLessOwn _ i _ | .waitEqual _ i | .waitEqualOwn _ i _ => i < MAX_CLIENTS
  | _ => True

theorem step_inside (inside : pc.Inside)
    (stepped : step (fun _ => request) () shared pc = some (shared', pc', emitted)) :
    pc'.Inside := by
  have effect : Effect request () shared pc shared' pc' emitted := step_effect stepped
  cases effect with
  | setChoosing | reread => exact (by decide : 0 < MAX_CLIENTS)
  | greater | choosing | notChoosing | nonzero | waitLess | less | notLess | waitEqual | equal =>
    exact inside
  | notGreater _ next | scanTake next =>
    cases next with
    | again more => exact more
    | done all => trivial
  | zero _ next | notEqual _ next =>
    cases next with
    | again more => exact more
    | done all => trivial
  | _ => trivial

theorem Pc.Inside.indices {client : Int} (inside : pc.Inside)
    (ranged : 0 ≤ client ∧ client < MAX_CLIENTS) (member : index ∈ pc.indices client) :
    0 ≤ index ∧ index < MAX_CLIENTS := by
  cases pc with
  | scan i _ | scanTake i | waitChoosing _ i | waitNonzero _ i | waitLess _ i | waitEqual _ i =>
    obtain rfl := List.mem_singleton.mp member
    have below : i < MAX_CLIENTS := inside
    omega
  | setChoosing | draw _ | clearChoosing | reread | waitLessOwn _ _ _ | waitEqualOwn _ _ _
  | release _ =>
    obtain rfl := List.mem_singleton.mp member
    exact ranged
  | _ => cases member

/-- A client id in [0, MAX_CLIENTS) is all that it takes. -/
theorem contained_of_ranged (ranged : 0 ≤ request.clientId ∧ request.clientId < MAX_CLIENTS) :
    Contained request := by
  intro shared actions accesses final run
  refine (run.invariant (fun accesses state => state.2.Inside ∧
    ∀ access ∈ accesses, access.Contained request) ⟨trivial, by simp⟩ ?_).2
  rintro accesses ⟨shared, pc⟩ action after emitted ⟨inside, contained⟩ _ taken
  cases action with
  | some other =>
    obtain ⟨rfl, rfl⟩ : (other, pc) = after ∧ [] = emitted := by simpa [visit] using taken
    exact ⟨inside, by simpa using contained⟩
  | none =>
    obtain ⟨⟨shared', pc', shown⟩, stepped, same⟩ := Option.map_eq_some_iff.mp taken
    obtain ⟨rfl, rfl⟩ := Prod.mk.inj same
    refine ⟨step_inside inside stepped, fun access member => ?_⟩
    rcases List.mem_append.mp member with early | late
    · exact contained access early
    · obtain rfl := List.mem_singleton.mp late
      exact ⟨fun index used => inside.indices ranged used,
        fun other agree => step_agrees agree stepped,
        fun index changed => step_writes stepped index changed⟩

/-- The first access of any other one is outside. -/
theorem ranged_of_contained (contained : Contained request) :
    0 ≤ request.clientId ∧ request.clientId < MAX_CLIENTS := by
  let empty : Shared Unit := ⟨fun _ => 0, fun _ => 0, none, ⟨0, 0, 0, []⟩⟩
  have run : ∃ accesses final,
      (visit request empty).Run Machine.anything [none, none, none] accesses final ∧
      ∃ access ∈ accesses, access.pc = .setChoosing := by
    refine ⟨_, _, .ofExec [none, none, none] (fun _ _ _ => trivial) rfl, ?_⟩
    simp
  obtain ⟨accesses, final, run, access, member, here⟩ := run
  have inside := (contained empty _ accesses final run access member).inside
  rw [here] at inside
  exact inside request.clientId (List.mem_singleton.mpr rfl)

theorem contained_iff_ranged (request : Request) :
    Contained request ↔ 0 ≤ request.clientId ∧ request.clientId < MAX_CLIENTS :=
  ⟨ranged_of_contained, contained_of_ranged⟩

/-- Client 100 stores past the end of `choosing`. -/
theorem client_100_not_contained :
    ¬ Contained ⟨100, Vector.replicate 50 0, Vector.replicate 100 0⟩ := by
  intro contained
  have ranged := ranged_of_contained contained
  exact absurd ranged.2 (by decide)

end OsLabs.Bakery
