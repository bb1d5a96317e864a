import OsLabs.Machine.Threads

/-! Assertions that each thread makes at its own program points, and an object
that a thread fills in and uses later while others may fill it in as well. -/

namespace OsLabs.Threads

universe u v w x y

variable {Tid : Type u} {Shared : Type v} {Pc : Type w} {Event : Type x} {Object : Type y}

/-- No thread touches the object while another one needs what is in it. -/
def spares (touches needs : Pc → Bool) (state : State Tid Shared Pc) (tid : Tid) : Prop :=
  touches (state.pcs tid) = true → ∀ other, other ≠ tid → needs (state.pcs other) = false

variable [DecidableEq Tid] {threads : Threads Tid Shared Pc Event}
variable {allowed : State Tid Shared Pc → Tid → Prop}

/-- The assertions of all threads hold in every run once each step keeps those
of its own thread and does not interfere with those of the others. -/
theorem assertions (Assert : Tid → Shared → Pc → Prop)
    (initial : ∀ tid, Assert tid threads.shared threads.entry)
    (own : ∀ {tid shared pc shared' pc' emitted}, Assert tid shared pc →
      threads.step tid shared pc = some (shared', pc', emitted) → Assert tid shared' pc')
    (others : ∀ {tid shared pcs shared' pc' emitted other}, other ≠ tid →
      Assert other shared (pcs other) → allowed ⟨shared, pcs⟩ tid →
      threads.step tid shared (pcs tid) = some (shared', pc', emitted) →
      Assert other shared' (pcs other))
    (run : threads.machine.Run allowed actions events state) (tid : Tid) :
    Assert tid state.shared (state.pcs tid) := by
  refine Threads.invariant (fun _ shared pcs => ∀ tid, Assert tid shared (pcs tid)) initial ?_ run
    tid
  intro events shared pcs tid shared' pc emitted holds permitted stepped
  refine (Function.forall_update_iff pcs (fun tid pc => Assert tid shared' pc)).mpr ⟨?_, ?_⟩
  · exact own (holds tid) stepped
  · intro other different
    exact others different (holds other) permitted stepped

/-- Assertions about an object that every thread spares: they need to be stable
only at the points that do not need the object. -/
theorem assertions_of_spares {touches needs : Pc → Bool} (object : Shared → Object)
    (Assert : Tid → Object → Pc → Prop)
    (initial : ∀ tid, Assert tid (object threads.shared) threads.entry)
    (own : ∀ {tid shared pc shared' pc' emitted}, Assert tid (object shared) pc →
      threads.step tid shared pc = some (shared', pc', emitted) →
      Assert tid (object shared') pc')
    (untouched : ∀ {tid shared pc shared' pc' emitted}, touches pc = false →
      threads.step tid shared pc = some (shared', pc', emitted) → object shared' = object shared)
    (stable : ∀ {tid pc before}, needs pc = false → Assert tid before pc →
      ∀ after, Assert tid after pc)
    (run : threads.machine.Run (spares touches needs) actions events state) (tid : Tid) :
    Assert tid (object state.shared) (state.pcs tid) := by
  refine assertions (fun tid shared pc => Assert tid (object shared) pc) initial own ?_ run tid
  intro tid shared pcs shared' pc' emitted other different holds permitted stepped
  cases touching : touches (pcs tid) with
  | true => exact stable (permitted touching other different) holds _
  | false => rwa [untouched touching stepped]

/-- The step that has shown an event, and the run before it. -/
theorem shown (run : threads.machine.Run allowed actions events state) (member : event ∈ events) :
    ∃ past seen current tid shared pc emitted,
      threads.machine.Run allowed past seen current ∧
      threads.step tid current.shared (current.pcs tid) = some (shared, pc, emitted) ∧
      event ∈ emitted := by
  obtain ⟨before, behind, place⟩ := List.append_of_mem member
  obtain ⟨past, seen, current, tid, after, emitted, early, late, _, path, _, taken, same, _, _⟩ :=
    run.emission place
  obtain ⟨shared, pc, stepped, rfl⟩ := next_cases taken
  exact ⟨past, seen, current, tid, shared, pc, emitted, path, stepped, by simp [same]⟩

end OsLabs.Threads
