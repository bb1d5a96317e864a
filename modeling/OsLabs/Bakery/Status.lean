import OsLabs.Bakery.Server

/-! The status text: 50, 100, 200 and 100 bytes of arrays, and a message that is put
together from two of them and has to fit into the other two. -/

namespace OsLabs.Bakery

/-- `sizeof(result.status)`. -/
def statusSize : Nat := 100

/-- The bytes that `strcpy` writes, the terminator among them. -/
def strcpyBytes (text : List UInt8) : Nat := text.length + 1

/-- The bytes that `%d` prints. -/
def printed (value : Int) : Nat := (ascii (toString value)).length

/-- What the step that stores the status makes of the message. -/
structure StatusFits (request : Request) (ticket : Int) : Prop where
  /-- The buffer holds all of it. -/
  complete : snprintf 200 (message request ticket) = message request ticket
  /-- `strcpy` stays within the array. -/
  inside : strcpyBytes (snprintf 200 (message request ticket)) ≤ statusSize
  /-- The response holds all of it. -/
  stored : ∀ shared shared' pc' emitted,
    step (fun _ => request) () shared (.fillStatus ticket) = some (shared', pc', emitted) →
    shared'.result.status = message request ticket

theorem snprintf_eq_self_iff (size : Nat) (text : List UInt8) :
    snprintf size text = text ↔ text.length ≤ size - 1 := List.take_eq_self_iff text

/-- 47 bytes of fixed text, and what is printed of the request. -/
theorem length_message (request : Request) (ticket : Int) :
    (message request ticket).length = 47 + (cString request.requestType).length +
      (cString request.details).length + printed request.clientId + printed ticket := by
  have one : (ascii "Request '").length = 9 := by decide +kernel
  have two : (ascii ": ").length = 2 := by decide +kernel
  have three : (ascii "' processed for client ").length = 23 := by decide +kernel
  have four : (ascii " with ticket ").length = 13 := by decide +kernel
  simp only [message, List.length_append, one, two, three, four, printed]
  omega

/-- The message fits exactly if what is printed of the request leaves room for the
fixed text in the smallest array. -/
theorem statusFits_iff (request : Request) (ticket : Int) :
    StatusFits request ticket ↔
      (cString request.requestType).length + (cString request.details).length +
        printed request.clientId + printed ticket ≤ 52 := by
  have length := length_message request ticket
  constructor
  · rintro ⟨complete, inside, _⟩
    rw [complete] at inside
    simp only [strcpyBytes, statusSize] at inside
    omega
  · intro short
    have complete : snprintf 200 (message request ticket) = message request ticket :=
      (snprintf_eq_self_iff 200 _).mpr (by omega)
    refine ⟨complete, ?_, ?_⟩
    · rw [complete]
      simp only [strcpyBytes, statusSize]
      omega
    · intro shared shared' pc' emitted stepped
      obtain ⟨rfl, _⟩ : _ ∧ _ := by simpa [step] using stepped
      exact complete

/-- Sixty letters in an array of one hundred bytes. -/
def longDetails : Request :=
  ⟨0, Vector.replicate 50 0, Vector.ofFn fun i => if i.val < 60 then 97 else 0⟩

/-- The fixed text alone leaves no room for them. -/
theorem longDetails_not_statusFits :
    0 ∈ longDetails.requestType.toList ∧ 0 ∈ longDetails.details.toList ∧
    ¬ StatusFits longDetails 1 := by
  refine ⟨by decide +kernel, by decide +kernel, fun fits => ?_⟩
  have inside := fits.inside
  rw [fits.complete, strcpyBytes, length_message] at inside
  have sixty : (cString longDetails.details).length = 60 := by decide +kernel
  rw [sixty] at inside
  simp only [statusSize] at inside
  omega

end OsLabs.Bakery
