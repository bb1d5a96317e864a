import OsLabs.Rpc.RoundTrip

/-! The two ends of a remote call: what `clnt_call` sends and makes of the reply, what
`svc_getargs` and `svc_sendreply` do in between. -/

namespace OsLabs.Rpc

open Xdr

universe u

/-- A call as it travels: its procedure, and the bytes of its argument. -/
structure CallBody where
  proc : Nat
  arguments : List UInt8
deriving DecidableEq

/-- A reply as it travels. -/
inductive ReplyBody where
  | success (results : List UInt8)
  | procUnavail
  | garbageArgs
  | systemErr
deriving DecidableEq

def NULLPROC : Nat := 0

/-- The size of a datagram that every implementation provides for. -/
def UDPMSGSIZE : Nat := 8800

/-- The buffers that messages are put together in. -/
structure Buffers where
  grants : Nat → Bool
  room : Nat
  ample : UDPMSGSIZE ≤ room

/-- The buffers of a datagram. -/
def Buffers.datagram : Buffers := ⟨fun _ => true, UDPMSGSIZE, Nat.le_refl _⟩

variable {α : Type u}

def Buffers.encode (buffers : Buffers) (filter : Proc α) (object : α) : Option (List UInt8) :=
  (filter ⟨.encode, [], List.replicate buffers.room 0, buffers.grants⟩ object).map fun result =>
    result.1.passed

def Buffers.decode (buffers : Buffers) (filter : Proc α) (bytes : List UInt8) (object : α) :
    Option α :=
  (filter ⟨.decode, [], bytes, buffers.grants⟩ object).map Prod.snd

/-- `svc_sendreply`, and `svcerr_systemerr` when that fails. -/
def Buffers.sendreply (buffers : Buffers) (filter : Proc α) (object : α) : ReplyBody :=
  match buffers.encode filter object with
  | some results => .success results
  | none => .systemErr

/-- What `clnt_call` leaves in the zeroed `clnt_res`, unless it fails. -/
def Buffers.result (buffers : Buffers) (filter : Proc α) (zeroed : α) :
    Option ReplyBody → Option α
  | some (.success results) => buffers.decode filter results zeroed
  | some .procUnavail | some .garbageArgs | some .systemErr | none => none

variable {filter : Proc α} {layout : Layout α}

theorem Buffers.encode_eq (follows : filter.Follows layout) (buffers : Buffers) (object : α)
    (small : layout.width ≤ UDPMSGSIZE) :
    buffers.encode filter object = some (layout.write object) := by
  have room : layout.width ≤ buffers.room := Nat.le_trans small buffers.ample
  rw [encode, follows.encodes _ _ rfl, if_pos (by simpa using room)]
  rfl

theorem Buffers.sendreply_eq (follows : filter.Follows layout) (buffers : Buffers) (object : α)
    (small : layout.width ≤ UDPMSGSIZE) :
    buffers.sendreply filter object = .success (layout.write object) := by
  rw [sendreply, buffers.encode_eq follows object small]

theorem Buffers.result_eq_some (taken : Buffers.result buffers filter zeroed answer = some value) :
    ∃ results, answer = some (.success results) ∧
      buffers.decode filter results zeroed = some value := by
  unfold Buffers.result at taken
  split at taken
  · exact ⟨_, rfl, taken⟩
  all_goals cases taken

theorem Buffers.decode_eq (follows : filter.Follows layout) (buffers : Buffers)
    (bytes : List UInt8) (object : α) : buffers.decode filter bytes object =
      if layout.width ≤ bytes.length then some (layout.read (bytes.take layout.width) object)
      else none := by
  rw [decode, follows.decodes _ _ rfl]
  split <;> rfl

/-- What one end writes, the other end reads, whatever their buffers. -/
theorem Buffers.decode_write (follows : filter.Follows layout) (buffers : Buffers)
    (object zeroed : α) : buffers.decode filter (layout.write object) zeroed =
      some (layout.read (layout.write object) zeroed) := by
  have whole := List.take_of_length_le (Nat.le_of_eq (layout.length_write object))
  rw [buffers.decode_eq follows, layout.length_write, if_pos (Nat.le_refl _), whole]

end OsLabs.Rpc
