import OsLabs.Rpc.Xdr

/-! Layouts of objects in bytes, and the filters which follow them: what such a filter
does with a stream is settled by the layout alone. -/

namespace OsLabs.Xdr

universe u v

/-- Objects in so many bytes: those that `write` makes of an object, and the object
that an older one becomes when it is read from such bytes. -/
structure Layout (α : Type u) where
  width : Nat
  write : α → List UInt8
  read : List UInt8 → α → α
  length_write : ∀ object, (write object).length = width

variable {α : Type u} {σ : Type v}

/-- What a filter does with a stream of each kind, when it is about a layout. -/
structure Proc.Follows (filter : Proc α) (layout : Layout α) : Prop where
  encodes : ∀ stream object, stream.op = .encode → filter stream object =
    if layout.width ≤ stream.handy.length then some (stream.put (layout.write object), object)
    else none
  decodes : ∀ stream object, stream.op = .decode → filter stream object =
    if layout.width ≤ stream.handy.length then
      some (stream.skip layout.width, layout.read (stream.handy.take layout.width) object)
    else none
  frees : ∀ stream object, stream.op = .free → filter stream object = some (stream, object)

namespace Layout

def long : Layout UInt32 where
  width := 4
  write := bigEndian
  read bytes _ := ofBigEndian bytes
  length_write := length_bigEndian

def int : Layout Int where
  width := 4
  write value := bigEndian (wordOfInt value)
  read bytes _ := intOfWord (ofBigEndian bytes)
  length_write _ := length_bigEndian _

def via (layout : Layout α) (load : σ → α) (store : α → σ) : Layout σ where
  width := layout.width
  write object := layout.write (load object)
  read bytes object := store (layout.read bytes (load object))
  length_write _ := layout.length_write _

def float (float : FloatBits σ) : Layout σ := long.via float.bits float.ofBits

def char : Layout UInt8 := int.via intOfChar charOfInt

/-- Each of the objects from the bytes that are its own. -/
def readEach (layout : Layout α) : List UInt8 → List α → List α
  | _, [] => []
  | bytes, object :: objects =>
    layout.read (bytes.take layout.width) object ::
      layout.readEach (bytes.drop layout.width) objects

@[simp] theorem length_readEach (layout : Layout α) (bytes : List UInt8) (objects : List α) :
    (layout.readEach bytes objects).length = objects.length := by
  induction objects generalizing bytes with
  | nil => rfl
  | cons object objects ih => simp [readEach, ih]

theorem length_writeEach (layout : Layout α) (objects : List α) :
    (objects.flatMap layout.write).length = objects.length * layout.width := by
  induction objects with
  | nil => simp
  | cons object objects ih =>
    rw [List.flatMap_cons, List.length_append, layout.length_write, ih, List.length_cons,
      Nat.succ_mul, Nat.add_comm]

def vector (count : Nat) (layout : Layout α) : Layout (Vector α count) where
  width := count * layout.width
  write array := array.toList.flatMap layout.write
  read bytes array := ⟨(layout.readEach bytes array.toList).toArray, by simp⟩
  length_write array := by rw [length_writeEach, Vector.length_toList]

theorem toList_read_vector (layout : Layout α) (bytes : List UInt8) (array : Vector α count) :
    ((layout.vector count).read bytes array).toList = layout.readEach bytes array.toList := rfl

theorem drop_toList (array : Vector α count) (inside : i < count) :
    array.toList.drop i = array[i] :: array.toList.drop (i + 1) := by
  rw [List.drop_eq_getElem_cons (by simpa using inside), Vector.getElem_toList]

/-- The elements from the index `i` on, read into an array one after the other. -/
def readFrom (layout : Layout α) (i : Nat) (bytes : List UInt8) (array : Vector α count) :
    Vector α count :=
  if inside : i < count then
    layout.readFrom (i + 1) (bytes.drop layout.width)
      (array.set i (layout.read (bytes.take layout.width) array[i]))
  else array
termination_by count - i

theorem readFrom_of_lt (layout : Layout α) (bytes : List UInt8) (array : Vector α count)
    (inside : i < count) : layout.readFrom i bytes array =
      layout.readFrom (i + 1) (bytes.drop layout.width)
        (array.set i (layout.read (bytes.take layout.width) array[i])) := by
  rw [readFrom, dif_pos inside]

theorem toList_readFrom (layout : Layout α) (i : Nat) (bytes : List UInt8)
    (array : Vector α count) : (layout.readFrom i bytes array).toList =
      array.toList.take i ++ layout.readEach bytes (array.toList.drop i) := by
  induction left : count - i generalizing i bytes array with
  | zero =>
    have outside : ¬ i < count := by omega
    have beyond : array.toList.length ≤ i := by simpa using outside
    rw [readFrom, dif_neg outside, List.drop_eq_nil_of_le beyond, List.take_of_length_le beyond,
      readEach, List.append_nil]
  | succ left ih =>
    have inside : i < count := by omega
    have cut := drop_toList array inside
    have before : (array.toList.take i).length ≤ i := List.length_take_le i _
    rw [layout.readFrom_of_lt _ _ inside, ih _ _ _ (by omega), cut, readEach, Vector.toList_set]
    simp [List.take_add_one, List.take_set, List.drop_set, List.set_eq_of_length_le before, inside]

theorem readFrom_zero (layout : Layout α) (bytes : List UInt8) (array : Vector α count) :
    layout.readFrom 0 bytes array = (layout.vector count).read bytes array := by
  apply Vector.toList_inj.mp
  rw [toList_readFrom, toList_read_vector]
  rfl

def field (layout : Layout α) (get : σ → α) (set : σ → α → σ) : Layout σ where
  width := layout.width
  write object := layout.write (get object)
  read bytes object := set object (layout.read bytes (get object))
  length_write _ := layout.length_write _

def append (first second : Layout σ) : Layout σ where
  width := first.width + second.width
  write object := first.write object ++ second.write object
  read bytes object :=
    second.read (bytes.drop first.width) (first.read (bytes.take first.width) object)
  length_write object := by rw [List.length_append, first.length_write, second.length_write]

end Layout

theorem xdrLong_follows : xdrLong.Follows Layout.long where
  encodes stream object encoding := by
    by_cases room : 4 ≤ stream.handy.length <;>
      simp [xdrLong, encoding, Stream.putlong, Layout.long, room]
  decodes stream object decoding := by
    by_cases room : 4 ≤ stream.handy.length <;>
      simp [xdrLong, decoding, Stream.getlong, Layout.long, room]
  frees stream object freeing := by simp [xdrLong, freeing]

theorem xdrInt_follows : xdrInt.Follows Layout.int where
  encodes stream object encoding := by
    by_cases room : 4 ≤ stream.handy.length <;>
      simp [xdrInt, encoding, Stream.putlong, Layout.int, room]
  decodes stream object decoding := by
    by_cases room : 4 ≤ stream.handy.length <;>
      simp [xdrInt, decoding, Stream.getlong, Layout.int, room]
  frees stream object freeing := by simp [xdrInt, freeing]

@[simp] theorem charOfInt_intOfChar (char : UInt8) : charOfInt (intOfChar char) = char := by
  simp [charOfInt, intOfChar]

namespace Proc.Follows

variable {filter first second : Proc α} {layout front back : Layout α}

theorem field (follows : filter.Follows layout) (get : σ → α) (set : σ → α → σ)
    (same : ∀ object, set object (get object) = object) :
    (filter.field get set).Follows (layout.field get set) where
  encodes stream object encoding := by
    rw [Proc.field, follows.encodes _ _ encoding]
    by_cases room : layout.width ≤ stream.handy.length <;> simp [Layout.field, room, same]
  decodes stream object decoding := by
    rw [Proc.field, follows.decodes _ _ decoding]
    by_cases room : layout.width ≤ stream.handy.length <;> simp [Layout.field, room]
  frees stream object freeing := by
    rw [Proc.field, follows.frees _ _ freeing]
    simp [same]

theorem via (follows : filter.Follows layout) (load : σ → α) (store : α → σ)
    (same : ∀ object, store (load object) = object) :
    (filter.via load store).Follows (layout.via load store) where
  encodes stream object encoding := by
    rw [Proc.via, follows.encodes _ _ encoding]
    by_cases room : layout.width ≤ stream.handy.length <;> simp [Layout.via, room, same]
  decodes stream object decoding := by
    rw [Proc.via, follows.decodes _ _ decoding]
    by_cases room : layout.width ≤ stream.handy.length <;> simp [Layout.via, room]
  frees stream object freeing := by
    rw [Proc.via, follows.frees _ _ freeing]
    simp [same]

theorem andThen (follows : first.Follows front) (next : second.Follows back) :
    (first.andThen second).Follows (front.append back) where
  encodes stream object encoding := by
    rw [Proc.andThen, follows.encodes _ _ encoding]
    by_cases room : front.width ≤ stream.handy.length
    · simp only [if_pos room, Option.bind_some]
      rw [next.encodes (stream.put _) _ encoding, Stream.handy_put,
        front.length_write, List.length_drop, Stream.put_put]
      refine if_congr ?_ rfl rfl
      change back.width ≤ _ ↔ front.width + back.width ≤ _
      omega
    · have short : ¬ front.width + back.width ≤ stream.handy.length := by omega
      rw [if_neg room]
      exact (if_neg short).symm
  decodes stream object decoding := by
    rw [Proc.andThen, follows.decodes _ _ decoding]
    by_cases room : front.width ≤ stream.handy.length
    · simp only [if_pos room, Option.bind_some]
      rw [next.decodes (stream.skip _) _ decoding, Stream.handy_skip,
        List.length_drop, Stream.skip_skip]
      simp only [Layout.append, List.drop_take, List.take_take]
      rw [Nat.add_sub_cancel_left, Nat.min_eq_left (Nat.le_add_right _ _)]
      refine if_congr ?_ rfl rfl
      omega
    · have short : ¬ front.width + back.width ≤ stream.handy.length := by omega
      rw [if_neg room]
      exact (if_neg short).symm
  frees stream object freeing := by
    simp only [Proc.andThen, follows.frees _ _ freeing, Option.bind_some]
    exact next.frees _ _ freeing

/-- The loop has `count - i` rounds to go. -/
theorem vectorFrom_encode (follows : filter.Follows layout) (i : Nat) (stream : Stream)
    (array : Vector α count) (encoding : stream.op = .encode) :
    vectorFrom filter i stream array =
      if (count - i) * layout.width ≤ stream.handy.length then
        some (stream.put ((array.toList.drop i).flatMap layout.write), array)
      else none := by
  induction left : count - i generalizing i stream with
  | zero =>
    have outside : ¬ i < count := by omega
    rw [vectorFrom, dif_neg outside, List.drop_eq_nil_of_le (by simpa using outside)]
    simp
  | succ left ih =>
    have inside : i < count := by omega
    have cut := Layout.drop_toList array inside
    rw [vectorFrom, dif_pos inside, follows.encodes _ _ encoding, Nat.succ_mul, cut]
    by_cases room : layout.width ≤ stream.handy.length
    · have same : array.set i array[i] = array := by simp
      simp only [if_pos room, Option.bind_some, same]
      rw [ih (i + 1) (stream.put _) encoding (by omega), Stream.handy_put, layout.length_write,
        List.length_drop, Stream.put_put]
      exact if_congr (by omega) rfl rfl
    · rw [if_neg room, if_neg (by omega)]
      rfl

theorem vectorFrom_decode (follows : filter.Follows layout) (i : Nat) (stream : Stream)
    (array : Vector α count) (decoding : stream.op = .decode) :
    vectorFrom filter i stream array =
      if (count - i) * layout.width ≤ stream.handy.length then
        some (stream.skip ((count - i) * layout.width),
          layout.readFrom i (stream.handy.take ((count - i) * layout.width)) array)
      else none := by
  induction left : count - i generalizing i stream array with
  | zero =>
    have outside : ¬ i < count := by omega
    rw [vectorFrom, dif_neg outside, Layout.readFrom, dif_neg outside]
    simp
  | succ left ih =>
    have inside : i < count := by omega
    rw [vectorFrom, dif_pos inside, follows.decodes _ _ decoding, Nat.succ_mul]
    by_cases room : layout.width ≤ stream.handy.length
    · simp only [if_pos room, Option.bind_some]
      rw [ih (i + 1) (stream.skip _) _ decoding (by omega), Stream.handy_skip, List.length_drop,
        Stream.skip_skip, layout.readFrom_of_lt _ _ inside, List.drop_take, List.take_take,
        Nat.add_sub_cancel, Nat.min_eq_left (by omega), Nat.add_comm layout.width]
      exact if_congr (by omega) rfl rfl
    · rw [if_neg room, if_neg (by omega)]
      rfl

theorem vectorFrom_free (follows : filter.Follows layout) (i : Nat) (stream : Stream)
    (array : Vector α count) (freeing : stream.op = .free) :
    vectorFrom filter i stream array = some (stream, array) := by
  induction left : count - i generalizing i with
  | zero =>
    have outside : ¬ i < count := by omega
    rw [vectorFrom, dif_neg outside]
  | succ left ih =>
    have inside : i < count := by omega
    have same : array.set i array[i] = array := by simp
    rw [vectorFrom, dif_pos inside, follows.frees _ _ freeing]
    simp only [Option.bind_some, same]
    exact ih (i + 1) (by omega)

theorem vector (follows : filter.Follows layout) (count : Nat) :
    (xdrVector filter : Proc (Vector α count)).Follows (layout.vector count) where
  encodes stream array encoding := by
    rw [xdrVector, follows.vectorFrom_encode _ _ _ encoding]
    rfl
  decodes stream array decoding := by
    rw [xdrVector, follows.vectorFrom_decode _ _ _ decoding, Layout.readFrom_zero]
    rfl
  frees stream array freeing := follows.vectorFrom_free _ _ _ freeing

end Proc.Follows

theorem xdrFloat_follows (float : FloatBits σ) : (xdrFloat float).Follows (Layout.float float) :=
  xdrLong_follows.via float.bits float.ofBits float.ofBits_bits

theorem xdrChar_follows : xdrChar.Follows Layout.char :=
  xdrInt_follows.via intOfChar charOfInt charOfInt_intOfChar

end OsLabs.Xdr
