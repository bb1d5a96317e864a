import OsLabs.Rpc.Layout

/-! Round trips through a layout: what is read from the bytes that an object has been
written to, and which bytes are written again when an object has been read from them. -/

namespace OsLabs.Xdr

universe u v

variable {α : Type u} {σ : Type v}

theorem intOfWord_wordOfInt (value : Int) :
    intOfWord (wordOfInt value) = value.bmod 4294967296 := by
  simp [intOfWord, wordOfInt, Int32.size]

@[simp] theorem read_write_int (value zeroed : Int) :
    Layout.int.read (Layout.int.write value) zeroed = value.bmod 4294967296 := by
  have same := ofBigEndian_bigEndian (wordOfInt value) []
  rw [List.append_nil] at same
  change intOfWord (ofBigEndian (bigEndian (wordOfInt value))) = _
  rw [same, intOfWord_wordOfInt]

@[simp] theorem read_write_float (float : FloatBits σ) (object zeroed : σ) :
    (Layout.float float).read ((Layout.float float).write object) zeroed = object := by
  have same := ofBigEndian_bigEndian (float.bits object) []
  rw [List.append_nil] at same
  change float.ofBits (ofBigEndian (bigEndian (float.bits object))) = _
  rw [same, float.ofBits_bits]

@[simp] theorem read_write_char (char zeroed : UInt8) :
    Layout.char.read (Layout.char.write char) zeroed = char := by
  change charOfInt (Layout.int.read (Layout.int.write (intOfChar char)) (intOfChar zeroed)) = char
  have least := char.toInt8.le_toInt
  have greatest := char.toInt8.toInt_lt
  rw [read_write_int, Int.bmod_eq_of_le, charOfInt_intOfChar] <;> unfold intOfChar <;> omega

@[simp] theorem read_write_field (layout : Layout α) (get : σ → α) (set : σ → α → σ)
    (object zeroed : σ) : (layout.field get set).read ((layout.field get set).write object) zeroed =
      set zeroed (layout.read (layout.write (get object)) (get zeroed)) := rfl

@[simp] theorem read_write_append (first second : Layout σ) (object zeroed : σ) :
    (first.append second).read ((first.append second).write object) zeroed =
      second.read (second.write object) (first.read (first.write object) zeroed) := by
  have width := first.length_write object
  simp only [Layout.append]
  rw [← width, List.take_left, List.drop_left]

theorem readEach_writeEach (layout : Layout α)
    (same : ∀ object zeroed, layout.read (layout.write object) zeroed = object)
    (objects zeroed : List α) (length : zeroed.length = objects.length) :
    layout.readEach (objects.flatMap layout.write) zeroed = objects := by
  induction objects generalizing zeroed with
  | nil =>
    obtain rfl := List.length_eq_zero_iff.mp length
    rfl
  | cons object objects ih =>
    obtain ⟨old, rest, rfl⟩ := List.exists_cons_of_length_eq_add_one length
    have width := layout.length_write object
    rw [Layout.readEach, List.flatMap_cons, ← width, List.take_left, List.drop_left, same,
      ih rest (by simpa using length)]

theorem read_write_vector (layout : Layout α)
    (same : ∀ object zeroed, layout.read (layout.write object) zeroed = object)
    (array zeroed : Vector α count) :
    (layout.vector count).read ((layout.vector count).write array) zeroed = array := by
  apply Vector.toList_inj.mp
  rw [Layout.toList_read_vector]
  exact readEach_writeEach layout same _ _ (by simp)

theorem wordOfInt_intOfWord (word : UInt32) : wordOfInt (intOfWord word) = word := by
  simp [wordOfInt, intOfWord]

namespace Layout

/-- Writing what has been read from the bytes gives the same bytes. -/
def Exact (layout : Layout α) (bytes : List UInt8) (object : α) : Prop :=
  layout.write (layout.read bytes object) = bytes

theorem exact_int (bytes : List UInt8) (object : Int) (four : bytes.length = 4) :
    int.Exact bytes object := by
  change bigEndian (wordOfInt (intOfWord (ofBigEndian bytes))) = bytes
  rw [wordOfInt_intOfWord, bigEndian_ofBigEndian bytes four]

theorem exact_field {layout : Layout α} {get : σ → α} {set : σ → α → σ}
    (own : ∀ object value, get (set object value) = value) (bytes : List UInt8) (object : σ) :
    (layout.field get set).Exact bytes object ↔ layout.Exact bytes (get object) := by
  simp only [Exact, field, own]

theorem append_eq_iff (front rest bytes : List UInt8) :
    front ++ rest = bytes ↔ front = bytes.take front.length ∧ rest = bytes.drop front.length := by
  constructor
  · rintro rfl
    simp
  · rintro ⟨same, other⟩
    rw [same, other]
    exact List.take_append_drop _ _

theorem exact_append {first second : Layout σ}
    (apart : ∀ bytes object, first.write (second.read bytes object) = first.write object)
    (bytes : List UInt8) (object : σ) : (first.append second).Exact bytes object ↔
      first.Exact (bytes.take first.width) object ∧
        second.Exact (bytes.drop first.width) (first.read (bytes.take first.width) object) := by
  simp only [Exact, append]
  rw [append_eq_iff, apart, first.length_write]

/-- The bytes of one element of an array. -/
def unit (layout : Layout α) (bytes : List UInt8) (i : Nat) : List UInt8 :=
  (bytes.drop (i * layout.width)).take layout.width

theorem readEach_exact_iff (layout : Layout α) (bytes : List UInt8) (objects : List α)
    (length : bytes.length = objects.length * layout.width) :
    (layout.readEach bytes objects).flatMap layout.write = bytes ↔
      ∀ i (inside : i < objects.length), layout.Exact (layout.unit bytes i) objects[i] := by
  induction objects generalizing bytes with
  | nil =>
    have empty : bytes = [] := List.length_eq_zero_iff.mp (by simpa using length)
    simp [readEach, empty]
  | cons object objects ih =>
    have shorter : (bytes.drop layout.width).length = objects.length * layout.width := by
      rw [List.length_drop, length, List.length_cons, Nat.succ_mul, Nat.add_sub_cancel]
    have next : ∀ i, layout.unit bytes (i + 1) = layout.unit (bytes.drop layout.width) i := by
      intro i
      rw [unit, unit, List.drop_drop, Nat.succ_mul, Nat.add_comm]
    rw [readEach, List.flatMap_cons, append_eq_iff, layout.length_write, ih _ shorter]
    constructor
    · rintro ⟨first, rest⟩ i inside
      cases i with
      | zero => simpa [unit, Exact] using first
      | succ i =>
        rw [next]
        exact rest i (by simpa using inside)
    · intro all
      have whole : layout.unit bytes 0 = bytes.take layout.width := by simp [unit]
      have first := all 0 (by simp)
      rw [whole] at first
      refine ⟨first, fun i inside => ?_⟩
      rw [← next]
      exact all (i + 1) (by simpa using inside)

theorem exact_vector (layout : Layout α) (bytes : List UInt8) (array : Vector α count)
    (length : bytes.length = count * layout.width) : (layout.vector count).Exact bytes array ↔
      ∀ i (inside : i < count), layout.Exact (layout.unit bytes i) array[i] := by
  change ((layout.vector count).read bytes array).toList.flatMap layout.write = bytes ↔ _
  rw [toList_read_vector, layout.readEach_exact_iff bytes array.toList (by simpa using length)]
  simp

/-- The bytes that the sign of a `char` fills. -/
def signByte (char : UInt8) : UInt8 := if char.toNat < 128 then 0 else 255

theorem toNat_wordOfInt (value : Int) : (wordOfInt value).toNat = (value % 4294967296).toNat := by
  change (BitVec.ofInt 32 value).toNat = _
  rw [BitVec.toNat_ofInt]
  rfl

theorem intOfChar_eq (char : UInt8) :
    intOfChar char = if char.toNat < 128 then (char.toNat : Int) else char.toNat - 256 := by
  have bound := char.toNat_lt
  change char.toBitVec.toInt = _
  rw [BitVec.toInt_eq_toNat_cond, UInt8.toNat_toBitVec]
  split <;> split <;> omega

theorem write_char (value : UInt8) :
    char.write value = [signByte value, signByte value, signByte value, value] := by
  have bound := value.toNat_lt
  change bigEndian (wordOfInt (intOfChar value)) = _
  simp only [bigEndian, toNat_wordOfInt, intOfChar_eq, signByte, List.cons.injEq, and_true]
  refine ⟨?_, ?_, ?_, ?_⟩ <;>
  · apply UInt8.toNat_inj.mp
    rw [UInt8.toNat_ofNat']
    by_cases small : value.toNat < 128
    · simp only [if_pos small, UInt8.toNat_ofNat]
      omega
    · simp only [if_neg small, UInt8.toNat_ofNat]
      omega

/-- The first three bytes are the sign of the fourth. -/
def SignExtended (bytes : List UInt8) : Prop :=
  ∃ char, bytes = [signByte char, signByte char, signByte char, char]

theorem exact_char (bytes : List UInt8) (object : UInt8) :
    char.Exact bytes object ↔ SignExtended bytes := by
  unfold Exact SignExtended
  constructor
  · intro same
    exact ⟨_, by rw [← write_char, same]⟩
  · rintro ⟨value, rfl⟩
    rw [← write_char, read_write_char]

end Layout

/-- A filter that carries an object over, in so many bytes. -/
structure Proc.Carries (proc : Proc α) (width : Nat) (object : α) (bytes : List UInt8) : Prop where
  length : bytes.length = width
  /-- It puts out these bytes, if there is room for them. -/
  encodes : ∀ stream, stream.op = .encode → proc stream object =
    if width ≤ stream.handy.length then some (stream.put bytes, object) else none
  /-- It takes the object from them, whatever it finds in its place and behind it. -/
  decodes : ∀ stream old rest, stream.op = .decode → stream.handy = bytes ++ rest →
    proc stream old = some (stream.put bytes, object)
  /-- It fails on fewer bytes. -/
  fails : ∀ stream old, stream.op = .decode → stream.handy.length < width → proc stream old = none

theorem Proc.Follows.carries {proc : Proc α} {layout : Layout α} (follows : proc.Follows layout)
    (object : α) (same : ∀ old, layout.read (layout.write object) old = object) :
    proc.Carries layout.width object (layout.write object) where
  length := layout.length_write object
  encodes stream encoding := follows.encodes stream object encoding
  decodes stream old rest decoding front := by
    have width := layout.length_write object
    have taken : stream.handy.take layout.width = layout.write object := by
      rw [front, ← width, List.take_left]
    have room : layout.width ≤ stream.handy.length := by
      rw [front, List.length_append, width]
      exact Nat.le_add_right _ _
    rw [follows.decodes _ _ decoding, if_pos room, Stream.skip, taken, same]
  fails stream old decoding short := by
    rw [follows.decodes _ _ decoding, if_neg (Nat.not_le_of_lt short)]

/-- What has been decoded is encoded again in the same bytes exactly if these are what
the layout writes. -/
theorem Proc.Follows.encodes_same_iff {proc : Proc α} {layout : Layout α}
    (follows : proc.Follows layout) {stream : Stream} (old : α) (decoding : stream.op = .decode)
    (decoded : proc stream old = some (behind, object)) {out : Stream} (encoding : out.op = .encode)
    (room : layout.width ≤ out.handy.length) :
    proc out object = some (out.put (stream.handy.take layout.width), object) ↔
      layout.Exact (stream.handy.take layout.width) old := by
  rw [follows.decodes _ _ decoding] at decoded
  split at decoded
  · obtain ⟨rfl, rfl⟩ := Prod.mk.inj (Option.some.inj decoded)
    rw [follows.encodes _ _ encoding, if_pos room]
    constructor
    · intro same
      have written := congrArg Stream.passed (Prod.mk.inj (Option.some.inj same)).1
      exact List.append_cancel_left written
    · intro exact
      rw [Layout.Exact] at exact
      rw [exact]
  · cases decoded

end OsLabs.Xdr
