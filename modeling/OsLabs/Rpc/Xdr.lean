import Mathlib.Data.List.TakeDrop

/-! XDR: streams over a buffer, the filters that carry an object into a stream or out
of one, and the layouts of bytes which filters follow. A filter that returns FALSE is
`none`: its caller uses neither the object nor the stream any more. -/

namespace OsLabs.Xdr

universe u v

/-- `x_op`. -/
inductive Op where
  | encode
  | decode
  | free
deriving DecidableEq

/-- The bytes of the buffer that have been passed, and those at hand. A request for a
piece of the buffer is met or refused as `grants` says. -/
structure Stream where
  op : Op
  passed : List UInt8
  handy : List UInt8
  grants : Nat → Bool

namespace Stream

def put (stream : Stream) (bytes : List UInt8) : Stream :=
  { stream with passed := stream.passed ++ bytes, handy := stream.handy.drop bytes.length }

def skip (stream : Stream) (count : Nat) : Stream := stream.put (stream.handy.take count)

@[simp] theorem handy_put (stream : Stream) (bytes : List UInt8) :
    (stream.put bytes).handy = stream.handy.drop bytes.length := rfl

@[simp] theorem handy_skip (stream : Stream) (count : Nat) :
    (stream.skip count).handy = stream.handy.drop count := by
  simp only [skip, handy_put, List.length_take]
  rcases Nat.le_total count stream.handy.length with within | short
  · rw [Nat.min_eq_left within]
  · rw [Nat.min_eq_right short, List.drop_length, List.drop_eq_nil_of_le short]

theorem put_put (stream : Stream) (first second : List UInt8) :
    (stream.put first).put second = stream.put (first ++ second) := by
  simp [put, List.drop_drop]

theorem skip_skip (stream : Stream) (first second : Nat) :
    (stream.skip first).skip second = stream.skip (first + second) := by
  rw [skip, handy_skip, skip, put_put, skip, List.take_add]

@[simp] theorem put_nil (stream : Stream) : stream.put [] = stream := by simp [put]

@[simp] theorem skip_zero (stream : Stream) : stream.skip 0 = stream := by simp [skip]

end Stream

/-- The four bytes of a word, the highest first. -/
def bigEndian (word : UInt32) : List UInt8 :=
  [UInt8.ofNat (word.toNat / 16777216), UInt8.ofNat (word.toNat / 65536),
    UInt8.ofNat (word.toNat / 256), UInt8.ofNat word.toNat]

def ofBigEndian : List UInt8 → UInt32
  | a :: b :: c :: d :: _ =>
    UInt32.ofNat (a.toNat * 16777216 + b.toNat * 65536 + c.toNat * 256 + d.toNat)
  | _ => 0

@[simp] theorem length_bigEndian (word : UInt32) : (bigEndian word).length = 4 := rfl

@[simp] theorem ofBigEndian_bigEndian (word : UInt32) (rest : List UInt8) :
    ofBigEndian (bigEndian word ++ rest) = word := by
  have bound := word.toNat_lt
  apply UInt32.toNat_inj.mp
  simp only [bigEndian, List.cons_append, ofBigEndian, UInt8.toNat_ofNat', UInt32.toNat_ofNat']
  omega

theorem ofBigEndian_take (bytes : List UInt8) : ofBigEndian (bytes.take 4) = ofBigEndian bytes := by
  match bytes with
  | [] | [_] | [_, _] | [_, _, _] | _ :: _ :: _ :: _ :: _ => rfl

theorem bigEndian_ofBigEndian (bytes : List UInt8) (four : bytes.length = 4) :
    bigEndian (ofBigEndian bytes) = bytes := by
  match bytes, four with
  | [a, b, c, d], _ =>
    have boundA := a.toNat_lt
    have boundB := b.toNat_lt
    have boundC := c.toNat_lt
    have boundD := d.toNat_lt
    simp only [ofBigEndian, bigEndian, UInt32.toNat_ofNat', List.cons.injEq, and_true]
    refine ⟨?_, ?_, ?_, ?_⟩ <;>
    · apply UInt8.toNat_inj.mp
      rw [UInt8.toNat_ofNat']
      omega

/-- `XDR_PUTLONG`. -/
def Stream.putlong (stream : Stream) (word : UInt32) : Option Stream :=
  if 4 ≤ stream.handy.length then some (stream.put (bigEndian word)) else none

/-- `XDR_GETLONG`. -/
def Stream.getlong (stream : Stream) : Option (Stream × UInt32) :=
  if 4 ≤ stream.handy.length then some (stream.skip 4, ofBigEndian (stream.handy.take 4)) else none

/-- `XDR_INLINE`: the next `length` bytes of the buffer, with the stream behind them
after they have been used as `use` says; `none` is NULL. -/
def Stream.inline (stream : Stream) (length : Nat) (use : List UInt8 → List UInt8) :
    Option (Stream × List UInt8) :=
  if stream.grants length = true ∧ length ≤ stream.handy.length then
    some ({ stream with
      passed := stream.passed ++ use (stream.handy.take length)
      handy := stream.handy.drop length }, stream.handy.take length)
  else none

/-- `IXDR_PUT_LONG`, once for each of the words. -/
def ixdrPutLongs : List UInt32 → List UInt8 → List UInt8
  | [], buf => buf
  | word :: words, buf => bigEndian word ++ ixdrPutLongs words (buf.drop 4)

theorem ixdrPutLongs_eq (words : List UInt32) (buf : List UInt8)
    (whole : buf.length = 4 * words.length) : ixdrPutLongs words buf = words.flatMap bigEndian := by
  induction words generalizing buf with
  | nil => exact List.length_eq_zero_iff.mp whole
  | cons word words ih =>
    rw [ixdrPutLongs, List.flatMap_cons, ih]
    rw [List.length_drop, whole, List.length_cons]
    omega

theorem length_flatMap_bigEndian (words : List UInt32) :
    (words.flatMap bigEndian).length = 4 * words.length := by
  induction words with
  | nil => rfl
  | cons word words ih =>
    rw [List.flatMap_cons, List.length_append, ih, length_bigEndian, List.length_cons]
    omega

/-- Words that are put into a piece of the buffer might as well have been put one after
the other. -/
theorem Stream.inline_put {stream : Stream} {words : List UInt32} (length : 4 * words.length = size)
    (given : stream.inline size (ixdrPutLongs words) = some (behind, buf)) :
    size ≤ stream.handy.length ∧ behind = stream.put (words.flatMap bigEndian) := by
  unfold Stream.inline at given
  split at given
  · rename_i granted
    obtain ⟨rfl, rfl⟩ := Prod.mk.inj (Option.some.inj given)
    have whole : (stream.handy.take size).length = 4 * words.length := by
      rw [List.length_take, Nat.min_eq_left granted.2, length]
    have bytes := (length_flatMap_bigEndian words).trans length
    rw [ixdrPutLongs_eq words _ whole]
    exact ⟨granted.2, by rw [Stream.put, bytes]⟩
  · cases given

theorem Stream.inline_get {stream : Stream} (given : stream.inline size id = some (behind, buf)) :
    size ≤ stream.handy.length ∧ behind = stream.skip size ∧ buf = stream.handy.take size := by
  unfold Stream.inline at given
  split at given
  · rename_i granted
    obtain ⟨rfl, rfl⟩ := Prod.mk.inj (Option.some.inj given)
    refine ⟨granted.2, ?_, rfl⟩
    rw [Stream.skip, Stream.put, List.length_take, Nat.min_eq_left granted.2]
    rfl
  · cases given

/-- `IXDR_GET_LONG`: the next word, and what is left of the piece. -/
def ixdrGetLong (buf : List UInt8) : UInt32 × List UInt8 :=
  (ofBigEndian buf, buf.drop 4)

/-- `xdrproc_t`: a filter. -/
abbrev Proc (α : Type u) := Stream → α → Option (Stream × α)

def xdrLong : Proc UInt32 := fun stream object =>
  match stream.op with
  | .encode => (stream.putlong object).map fun stream => (stream, object)
  | .decode => stream.getlong
  | .free => some (stream, object)

def wordOfInt (value : Int) : UInt32 := (Int32.ofInt value).toUInt32

def intOfWord (word : UInt32) : Int := word.toInt32.toInt

def xdrInt : Proc Int := fun stream object =>
  match stream.op with
  | .encode => (stream.putlong (wordOfInt object)).map fun stream => (stream, object)
  | .decode => stream.getlong.map fun (stream, word) => (stream, intOfWord word)
  | .free => some (stream, object)

variable {α : Type u} {σ : Type v}

/-- A filter for an object that passes through a local variable of another type. -/
def Proc.via (filter : Proc α) (load : σ → α) (store : α → σ) : Proc σ :=
  fun stream object =>
    (filter stream (load object)).map fun (stream, value) => (stream, store value)

/-- A `float`, as the four bytes that it takes up. -/
structure FloatBits (Num : Type u) where
  bits : Num → UInt32
  ofBits : UInt32 → Num
  ofBits_bits : ∀ num, ofBits (bits num) = num

def xdrFloat (float : FloatBits σ) : Proc σ := xdrLong.via float.bits float.ofBits

/-- The value of a `char`, which is signed. -/
def intOfChar (char : UInt8) : Int := char.toInt8.toInt

def charOfInt (value : Int) : UInt8 := (Int8.ofInt value).toUInt8

/-- `i = *cp; if (!xdr_int (xdrs, &i)) return FALSE; *cp = i;` -/
def xdrChar : Proc UInt8 := xdrInt.via intOfChar charOfInt

def xdrVoid : Proc Unit := fun stream object => some (stream, object)

/-- The loop of `xdr_vector`, from the index `i` on. -/
def vectorFrom {count : Nat} (filter : Proc α) (i : Nat) : Proc (Vector α count) :=
  fun stream array =>
    if inside : i < count then
      (filter stream array[i]).bind fun (stream, element) =>
        vectorFrom filter (i + 1) stream (array.set i element)
    else some (stream, array)
termination_by count - i

def xdrVector {count : Nat} (filter : Proc α) : Proc (Vector α count) := vectorFrom filter 0

/-- A filter for the part of an object that is at `&objp->field`. -/
def Proc.field (filter : Proc α) (get : σ → α) (set : σ → α → σ) : Proc σ :=
  fun stream object =>
    (filter stream (get object)).map fun (stream, value) => (stream, set object value)

/-- `if (!first) return FALSE; if (!second) return FALSE; return TRUE;` -/
def Proc.andThen (first second : Proc σ) : Proc σ := fun stream object =>
  (first stream object).bind fun (stream, object) => second stream object

end OsLabs.Xdr
