import OsLabs.Bakery.Server
import OsLabs.Rpc.RoundTrip

/-! bakery_xdr.c: requests and responses in 604 and 412 bytes, every `char` of an array
in four of them. The numbers of a response go through a piece of the buffer where the
stream gives one out. -/

namespace OsLabs.Bakery

open Xdr

def BYTES_PER_XDR_UNIT : Nat := 4

/-- `BAKERY_RESPONSE`, with the array itself. -/
structure BAKERY_RESPONSE where
  clientId : Int
  ticketNumber : Int
  queuePosition : Int
  status : Vector UInt8 100

/-- What `memset (&argument, 0, ..)` leaves. -/
def Request.zeroed : Request := ⟨0, Vector.replicate 50 0, Vector.replicate 100 0⟩

def BAKERY_RESPONSE.zeroed : BAKERY_RESPONSE := ⟨0, 0, 0, Vector.replicate 100 0⟩

def xdr_BAKERY_REQUEST : Proc Request :=
  (xdrInt.field Request.clientId fun objp value => { objp with clientId := value }).andThen <|
  ((xdrVector xdrChar).field Request.requestType fun objp value =>
    { objp with requestType := value }).andThen <|
  (xdrVector xdrChar).field Request.details fun objp value => { objp with details := value }

namespace BAKERY_RESPONSE

/-- The three calls of `xdr_int`. -/
def xdrNumbers : Proc BAKERY_RESPONSE :=
  (xdrInt.field clientId fun objp value => { objp with clientId := value }).andThen <|
  (xdrInt.field ticketNumber fun objp value => { objp with ticketNumber := value }).andThen <|
  xdrInt.field queuePosition fun objp value => { objp with queuePosition := value }

def xdrStatus : Proc BAKERY_RESPONSE :=
  (xdrVector xdrChar).field status fun objp value => { objp with status := value }

end BAKERY_RESPONSE

open BAKERY_RESPONSE in
def xdr_BAKERY_RESPONSE : Proc BAKERY_RESPONSE := fun stream objp =>
  match stream.op with
  | .encode =>
    let words := [wordOfInt objp.clientId, wordOfInt objp.ticketNumber,
      wordOfInt objp.queuePosition]
    match stream.inline (3 * BYTES_PER_XDR_UNIT) (ixdrPutLongs words) with
    | none => (xdrNumbers.andThen xdrStatus) stream objp
    | some (stream, _) => xdrStatus stream objp
  | .decode =>
    match stream.inline (3 * BYTES_PER_XDR_UNIT) id with
    | none => (xdrNumbers.andThen xdrStatus) stream objp
    | some (stream, buf) =>
      let (clientId, buf) := ixdrGetLong buf
      let (ticketNumber, buf) := ixdrGetLong buf
      let (queuePosition, _) := ixdrGetLong buf
      xdrStatus stream { objp with
        clientId := intOfWord clientId
        ticketNumber := intOfWord ticketNumber
        queuePosition := intOfWord queuePosition }
  | .free => (xdrNumbers.andThen xdrStatus) stream objp

def requestLayout : Layout Request :=
  (Layout.int.field Request.clientId fun objp value => { objp with clientId := value }).append <|
  ((Layout.char.vector 50).field Request.requestType fun objp value =>
    { objp with requestType := value }).append <|
  (Layout.char.vector 100).field Request.details fun objp value => { objp with details := value }

namespace BAKERY_RESPONSE

def numbersLayout : Layout BAKERY_RESPONSE :=
  (Layout.int.field clientId fun objp value => { objp with clientId := value }).append <|
  (Layout.int.field ticketNumber fun objp value => { objp with ticketNumber := value }).append <|
  Layout.int.field queuePosition fun objp value => { objp with queuePosition := value }

def statusLayout : Layout BAKERY_RESPONSE :=
  (Layout.char.vector 100).field status fun objp value => { objp with status := value }

theorem xdrNumbers_follows : xdrNumbers.Follows numbersLayout :=
  (xdrInt_follows.field _ _ fun _ => rfl).andThen <|
    (xdrInt_follows.field _ _ fun _ => rfl).andThen (xdrInt_follows.field _ _ fun _ => rfl)

theorem xdrStatus_follows : xdrStatus.Follows statusLayout :=
  (xdrChar_follows.vector 100).field _ _ fun _ => rfl

end BAKERY_RESPONSE

def responseLayout : Layout BAKERY_RESPONSE :=
  BAKERY_RESPONSE.numbersLayout.append BAKERY_RESPONSE.statusLayout

theorem xdr_BAKERY_REQUEST_follows : xdr_BAKERY_REQUEST.Follows requestLayout :=
  (xdrInt_follows.field _ _ fun _ => rfl).andThen <|
    ((xdrChar_follows.vector 50).field _ _ fun _ => rfl).andThen
      ((xdrChar_follows.vector 100).field _ _ fun _ => rfl)

open BAKERY_RESPONSE in
/-- Whether the stream gives out a piece of its buffer makes no difference. -/
theorem xdr_BAKERY_RESPONSE_eq_plain (stream : Stream) (objp : BAKERY_RESPONSE) :
    xdr_BAKERY_RESPONSE stream objp = (xdrNumbers.andThen xdrStatus) stream objp := by
  cases op : stream.op with
  | free => simp [xdr_BAKERY_RESPONSE, op]
  | encode =>
    simp only [xdr_BAKERY_RESPONSE, op]
    split
    · rfl
    · rename_i behind buf given
      have three : 4 * [wordOfInt objp.clientId, wordOfInt objp.ticketNumber,
          wordOfInt objp.queuePosition].length = 3 * BYTES_PER_XDR_UNIT := rfl
      obtain ⟨room, rfl⟩ := Stream.inline_put three given
      have written : numbersLayout.write objp = [wordOfInt objp.clientId,
          wordOfInt objp.ticketNumber, wordOfInt objp.queuePosition].flatMap bigEndian := by
        simp [numbersLayout, Layout.append, Layout.field, Layout.int]
      have within : numbersLayout.width ≤ stream.handy.length := room
      rw [Proc.andThen, xdrNumbers_follows.encodes _ _ op, if_pos within, written]
      rfl
  | decode =>
    simp only [xdr_BAKERY_RESPONSE, op]
    split
    · rfl
    · rename_i behind buf given
      obtain ⟨room, rfl, rfl⟩ := Stream.inline_get given
      have within : numbersLayout.width ≤ stream.handy.length := room
      rw [Proc.andThen, xdrNumbers_follows.decodes _ _ op, if_pos within]
      simp only [Option.bind_some, numbersLayout, Layout.append, Layout.field, Layout.int,
        ofBigEndian_take]
      rfl

theorem xdr_BAKERY_RESPONSE_follows : xdr_BAKERY_RESPONSE.Follows responseLayout := by
  have same : xdr_BAKERY_RESPONSE = BAKERY_RESPONSE.xdrNumbers.andThen BAKERY_RESPONSE.xdrStatus :=
    funext fun stream => funext fun objp => xdr_BAKERY_RESPONSE_eq_plain stream objp
  rw [same]
  exact BAKERY_RESPONSE.xdrNumbers_follows.andThen BAKERY_RESPONSE.xdrStatus_follows

theorem read_write_request (request old : Request)
    (int : int32 request.clientId = request.clientId) :
    requestLayout.read (requestLayout.write request) old = request := by
  have same : request.clientId.bmod 4294967296 = request.clientId := int
  simp [requestLayout, read_write_vector Layout.char read_write_char, same]

theorem read_write_response (response old : BAKERY_RESPONSE)
    (client : int32 response.clientId = response.clientId)
    (ticket : int32 response.ticketNumber = response.ticketNumber)
    (position : int32 response.queuePosition = response.queuePosition) :
    responseLayout.read (responseLayout.write response) old = response := by
  have first : response.clientId.bmod 4294967296 = response.clientId := client
  have second : response.ticketNumber.bmod 4294967296 = response.ticketNumber := ticket
  have third : response.queuePosition.bmod 4294967296 = response.queuePosition := position
  simp [responseLayout, BAKERY_RESPONSE.numbersLayout, BAKERY_RESPONSE.statusLayout,
    read_write_vector Layout.char read_write_char, first, second, third]

/-- Requests and responses whose numbers are values of an `int` are carried over, in 604
and 412 bytes. -/
theorem formats_carry :
    (∀ request, int32 request.clientId = request.clientId →
      xdr_BAKERY_REQUEST.Carries 604 request (requestLayout.write request)) ∧
    ∀ response, int32 response.clientId = response.clientId →
      int32 response.ticketNumber = response.ticketNumber →
      int32 response.queuePosition = response.queuePosition →
      xdr_BAKERY_RESPONSE.Carries 412 response (responseLayout.write response) := by
  refine ⟨fun request int => ?_, fun response client ticket position => ?_⟩
  · exact xdr_BAKERY_REQUEST_follows.carries request fun old => read_write_request request old int
  · exact xdr_BAKERY_RESPONSE_follows.carries response fun old =>
      read_write_response response old client ticket position

/-- A client with a negative number, and characters of 128 and more. -/
def negative : Request := ⟨-7, Vector.replicate 50 200, Vector.replicate 100 128⟩

def extreme : BAKERY_RESPONSE := ⟨-7, 2147483647, -2147483648, Vector.replicate 100 255⟩

theorem formats_carry_negative :
    (requestLayout.write negative).take 8 = [255, 255, 255, 249, 255, 255, 255, 200] ∧
    xdr_BAKERY_REQUEST.Carries 604 negative (requestLayout.write negative) ∧
    xdr_BAKERY_RESPONSE.Carries 412 extreme (responseLayout.write extreme) :=
  ⟨rfl, formats_carry.1 negative (by decide),
    formats_carry.2 extreme (by decide) (by decide) (by decide)⟩

/-- The four bytes of one of the 150 characters of a request. -/
def charUnit (bytes : List UInt8) (i : Nat) : List UInt8 := (bytes.drop (4 + i * 4)).take 4

theorem requestLayout_exact_iff (bytes : List UInt8) (old : Request) (whole : bytes.length = 604) :
    requestLayout.Exact bytes old ↔ ∀ i < 150, Layout.SignExtended (charUnit bytes i) := by
  have number := Layout.exact_int (bytes.take 4) old.clientId (by rw [List.length_take, whole]; rfl)
  have first : ∀ i < 50, Layout.char.unit ((bytes.drop 4).take 200) i = charUnit bytes i := by
    intro i inside
    change (((bytes.drop 4).take 200).drop (i * 4)).take 4 = (bytes.drop (4 + i * 4)).take 4
    rw [List.drop_take, List.take_take, List.drop_drop, Nat.min_eq_left (by omega)]
  have second : ∀ i, Layout.char.unit ((bytes.drop 4).drop 200) i = charUnit bytes (50 + i) := by
    intro i
    change (((bytes.drop 4).drop 200).drop (i * 4)).take 4 = (bytes.drop (4 + (50 + i) * 4)).take 4
    rw [List.drop_drop, List.drop_drop]
    congr 2
    omega
  rw [requestLayout, Layout.exact_append fun _ _ => rfl, Layout.exact_append fun _ _ => rfl,
    Layout.exact_field fun _ _ => rfl, Layout.exact_field fun _ _ => rfl,
    Layout.exact_field fun _ _ => rfl]
  have types : ((bytes.drop 4).take 200).length = 50 * Layout.char.width := by
    rw [List.length_take, List.length_drop, whole]
    rfl
  have details : ((bytes.drop 4).drop 200).length = 100 * Layout.char.width := by
    rw [List.length_drop, List.length_drop, whole]
    rfl
  refine (and_iff_right number).trans ((and_congr (Layout.exact_vector _ _ _ types)
    (Layout.exact_vector _ _ _ details)).trans ?_)
  simp only [Layout.exact_char]
  constructor
  · rintro ⟨front, back⟩ i inside
    by_cases early : i < 50
    · rw [← first i early]
      exact front i early
    · have late : Layout.SignExtended (charUnit bytes (50 + (i - 50))) := by
        rw [← second]
        exact back (i - 50) (by omega)
      rwa [show 50 + (i - 50) = i by omega] at late
  · intro all
    refine ⟨fun i inside => ?_, fun i inside => ?_⟩
    · rw [first i inside]
      exact all i (by omega)
    · rw [second i]
      exact all (50 + i) (by omega)

/-- A request that has been decoded is encoded again in the same bytes exactly if every
character came with its sign in front of it. -/
theorem request_reencodes_iff {stream behind out : Stream} {old request : Request}
    (decoding : stream.op = .decode)
    (decoded : xdr_BAKERY_REQUEST stream old = some (behind, request))
    (encoding : out.op = .encode) (room : 604 ≤ out.handy.length) :
    xdr_BAKERY_REQUEST out request = some (out.put (stream.handy.take 604), request) ↔
      ∀ i < 150, Layout.SignExtended (charUnit stream.handy i) := by
  have follows := xdr_BAKERY_REQUEST_follows
  have whole : (stream.handy.take 604).length = 604 := by
    have taken := follows.decodes stream old decoding
    rw [decoded] at taken
    split at taken
    · rename_i enough
      exact List.length_take_of_le enough
    · cases taken
  have same : ∀ i < 150, charUnit (stream.handy.take 604) i = charUnit stream.handy i := by
    intro i inside
    rw [charUnit, charUnit, List.drop_take, List.take_take, Nat.min_eq_left (by omega)]
  refine (follows.encodes_same_iff old decoding decoded encoding room).trans
    ((requestLayout_exact_iff _ old whole).trans ?_)
  exact forall₂_congr fun i inside => by rw [same i inside]

theorem take_drop_replicate {unit : List UInt8} (four : unit.length = 4) (inside : i < count) :
    ((List.replicate count unit).flatten.drop (i * 4)).take 4 = unit := by
  induction count generalizing i with
  | zero => cases inside
  | succ count ih =>
    rw [List.replicate_succ, List.flatten_cons]
    cases i with
    | zero => simp [← four]
    | succ i =>
      rw [Nat.succ_mul, Nat.add_comm, ← List.drop_drop, ← four, List.drop_left, four]
      exact ih (Nat.lt_of_succ_lt_succ inside)

/-- A request of client -7 in which the byte 200 comes 150 times with this byte before it. -/
def padded (sign : UInt8) : List UInt8 :=
  [255, 255, 255, 249] ++ (List.replicate 150 [sign, sign, sign, 200]).flatten

theorem length_padded (sign : UInt8) : (padded sign).length = 604 := by
  rw [padded, List.length_append, List.length_flatten, List.map_replicate,
    List.sum_replicate_nat]
  simp only [List.length_cons, List.length_nil]

theorem charUnit_padded (sign : UInt8) (inside : i < 150) :
    charUnit (padded sign) i = [sign, sign, sign, 200] := by
  rw [charUnit, ← List.drop_drop]
  exact take_drop_replicate rfl inside

def wire (sign : UInt8) (op : Op) : Stream := ⟨op, [], padded sign, fun _ => true⟩

theorem request_reencodes_iff_padded :
    (∃ behind request, xdr_BAKERY_REQUEST (wire 255 .decode) .zeroed = some (behind, request) ∧
      xdr_BAKERY_REQUEST (wire 255 .encode) request =
        some ((wire 255 .encode).put ((padded 255).take 604), request)) ∧
    ∃ behind request, xdr_BAKERY_REQUEST (wire 0 .decode) .zeroed = some (behind, request) ∧
      xdr_BAKERY_REQUEST (wire 0 .encode) request ≠
        some ((wire 0 .encode).put ((padded 0).take 604), request) := by
  have decodes : ∀ sign, ∃ behind request,
      xdr_BAKERY_REQUEST (wire sign .decode) .zeroed = some (behind, request) ∧
      (xdr_BAKERY_REQUEST (wire sign .encode) request =
          some ((wire sign .encode).put ((padded sign).take 604), request) ↔
        ∀ i < 150, Layout.SignExtended (charUnit (padded sign) i)) := by
    intro sign
    have room : ∀ op, 604 ≤ (wire sign op).handy.length := fun _ => (length_padded sign).ge
    have decoded := xdr_BAKERY_REQUEST_follows.decodes (wire sign .decode) .zeroed rfl
    have whole : requestLayout.width ≤ (wire sign .decode).handy.length := room .decode
    rw [if_pos whole] at decoded
    exact ⟨_, _, decoded, request_reencodes_iff rfl decoded rfl (room .encode)⟩
  constructor
  · obtain ⟨behind, request, decoded, same⟩ := decodes 255
    exact ⟨behind, request, decoded,
      same.mpr fun i inside => ⟨200, (charUnit_padded 255 inside).trans rfl⟩⟩
  · obtain ⟨behind, request, decoded, same⟩ := decodes 0
    refine ⟨behind, request, decoded, fun encoded => ?_⟩
    obtain ⟨char, unit⟩ := same.mp encoded 0 (by decide)
    rw [charUnit_padded 0 (by decide)] at unit
    obtain ⟨sign, rfl⟩ : 0 = Layout.signByte char ∧ 200 = char := by simpa using unit
    exact absurd sign (by decide)

end OsLabs.Bakery
