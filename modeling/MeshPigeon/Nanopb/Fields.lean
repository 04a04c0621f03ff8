import MeshPigeon.Core.Settings
import MeshPigeon.Nanopb.Stream

/-!
# Fields and messages

`pb_encode` and `pb_decode` over a table of fields. A field knows where in its
message it lives by a reader and a writer of that member; the table is the
`_FIELDLIST` of the generated header.
-/
namespace MeshPigeon.Nanopb

/-! ## Data types -/

/-- A C type and its arms of `encode_basic_field` and `decode_basic_field`. The decoder is handed
the old value, which it writes over in place. -/
structure DataType (α : Type) where
  wireType : Nat
  enc : OStream → α → Option OStream
  dec : IStream → α → Option (α × IStream)
  zero : α

/-- A type that can be a proto3 singular field, with its arm of
`pb_check_proto3_default_value`. -/
structure Scalar (α : Type) extends DataType α where
  isDefault : α → Bool

/-- `PB_LTYPE_BOOL` -/
def bool : Scalar Bool where
  wireType := wtVarint
  enc stream value := pbEncodeVarint stream (if value then 1 else 0)
  dec stream _ := (pbDecodeVarint32 stream).map fun (value, stream) => (value ≠ 0, stream)
  zero := false
  isDefault value := !value

/-- `PB_LTYPE_UVARINT` of four bytes, the unsigned enumerations among them. -/
def uint32 : Scalar UInt32 where
  wireType := wtVarint
  enc stream value := pbEncodeVarint stream value.toUInt64
  dec stream _ := (pbDecodeVarint stream).bind fun (value, stream) =>
    let clamped := value.toUInt32
    if clamped.toUInt64 ≠ value then none else some (clamped, stream)
  zero := 0
  isDefault value := value = 0

/-- `PB_LTYPE_UVARINT` of eight bytes. -/
def uint64 : Scalar UInt64 where
  wireType := wtVarint
  enc := pbEncodeVarint
  dec stream _ := pbDecodeVarint stream
  zero := 0
  isDefault value := value = 0

/-- `PB_LTYPE_VARINT` of four bytes: sent with its sign extended, read by its low word. -/
def int32 : Scalar Int32 where
  wireType := wtVarint
  enc stream value := pbEncodeVarint stream value.toInt64.toUInt64
  dec stream _ := (pbDecodeVarint stream).map fun (value, stream) =>
    (value.toUInt32.toInt32, stream)
  zero := 0
  isDefault value := value = 0

/-- A string written over what a `char[n]` held, with its terminator. -/
def overwrite {n : Nat} (old : CharArray n) (data : List UInt8) (fits : data.length + 1 ≤ n) :
    CharArray n :=
  ⟨data ++ 0 :: old.1.drop (data.length + 1), by
    have := old.2.1
    simp
    omega, by simp⟩

/-- `PB_LTYPE_STRING` in a `char[n + 1]`. -/
def string (n : Nat) : Scalar (CharArray (n + 1)) where
  wireType := wtString
  enc stream value := pbEncodeString stream value.str
  dec stream old := (pbDecodeVarint32 stream).bind fun (size, stream) =>
    if size = 0xFFFFFFFF then none
    else if fits : size.toNat + 1 ≤ n + 1 then
      match found : pbRead stream size.toNat with
      | none => none
      | some (data, stream) =>
        some (overwrite old data (by rw [(pbRead_eq_some.mp found).1]; exact fits), stream)
    else none
  zero := CharArray.padded (n + 1) [] (Nat.succ_pos n)
  isDefault value := value.str = []

/-- The bytes a `PB_BYTES_ARRAY_T(n)` has room for: a two-byte size stands before them and the
struct is padded to its alignment, so an odd `n` leaves one more. -/
def bytesRoom (n : Nat) : Nat := n + n % 2

/-- `PB_LTYPE_BYTES` in a `PB_BYTES_ARRAY_T(n)`. -/
def bytes (n : Nat) : Scalar (List UInt8) where
  wireType := wtString
  enc stream value := if value.length > bytesRoom n then none else pbEncodeString stream value
  dec stream _ := (pbDecodeVarint32 stream).bind fun (size, stream) =>
    if size.toNat > 0xFFFF then none
    else if size.toNat > bytesRoom n then none
    else pbRead stream size.toNat
  zero := []
  isDefault value := value = []

/-! ## Fields -/

/-- `encode_field` and `decode_field` for one line of the table; the decoder gets the wire type. -/
structure PbField (M : Type) where
  tag : Nat
  encode : OStream → M → Option OStream
  decode : Nat → IStream → M → Option (M × IStream)

def encodeBasicField {α : Type} (d : DataType α) (tag : Nat) (stream : OStream) (value : α) :
    Option OStream := (pbEncodeTag stream d.wireType tag).bind fun stream => d.enc stream value

def decodeBasicField {α : Type} (d : DataType α) (wireType : Nat) (stream : IStream) (old : α) :
    Option (α × IStream) := if wireType ≠ d.wireType then none else d.dec stream old

section
variable {M α : Type}

/-- `SINGULAR`: left out when it holds the default. -/
def singular (d : Scalar α) (tag : Nat) (get : M → α) (set : α → M → M) : PbField M where
  tag := tag
  encode stream m :=
    if d.isDefault (get m) then some stream else encodeBasicField d.toDataType tag stream (get m)
  decode wireType stream m :=
    (decodeBasicField d.toDataType wireType stream (get m)).map fun (value, stream) =>
      (set value m, stream)

/-- `OPTIONAL` with its `has_` flag: the member is `none` when that is false, and then holds the
zeros it was initialized with. -/
def optional (d : DataType α) (tag : Nat) (get : M → Option α) (set : Option α → M → M) :
    PbField M where
  tag := tag
  encode stream m :=
    match get m with
    | none => some stream
    | some value => encodeBasicField d tag stream value
  decode wireType stream m :=
    (decodeBasicField d wireType stream ((get m).getD d.zero)).map fun (value, stream) =>
      (set (some value) m, stream)

/-- `ONEOF`: present when `which_` holds its tag. The member is zeroed when another one was
there. -/
def oneof (d : DataType α) (tag : Nat) (member : M → Option α) (select : α → M → M) : PbField M :=
  optional d tag member fun value m => value.elim m fun value => select value m

/-- The values of an array, one after another. -/
def encodeEach (stream : OStream) (values : List UInt32) : Option OStream :=
  values.foldlM uint32.enc stream

/-- The turns of the loop over a packed array; what is left when the array is full is an
overflow. -/
def decodePacked (arraySize : Nat) : Nat → IStream → List UInt32 × Nat → Option (List UInt32 × Nat)
  | _, [], array => some array
  | 0, _ :: _, _ => none
  | n + 1, stream, (values, size) =>
    if size < arraySize then
      (uint32.dec stream 0).bind fun (value, stream) =>
        decodePacked arraySize n stream (values.set size value, size + 1)
    else none

/-- `REPEATED` in an array of `arraySize` numbers with its `_count`: sent packed, read packed or
one by one. -/
def repeated (arraySize : Nat) (tag : Nat) (get : M → List UInt32 × Nat)
    (set : List UInt32 × Nat → M → M) : PbField M where
  tag := tag
  encode stream m :=
    let (values, count) := get m
    if count = 0 then some stream
    else if count > arraySize then none
    else
      (pbEncodeTag stream wtString tag).bind fun stream =>
        (encodeEach OStream.sizing (values.take count)).bind fun sized =>
          (pbEncodeVarint stream (UInt64.ofNat sized.written.length)).bind fun stream =>
            match stream.maxSize with
            | none => pbWrite stream sized.written
            | some _ => encodeEach stream (values.take count)
  decode wireType stream m :=
    if wireType = wtString then
      (pbMakeStringSubstream stream).bind fun (substream, stream) =>
        (decodePacked arraySize substream.length substream (get m)).map fun array =>
          (set array m, stream)
    else
      let (values, size) := get m
      if size ≥ arraySize then none
      else
        (decodeBasicField uint32.toDataType wireType stream 0).map fun (value, stream) =>
          (set (values.set size value, size + 1) m, stream)

/-! ## Messages -/

def pbEncode (fields : List (PbField M)) (stream : OStream) (m : M) : Option OStream :=
  fields.foldlM (fun stream f => f.encode stream m) stream

/-- Every turn takes at least the byte of a tag, so the length of the input bounds the turns. -/
def pbDecodeInner (fields : List (PbField M)) : Nat → IStream → M → Option M
  | _, [], dest => some dest
  | 0, _ :: _, _ => none
  | n + 1, stream, dest =>
    (pbDecodeTag stream).bind fun ((tag, wireType), stream) =>
      if tag = 0 then none
      else
        match fields.find? fun f => f.tag = tag with
        | none =>
          (pbSkipField stream wireType).bind fun stream => pbDecodeInner fields n stream dest
        | some f =>
          (f.decode wireType stream dest).bind fun (dest, stream) =>
            pbDecodeInner fields n stream dest

/-- The message starts from its defaults, all of them zero. -/
def pbDecode (fields : List (PbField M)) (zero : M) (stream : IStream) : Option M :=
  pbDecodeInner fields stream.length stream zero

def pbEncodeSubmessage (fields : List (PbField M)) (stream : OStream) (m : M) : Option OStream :=
  (pbEncode fields OStream.sizing m).bind fun substream =>
    let size := substream.written.length
    (pbEncodeVarint stream (UInt64.ofNat size)).bind fun stream =>
      match stream.maxSize with
      | none => pbWrite stream substream.written
      | some maxSize =>
        if stream.written.length + size > maxSize then none
        else
          (pbEncode fields { maxSize := some size, written := [] } m).bind fun substream =>
            if substream.written.length ≠ size then none
            else some { stream with written := stream.written ++ substream.written }

/-- `PB_LTYPE_SUBMESSAGE`: decoded over what is there. -/
def message (fields : List (PbField M)) (zero : M) : DataType M where
  wireType := wtString
  enc := pbEncodeSubmessage fields
  dec stream old := (pbMakeStringSubstream stream).bind fun (substream, stream) =>
    (pbDecodeInner fields substream.length substream old).map fun m => (m, stream)
  zero := zero

end

end MeshPigeon.Nanopb
