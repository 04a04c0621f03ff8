import Mathlib.Algebra.Ring.Nat
import Mathlib.Data.List.Basic
import Mathlib.Tactic.Common

/-!
# Streams

The part of `pb_decode.c` and `pb_encode.c` below the fields: reading and
writing bytes, numbers, tags and strings. `none` is the source's `false`; the
text a stream keeps of its first error is not read by anyone.
-/
namespace MeshPigeon.Nanopb

/-- `PB_WT_*` -/
def wtVarint : Nat := 0
def wt64Bit : Nat := 1
def wtString : Nat := 2
def wt32Bit : Nat := 5

/-! ## Input -/

/-- `pb_istream_t`: the bytes left. -/
abbrev IStream := List UInt8

def pbReadbyte : IStream → Option (UInt8 × IStream)
  | [] => none
  | byte :: stream => some (byte, stream)

def pbRead (stream : IStream) (count : Nat) : Option (List UInt8 × IStream) :=
  if stream.length < count then none else some (stream.take count, stream.drop count)

theorem pbRead_eq_some {stream rest : IStream} {count : Nat} {data : List UInt8} :
    pbRead stream count = some (data, rest) ↔ data.length = count ∧ stream = data ++ rest := by
  unfold pbRead
  constructor
  · intro h
    obtain ⟨enough, same⟩ := Option.ite_none_left_eq_some.mp h
    obtain ⟨rfl, rfl⟩ := Prod.mk.inj (Option.some.inj same)
    exact ⟨List.length_take_of_le (Nat.not_lt.mp enough), (List.take_append_drop ..).symm⟩
  · rintro ⟨rfl, rfl⟩
    simp

/-- What one byte after the first does to the result; `none` is "varint overflow". -/
def varint32Group (byte : UInt8) (bitpos : Nat) (result : UInt32) : Option UInt32 :=
  if bitpos ≥ 32 then
    -- trailing 0x80 bytes, or 0xFF for a negative number
    let signExtension : UInt8 := if bitpos < 63 then 0xFF else 0x01
    let validExtension := byte &&& 0x7F = 0 ∨ (result >>> 31 ≠ 0 ∧ byte = signExtension)
    if bitpos ≥ 64 ∨ ¬validExtension then none else some result
  else if bitpos = 28 then
    if byte &&& 0x70 ≠ 0 ∧ byte &&& 0x78 ≠ 0x78 then none
    else some (result ||| ((byte &&& 0x0F).toUInt32 <<< 28))
  else some (result ||| ((byte &&& 0x7F).toUInt32 <<< UInt32.ofNat bitpos))

/-- The turns of the loop for numbers of more than one byte. -/
def varint32More : IStream → Nat → UInt32 → Option (UInt32 × IStream)
  | [], _, _ => none
  | byte :: stream, bitpos, result =>
    match varint32Group byte bitpos result with
    | none => none
    | some result =>
      if byte &&& 0x80 ≠ 0 then varint32More stream (bitpos + 7) result else some (result, stream)

def pbDecodeVarint32 (stream : IStream) : Option (UInt32 × IStream) :=
  (pbReadbyte stream).bind fun (byte, stream) =>
    if byte &&& 0x80 = 0 then some (byte.toUInt32, stream)
    else varint32More stream 7 (byte &&& 0x7F).toUInt32

def varintMore : IStream → Nat → UInt64 → Option (UInt64 × IStream)
  | [], _, _ => none
  | byte :: stream, bitpos, result =>
    if bitpos ≥ 63 ∧ byte &&& 0xFE ≠ 0 then none
    else
      let result := result ||| ((byte &&& 0x7F).toUInt64 <<< UInt64.ofNat bitpos)
      if byte &&& 0x80 ≠ 0 then varintMore stream (bitpos + 7) result else some (result, stream)

def pbDecodeVarint (stream : IStream) : Option (UInt64 × IStream) := varintMore stream 0 0

def pbSkipVarint : IStream → Option IStream
  | [] => none
  | byte :: stream => if byte &&& 0x80 ≠ 0 then pbSkipVarint stream else some stream

def pbSkipString (stream : IStream) : Option IStream :=
  (pbDecodeVarint32 stream).bind fun (length, stream) =>
    (pbRead stream length.toNat).map Prod.snd

/-- The tag's number and its wire type. -/
def pbDecodeTag (stream : IStream) : Option ((Nat × Nat) × IStream) :=
  (pbDecodeVarint32 stream).map fun (tag, stream) =>
    (((tag >>> 3).toNat, (tag &&& 7).toNat), stream)

def pbSkipField (stream : IStream) (wireType : Nat) : Option IStream :=
  if wireType = wtVarint then pbSkipVarint stream
  else if wireType = wt64Bit then (pbRead stream 8).map Prod.snd
  else if wireType = wtString then pbSkipString stream
  else if wireType = wt32Bit then (pbRead stream 4).map Prod.snd
  else none

/-- The substream, and the parent stream once it is closed. -/
def pbMakeStringSubstream (stream : IStream) : Option (IStream × IStream) :=
  (pbDecodeVarint32 stream).bind fun (size, stream) =>
    if stream.length < size.toNat then none
    else some (stream.take size.toNat, stream.drop size.toNat)

/-! ## Output -/

/-- `pb_ostream_t`. Without a size it is `PB_OSTREAM_SIZING`, which has no callback and only
counts; what it counted stands in `written` too. -/
structure OStream where
  maxSize : Option Nat
  written : List UInt8
  deriving DecidableEq, Repr

def OStream.sizing : OStream := { maxSize := none, written := [] }

def pbOstreamFromBuffer (bufsize : Nat) : OStream := { maxSize := some bufsize, written := [] }

def pbWrite (stream : OStream) (buf : List UInt8) : Option OStream :=
  if 0 < buf.length ∧ stream.maxSize.any (fun size => stream.written.length + buf.length > size) then
    none
  else some { stream with written := stream.written ++ buf }

/-- The groups of the low word, at most four of them before the one left in `byte`. -/
def lowGroups : Nat → UInt8 → UInt32 → UInt32 → List UInt8 → List UInt8 × UInt8
  | 0, byte, _, _, buffer => (buffer, byte)
  | n + 1, byte, low, high, buffer =>
    if low ≠ 0 ∨ high ≠ 0 then
      lowGroups n (low &&& 0x7F).toUInt8 (low >>> 7) high (buffer ++ [byte ||| 0x80])
    else (buffer, byte)

/-- The groups of the rest of the high word: 29 bits, so five turns are enough. -/
def highGroups : Nat → UInt8 → UInt32 → List UInt8 → List UInt8 × UInt8
  | 0, byte, _, buffer => (buffer, byte)
  | n + 1, byte, high, buffer =>
    if high ≠ 0 then highGroups n (high &&& 0x7F).toUInt8 (high >>> 7) (buffer ++ [byte ||| 0x80])
    else (buffer, byte)

/-- The bytes `pb_encode_varint_32` puts in its buffer. -/
def varint32Bytes (low high : UInt32) : List UInt8 :=
  let (buffer, byte) := lowGroups 4 (low &&& 0x7F).toUInt8 (low >>> 7) high []
  let (buffer, byte) :=
    if high ≠ 0 then highGroups 5 (byte ||| ((high &&& 0x07) <<< 4).toUInt8) (high >>> 3) buffer
    else (buffer, byte)
  buffer ++ [byte]

def pbEncodeVarint32 (stream : OStream) (low high : UInt32) : Option OStream :=
  pbWrite stream (varint32Bytes low high)

def pbEncodeVarint (stream : OStream) (value : UInt64) : Option OStream :=
  if value ≤ 0x7F then pbWrite stream [value.toUInt8]
  else pbEncodeVarint32 stream value.toUInt32 (value >>> 32).toUInt32

def pbEncodeTag (stream : OStream) (wireType fieldNumber : Nat) : Option OStream :=
  pbEncodeVarint stream ((UInt64.ofNat fieldNumber <<< 3) ||| UInt64.ofNat wireType)

def pbEncodeString (stream : OStream) (buffer : List UInt8) : Option OStream :=
  (pbEncodeVarint stream (UInt64.ofNat buffer.length)).bind fun stream => pbWrite stream buffer

end MeshPigeon.Nanopb
