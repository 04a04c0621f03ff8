import MeshPigeon.Lib.Cobs
import MeshPigeon.Lib.Crc

/-!
# Frames on the wire

`framing.h` and `framing.cpp`: the check sum, the streaming COBS encoder, the
capped decoder and the frame reader. A buffer and the length written into it is
the list of the bytes written.
-/
namespace MeshPigeon

/-- MESHPIGEON_MAX_FRAME_PAYLOAD, 512, and the two bytes of the check sum. -/
def frameMaxDecoded : Nat := 514
def frameMaxWire : Nat := 518

/-! ## CRC-16/CCITT-FALSE -/

def crcBit (crc : UInt16) : UInt16 :=
  if crc &&& 0x8000 ≠ 0 then (crc <<< 1) ^^^ 0x1021 else crc <<< 1

def crcByte (crc : UInt16) (data : UInt8) : UInt16 :=
  Nat.repeat crcBit 8 (crc ^^^ (data.toUInt16 <<< 8))

def crc16Ccitt (data : List UInt8) (init : UInt16) : UInt16 := data.foldl crcByte init

def frameCrc16 (envelope : List UInt8) : UInt16 := crc16Ccitt envelope 0xFFFF

/-- The check sum over all but the last two bytes of a decoded frame. -/
def frameCrc (frame : List UInt8) : UInt16 :=
  if frame.length < 2 then 0 else frameCrc16 (frame.take (frame.length - 2))

/-- The check sum in the order it is sent, low byte first. -/
def crcBytes (crc : UInt16) : List UInt8 := [(crc &&& 0xFF).toUInt8, (crc >>> 8).toUInt8]

def frameBuild (envelope : List UInt8) : List UInt8 := envelope ++ crcBytes (frameCrc16 envelope)

/-! ## The streaming encoder -/

/-- The bytes up to `out_`, where in them `code_ptr_` points, and the code of the open run. -/
structure CobsEncoder where
  out : List UInt8
  codePtr : Nat
  code : UInt8
  deriving DecidableEq, Repr

namespace CobsEncoder

/-- The first byte is kept for the first run's code. -/
def new : CobsEncoder := { out := [0], codePtr := 0, code := 1 }

def closeBlock (e : CobsEncoder) : CobsEncoder :=
  { out := e.out.set e.codePtr e.code ++ [0], codePtr := e.out.length, code := 1 }

def put (e : CobsEncoder) (v : UInt8) : CobsEncoder :=
  if v = 0 then e.closeBlock
  else
    let e' : CobsEncoder := { e with out := e.out ++ [v], code := e.code + 1 }
    if e'.code = 0xFF then e'.closeBlock else e'

def finish (e : CobsEncoder) : List UInt8 := e.out.set e.codePtr e.code

end CobsEncoder

def cobsEncode (src : List UInt8) : List UInt8 := (src.foldl CobsEncoder.put CobsEncoder.new).finish

/-- Every turn takes at least the code byte, so the length of the input bounds the turns. -/
def cobsDecodeLoop (dstCap : Nat) : Nat → List UInt8 → List UInt8 → List UInt8
  | 0, _, dst => dst
  | _ + 1, [], dst => dst
  | n + 1, code :: src, dst =>
    if code = 0 then []
    else
      let block := code.toNat - 1
      if src.length < block then []
      else if dst.length + block > dstCap then []
      else
        let dst := dst ++ src.take block
        let src := src.drop block
        if code < 0xFF ∧ src ≠ [] then
          if dst.length ≥ dstCap then [] else cobsDecodeLoop dstCap n src (dst ++ [0])
        else cobsDecodeLoop dstCap n src dst

/-- The empty list is the source's 0: malformed, too long, or nothing to decode. -/
def cobsDecode (src : List UInt8) (dstCap : Nat) : List UInt8 :=
  cobsDecodeLoop dstCap src.length src []

def frameEncodeWire (decoded : List UInt8) : List UInt8 := cobsEncode decoded ++ [0]

def frameEncodeEnvelope (envelope : List UInt8) : List UInt8 :=
  if envelope.length + 2 > frameMaxDecoded then []
  else
    let crc := frameCrc16 envelope
    let enc := envelope.foldl CobsEncoder.put CobsEncoder.new
    let enc := (enc.put (crc &&& 0xFF).toUInt8).put (crc >>> 8).toUInt8
    enc.finish ++ [0]

/-! ## The reader -/

structure FrameReader where
  wire : List UInt8
  overflow : Bool
  fits : wire.length ≤ frameMaxWire
  deriving DecidableEq, Repr

namespace FrameReader

def reset : FrameReader := { wire := [], overflow := false, fits := by decide }

def new : FrameReader := reset

/-- What one byte yields. A complete frame whose envelope is empty is `none` too, as both are 0. -/
inductive Fed where
  | none
  | unusable
  | envelope (payload : List UInt8)
  deriving DecidableEq, Repr

/-- The returned length as the source's callers read it: 0 is no envelope. -/
def Fed.ofPayload (payload : List UInt8) : Fed := if payload = [] then none else envelope payload

def feed (r : FrameReader) (byte : UInt8) : FrameReader × Fed :=
  if byte = 0 then
    if r.overflow ∨ r.wire.length = 0 then (reset, .none)
    else
      let frame := cobsDecode r.wire frameMaxDecoded
      let n := frame.length
      if n < 2 then (reset, .unusable)
      else if frameCrc frame ≠
          (frame.getD (n - 2) 0).toUInt16 ||| ((frame.getD (n - 1) 0).toUInt16 <<< 8) then
        (reset, .unusable)
      else (reset, .ofPayload (frame.take (n - 2)))
  else if full : r.wire.length ≥ frameMaxWire then ({ r with overflow := true }, .none)
  else
    ({ r with wire := r.wire ++ [byte],
              fits := by rw [List.length_append]; exact Nat.lt_of_not_ge full }, .none)

end FrameReader

end MeshPigeon
