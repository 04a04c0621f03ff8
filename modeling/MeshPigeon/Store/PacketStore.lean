import MeshPigeon.Lib.LittleEndian
import MeshPigeon.Lib.Memory

/-!
# The packet store

`packet_store.h` and `packet_store.cpp`: a pool of `capacity` bytes holding
variable-length records, oldest first. Words are the source's `uint32_t`, so
every offset computation wraps as it does there; a read or write outside the
pool has no result (`none`), as it has no meaning in the source.
-/
namespace MeshPigeon

/-- Raw on-air bytes with a `uint8_t` length. -/
abbrev Payload := { bs : List UInt8 // bs.length ≤ 255 }

def Payload.len (p : Payload) : UInt8 := UInt8.ofNat p.1.length

def kFlagSent : UInt8 := 0x01
def kFlagReceived : UInt8 := 0x02

structure StoredPacket where
  seq : UInt32
  uptimeMs : UInt64
  rssi : Int8
  snr : Int8
  flags : UInt8
  raw : Payload
  deriving DecidableEq, Repr

/-- uptime(64) + seq + rssi + snr + flags + len -/
abbrev kStoredPacketOverhead : Nat := 16

namespace PacketStore

structure Header where
  uptimeMs : UInt64
  seq : UInt32
  rssi : Int8
  snr : Int8
  flags : UInt8
  len : UInt8
  deriving DecidableEq, Repr

/-- The on-ring header: `[uptime_ms:u64][seq:u32][rssi:i8][snr:i8][flags:u8][len:u8]`. -/
def Header.encode (h : Header) : List UInt8 :=
  LittleEndian.put 8 h.uptimeMs.toNat ++ LittleEndian.put 4 h.seq.toNat ++
    [h.rssi.toUInt8, h.snr.toUInt8, h.flags, h.len]

def Header.decode (bs : List UInt8) : Header where
  uptimeMs := UInt64.ofNat (LittleEndian.get (bs.take 8))
  seq := UInt32.ofNat (LittleEndian.get ((bs.drop 8).take 4))
  rssi := (bs.getD 12 0).toInt8
  snr := (bs.getD 13 0).toInt8
  flags := bs.getD 14 0
  len := bs.getD 15 0

end PacketStore

open PacketStore

structure PacketStore where
  capacity : UInt32
  buf : Nat → UInt8
  headOff : UInt32 := 0
  tailOff : UInt32 := 0
  wrap : UInt32
  count : UInt32 := 0
  nextSeq : UInt32 := 1
  headSeq : UInt32 := 1
  dropped : UInt32 := 0

namespace PacketStore

/-- The constructor, its `calloc` assumed to succeed: a pool that cannot hold
one minimum entry is disabled outright. -/
def new (capacityBytes : UInt32) : PacketStore :=
  let capacity := if capacityBytes < 17 then 0 else capacityBytes
  { capacity, buf := fun _ => 0, wrap := capacity }

def freeBytes (s : PacketStore) : UInt32 :=
  if s.count = 0 then s.capacity
  else if s.headOff = s.tailOff then 0
  else if s.headOff > s.tailOff then s.headOff - s.tailOff
  else (s.wrap - s.tailOff) + s.headOff

def bytesUsed (s : PacketStore) : UInt32 := s.capacity - s.freeBytes

def oldestSeq (s : PacketStore) : UInt32 := if s.count = 0 then s.nextSeq else s.headSeq

/-- `memcpy` out of the pool. -/
def read (s : PacketStore) (off n : Nat) : Option (List UInt8) :=
  if off + n ≤ s.capacity.toNat then some (Memory.load s.buf off n) else none

/-- `memcpy` into the pool. -/
def write (s : PacketStore) (off : Nat) (bs : List UInt8) : Option PacketStore :=
  if off + bs.length ≤ s.capacity.toNat then some { s with buf := Memory.store s.buf off bs }
  else none

def readHeader (s : PacketStore) (off : UInt32) : Option Header :=
  (s.read off.toNat kStoredPacketOverhead).map Header.decode

def writeHeader (s : PacketStore) (off : UInt32) (h : Header) : Option PacketStore :=
  s.write off.toNat h.encode

/-- Unpack the record at `off`: the fields come from the header already read,
the bytes from the pool. -/
def readEntry (s : PacketStore) (off : UInt32) (h : Header) : Option StoredPacket :=
  if off.toNat + kStoredPacketOverhead + h.len.toNat ≤ s.capacity.toNat then
    some {
      seq := h.seq, uptimeMs := h.uptimeMs, rssi := h.rssi, snr := h.snr, flags := h.flags
      raw := ⟨Memory.load s.buf (off.toNat + kStoredPacketOverhead) h.len.toNat,
        by have := h.len.toNat_lt; simp; omega⟩ }
  else none

/-- Where the record at `off` ends, wrapping to the front at `wrap`. -/
def nextOffset (s : PacketStore) (off : UInt32) (len : UInt8) : UInt32 :=
  let next := off + 16 + len.toUInt32
  if next ≥ s.wrap then 0 else next

def popOldest (s : PacketStore) : Option PacketStore := do
  let h ← s.readHeader s.headOff
  let headOff := s.nextOffset s.headOff h.len
  -- tail segment exhausted: linear again
  let wrap := if headOff = 0 then s.capacity else s.wrap
  return { s with
    headOff, wrap, count := s.count - 1, headSeq := s.headSeq + 1, dropped := s.dropped + 1 }

/-- `while (count_ > 0 && cond) pop_oldest()`; every turn takes one entry, so
`count` turns are all there can be. -/
def popWhile (cond : PacketStore → Bool) : Nat → PacketStore → Option PacketStore
  | 0, s => some s
  | turns + 1, s =>
    if 0 < s.count && cond s then do popWhile cond turns (← s.popOldest) else some s

/-- What an append leaves: the store, the assigned seq (0 if nothing was
stored) and the entry as it landed in the ring. -/
structure Appended where
  store : PacketStore
  seq : UInt32
  stored : Option StoredPacket

/-- `head_off_ = tail_off_ = 0; wrap_ = capacity_`. -/
def rewind (s : PacketStore) : PacketStore :=
  { s with headOff := 0, tailOff := 0, wrap := s.capacity }

/-- Choose where the next record goes, after room has been made for it. -/
def place (s : PacketStore) (need : UInt32) : Option PacketStore := do
  if s.count = 0 then
    return s.rewind
  else if s.headOff > s.tailOff then
    return s
  else if s.wrap - s.tailOff < need then
    -- linear, and no room before the end: wrap the tail to the front
    let s ← popWhile (fun s => s.headOff < need) s.count.toNat s
    if s.count = 0 then
      return s.rewind
    else
      return { s with wrap := s.tailOff, tailOff := 0 }
  else
    return s

def append (s : PacketStore) (uptimeMs : UInt64) (rssi snr : Int8) (flags : UInt8)
    (raw : Payload) : Option Appended := do
  let need := 16 + raw.len.toUInt32
  if s.capacity = 0 || need > s.capacity then
    -- can never fit this pool: no seq consumed
    return ⟨{ s with dropped := s.dropped + 1 }, 0, none⟩
  else
    let s ← popWhile (fun s => s.freeBytes < need) s.count.toNat s
    let s ← s.place need
    let at' := s.tailOff
    let h : Header := ⟨uptimeMs, s.nextSeq, rssi, snr, flags, raw.len⟩
    let s ← s.writeHeader at' h
    let s ← s.write (at'.toNat + kStoredPacketOverhead) raw.1
    let stored ← s.readEntry at' h
    let tailOff := if at' + need ≥ s.wrap then 0 else at' + need
    return ⟨{ s with tailOff, count := s.count + 1, nextSeq := s.nextSeq + 1 }, s.nextSeq, stored⟩

/-- Sequence numbers do not restart, and `dropped` survives. -/
def clear (s : PacketStore) : PacketStore :=
  { s with headOff := 0, tailOff := 0, wrap := s.capacity, count := 0, headSeq := s.nextSeq }

/-- `n` steps of the walk from `off`. -/
def walk (s : PacketStore) : Nat → UInt32 → Option UInt32
  | 0, off => some off
  | n + 1, off => do
    let h ← s.readHeader off
    walk s n (s.nextOffset off h.len)

/-- `get`: the entry with the given seq, or `none` inside if it is absent. -/
def get (s : PacketStore) (seq : UInt32) : Option (Option StoredPacket) := do
  if s.count = 0 || seq < s.headSeq || seq ≥ s.nextSeq then
    return none
  else
    let off ← s.walk (seq - s.headSeq).toNat s.headOff
    let h ← s.readHeader off
    if h.seq ≠ seq then return none
    else return some (← s.readEntry off h)

/-- The loop of `fetch_since`. The callback threads a state of its own and
answers whether to go on. -/
def fetchLoop {σ : Type} (s : PacketStore) (sinceSeq maxCount : UInt32)
    (cb : σ → StoredPacket → Bool × σ) : Nat → UInt32 → UInt32 → σ → Option (UInt32 × σ)
  | 0, _, delivered, st => some (delivered, st)
  | n + 1, off, delivered, st =>
    if delivered < maxCount then do
      let h ← s.readHeader off
      let next := s.nextOffset off h.len
      if h.seq > sinceSeq then
        let e ← s.readEntry off h
        match cb st e with
        | (true, st) => fetchLoop s sinceSeq maxCount cb n next (delivered + 1) st
        | (false, st) => some (delivered, st)
      else
        fetchLoop s sinceSeq maxCount cb n next delivered st
    else
      some (delivered, st)

def fetchSince {σ : Type} (s : PacketStore) (sinceSeq maxCount : UInt32)
    (cb : σ → StoredPacket → Bool × σ) (st : σ) : Option (UInt32 × σ) :=
  s.fetchLoop sinceSeq maxCount cb s.count.toNat s.headOff 0 st

def countSince (s : PacketStore) (sinceSeq : UInt32) : UInt32 :=
  if s.count = 0 then 0
  else
    let first := if s.headSeq > sinceSeq then s.headSeq else sinceSeq + 1
    if first ≥ s.nextSeq then 0 else s.nextSeq - first

end PacketStore

end MeshPigeon
