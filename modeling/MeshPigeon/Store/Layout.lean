import MeshPigeon.Store.PacketStore

/-! Where the records of a store lie, and what one walk step over them reads. -/
namespace MeshPigeon

@[simp] theorem Payload.toNat_len (p : Payload) : p.len.toNat = p.1.length := by
  have := p.2
  simp only [Payload.len, UInt8.toNat_ofNat']
  omega

namespace PacketStore

/-- The header the ring keeps for an entry. -/
def header (e : StoredPacket) : Header := ⟨e.uptimeMs, e.seq, e.rssi, e.snr, e.flags, e.raw.len⟩

/-- The bytes of one record on the ring. -/
def record (e : StoredPacket) : List UInt8 := (header e).encode ++ e.raw.1

def size (e : StoredPacket) : Nat := 16 + e.raw.1.length

/-- The bytes of consecutive records. -/
def bytesOf (L : List StoredPacket) : List UInt8 := L.flatMap record

def span (L : List StoredPacket) : Nat := (L.map size).sum

@[simp] theorem length_encode (h : Header) : h.encode.length = 16 := by
  simp [Header.encode]

@[simp] theorem length_record (e : StoredPacket) : (record e).length = size e := by
  simp [record, size]

@[simp] theorem length_bytesOf (L : List StoredPacket) : (bytesOf L).length = span L := by
  induction L with
  | nil => rfl
  | cons e L ih => simp [bytesOf, span] at ih ⊢

@[simp] theorem span_nil : span [] = 0 := rfl
@[simp] theorem span_cons (e : StoredPacket) (L : List StoredPacket) :
    span (e :: L) = size e + span L := by simp [span]
@[simp] theorem span_append (A B : List StoredPacket) : span (A ++ B) = span A + span B := by
  simp [span]

theorem size_pos (e : StoredPacket) : 16 ≤ size e := by simp [size]

theorem span_pos {L : List StoredPacket} (h : L ≠ []) : 16 ≤ span L := by
  cases L with
  | nil => contradiction
  | cons e L => have := size_pos e; simp; omega

theorem decode_encode (h : Header) (tail : List UInt8) :
    Header.decode (h.encode ++ tail) = h := by
  cases h with | mk uptimeMs seq rssi snr flags len =>
  have h8 := LittleEndian.length_put 8 uptimeMs.toNat
  have h4 := LittleEndian.length_put 4 seq.toNat
  simp only [Header.decode, Header.encode, List.append_assoc]
  have t8 : ∀ r : List UInt8, (LittleEndian.put 8 uptimeMs.toNat ++ r).take 8 =
      LittleEndian.put 8 uptimeMs.toNat := fun r => by rw [List.take_left' h8]
  have d8 : ∀ r : List UInt8, (LittleEndian.put 8 uptimeMs.toNat ++ r).drop 8 = r :=
    fun r => by rw [List.drop_left' h8]
  have t4 : ∀ r : List UInt8, (LittleEndian.put 4 seq.toNat ++ r).take 4 =
      LittleEndian.put 4 seq.toNat := fun r => by rw [List.take_left' h4]
  simp only [t8, d8, t4, LittleEndian.uint64_roundtrip, LittleEndian.uint32_roundtrip]
  simp [List.getD, List.getElem?_append, h8, h4]

/-- The records `L` lie one after the other from `off` on. -/
def Held (s : PacketStore) (off : Nat) (L : List StoredPacket) : Prop :=
  Memory.load s.buf off (bytesOf L).length = bytesOf L

theorem held_nil (s : PacketStore) (off : Nat) : Held s off [] := rfl

theorem held_append {s : PacketStore} {off : Nat} {A B : List StoredPacket} :
    Held s off (A ++ B) ↔ Held s off A ∧ Held s (off + span A) B := by
  have hb : bytesOf (A ++ B) = bytesOf A ++ bytesOf B := by simp [bytesOf]
  unfold Held
  rw [hb, Memory.load_append_iff, length_bytesOf]

theorem held_cons {s : PacketStore} {off : Nat} {e : StoredPacket} {L : List StoredPacket} :
    Held s off (e :: L) ↔ Held s off [e] ∧ Held s (off + size e) L := by
  have split : Held s off ([e] ++ L) ↔ Held s off [e] ∧ Held s (off + span [e]) L := held_append
  simpa using split

/-- Frame: a store with the same bytes under the records still holds them. -/
theorem Held.congr {s t : PacketStore} {off : Nat} {L : List StoredPacket} (h : Held s off L)
    (same : ∀ i, off ≤ i → i < off + span L → s.buf i = t.buf i) : Held t off L := by
  unfold Held at h ⊢
  rw [← h]
  simpa using (Memory.load_congr (fun i lo hi => (same i lo (by simpa using hi)).symm))

theorem held_single {s : PacketStore} {off : Nat} {e : StoredPacket} :
    Held s off [e] ↔ Memory.load s.buf off 16 = (header e).encode ∧
      Memory.load s.buf (off + 16) e.raw.1.length = e.raw.1 := by
  have hb : bytesOf [e] = (header e).encode ++ e.raw.1 := by simp [bytesOf, record]
  unfold Held
  rw [hb, Memory.load_append_iff, length_encode]

/-! ## Reading a record -/

theorem readHeader_held {s : PacketStore} {off : UInt32} {e : StoredPacket}
    (held : Held s off.toNat [e]) (fits : off.toNat + size e ≤ s.capacity.toNat) :
    s.readHeader off = some (header e) := by
  have hsize := size_pos e
  have h := (held_single.mp held).1
  have hd := decode_encode (header e) []
  rw [List.append_nil] at hd
  simp only [readHeader, read]
  rw [if_pos (by unfold kStoredPacketOverhead; omega), h, Option.map_some, hd]

theorem readEntry_held {s : PacketStore} {off : UInt32} {e : StoredPacket}
    (held : Held s off.toNat [e]) (fits : off.toNat + size e ≤ s.capacity.toNat) :
    s.readEntry off (header e) = some e := by
  have h := (held_single.mp held).2
  have hl : (header e).len.toNat = e.raw.1.length := by simp [header]
  simp only [readEntry, hl]
  rw [if_pos (by unfold kStoredPacketOverhead; simp only [size] at fits; omega)]
  cases e with | mk seq uptimeMs rssi snr flags raw =>
    simp only [header, Option.some.injEq, StoredPacket.mk.injEq, true_and]
    exact Subtype.ext h

theorem toNat_nextOffset (s : PacketStore) (off : UInt32) (e : StoredPacket)
    (fits : off.toNat + size e < 2 ^ 32) :
    (s.nextOffset off e.raw.len).toNat =
      if s.wrap.toNat ≤ off.toNat + size e then 0 else off.toNat + size e := by
  have hnext : (off + 16 + e.raw.len.toUInt32).toNat = off.toNat + size e := by
    simp only [UInt32.toNat_add, UInt8.toNat_toUInt32, Payload.toNat_len, size] at fits ⊢
    simp only [UInt32.reduceToNat]
    omega
  simp only [nextOffset, ge_iff_le, UInt32.le_iff_toNat_le, hnext]
  split
  · rfl
  · exact hnext

/-! ## The layouts -/

/-- Where the live records lie: none at all, in one piece before the tail, or
up to `wrap` and then again from the front, which may still be empty or may
reach the head. -/
inductive Layout (s : PacketStore) : List StoredPacket → List StoredPacket → Prop
  | empty : s.headOff = s.tailOff → s.tailOff.toNat ≤ s.capacity.toNat →
      s.wrap = s.capacity → Layout s [] []
  | linear {A : List StoredPacket} : A ≠ [] → Held s s.headOff.toNat A →
      s.headOff.toNat + span A = s.tailOff.toNat → s.tailOff.toNat < s.capacity.toNat →
      s.wrap = s.capacity → Layout s A []
  | wrapped {A B : List StoredPacket} : A ≠ [] → Held s s.headOff.toNat A → Held s 0 B →
      s.headOff.toNat + span A = s.wrap.toNat → s.wrap.toNat ≤ s.capacity.toNat →
      span B = s.tailOff.toNat → s.tailOff.toNat ≤ s.headOff.toNat → Layout s A B

/-- Consecutive sequence numbers from `q` on. -/
def Numbered : UInt32 → List StoredPacket → Prop
  | _, [] => True
  | q, e :: L => e.seq = q ∧ Numbered (q + 1) L

/-- The store holds exactly the entries `L`, oldest first. -/
structure Holds (s : PacketStore) (L : List StoredPacket) : Prop where
  layout : ∃ A B, L = A ++ B ∧ Layout s A B
  count : s.count.toNat = L.length
  numbered : Numbered s.headSeq L
  next : s.nextSeq = s.headSeq + s.count

theorem new_holds (capacity : UInt32) : Holds (new capacity) [] :=
  ⟨⟨[], [], rfl, .empty rfl (by simp [new]) rfl⟩, rfl, trivial, rfl⟩

theorem clear_holds (s : PacketStore) : Holds s.clear [] :=
  ⟨⟨[], [], rfl, .empty rfl (by simp [clear]) rfl⟩, rfl, trivial, by simp [clear]⟩

/-- The oldest record, read where `headOff` points. -/
theorem Layout.head_held {s : PacketStore} {e : StoredPacket} {A B : List StoredPacket}
    (h : Layout s (e :: A) B) :
    Held s s.headOff.toNat [e] ∧ s.headOff.toNat + size e ≤ s.wrap.toNat ∧
      s.wrap.toNat ≤ s.capacity.toNat := by
  cases h with
  | linear _ held len tail wrap =>
    have hw := congrArg UInt32.toNat wrap
    simp only [span_cons] at len
    exact ⟨(held_cons.mp held).1, by omega, by omega⟩
  | wrapped _ held _ len wrap _ _ =>
    simp only [span_cons] at len
    exact ⟨(held_cons.mp held).1, by omega, wrap⟩

end PacketStore

end MeshPigeon
