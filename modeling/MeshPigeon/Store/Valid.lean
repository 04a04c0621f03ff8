import MeshPigeon.Store.Fifo

/-!
# Stores with well-placed records

A ring together with the fact that it holds some list of entries. None of the
store's operations can then read or write outside the pool, so each has a
result.
-/
namespace MeshPigeon

def Store : Type := { s : PacketStore // ∃ L, PacketStore.Holds s L }

namespace Store

open PacketStore

def new (capacityBytes : UInt32) : Store := ⟨PacketStore.new capacityBytes, [], new_holds _⟩

def clear (s : Store) : Store := ⟨s.1.clear, [], clear_holds _⟩

theorem append_isSome (s : Store) (uptimeMs : UInt64) (rssi snr : Int8) (flags : UInt8)
    (raw : Payload) : (s.1.append uptimeMs rssi snr flags raw).isSome := by
  obtain ⟨L, holds⟩ := s.2
  by_cases big : s.1.capacity.toNat < 16 + raw.1.length
  · rw [append_refused big]
    rfl
  · obtain ⟨t, K, run, _⟩ := append_stored holds uptimeMs rssi snr flags (Nat.le_of_not_lt big)
    rw [run]
    rfl

theorem append_valid {s : Store} {uptimeMs : UInt64} {rssi snr : Int8} {flags : UInt8}
    {raw : Payload} {a : PacketStore.Appended}
    (h : s.1.append uptimeMs rssi snr flags raw = some a) : ∃ L, Holds a.store L := by
  obtain ⟨L, holds⟩ := s.2
  by_cases big : s.1.capacity.toNat < 16 + raw.1.length
  · rw [append_refused big] at h
    obtain rfl := Option.some.inj h
    exact ⟨L, holds.counted⟩
  · obtain ⟨t, K, run, _, holds', _⟩ :=
      append_stored holds uptimeMs rssi snr flags (Nat.le_of_not_lt big)
    rw [run] at h
    obtain rfl := Option.some.inj h
    exact ⟨_, holds'⟩

/-- What an append leaves, the number it assigned, and the entry as stored. -/
structure Appended where
  store : Store
  seq : UInt32
  stored : Option StoredPacket

def append (s : Store) (uptimeMs : UInt64) (rssi snr : Int8) (flags : UInt8) (raw : Payload) :
    Appended :=
  let a := (s.1.append uptimeMs rssi snr flags raw).get (s.append_isSome ..)
  { store := ⟨a.store, append_valid (Option.some_get _).symm⟩, seq := a.seq, stored := a.stored }

theorem append_eq {s : Store} {uptimeMs : UInt64} {rssi snr : Int8} {flags : UInt8}
    {raw : Payload} {a : PacketStore.Appended}
    (h : s.1.append uptimeMs rssi snr flags raw = some a) :
    s.append uptimeMs rssi snr flags raw = ⟨⟨a.store, append_valid h⟩, a.seq, a.stored⟩ := by
  simp [append, h]

/-- The one way an append ends with a number: the entry is in the ring under it. -/
theorem append_spec (s : Store) (uptimeMs : UInt64) (rssi snr : Int8) (flags : UInt8)
    (raw : Payload) :
    ((s.append uptimeMs rssi snr flags raw).seq = 0 ∧
      (s.append uptimeMs rssi snr flags raw).stored = none ∧
      (s.append uptimeMs rssi snr flags raw).store.1 = { s.1 with dropped := s.1.dropped + 1 }) ∨
    ((s.append uptimeMs rssi snr flags raw).seq = s.1.nextSeq ∧
      (s.append uptimeMs rssi snr flags raw).stored =
        some ⟨s.1.nextSeq, uptimeMs, rssi, snr, flags, raw⟩ ∧
      (s.append uptimeMs rssi snr flags raw).store.1.nextSeq = s.1.nextSeq + 1 ∧
      ∃ K, Holds (s.append uptimeMs rssi snr flags raw).store.1
        (K ++ [⟨s.1.nextSeq, uptimeMs, rssi, snr, flags, raw⟩])) := by
  obtain ⟨L, holds⟩ := s.2
  by_cases big : s.1.capacity.toNat < 16 + raw.1.length
  · left
    simp [append, append_refused big]
  · right
    obtain ⟨t, K, run, _, holds', _, next⟩ :=
      append_stored holds uptimeMs rssi snr flags (Nat.le_of_not_lt big)
    rw [append_eq run]
    exact ⟨rfl, rfl, next, K, holds'⟩

theorem fetchSince_isSome {σ : Type} (s : Store) (sinceSeq maxCount : UInt32)
    (cb : σ → StoredPacket → Bool × σ) (st : σ) : (s.1.fetchSince sinceSeq maxCount cb st).isSome := by
  obtain ⟨L, holds⟩ := s.2
  have hcount := holds.count
  rw [PacketStore.fetchSince, hcount, holds.ahead.fetchLoop_eq sinceSeq maxCount cb 0 st
    (by have := s.1.count.toNat_lt; simp; omega) (UInt32.le_iff_toNat_le.mpr (by simp))]
  rfl

def fetchSince {σ : Type} (s : Store) (sinceSeq maxCount : UInt32)
    (cb : σ → StoredPacket → Bool × σ) (st : σ) : UInt32 × σ :=
  (s.1.fetchSince sinceSeq maxCount cb st).get (s.fetchSince_isSome ..)

/-- What every call of the callback keeps, the whole fetch keeps. -/
theorem fetchSince_rule {σ : Type} {s : Store} {sinceSeq maxCount : UInt32}
    {cb : σ → StoredPacket → Bool × σ} {st : σ} (P : σ → Prop) (start : P st)
    (call : ∀ st e, P st → P (cb st e).2) : P (s.fetchSince sinceSeq maxCount cb st).2 := by
  have loop : ∀ (n : Nat) (off delivered : UInt32) (st : σ) (out : UInt32 × σ), P st →
      s.1.fetchLoop sinceSeq maxCount cb n off delivered st = some out → P out.2 := by
    intro n
    induction n with
    | zero =>
      intro off delivered st out h run
      obtain rfl := Option.some.inj run
      exact h
    | succ n ih =>
      intro off delivered st out h run
      rw [PacketStore.fetchLoop] at run
      split at run
      · obtain ⟨header, _, run⟩ := Option.bind_eq_some_iff.mp run
        dsimp only at run
        split at run
        · obtain ⟨e, _, run⟩ := Option.bind_eq_some_iff.mp run
          have called := call st e h
          split at run
          · rename_i st' answer
            rw [answer] at called
            exact ih _ _ _ _ called run
          · rename_i st' answer
            rw [answer] at called
            obtain rfl := Option.some.inj run
            exact called
        · exact ih _ _ _ _ h run
      · obtain rfl := Option.some.inj run
        exact h
  exact loop _ _ _ _ _ start (Option.some_get _).symm

theorem fetchSince_eq {σ : Type} {s : Store} {L : List StoredPacket} (holds : Holds s.1 L)
    (sinceSeq maxCount : UInt32) (cb : σ → StoredPacket → Bool × σ) (st : σ) :
    s.fetchSince sinceSeq maxCount cb st =
      let r := deliver cb ((L.filter fun e => sinceSeq < e.seq).take maxCount.toNat) st
      (UInt32.ofNat r.1, r.2) := by
  have count := holds.count
  have loop := holds.ahead.fetchLoop_eq sinceSeq maxCount cb 0 st
    (by have := s.1.count.toNat_lt; simp; omega) (UInt32.le_iff_toNat_le.mpr (by simp))
  have fetched : s.1.fetchSince sinceSeq maxCount cb st =
      let r := deliver cb ((L.filter fun e => sinceSeq < e.seq).take maxCount.toNat) st
      some (UInt32.ofNat r.1, r.2) := by
    rw [PacketStore.fetchSince, count, loop]
    simp
  simp only [Store.fetchSince, fetched, Option.get_some]

/-- The entries a fetch goes through. -/
def page (s : Store) (sinceSeq maxCount : UInt32) : List StoredPacket :=
  (s.fetchSince sinceSeq maxCount (fun es e => (true, es ++ [e])) []).2

theorem foldl_snoc (L es : List StoredPacket) : L.foldl (fun es e => es ++ [e]) es = es ++ L := by
  induction L generalizing es with
  | nil => simp
  | cons e L ih => simp [ih]

theorem deliver_all {σ : Type} (f : σ → StoredPacket → σ) (L : List StoredPacket) (st : σ) :
    deliver (fun st e => (true, f st e)) L st = (L.length, L.foldl f st) := by
  induction L generalizing st with
  | nil => rfl
  | cons e L ih => simp [deliver, ih]

/-- The oldest entries after the cursor, as many as were asked for. -/
theorem page_eq {s : Store} {L : List StoredPacket} (holds : Holds s.1 L)
    (sinceSeq maxCount : UInt32) :
    s.page sinceSeq maxCount = (L.filter fun e => sinceSeq < e.seq).take maxCount.toNat := by
  rw [page, fetchSince_eq holds, deliver_all]
  exact foldl_snoc _ []

/-- A callback that never stops is called for the page. -/
theorem fetchSince_page {σ : Type} (s : Store) (sinceSeq maxCount : UInt32)
    (f : σ → StoredPacket → σ) (st : σ) :
    (s.fetchSince sinceSeq maxCount (fun st e => (true, f st e)) st).2 =
      (s.page sinceSeq maxCount).foldl f st := by
  obtain ⟨L, holds⟩ := s.2
  rw [page_eq holds, fetchSince_eq holds, deliver_all]

end Store

end MeshPigeon
