import MeshPigeon.Store.Accounting
import MeshPigeon.Store.Tiled
import MeshPigeon.Store.Valid

/-!
# Checked accesses

The store once more, now with no result where an offset computation wraps, where
a header is read that no live record starts with, or where a record is written
that does not start at the end of the walk or covers a byte in use.
-/
namespace MeshPigeon.PacketStore

namespace Checked

def add (a b : UInt32) : Option UInt32 := if a.toNat + b.toNat < 2 ^ 32 then some (a + b) else none

def sub (a b : UInt32) : Option UInt32 := if b ≤ a then some (a - b) else none

/-- A live record starts at `off`. -/
def OnRecord (s : PacketStore) (off : UInt32) : Prop :=
  ∃ i, i < s.count.toNat ∧ s.walk i s.headOff = some off

instance (s : PacketStore) (off : UInt32) : Decidable (OnRecord s off) :=
  inferInstanceAs (Decidable (∃ i, i < s.count.toNat ∧ s.walk i s.headOff = some off))

/-- The next record of `need` bytes may start at `off`. -/
def OnEnd (s : PacketStore) (off need : UInt32) : Prop :=
  s.walk s.count.toNat s.headOff = some off ∧ ∀ b, b < need.toNat → ¬s.InUse (off.toNat + b)

instance (s : PacketStore) (off need : UInt32) : Decidable (OnEnd s off need) :=
  inferInstanceAs (Decidable (_ ∧ ∀ b, b < need.toNat → ¬s.InUse (off.toNat + b)))

def readHeader (s : PacketStore) (off : UInt32) : Option Header :=
  if OnRecord s off then s.readHeader off else none

def writeHeader (s : PacketStore) (off need : UInt32) (h : Header) : Option PacketStore :=
  if OnEnd s off need then s.writeHeader off h else none

def freeBytes (s : PacketStore) : Option UInt32 :=
  if s.count = 0 then some s.capacity
  else if s.headOff = s.tailOff then some 0
  else if s.headOff > s.tailOff then sub s.headOff s.tailOff
  else do add (← sub s.wrap s.tailOff) s.headOff

/-- `free_bytes() < need` -/
def tooFew (need : UInt32) (s : PacketStore) : Option Bool := do return (← freeBytes s) < need

def bytesUsed (s : PacketStore) : Option UInt32 := do sub s.capacity (← freeBytes s)

def nextOffset (s : PacketStore) (off : UInt32) (len : UInt8) : Option UInt32 := do
  let next ← add (← add off 16) len.toUInt32
  return if next ≥ s.wrap then 0 else next

def popOldest (s : PacketStore) : Option PacketStore := do
  let h ← readHeader s s.headOff
  let headOff ← nextOffset s s.headOff h.len
  let wrap := if headOff = 0 then s.capacity else s.wrap
  return { s with
    headOff, wrap, count := ← sub s.count 1, headSeq := s.headSeq + 1, dropped := s.dropped + 1 }

def popWhile (cond : PacketStore → Option Bool) : Nat → PacketStore → Option PacketStore
  | 0, s => some s
  | turns + 1, s =>
    if 0 < s.count then do
      if ← cond s then popWhile cond turns (← popOldest s) else return s
    else some s

def place (s : PacketStore) (need : UInt32) : Option PacketStore := do
  if s.count = 0 then
    return s.rewind
  else if s.headOff > s.tailOff then
    return s
  else if (← sub s.wrap s.tailOff) < need then
    let s ← popWhile (fun s => some (s.headOff < need)) s.count.toNat s
    if s.count = 0 then
      return s.rewind
    else
      return { s with wrap := s.tailOff, tailOff := 0 }
  else
    return s

def append (s : PacketStore) (uptimeMs : UInt64) (rssi snr : Int8) (flags : UInt8)
    (raw : Payload) : Option Appended := do
  let need ← add 16 raw.len.toUInt32
  if s.capacity = 0 || need > s.capacity then
    return ⟨{ s with dropped := s.dropped + 1 }, 0, none⟩
  else
    let s ← popWhile (tooFew need) s.count.toNat s
    let s ← place s need
    let at' := s.tailOff
    let h : Header := ⟨uptimeMs, s.nextSeq, rssi, snr, flags, raw.len⟩
    let s ← writeHeader s at' need h
    let s ← s.write (at'.toNat + kStoredPacketOverhead) raw.1
    let stored ← s.readEntry at' h
    let tailOff ← add at' need
    let tailOff := if tailOff ≥ s.wrap then 0 else tailOff
    return ⟨{ s with tailOff, count := ← add s.count 1, nextSeq := s.nextSeq + 1 }, s.nextSeq, stored⟩

def walk (s : PacketStore) : Nat → UInt32 → Option UInt32
  | 0, off => some off
  | n + 1, off => do
    let h ← readHeader s off
    walk s n (← nextOffset s off h.len)

def get (s : PacketStore) (seq : UInt32) : Option (Option StoredPacket) := do
  if s.count = 0 || seq < s.headSeq || seq ≥ s.nextSeq then
    return none
  else
    let off ← walk s (← sub seq s.headSeq).toNat s.headOff
    let h ← readHeader s off
    if h.seq ≠ seq then return none
    else return some (← s.readEntry off h)

def fetchLoop {σ : Type} (s : PacketStore) (sinceSeq maxCount : UInt32)
    (cb : σ → StoredPacket → Bool × σ) : Nat → UInt32 → UInt32 → σ → Option (UInt32 × σ)
  | 0, _, delivered, st => some (delivered, st)
  | n + 1, off, delivered, st =>
    if delivered < maxCount then do
      let h ← readHeader s off
      let next ← nextOffset s off h.len
      if h.seq > sinceSeq then
        let e ← s.readEntry off h
        match cb st e with
        | (true, st) => fetchLoop s sinceSeq maxCount cb n next (← add delivered 1) st
        | (false, st) => some (delivered, st)
      else
        fetchLoop s sinceSeq maxCount cb n next delivered st
    else
      some (delivered, st)

def fetchSince {σ : Type} (s : PacketStore) (sinceSeq maxCount : UInt32)
    (cb : σ → StoredPacket → Bool × σ) (st : σ) : Option (UInt32 × σ) :=
  fetchLoop s sinceSeq maxCount cb s.count.toNat s.headOff 0 st

def exec (s : PacketStore) : Fifo.Op → Option (UInt32 × PacketStore)
  | .append uptimeMs rssi snr flags raw => do
    let a ← append s uptimeMs rssi snr flags raw
    return (a.seq, a.store)
  | .clear => some (0, s.clear)

def run (s : PacketStore) : List Fifo.Op → Option (List UInt32 × PacketStore)
  | [] => some ([], s)
  | op :: ops => do
    let (r, t) ← exec s op
    let (rs, u) ← run t ops
    return (r :: rs, u)

/-! ## Where the words stay in range -/

theorem add_eq {a b : UInt32} (fits : a.toNat + b.toNat < 2 ^ 32) : add a b = some (a + b) := if_pos fits

theorem sub_eq {a b : UInt32} (below : b.toNat ≤ a.toNat) : sub a b = some (a - b) :=
  if_pos (UInt32.le_iff_toNat_le.mpr below)

theorem need_eq (raw : Payload) : add 16 raw.len.toUInt32 = some (16 + raw.len.toUInt32) := by
  have := raw.len.toNat_lt
  refine add_eq ?_
  rw [UInt8.toNat_toUInt32]
  show 16 + raw.len.toNat < 2 ^ 32
  omega

section

variable {s : PacketStore} {L : List StoredPacket}

theorem nextOffset_eq {off : UInt32} {e : StoredPacket} (h : At s off e) :
    nextOffset s off e.raw.len = some (s.nextOffset off e.raw.len) := by
  have fits := h.fits
  have cap := s.capacity.toNat_lt
  have sixteen : (16 : UInt32).toNat = 16 := rfl
  rw [size] at fits
  have first : add off 16 = some (off + 16) := add_eq (by rw [sixteen]; omega)
  have front : (off + 16).toNat = off.toNat + 16 := by
    rw [UInt32.toNat_add, sixteen]
    omega
  have second : add (off + 16) e.raw.len.toUInt32 = some (off + 16 + e.raw.len.toUInt32) := by
    refine add_eq ?_
    rw [front, UInt8.toNat_toUInt32, Payload.toNat_len]
    omega
  rw [nextOffset, first, Option.bind_eq_bind, Option.bind_some, second]
  rfl

theorem readHeader_eq {off : UInt32} {i : Nat} (live : i < s.count.toNat)
    (walked : s.walk i s.headOff = some off) : readHeader s off = s.readHeader off :=
  if_pos ⟨i, live, walked⟩

theorem freeBytes_spec (h : Holds s L) :
    freeBytes s = some s.freeBytes ∧ s.freeBytes.toNat ≤ s.capacity.toNat := by
  rw [freeBytes, PacketStore.freeBytes]
  by_cases none : s.count = 0
  · rw [if_pos none, if_pos none]
    exact ⟨rfl, Nat.le_refl _⟩
  rw [if_neg none, if_neg none]
  by_cases meet : s.headOff = s.tailOff
  · rw [if_pos meet, if_pos meet]
    exact ⟨rfl, Nat.zero_le _⟩
  rw [if_neg meet, if_neg meet]
  have cap := s.capacity.toNat_lt
  obtain ⟨A, B, rfl, layout⟩ := h.layout
  cases layout with
  | empty same => exact absurd same meet
  | linear ne held ends inside wrap =>
    have hw := congrArg UInt32.toNat wrap
    have positive := span_pos ne
    have below : ¬s.headOff > s.tailOff := by
      rw [gt_iff_lt, UInt32.lt_iff_toNat_lt]
      omega
    have back : (s.wrap - s.tailOff).toNat = s.wrap.toNat - s.tailOff.toNat :=
      UInt32.toNat_sub_of_le _ _ (UInt32.le_iff_toNat_le.mpr (by omega))
    rw [if_neg below, if_neg below, sub_eq (by omega), Option.bind_eq_bind, Option.bind_some]
    refine ⟨add_eq (by omega), ?_⟩
    rw [UInt32.toNat_add, back]
    omega
  | wrapped ne held front ends inside btail full =>
    have apart : s.headOff.toNat ≠ s.tailOff.toNat := fun same => meet (UInt32.toNat_inj.mp same)
    have above : s.headOff > s.tailOff := UInt32.lt_iff_toNat_lt.mpr (by omega)
    rw [if_pos above, if_pos above,
      UInt32.toNat_sub_of_le _ _ (UInt32.le_iff_toNat_le.mpr (by omega))]
    exact ⟨sub_eq (by omega), by omega⟩

theorem bytesUsed_eq (h : Holds s L) : bytesUsed s = some s.bytesUsed := by
  obtain ⟨free, inside⟩ := freeBytes_spec h
  rw [bytesUsed, free]
  exact sub_eq inside

/-! ## The same steps -/

/-- The record that `i` steps of the walk lead to, what is read there, and one step more. -/
theorem visited (h : Holds s L) {i : Nat} {off : UInt32} (live : i < s.count.toNat)
    (walked : s.walk i s.headOff = some off) :
    ∃ e, At s off e ∧ readHeader s off = some (header e) ∧
      nextOffset s off (header e).len = some (s.nextOffset off (header e).len) ∧
      s.walk (i + 1) s.headOff = some (s.nextOffset off (header e).len) := by
  have inside := live
  rw [h.count] at inside
  obtain ⟨off', walked', ahead⟩ := h.ahead.walk_eq i (Nat.le_of_lt inside)
  obtain rfl := Option.some.inj (walked'.symm.trans walked)
  rw [List.drop_eq_getElem_cons inside] at ahead
  cases ahead with
  | step here rest =>
    refine ⟨_, here, (readHeader_eq live walked).trans here.readHeader_eq, nextOffset_eq here, ?_⟩
    rw [walk_add, walked]
    exact here.walk_one

theorem popOldest_eq {e : StoredPacket} (h : Holds s (e :: L)) : popOldest s = s.popOldest := by
  have count := h.count
  rw [List.length_cons] at count
  obtain ⟨d, here, read, next, _⟩ := visited h (i := 0) (by omega) rfl
  rw [popOldest, PacketStore.popOldest, read, here.readHeader_eq]
  simp only [Option.bind_eq_bind, Option.bind_some]
  rw [next, Option.bind_some, sub_eq (by rw [count]; exact Nat.le_add_left ..)]
  rfl

theorem popWhile_eq {cond : PacketStore → Bool} {cond' : PacketStore → Option Bool}
    (same : ∀ s e L, Holds s (e :: L) → cond' s = some (cond s)) (turns : Nat) (h : Holds s L) :
    popWhile cond' turns s = PacketStore.popWhile cond turns s := by
  induction turns generalizing s L with
  | zero => rfl
  | succ turns ih =>
    cases L with
    | nil =>
      have none : s.count = 0 := h.count_eq_zero.mpr rfl
      rw [popWhile, PacketStore.popWhile, none]
      rfl
    | cons e L =>
      have live : 0 < s.count := by
        rw [UInt32.lt_iff_toNat_lt, h.count]
        exact Nat.succ_pos _
      rw [popWhile, PacketStore.popWhile, if_pos live, same s e L h]
      cases more : cond s with
      | false => simp
      | true =>
        obtain ⟨popped, rest⟩ := popOldest_holds h
        simp only [Option.bind_eq_bind, Option.bind_some, if_true, popOldest_eq h, popped, live,
          decide_true, Bool.and_self]
        exact ih rest

theorem place_eq (h : Holds s L) (need : UInt32) : place s need = s.place need := by
  rw [place, PacketStore.place]
  by_cases none : s.count = 0
  · rw [if_pos none, if_pos none]
  rw [if_neg none, if_neg none]
  by_cases above : s.headOff > s.tailOff
  · rw [if_pos above, if_pos above]
  rw [if_neg above, if_neg above]
  rw [gt_iff_lt, UInt32.lt_iff_toNat_lt] at above
  have ordered : s.tailOff.toNat ≤ s.wrap.toNat := by
    obtain ⟨A, B, rfl, layout⟩ := h.layout
    cases layout with
    | empty _ inside wrap => rw [wrap]; exact inside
    | linear _ _ _ inside wrap => rw [wrap]; exact Nat.le_of_lt inside
    | wrapped ne _ _ ends inside _ full => omega
  rw [sub_eq ordered, Option.bind_eq_bind, Option.bind_some,
    popWhile_eq (fun _ _ _ _ => rfl) s.count.toNat h]

theorem onEnd_of_room {need : UInt32} (h : Holds s L) (room : Room s need.toNat L) :
    OnEnd s s.tailOff need := by
  refine ⟨?_, ?_⟩
  · obtain ⟨A, B, rfl, layout⟩ := h.layout
    rw [h.count]
    exact layout.walk_end
  · rintro b below ⟨live, within⟩
    cases room with
    | back held ends wrap fits =>
      have positive := span_pos (mt h.count_eq_zero.mpr live)
      rw [if_pos (UInt32.lt_iff_toNat_lt.mpr (by omega))] at within
      omega
    | front ne held front ends inside btail fits =>
      have behind : ¬s.headOff < s.tailOff := by
        rw [UInt32.lt_iff_toNat_lt]
        omega
      rw [if_neg behind] at within
      omega

/-- The words that one more record moves. -/
theorem room_words {e : StoredPacket} (h : Holds s L) (room : Room s (size e) L)
    (seq : e.seq = s.nextSeq) {need : UInt32} (whole : need.toNat = size e) :
    add s.count 1 = some (s.count + 1) ∧ add s.tailOff need = some (s.tailOff + need) := by
  have below := room.fits
  have cap := s.capacity.toNat_lt
  have counted := (room.written_holds h seq).count
  rw [List.length_append, List.length_singleton, ← h.count] at counted
  change (s.count + 1).toNat = s.count.toNat + 1 at counted
  have one : (1 : UInt32).toNat = 1 := rfl
  have bound := s.count.toNat_lt
  rw [UInt32.toNat_add, one] at counted
  constructor
  · exact add_eq (by rw [one]; omega)
  · exact add_eq (by omega)

theorem append_eq (h : Holds s L) (uptimeMs : UInt64) (rssi snr : Int8) (flags : UInt8)
    (raw : Payload) :
    append s uptimeMs rssi snr flags raw = s.append uptimeMs rssi snr flags raw := by
  rw [append, PacketStore.append, need_eq]
  generalize hneed : 16 + raw.len.toUInt32 = need
  simp only [Option.bind_eq_bind, Option.bind_some]
  by_cases refused : (s.capacity = 0 || need > s.capacity) = true
  · rw [if_pos refused, if_pos refused]
  rw [if_neg refused, if_neg refused]
  simp only [Bool.or_eq_true, decide_eq_true_eq, not_or, gt_iff_lt, UInt32.lt_iff_toNat_lt] at refused
  have positive : 0 < need := by
    rw [← hneed, UInt32.lt_iff_toNat_lt, toNat_need]
    exact Nat.lt_of_lt_of_le (by decide) (Nat.le_add_right 16 _)
  have few : ∀ s e L, Holds s (e :: L) → tooFew need s = some (decide (s.freeBytes < need)) := by
    intro s e L holds
    rw [tooFew, (freeBytes_spec holds).1]
    rfl
  obtain ⟨t, K₀, _, u, K, popped, holds, placed, _, _, _, holds', room⟩ :=
    room_made (P := fun _ _ => True) (fun _ _ _ _ _ _ => trivial) h trivial positive
      (UInt32.le_iff_toNat_le.mpr (by omega))
  have onEnd := onEnd_of_room holds' room
  rw [popWhile_eq few s.count.toNat h, popped, Option.bind_some, Option.bind_some, place_eq holds,
    placed, Option.bind_some, Option.bind_some]
  generalize he : u.entry uptimeMs rssi snr flags raw = e
  have head : (⟨uptimeMs, u.nextSeq, rssi, snr, flags, raw.len⟩ : Header) = header e := by
    rw [← he]
    rfl
  have bytes : raw = e.raw := by
    rw [← he]
    rfl
  have whole : need.toNat = size e := by rw [← hneed, toNat_need, size, bytes]
  rw [whole] at room
  have below := room.fits
  have inside := Nat.le_trans below.1 below.2
  obtain ⟨more, next⟩ := room_words holds' room (by rw [← he]; rfl) whole
  rw [writeHeader, if_pos onEnd, head, header_written inside, Option.bind_some, Option.bind_some,
    bytes, payload_written inside, Option.bind_some, Option.bind_some, record_reads inside,
    Option.bind_some, Option.bind_some, next]
  show (add u.count 1).bind _ = _
  rw [more]
  rfl

theorem walk_eq (h : Holds s L) {n i : Nat} {off : UInt32} (walked : s.walk i s.headOff = some off)
    (live : i + n ≤ s.count.toNat) : walk s n off = s.walk n off := by
  induction n generalizing i off with
  | zero => rfl
  | succ n ih =>
    obtain ⟨e, here, read, next, walked'⟩ := visited h (by omega) walked
    rw [walk, PacketStore.walk, read, here.readHeader_eq]
    simp only [Option.bind_eq_bind, Option.bind_some]
    rw [next, Option.bind_some]
    exact ih walked' (by omega)

theorem get_eq (h : Holds s L) (numbers : s.headSeq.toNat + s.count.toNat = s.nextSeq.toNat)
    (seq : UInt32) : get s seq = s.get seq := by
  rw [get, PacketStore.get]
  by_cases absent : (s.count = 0 || seq < s.headSeq || seq ≥ s.nextSeq) = true
  · rw [if_pos absent, if_pos absent]
  rw [if_neg absent, if_neg absent]
  simp only [Bool.or_eq_true, decide_eq_true_eq, not_or, ge_iff_le, UInt32.le_iff_toNat_le,
    UInt32.lt_iff_toNat_lt] at absent
  have steps : (seq - s.headSeq).toNat = seq.toNat - s.headSeq.toNat :=
    UInt32.toNat_sub_of_le _ _ (UInt32.le_iff_toNat_le.mpr (by omega))
  have live : (seq - s.headSeq).toNat < s.count.toNat := by omega
  obtain ⟨off, walked, _⟩ := h.ahead.walk_eq (seq - s.headSeq).toNat (by rw [← h.count]; omega)
  rw [sub_eq (by omega), Option.bind_eq_bind, Option.bind_some, walk_eq h (i := 0) rfl (by omega),
    walked]
  simp only [Option.bind_eq_bind, Option.bind_some]
  rw [readHeader_eq live walked]

theorem fetchLoop_eq {σ : Type} (h : Holds s L) (since max : UInt32)
    (cb : σ → StoredPacket → Bool × σ) {n i : Nat} {off : UInt32}
    (walked : s.walk i s.headOff = some off) (live : i + n ≤ s.count.toNat) (delivered : UInt32)
    (st : σ) :
    fetchLoop s since max cb n off delivered st = s.fetchLoop since max cb n off delivered st := by
  induction n generalizing i off delivered st with
  | zero => rfl
  | succ n ih =>
    obtain ⟨e, here, read, next, walked'⟩ := visited h (by omega) walked
    rw [fetchLoop, PacketStore.fetchLoop]
    by_cases more : delivered < max
    · have below : delivered.toNat + (1 : UInt32).toNat < 2 ^ 32 := by
        have := UInt32.lt_iff_toNat_lt.mp more
        have := max.toNat_lt
        show delivered.toNat + 1 < 2 ^ 32
        omega
      rw [if_pos more, if_pos more, read, here.readHeader_eq]
      simp only [Option.bind_eq_bind, Option.bind_some]
      rw [next, Option.bind_some, add_eq below]
      have later := ih walked' (by omega)
      by_cases newer : (header e).seq > since
      · rw [if_pos newer, if_pos newer, here.readEntry_eq, Option.bind_some, Option.bind_some]
        cases cb st e with
        | mk go st' =>
          cases go with
          | false => rfl
          | true => exact later (delivered + 1) st'
      · rw [if_neg newer, if_neg newer]
        exact later delivered st
    · rw [if_neg more, if_neg more]

theorem fetchSince_eq {σ : Type} (h : Holds s L) (since max : UInt32)
    (cb : σ → StoredPacket → Bool × σ) (st : σ) :
    fetchSince s since max cb st = s.fetchSince since max cb st :=
  fetchLoop_eq h since max cb (i := 0) rfl (Nat.le_of_eq (Nat.zero_add _)) 0 st

theorem exec_eq (h : Holds s L) (op : Fifo.Op) : exec s op = s.exec op := by
  cases op with
  | append uptimeMs rssi snr flags raw => rw [exec, PacketStore.exec, append_eq h]
  | clear => rfl

theorem run_eq (h : Holds s L) (ops : List Fifo.Op) : run s ops = s.run ops := by
  induction ops generalizing s L with
  | nil => rfl
  | cons op ops ih =>
    obtain ⟨r, t, K, done, holds, _⟩ := exec_balance h op
    rw [run, PacketStore.run, exec_eq h, done]
    simp only [Option.bind_eq_bind, Option.bind_some]
    rw [ih holds]

end

end Checked

/-- Whatever is called, the checked accesses find nothing to refuse. -/
structure Accessed (s : PacketStore) : Prop where
  append : ∀ uptimeMs rssi snr flags raw, ∃ a, s.append uptimeMs rssi snr flags raw = some a ∧
    Checked.append s uptimeMs rssi snr flags raw = some a
  popOldest : s.count ≠ 0 → ∃ t, s.popOldest = some t ∧ Checked.popOldest s = some t
  get : ∀ seq, ∃ found, s.get seq = some found ∧ Checked.get s seq = some found
  fetchSince : ∀ (σ : Type) (cb : σ → StoredPacket → Bool × σ) (since max : UInt32) (st : σ),
    ∃ out, s.fetchSince since max cb st = some out ∧ Checked.fetchSince s since max cb st = some out
  bytesUsed : Checked.bytesUsed s = some s.bytesUsed

/-- Short of the last number none has wrapped. -/
theorem Observes.headSeq_add {s : PacketStore} {q : Fifo} (h : Observes s q)
    {L : List StoredPacket} (holds : Holds s L) :
    s.headSeq.toNat + s.count.toNat = s.nextSeq.toNat := by
  by_cases none : s.count = 0
  · rw [holds.next, none, UInt32.add_zero]
    rfl
  · have oldest := h.oldest
    rw [oldestSeq, if_neg none] at oldest
    exact oldest

theorem Observes.accessed {s : PacketStore} {q : Fifo} (h : Observes s q) {L : List StoredPacket}
    (holds : Holds s L) : Accessed s := by
  refine ⟨?_, ?_, ?_, ?_, Checked.bytesUsed_eq holds⟩
  · intro uptimeMs rssi snr flags raw
    obtain ⟨a, append⟩ := Option.isSome_iff_exists.mp
      (Store.append_isSome ⟨s, L, holds⟩ uptimeMs rssi snr flags raw)
    exact ⟨a, append, (Checked.append_eq holds ..).trans append⟩
  · intro live
    cases L with
    | nil => exact absurd (holds.count_eq_zero.mpr rfl) live
    | cons e L =>
      have popped := (popOldest_holds holds).1
      exact ⟨_, popped, (Checked.popOldest_eq holds).trans popped⟩
  · intro seq
    exact ⟨_, h.get seq, (Checked.get_eq holds (h.headSeq_add holds) seq).trans (h.get seq)⟩
  · intro σ cb since max st
    exact ⟨_, h.fetch σ cb since max st,
      (Checked.fetchSince_eq holds since max cb st).trans (h.fetch σ cb since max st)⟩

/-- **Every access is in bounds and at a record.** For every capacity and every run
of appends and clears with fewer than 2^32 - 1 packets stored, the run and every
call made after it are those of the checked store, and the live records tile the
bytes in use. -/
theorem accesses_in_bounds (capacity : UInt32) (ops : List Fifo.Op)
    (few : (new capacity).appended ops < 2 ^ 32 - 1) :
    ∃ rs s, (new capacity).run ops = some (rs, s) ∧
      Checked.run (new capacity) ops = some (rs, s) ∧ Tiled s ∧ Accessed s := by
  obtain ⟨rs, s, L, run, holds, _⟩ := run_balance ops (new_holds capacity)
  obtain ⟨q, _, states⟩ := run_simulates ops (s := new capacity) rfl (new_simulates capacity)
    (by simp only [Fifo.initial]; omega)
  obtain ⟨rs', s', run', observes, _⟩ := states ops.length (Nat.le_refl _)
  rw [List.take_length, run] at run'
  obtain ⟨rfl, rfl⟩ := Prod.mk.inj (Option.some.inj run')
  have numbers := observes.headSeq_add holds
  have bound := s.nextSeq.toNat_lt
  exact ⟨rs, s, run, (Checked.run_eq (new_holds capacity) ops).trans run, holds.tiled (by omega),
    observes.accessed holds⟩

/-- A third record over the first of two that fill the pool. -/
theorem accesses_in_bounds_full :
    ∃ rs s, (new 36).run (wrapTour.filter isAppend) = some (rs, s) ∧
      Checked.run (new 36) (wrapTour.filter isAppend) = some (rs, s) ∧ Tiled s ∧ Accessed s :=
  accesses_in_bounds 36 (wrapTour.filter isAppend) (by decide)

end MeshPigeon.PacketStore
