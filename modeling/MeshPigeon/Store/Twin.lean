import MeshPigeon.Store.Valid

/-!
# Twin stores

Two rings whose records differ in content, not in size, move in step: where the
next record goes, and what it evicts, never depends on what the records say.
-/
namespace MeshPigeon.PacketStore

/-- The same ring over other bytes. -/
def rebuf (s : PacketStore) (b : Nat → UInt8) : PacketStore := { s with buf := b }

/-- Over its own bytes the ring holds `L`, over `b` it holds `M`, size by size the same. -/
structure Twin (s : PacketStore) (b : Nat → UInt8) (L M : List StoredPacket) : Prop where
  holds : Holds s L
  twin : Holds (s.rebuf b) M
  sizes : L.map size = M.map size

variable {s : PacketStore} {b : Nat → UInt8} {L M : List StoredPacket}

theorem len_eq_of_size {e f : StoredPacket} (h : size e = size f) : e.raw.len = f.raw.len := by
  simp only [size] at h
  rw [Payload.len, Payload.len, show e.raw.1.length = f.raw.1.length by omega]

theorem Twin.popped {e f : StoredPacket} (h : Twin s b (e :: L) (f :: M)) :
    s.popOldest = some (s.popped e.raw.len) ∧
      (s.rebuf b).popOldest = some ((s.popped e.raw.len).rebuf b) ∧
      Twin (s.popped e.raw.len) b L M := by
  obtain ⟨holds, twin, sizes⟩ := h
  rw [List.map_cons, List.map_cons, List.cons.injEq] at sizes
  obtain ⟨run, rest⟩ := popOldest_holds holds
  obtain ⟨run', rest'⟩ := popOldest_holds twin
  rw [← len_eq_of_size sizes.1] at run' rest'
  exact ⟨run, run', rest, rest', sizes.2⟩

/-- Evicting takes as many records from both. -/
theorem Twin.popWhile (cond : PacketStore → Bool) (blind : ∀ s b, cond (rebuf s b) = cond s)
    (turns : Nat) (h : Twin s b L M) : ∃ t K N, popWhile cond turns s = some t ∧
      popWhile cond turns (s.rebuf b) = some (t.rebuf b) ∧ Twin t b K N := by
  induction turns generalizing s L M with
  | zero => exact ⟨s, L, M, rfl, rfl, h⟩
  | succ turns ih =>
    by_cases stop : (0 < s.count && cond s) = true
    · have live : L ≠ [] := by
        intro none'
        simp [h.holds.count_eq_zero.mpr none'] at stop
      cases L with
      | nil => contradiction
      | cons e L =>
        cases M with
        | nil => cases h.sizes
        | cons f M =>
          obtain ⟨run, run', rest⟩ := h.popped
          obtain ⟨t, K, N, done, done', twin⟩ := ih rest
          refine ⟨t, K, N, ?_, ?_, twin⟩
          · simp [PacketStore.popWhile, stop, run, done]
          · have stop' : (0 < (s.rebuf b).count && cond (s.rebuf b)) = true := by
              rw [blind]
              exact stop
            simp [PacketStore.popWhile, stop', run', done']
    · refine ⟨s, L, M, ?_, ?_, h⟩
      · simp [PacketStore.popWhile, stop]
      · have stop' : ¬(0 < (s.rebuf b).count && cond (s.rebuf b)) = true := by
          rw [blind]
          exact stop
        simp [PacketStore.popWhile, stop']

/-- The tail goes to the same place in both. -/
theorem Twin.place (h : Twin s b L M) (need : UInt32) :
    ∃ t, s.place need = some t ∧ (s.rebuf b).place need = some (t.rebuf b) := by
  unfold PacketStore.place
  by_cases none' : s.count = 0
  · exact ⟨s.rewind, by rw [if_pos none']; rfl, by rw [if_pos (by exact none')]; rfl⟩
  · by_cases front : s.headOff > s.tailOff
    · exact ⟨s, by simp [none', front], by simp [rebuf, none', front]⟩
    · by_cases short : s.wrap - s.tailOff < need
      · obtain ⟨t, _, _, run, run', _⟩ :=
          h.popWhile (fun s => decide (s.headOff < need)) (fun _ _ => rfl) s.count.toNat
        change PacketStore.popWhile _ (s.rebuf b).count.toNat (s.rebuf b) = _ at run'
        by_cases emptied : t.count = 0
        · refine ⟨t.rewind, ?_, ?_⟩
          · simp [none', front, short, run, emptied]
          · rw [if_neg (by exact none'), if_neg (by exact front), if_pos (by exact short), run']
            simp [rebuf, emptied, rewind]
        · refine ⟨{ t with wrap := t.tailOff, tailOff := 0 }, ?_, ?_⟩
          · simp [none', front, short, run, emptied]
          · rw [if_neg (by exact none'), if_neg (by exact front), if_pos (by exact short), run']
            simp [rebuf, emptied]
      · exact ⟨s, by simp [none', front, short], by simp [rebuf, none', front, short]⟩

/-- Suffixes as long as each other. -/
theorem suffix_sizes {K N : List StoredPacket} (sizes : L.map size = M.map size) (h : K <:+ L)
    (h' : N <:+ M) (length : K.length = N.length) : K.map size = N.map size := by
  have total : L.length = M.length := by simpa using congrArg List.length sizes
  rw [List.suffix_iff_eq_drop.mp h, List.suffix_iff_eq_drop.mp h', List.map_drop, List.map_drop,
    sizes, total, length]

theorem writes {p q : PacketStore} {off : Nat} {bs : List UInt8} (h : p.write off bs = some q) :
    ∃ buf, q = { p with buf := buf } := by
  unfold write at h
  split at h
  · exact ⟨_, (Option.some.inj h).symm⟩
  · cases h

/-- The words of the ring once a record is written. -/
theorem append_words {p q : PacketStore} {uptimeMs : UInt64} {rssi snr : Int8} {flags : UInt8}
    {raw : Payload} {a : Appended} (fits : 16 + raw.1.length ≤ s.capacity.toNat)
    (popped : PacketStore.popWhile (fun s => s.freeBytes < 16 + raw.len.toUInt32) s.count.toNat s =
      some p)
    (placed : p.place (16 + raw.len.toUInt32) = some q)
    (run : s.append uptimeMs rssi snr flags raw = some a) :
    ∃ buf, a.store = { q with
      buf := buf
      tailOff := if q.tailOff + (16 + raw.len.toUInt32) ≥ q.wrap then 0
        else q.tailOff + (16 + raw.len.toUInt32)
      count := q.count + 1
      nextSeq := q.nextSeq + 1 } := by
  simp only [append, gt_iff_lt, Bool.or_eq_true, decide_eq_true_eq, roomy fits, if_false, popped,
    Option.bind_eq_bind, Option.bind_some, placed] at run
  obtain ⟨headed, header, run⟩ := Option.bind_eq_some_iff.mp run
  obtain ⟨filled, payload, run⟩ := Option.bind_eq_some_iff.mp run
  obtain ⟨_, _, run⟩ := Option.bind_eq_some_iff.mp run
  obtain ⟨_, rfl⟩ := writes header
  obtain ⟨buf, rfl⟩ := writes payload
  obtain rfl := Option.some.inj run
  exact ⟨buf, rfl⟩

/-- A packet of the same length leaves the twins twins. -/
theorem Twin.append (h : Twin s b L M) {raw raw' : Payload}
    (length : raw.1.length = raw'.1.length) (uptimeMs uptimeMs' : UInt64)
    (rssi snr rssi' snr' : Int8) (flags flags' : UInt8) :
    ∃ a a', s.append uptimeMs rssi snr flags raw = some a ∧
      (s.rebuf b).append uptimeMs' rssi' snr' flags' raw' = some a' ∧ a.seq = a'.seq ∧
      ∃ b K N, a'.store = a.store.rebuf b ∧ Twin a.store b K N := by
  by_cases big : s.capacity.toNat < 16 + raw.1.length
  · refine ⟨_, _, append_refused big, append_refused (s := s.rebuf b) (by rw [← length]; exact big),
      rfl, b, L, M, rfl, ?_⟩
    exact ⟨h.holds.counted, h.twin.counted, h.sizes⟩
  · have fits := Nat.le_of_not_lt big
    have fits' : 16 + raw'.1.length ≤ (s.rebuf b).capacity.toNat := by
      rw [← length]
      exact fits
    obtain ⟨t, K, run, suffix, holds, _⟩ := append_stored h.holds uptimeMs rssi snr flags fits
    obtain ⟨t', N, run', suffix', holds', _⟩ :=
      append_stored h.twin uptimeMs' rssi' snr' flags' fits'
    have word : raw'.len = raw.len := by rw [Payload.len, Payload.len, length]
    obtain ⟨p, _, _, popped, popped', twin⟩ :=
      h.popWhile (fun s => s.freeBytes < 16 + raw.len.toUInt32) (fun _ _ => rfl) s.count.toNat
    obtain ⟨q, placed, placed'⟩ := twin.place (16 + raw.len.toUInt32)
    obtain ⟨_, words⟩ := append_words fits popped placed run
    rw [← word] at popped' placed'
    obtain ⟨buf, words'⟩ := append_words fits' popped' placed' run'
    have same : t' = t.rebuf buf := by
      rw [show t = _ from words, show t' = _ from words', word]
      rfl
    have rest : Holds (t.rebuf buf) (N ++ [(s.rebuf b).entry uptimeMs' rssi' snr' flags' raw']) := by
      rw [← same]
      exact holds'
    refine ⟨_, _, run, run', rfl, buf, _, _, same, holds, rest, ?_⟩
    · have count : K.length = N.length := by
        have := holds.count
        have := holds'.count
        rw [same] at this
        simp [rebuf] at *
        omega
      rw [List.map_append, List.map_append, suffix_sizes h.sizes suffix suffix' count]
      simp [size, entry, length]

end MeshPigeon.PacketStore
