import MeshPigeon.Store.Fifo

/-!
# What the store counts

`count_since` against what `fetch_since` delivers, and `dropped` against the
entries that were evicted.
-/
namespace MeshPigeon.PacketStore

/-! ## Counting what a fetch delivers -/

/-- A callback that takes everything. -/
def takeAll (taken : List StoredPacket) (e : StoredPacket) : Bool × List StoredPacket :=
  (true, taken ++ [e])

theorem deliver_takeAll (L taken : List StoredPacket) :
    deliver takeAll L taken = (L.length, taken ++ L) := by
  induction L generalizing taken with
  | nil => simp [deliver]
  | cons e L ih => simp [deliver, takeAll, ih]

/-- How many of consecutive numbers lie above another. -/
theorem length_filter_range' (first n since : Nat) :
    ((List.range' first n).filter fun x => decide (since < x)).length =
      first + n - max first (since + 1) := by
  induction n generalizing first with
  | zero =>
    rw [List.range'_zero, List.filter_nil, List.length_nil]
    omega
  | succ n ih =>
    rw [List.range'_succ, List.filter_cons]
    by_cases newer : since < first
    · rw [if_pos (decide_eq_true newer), List.length_cons, ih]
      omega
    · rw [if_neg (by simpa using newer), ih]
      omega

theorem Observes.newer {s : PacketStore} {q : Fifo} (h : Observes s q) (since : UInt32) :
    (q.entries.filter fun e => decide (since < e.seq)).length =
      s.nextSeq.toNat - max s.oldestSeq.toNat (since.toNat + 1) := by
  have numbers : ((q.entries.map fun e => e.seq.toNat).filter
      fun x => decide (since.toNat < x)).length =
      (q.entries.filter fun e => decide (since < e.seq)).length := by
    rw [List.filter_map, List.length_map]
    rfl
  rw [← numbers, h.seqs, length_filter_range']
  omega

theorem Observes.oldest {s : PacketStore} {q : Fifo} (h : Observes s q) :
    s.oldestSeq.toNat + s.count.toNat = s.nextSeq.toNat := by
  have sizes := congrArg List.length h.seqs
  rw [List.length_map, List.length_range', ← h.count] at sizes
  by_cases none : s.count = 0
  · rw [oldestSeq, if_pos none, none]
    rfl
  · have : 0 < s.count.toNat := by
      apply Nat.pos_of_ne_zero
      exact fun zero => none (UInt32.toNat_inj.mp zero)
    omega

/-- Short of the largest cursor the sum `since_seq + 1` is what it says. -/
theorem Observes.countSince {s : PacketStore} {q : Fifo} (h : Observes s q) {since : UInt32}
    (top : since ≠ 0xFFFFFFFF ∨ s.count = 0) :
    (s.countSince since).toNat = (q.entries.filter fun e => decide (since < e.seq)).length := by
  have oldest := h.oldest
  rw [h.newer since]
  unfold PacketStore.countSince
  by_cases none : s.count = 0
  · rw [if_pos none, UInt32.toNat_zero]
    rw [none, UInt32.toNat_zero] at oldest
    omega
  have below : since.toNat + 1 < 2 ^ 32 := by
    have bound := since.toNat_lt
    have last : since.toNat ≠ 2 ^ 32 - 1 := fun eq =>
      (top.resolve_right none) (UInt32.toNat_inj.mp eq)
    omega
  have step : (since + 1).toNat = since.toNat + 1 := by
    simp only [UInt32.toNat_add, UInt32.reduceToNat]
    omega
  have head : s.oldestSeq = s.headSeq := by rw [oldestSeq, if_neg none]
  rw [if_neg none]
  rw [head] at oldest ⊢
  by_cases newest : since < s.headSeq
  · have lt := UInt32.lt_iff_toNat_lt.mp newest
    simp only [gt_iff_lt, newest, if_true]
    have inside : ¬s.headSeq ≥ s.nextSeq := by
      rw [ge_iff_le, UInt32.le_iff_toNat_le]
      have : s.count.toNat ≠ 0 := fun zero => none (UInt32.toNat_inj.mp zero)
      omega
    rw [if_neg inside, UInt32.toNat_sub_of_le _ _ (UInt32.le_iff_toNat_le.mpr (by omega))]
    omega
  · have ge := UInt32.lt_iff_toNat_lt.not.mp newest
    simp only [gt_iff_lt, newest, if_false]
    split
    · rename_i past
      rw [ge_iff_le, UInt32.le_iff_toNat_le, step] at past
      rw [UInt32.toNat_zero]
      omega
    · rename_i inside
      rw [ge_iff_le, UInt32.le_iff_toNat_le, step] at inside
      rw [UInt32.toNat_sub_of_le _ _ (UInt32.le_iff_toNat_le.mpr (by omega)), step]
      omega

/-- At the largest cursor the sum wraps to 0 and everything ever numbered is
counted, where nothing is newer. -/
theorem Observes.countSince_top {s : PacketStore} {q : Fifo} (h : Observes s q)
    (some : s.count ≠ 0) :
    (s.countSince 0xFFFFFFFF).toNat ≠
      (q.entries.filter fun e => decide (0xFFFFFFFF < e.seq)).length := by
  have oldest := h.oldest
  have held : s.count.toNat ≠ 0 := fun zero => some (UInt32.toNat_inj.mp zero)
  have above : ¬s.headSeq > 0xFFFFFFFF := by
    rw [gt_iff_lt, UInt32.lt_iff_toNat_lt]
    have := s.headSeq.toNat_lt
    show ¬4294967295 < _
    omega
  have wrapped : (0xFFFFFFFF : UInt32) + 1 = 0 := rfl
  have inside : ¬(0 : UInt32) ≥ s.nextSeq := by
    rw [ge_iff_le, UInt32.le_iff_toNat_le, UInt32.toNat_zero]
    omega
  have counted : s.countSince 0xFFFFFFFF = s.nextSeq := by
    rw [PacketStore.countSince, if_neg some]
    simp only [above, if_false, wrapped, inside]
    exact UInt32.sub_zero _
  have bound := s.nextSeq.toNat_lt
  rw [counted, h.newer]
  show s.nextSeq.toNat ≠ s.nextSeq.toNat - max s.oldestSeq.toNat (4294967295 + 1)
  omega

/-- A fetch without a limit takes every entry above the cursor. -/
theorem Observes.fetchAll {s : PacketStore} {q : Fifo} (h : Observes s q) (since : UInt32) :
    s.fetchSince since 0xFFFFFFFF takeAll [] =
      let newer := q.entries.filter fun e => decide (since < e.seq)
      some (UInt32.ofNat newer.length, newer) := by
  have few : (q.entries.filter fun e => decide (since < e.seq)).length ≤ (0xFFFFFFFF : UInt32).toNat := by
    have := List.length_filter_le (fun e : StoredPacket => decide (since < e.seq)) q.entries
    have bound := s.count.toNat_lt
    rw [h.count] at bound
    show _ ≤ 4294967295
    omega
  rw [h.fetch, List.take_of_length_le few, deliver_takeAll]
  rfl

/-- What is counted is what a fetch of everything delivers, the retained entries
above the cursor, except at the largest cursor of a store that holds any. -/
theorem count_agrees_with_fetch (capacity : UInt32) (ops : List Fifo.Op)
    (few : (new capacity).appended ops < 2 ^ 32 - 1) :
    ∃ rs s q, (new capacity).run ops = some (rs, s) ∧ Observes s q ∧
      ∀ since : UInt32, ∃ delivered,
        s.fetchSince since 0xFFFFFFFF takeAll [] =
          some (delivered, q.entries.filter fun e => decide (since < e.seq)) ∧
        delivered.toNat = (q.entries.filter fun e => decide (since < e.seq)).length ∧
        (s.countSince since = delivered ↔ since ≠ 0xFFFFFFFF ∨ s.count = 0) := by
  have sized : Sized capacity (new capacity) := rfl
  obtain ⟨q, _, states⟩ := run_simulates ops sized (new_simulates capacity)
    (by simp only [Fifo.initial]; omega)
  obtain ⟨rs, s, run, observes, _⟩ := states ops.length (Nat.le_refl _)
  rw [List.take_length] at run
  refine ⟨rs, s, q ops.length, run, observes, fun since => ⟨_, observes.fetchAll since, ?_⟩⟩
  generalize hn : ((q ops.length).entries.filter fun e => decide (since < e.seq)).length = n
  have newer := observes.newer since
  have bound := s.nextSeq.toNat_lt
  have whole : (UInt32.ofNat n).toNat = n := by
    rw [UInt32.toNat_ofNat']
    omega
  refine ⟨whole, ?_⟩
  rw [← UInt32.toNat_inj, whole, ← hn]
  constructor
  · intro same
    by_contra top
    rw [not_or, not_not] at top
    obtain ⟨rfl, some⟩ := top
    exact observes.countSince_top some same
  · exact fun top => observes.countSince top

/-- One packet, and every cursor. -/
theorem count_agrees_with_fetch_one :
    ∃ rs s q, (new 64).run [.append 7 (-70) 9 kFlagReceived ⟨[1, 2, 3], by decide⟩] = some (rs, s) ∧
      Observes s q ∧
      ∀ since : UInt32, ∃ delivered,
        s.fetchSince since 0xFFFFFFFF takeAll [] =
          some (delivered, q.entries.filter fun e => decide (since < e.seq)) ∧
        delivered.toNat = (q.entries.filter fun e => decide (since < e.seq)).length ∧
        (s.countSince since = delivered ↔ since ≠ 0xFFFFFFFF ∨ s.count = 0) :=
  count_agrees_with_fetch 64 _ (by decide)

/-- A store of one packet asked for what is newer than the largest number:
nothing is, and two are counted. -/
theorem count_disagrees_at_top :
    ((new 64).run [.append 7 (-70) 9 kFlagReceived ⟨[1, 2, 3], by decide⟩]).map (fun out =>
      (out.2.countSince 0xFFFFFFFF, out.2.fetchSince 0xFFFFFFFF 0xFFFFFFFF takeAll [])) =
      some (2, some (0, [])) := by
  decide

/-! ## Evicting no more than needed -/

/-- The store with its `k` oldest entries gone. -/
def evict : Nat → PacketStore → Option PacketStore
  | 0, s => some s
  | k + 1, s => s.popOldest.bind (evict k)

theorem evict_succ (k : Nat) (s : PacketStore) :
    evict (k + 1) s = (evict k s).bind popOldest := by
  induction k generalizing s with
  | zero =>
    show s.popOldest.bind (evict 0) = s.popOldest
    cases s.popOldest <;> rfl
  | succ k ih =>
    rw [evict, evict, Option.bind_assoc]
    congr 1
    funext t
    exact ih t

/-- `t` is left once exactly those of the oldest entries `L` of `s` are gone without
which there is no place for `need` bytes. -/
structure Evicted (s : PacketStore) (L : List StoredPacket) (need k : Nat) (t : PacketStore) :
    Prop where
  within : k ≤ L.length
  popped : evict k s = some t
  dropped : t.dropped = s.dropped + UInt32.ofNat k
  needed : ∀ j < k, ∃ u, evict j s = some u ∧ ¬Fits u need

theorem Evicted.none (s : PacketStore) (L : List StoredPacket) (need : Nat) :
    Evicted s L need 0 s :=
  ⟨Nat.zero_le _, rfl, (UInt32.add_zero _).symm, fun _ h => absurd h (Nat.not_lt_zero _)⟩

/-- One more entry goes while there is no place. -/
theorem Evicted.more {s t : PacketStore} {L K : List StoredPacket} {e : StoredPacket}
    {need k : Nat} (h : Evicted s L need k t) (left : e :: K = L.drop k) (holds : Holds t (e :: K))
    (no : ¬Fits t need) : Evicted s L need (k + 1) (t.popped e.raw.len) := by
  have sizes := congrArg List.length left
  rw [List.length_cons, List.length_drop] at sizes
  refine ⟨by omega, ?_, ?_, ?_⟩
  · rw [evict_succ, h.popped]
    exact (popOldest_holds holds).1
  · show t.dropped + 1 = _
    rw [h.dropped, UInt32.ofNat_add, UInt32.add_assoc]
    rfl
  · intro j hj
    by_cases last : j = k
    · subst last
      exact ⟨t, h.popped, no⟩
    · exact h.needed j (by omega)

/-- A stored append evicts the fewest oldest entries that make place for it. -/
theorem append_evicts {s : PacketStore} {L : List StoredPacket} (h : Holds s L)
    (uptimeMs : UInt64) (rssi snr : Int8) (flags : UInt8) {raw : Payload}
    (fits : 16 + raw.1.length ≤ s.capacity.toNat) :
    ∃ k t a, Evicted s L (16 + raw.1.length) k t ∧ Fits t (16 + raw.1.length) ∧
      s.append uptimeMs rssi snr flags raw = some a ∧
      a.stored = some (s.entry uptimeMs rssi snr flags raw) ∧
      Holds a.store (L.drop k ++ [s.entry uptimeMs rssi snr flags raw]) ∧
      a.store.capacity = s.capacity ∧ a.store.dropped = s.dropped + UInt32.ofNat k := by
  obtain ⟨t, u, K, ⟨k, left, evicted, cap, seq⟩, place, run, holds, cap', _, dropped⟩ :=
    append_rule h uptimeMs rssi snr flags fits
      (fun t K => ∃ k, K = L.drop k ∧ Evicted s L (16 + raw.1.length) k t ∧
        t.capacity = s.capacity ∧ t.nextSeq = s.nextSeq)
      ⟨0, rfl, .none s L _, rfl, rfl⟩
      (fun t e K holds no ⟨k, left, evicted, cap, seq⟩ => by
        have rest : K = L.drop (k + 1) := by rw [← List.tail_drop, ← left, List.tail_cons]
        exact ⟨k + 1, rest, evicted.more left holds no, cap, seq⟩)
  have entry : t.entry uptimeMs rssi snr flags raw = s.entry uptimeMs rssi snr flags raw := by
    rw [PacketStore.entry, seq]
    rfl
  rw [entry] at run holds
  subst left
  exact ⟨k, t, _, evicted, place, run, rfl, holds, cap'.trans cap, dropped.trans evicted.dropped⟩

/-! ## The books over a run -/

/-- The entries one operation purges, which it does not count as dropped. -/
def purged (s : PacketStore) : Fifo.Op → Nat
  | .clear => s.count.toNat
  | .append .. => 0

/-- The entries a run's purges discard. -/
def discarded (s : PacketStore) : List Fifo.Op → Nat
  | [] => 0
  | op :: ops => s.purged op + (s.exec op).elim 0 fun out => discarded out.2 ops

def isAppend : Fifo.Op → Bool
  | .append .. => true
  | .clear => false

/-- One operation balances: what is dropped, held and purged grows by an append. -/
theorem exec_balance {s : PacketStore} {L : List StoredPacket} (h : Holds s L) (op : Fifo.Op) :
    ∃ r t K, s.exec op = some (r, t) ∧ Holds t K ∧
      t.dropped + t.count + UInt32.ofNat (s.purged op) =
        s.dropped + s.count + UInt32.ofNat (if isAppend op then 1 else 0) := by
  cases op with
  | clear =>
    refine ⟨0, s.clear, [], rfl, clear_holds s, ?_⟩
    show s.dropped + 0 + UInt32.ofNat s.count.toNat = s.dropped + s.count + 0
    rw [UInt32.ofNat_toNat, UInt32.add_zero, UInt32.add_zero]
  | append uptimeMs rssi snr flags raw =>
    by_cases big : s.capacity.toNat < 16 + raw.1.length
    · refine ⟨0, { s with dropped := s.dropped + 1 }, L, ?_, h.counted, ?_⟩
      · simp [exec, append_refused big]
      · show s.dropped + 1 + s.count + 0 = s.dropped + s.count + 1
        rw [UInt32.add_zero, UInt32.add_assoc, UInt32.add_comm 1, ← UInt32.add_assoc]
    · obtain ⟨k, t, a, evicted, _, run, _, holds, _, dropped⟩ :=
        append_evicts h uptimeMs rssi snr flags (Nat.le_of_not_lt big)
      refine ⟨a.seq, a.store, _, by simp [exec, run], holds, ?_⟩
      have before : s.count = UInt32.ofNat L.length := by rw [← h.count, UInt32.ofNat_toNat]
      have after : a.store.count = UInt32.ofNat (L.length - k + 1) := by
        have len := holds.count
        rw [List.length_append, List.length_drop, List.length_singleton] at len
        rw [← len, UInt32.ofNat_toNat]
      have within := evicted.within
      show a.store.dropped + a.store.count + 0 = s.dropped + s.count + 1
      rw [UInt32.add_zero, dropped, before, after, UInt32.add_assoc, ← UInt32.ofNat_add,
        UInt32.add_assoc, show (1 : UInt32) = UInt32.ofNat 1 from rfl, ← UInt32.ofNat_add,
        show k + (L.length - k + 1) = L.length + 1 by omega]

/-- A whole run balances. -/
theorem run_balance (ops : List Fifo.Op) {s : PacketStore} {L : List StoredPacket} (h : Holds s L) :
    ∃ rs t K, s.run ops = some (rs, t) ∧ Holds t K ∧
      t.dropped + t.count + UInt32.ofNat (s.discarded ops) =
        s.dropped + s.count + UInt32.ofNat (ops.countP isAppend) := by
  induction ops generalizing s L with
  | nil => exact ⟨[], s, L, rfl, h, rfl⟩
  | cons op ops ih =>
    obtain ⟨r, t, K, exec, holds, step⟩ := exec_balance h op
    obtain ⟨rs, u, M, run, holds', rest⟩ := ih holds
    refine ⟨r :: rs, u, M, by simp [PacketStore.run, exec, run], holds', ?_⟩
    rw [discarded, exec, List.countP_cons]
    show u.dropped + u.count + UInt32.ofNat (s.purged op + t.discarded ops) = _
    rw [UInt32.ofNat_add, UInt32.add_comm (UInt32.ofNat (s.purged op)), ← UInt32.add_assoc, rest,
      UInt32.add_assoc, UInt32.add_comm (UInt32.ofNat _), ← UInt32.add_assoc, step, UInt32.ofNat_add,
      UInt32.add_assoc, UInt32.add_comm (UInt32.ofNat _)]

/-- Evicting costs the fewest oldest entries, each counted once, and a packet
that can never fit is counted without any; so the counts of a run add up. -/
theorem eviction_minimal_accounted (capacity : UInt32) (ops : List Fifo.Op) :
    ∃ rs s L, (new capacity).run ops = some (rs, s) ∧ Holds s L ∧
      (∀ uptimeMs rssi snr flags (raw : Payload), 16 + raw.1.length ≤ s.capacity.toNat →
        ∃ k a, k ≤ L.length ∧ (∃ t, evict k s = some t ∧ Fits t (16 + raw.1.length)) ∧
          (∀ j < k, ∃ u, evict j s = some u ∧ ¬Fits u (16 + raw.1.length)) ∧
          s.append uptimeMs rssi snr flags raw = some a ∧
          a.stored = some (s.entry uptimeMs rssi snr flags raw) ∧
          Holds a.store (L.drop k ++ [s.entry uptimeMs rssi snr flags raw]) ∧
          a.store.dropped = s.dropped + UInt32.ofNat k) ∧
      (∀ uptimeMs rssi snr flags (raw : Payload), s.capacity.toNat < 16 + raw.1.length →
        s.append uptimeMs rssi snr flags raw =
          some ⟨{ s with dropped := s.dropped + 1 }, 0, none⟩) ∧
      s.clear.dropped = s.dropped ∧
      s.dropped + s.count + UInt32.ofNat ((new capacity).discarded ops) =
        UInt32.ofNat (ops.countP isAppend) := by
  obtain ⟨rs, s, L, run, holds, balance⟩ := run_balance ops (new_holds capacity)
  have start : (new capacity).dropped + (new capacity).count = 0 := rfl
  rw [start, UInt32.zero_add] at balance
  refine ⟨rs, s, L, run, holds, ?_, ?_, rfl, balance⟩
  · intro uptimeMs rssi snr flags raw fits
    obtain ⟨k, t, a, evicted, place, run', stored, holds', _, dropped⟩ :=
      append_evicts holds uptimeMs rssi snr flags fits
    exact ⟨k, a, evicted.within, ⟨t, evicted.popped, place⟩, evicted.needed, run', stored, holds',
      dropped⟩
  · intro uptimeMs rssi snr flags raw big
    exact append_refused big

/-- A third packet into a pool that two of them fill. -/
theorem eviction_minimal_accounted_tour :
    ∃ rs s L k a, (new 36).run wrapTour = some (rs, s) ∧ Holds s L ∧ k ≤ L.length ∧
      s.append 10 (-73) 9 kFlagSent ⟨[7, 8, 9], by decide⟩ = some a ∧
      Holds a.store (L.drop k ++ [s.entry 10 (-73) 9 kFlagSent ⟨[7, 8, 9], by decide⟩]) := by
  obtain ⟨rs, s, L, run, holds, evicts, _⟩ := eviction_minimal_accounted 36 wrapTour
  have sized : ((new 36).run wrapTour).map (fun out => out.2.capacity) = some 36 := by decide
  rw [run, Option.map_some, Option.some.injEq] at sized
  obtain ⟨k, a, within, _, _, append, _, holds', _⟩ :=
    evicts 10 (-73) 9 kFlagSent ⟨[7, 8, 9], by decide⟩ (by rw [sized]; decide)
  exact ⟨rs, s, L, k, a, run, holds, within, append, holds'⟩

end MeshPigeon.PacketStore
