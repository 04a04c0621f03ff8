import MeshPigeon.Store.Walk

/-!
# The store as a bounded FIFO

What a packet store is for, with no ring in it: a list of numbered entries,
oldest first, that loses entries only from the oldest end. The ring refines it.
-/
namespace MeshPigeon

/-- The retained entries and the next unused sequence number. -/
structure Fifo where
  entries : List StoredPacket
  next : Nat

namespace Fifo

inductive Op where
  | append (uptimeMs : UInt64) (rssi snr : Int8) (flags : UInt8) (raw : Payload)
  | clear

def initial : Fifo := ⟨[], 1⟩

/-- One operation answering `r`. An append that cannot fit answers 0 and
changes nothing; any other takes the next number and may cost old entries. -/
def Step (capacity : UInt32) (q : Fifo) (op : Op) (r : UInt32) (q' : Fifo) : Prop :=
  match op with
  | .clear => q' = ⟨[], q.next⟩
  | .append uptimeMs rssi snr flags raw =>
    (r = 0 ↔ capacity.toNat < 17 ∨ capacity.toNat < 16 + raw.1.length) ∧
    (r = 0 → q' = q) ∧
    (r ≠ 0 → r.toNat = q.next ∧ q'.next = q.next + 1 ∧
      ∃ kept, kept <:+ q.entries ∧
        q'.entries = kept ++ [⟨r, uptimeMs, rssi, snr, flags, raw⟩])

end Fifo

namespace PacketStore

def exec (s : PacketStore) : Fifo.Op → Option (UInt32 × PacketStore)
  | .append uptimeMs rssi snr flags raw => do
    let a ← s.append uptimeMs rssi snr flags raw
    return (a.seq, a.store)
  | .clear => some (0, s.clear)

/-- Run operations in order, collecting what each answers. -/
def run (s : PacketStore) : List Fifo.Op → Option (List UInt32 × PacketStore)
  | [] => some ([], s)
  | op :: ops => do
    let (r, t) ← s.exec op
    let (rs, u) ← run t ops
    return (r :: rs, u)

/-- How many of the operations stored a packet. -/
def appended (s : PacketStore) (ops : List Fifo.Op) : Nat :=
  (s.run ops).elim 0 fun out => out.1.countP (· ≠ 0)

/-- Everything the read operations answer is read off the abstract queue. -/
structure Observes (s : PacketStore) (q : Fifo) : Prop where
  count : s.count.toNat = q.entries.length
  next : s.nextSeq.toNat = q.next
  seqs : q.entries.map (fun e => e.seq.toNat) =
    List.range' s.oldestSeq.toNat (s.nextSeq.toNat - s.oldestSeq.toNat)
  get : ∀ seq, s.get seq = some (q.entries.find? fun e => e.seq = seq)
  fetch : ∀ (σ : Type) (cb : σ → StoredPacket → Bool × σ) (since max : UInt32) (st : σ),
    s.fetchSince since max cb st =
      let r := deliver cb ((q.entries.filter fun e => decide (since < e.seq)).take max.toNat) st
      some (UInt32.ofNat r.1, r.2)

/-- The simulation relation. -/
structure Simulates (s : PacketStore) (q : Fifo) : Prop where
  holds : Holds s q.entries
  next : s.nextSeq.toNat = q.next
  older : q.entries.length < q.next

theorem Simulates.headSeq {s : PacketStore} {q : Fifo} (h : Simulates s q) :
    s.headSeq.toNat + q.entries.length = q.next := by
  have hnext := congrArg UInt32.toNat h.holds.next
  have hcount := h.holds.count
  have hb := s.headSeq.toNat_lt
  have hold := h.older
  simp only [UInt32.toNat_add, h.next] at hnext
  omega

theorem numbered_seqs {q : UInt32} {L : List StoredPacket} (h : Numbered q L)
    (fits : q.toNat + L.length ≤ 2 ^ 32) :
    L.map (fun e => e.seq.toNat) = List.range' q.toNat L.length := by
  induction L generalizing q with
  | nil => rfl
  | cons e L ih =>
    obtain ⟨he, hL⟩ := h
    simp only [List.map_cons, List.length_cons, List.range'_succ, he]
    by_cases hnil : L = []
    · subst hnil; rfl
    · have := List.length_pos_iff.mpr hnil
      have hone : (q + 1).toNat = q.toNat + 1 := by
        simp only [List.length_cons] at fits
        simp only [UInt32.toNat_add, UInt32.reduceToNat]
        omega
      rw [← hone, ih hL (by simp only [List.length_cons] at fits; omega)]

/-- Looking a number up in consecutive entries is indexing. -/
theorem numbered_find {q x : UInt32} {L : List StoredPacket} (h : Numbered q L)
    (fits : q.toNat + L.length < 2 ^ 32) :
    L.find? (fun e => e.seq = x) =
      if q.toNat ≤ x.toNat then L[x.toNat - q.toNat]? else none := by
  induction L generalizing q with
  | nil => simp
  | cons e L ih =>
    obtain ⟨he, hL⟩ := h
    simp only [List.length_cons] at fits
    have hone : (q + 1).toNat = q.toNat + 1 := by
      simp only [UInt32.toNat_add, UInt32.reduceToNat]; omega
    simp only [List.find?_cons, he]
    by_cases hq : q = x
    · subst hq; simp
    · have hne : q.toNat ≠ x.toNat := fun eq => hq (UInt32.toNat_inj.mp eq)
      simp only [hq, decide_false]
      rw [ih hL (by omega), hone]
      by_cases le : q.toNat ≤ x.toNat
      · have index : x.toNat - q.toNat = (x.toNat - (q.toNat + 1)) + 1 := by omega
        rw [if_pos (by omega), if_pos le, index, List.getElem?_cons_succ]
      · rw [if_neg (by omega), if_neg le]

theorem Simulates.get_eq {s : PacketStore} {q : Fifo} (h : Simulates s q) (seq : UInt32) :
    s.get seq = some (q.entries.find? fun e => e.seq = seq) := by
  have hhead := h.headSeq
  have hnext := h.next
  have hbound := s.nextSeq.toNat_lt
  have hcount := h.holds.count
  rw [numbered_find h.holds.numbered (by omega)]
  by_cases absent : s.count = 0 ∨ seq < s.headSeq ∨ seq ≥ s.nextSeq
  · simp only [PacketStore.get, Bool.or_eq_true, decide_eq_true_eq, or_assoc, absent, if_true]
    simp only [UInt32.lt_iff_toNat_lt, ge_iff_le, UInt32.le_iff_toNat_le] at absent
    split
    · rename_i le
      rw [List.getElem?_eq_none]
      · rfl
      · rcases absent with zero | lt | ge
        · rw [← hcount, zero]; simp
        · omega
        · omega
    · rfl
  · have hpresent := absent
    simp only [not_or, UInt32.lt_iff_toNat_lt, ge_iff_le, UInt32.le_iff_toNat_le] at hpresent
    have steps : (seq - s.headSeq).toNat = seq.toNat - s.headSeq.toNat :=
      UInt32.toNat_sub_of_le _ _ (UInt32.le_iff_toNat_le.mpr (by omega))
    have inside : seq.toNat - s.headSeq.toNat < q.entries.length := by omega
    obtain ⟨off, walked, ahead⟩ := h.holds.ahead.walk_eq (seq.toNat - s.headSeq.toNat) (by omega)
    have found := numbered_find (x := seq) h.holds.numbered (by omega)
    rw [if_pos (by omega), List.getElem?_eq_getElem inside] at found
    have hseq : q.entries[seq.toNat - s.headSeq.toNat].seq = seq := by
      simpa using List.find?_some found
    rw [List.drop_eq_getElem_cons inside] at ahead
    cases ahead with
    | step here rest =>
      have hentry := here.readEntry_eq
      simp only [PacketStore.get, Bool.or_eq_true, decide_eq_true_eq, or_assoc, absent, if_false,
        steps, walked, Option.bind_eq_bind, Option.bind_some, here.readHeader_eq]
      rw [if_neg (by simp [header, hseq]), hentry, if_pos (by omega),
        List.getElem?_eq_getElem inside]
      rfl

theorem Simulates.observes {s : PacketStore} {q : Fifo} (h : Simulates s q) : Observes s q := by
  have hhead := h.headSeq
  have hnext := h.next
  have hbound := s.nextSeq.toNat_lt
  have hcount := h.holds.count
  refine ⟨hcount, hnext, ?_, h.get_eq, ?_⟩
  · have oldest : s.oldestSeq.toNat = s.headSeq.toNat := by
      unfold oldestSeq
      split
      · rename_i zero
        rw [zero, UInt32.toNat_zero] at hcount
        omega
      · rfl
    rw [numbered_seqs h.holds.numbered (by omega), oldest]
    congr 1
    omega
  · intro σ cb since max st
    rw [fetchSince, hcount, h.holds.ahead.fetchLoop_eq since max cb 0 st (by simp; omega)
      (UInt32.le_iff_toNat_le.mpr (by simp))]
    simp

/-- Counting a dropped packet moves no record. -/
theorem Holds.counted {s : PacketStore} {L : List StoredPacket} (h : Holds s L) :
    Holds { s with dropped := s.dropped + 1 } L := by
  obtain ⟨A, B, eq, layout⟩ := h.layout
  refine ⟨⟨A, B, eq, ?_⟩, h.count, h.numbered, h.next⟩
  cases layout with
  | empty meet inside wrap => exact .empty meet inside wrap
  | linear ne held ends inside wrap =>
    exact .linear ne (held.congr fun _ _ _ => rfl) ends inside wrap
  | wrapped ne held front len wrap btail full =>
    exact .wrapped ne (held.congr fun _ _ _ => rfl) (front.congr fun _ _ _ => rfl) len wrap btail full

theorem new_simulates (capacity : UInt32) : Simulates (new capacity) Fifo.initial :=
  ⟨new_holds capacity, rfl, by decide⟩

/-- The pool of a store keeps what the constructor was asked for. -/
def Sized (capacity : UInt32) (s : PacketStore) : Prop :=
  s.capacity = if capacity < 17 then 0 else capacity

theorem Sized.refuses {capacity : UInt32} {s : PacketStore} (h : Sized capacity s) (n : Nat) :
    s.capacity.toNat < 16 + n ↔ capacity.toNat < 17 ∨ capacity.toNat < 16 + n := by
  rw [h]
  by_cases small : capacity < 17
  · have : capacity.toNat < 17 := by simpa [UInt32.lt_iff_toNat_lt] using small
    simp only [small, this, if_true, UInt32.toNat_zero, true_or, iff_true]
    omega
  · have : ¬ capacity.toNat < 17 := by simpa [UInt32.lt_iff_toNat_lt] using small
    simp [small, this]

/-- Every operation has a result, and the abstract queue takes the same step. -/
theorem exec_simulates {capacity : UInt32} {s : PacketStore} {q : Fifo} {op : Fifo.Op}
    (sized : Sized capacity s) (h : Simulates s q)
    (room : q.next + 1 < 2 ^ 32 ∨ ∀ r t, s.exec op = some (r, t) → r = 0) :
    ∃ r t q', s.exec op = some (r, t) ∧ Fifo.Step capacity q op r q' ∧ Sized capacity t ∧
      Simulates t q' ∧ q'.next = q.next + if r = 0 then 0 else 1 := by
  have hold := h.older
  cases op with
  | clear =>
    refine ⟨0, s.clear, ⟨[], q.next⟩, rfl, rfl, sized, ⟨clear_holds s, h.next, ?_⟩, rfl⟩
    simp only [List.length_nil]; omega
  | append uptimeMs rssi snr flags raw =>
    by_cases big : s.capacity.toNat < 16 + raw.1.length
    · refine ⟨0, { s with dropped := s.dropped + 1 }, q, ?_, ?_, sized,
        ⟨h.holds.counted, h.next, hold⟩, rfl⟩
      · simp [exec, append_refused big]
      · exact ⟨iff_of_true rfl ((sized.refuses _).mp big), fun _ => rfl, fun ne => absurd rfl ne⟩
    · obtain ⟨t, K, run, suffix, holds, cap, next⟩ :=
        append_stored h.holds uptimeMs rssi snr flags (by omega : 16 + raw.1.length ≤ s.capacity.toNat)
      have hexec : s.exec (.append uptimeMs rssi snr flags raw) = some (s.nextSeq, t) := by
        simp [exec, run]
      have nonzero : s.nextSeq ≠ 0 := by
        intro zero
        have := h.next
        rw [zero, UInt32.toNat_zero] at this
        omega
      have fits : q.next + 1 < 2 ^ 32 := room.resolve_right fun all => nonzero (all _ _ hexec)
      have hnext : t.nextSeq.toNat = q.next + 1 := by
        have := h.next
        rw [next]
        simp only [UInt32.toNat_add, UInt32.reduceToNat]
        omega
      refine ⟨s.nextSeq, t, ⟨K ++ [s.entry uptimeMs rssi snr flags raw], q.next + 1⟩, hexec,
        ⟨?_, fun zero => absurd zero nonzero, fun _ => ⟨h.next, rfl, K, suffix, rfl⟩⟩,
        cap.trans sized, ⟨holds, hnext, ?_⟩, by simp [nonzero]⟩
      · exact iff_of_false nonzero (mt (sized.refuses _).mpr big)
      · have := suffix.length_le
        simp only [List.length_append, List.length_singleton]
        omega

theorem appended_cons {s t : PacketStore} {op : Fifo.Op} {r : UInt32} {ops : List Fifo.Op}
    (h : s.exec op = some (r, t)) (runs : (t.run ops).isSome) :
    appended s (op :: ops) = (if r = 0 then 0 else 1) + appended t ops := by
  obtain ⟨out, hout⟩ := Option.isSome_iff_exists.mp runs
  by_cases hr : r = 0 <;> simp [appended, run, h, hout, hr, Nat.add_comm]

/-- The store never faults: every run of operations has a result. -/
theorem run_isSome {capacity : UInt32} (ops : List Fifo.Op) {s : PacketStore} {L : List StoredPacket}
    (holds : Holds s L) (sized : Sized capacity s) : (s.run ops).isSome := by
  induction ops generalizing s L with
  | nil => rfl
  | cons op ops ih =>
    have next : ∃ r t K, s.exec op = some (r, t) ∧ Holds t K ∧ Sized capacity t := by
      cases op with
      | clear => exact ⟨0, s.clear, [], rfl, clear_holds s, sized⟩
      | append uptimeMs rssi snr flags raw =>
        by_cases big : s.capacity.toNat < 16 + raw.1.length
        · exact ⟨0, _, L, by simp [exec, append_refused big], holds.counted, sized⟩
        · obtain ⟨t, K, run, _, holds', cap, _⟩ :=
            append_stored holds uptimeMs rssi snr flags (Nat.le_of_not_lt big)
          exact ⟨s.nextSeq, t, _, by simp [exec, run], holds', cap.trans sized⟩
    obtain ⟨r, t, K, exec, holds', sized'⟩ := next
    obtain ⟨out, hout⟩ := Option.isSome_iff_exists.mp (ih holds' sized')
    simp [run, exec, hout]

theorem run_simulates {capacity : UInt32} (ops : List Fifo.Op) {s : PacketStore} {q₀ : Fifo}
    (sized : Sized capacity s) (h : Simulates s q₀) (few : q₀.next + s.appended ops < 2 ^ 32) :
    ∃ q : Nat → Fifo, q 0 = q₀ ∧ ∀ i, i ≤ ops.length →
      ∃ rs t, s.run (ops.take i) = some (rs, t) ∧ Observes t (q i) ∧
        ∀ op, ops[i]? = some op →
          ∃ r u, t.exec op = some (r, u) ∧ Fifo.Step capacity (q i) op r (q (i + 1)) := by
  induction ops generalizing s q₀ with
  | nil =>
    refine ⟨fun _ => q₀, rfl, fun i _ => ⟨[], s, by simp [run], h.observes, by simp⟩⟩
  | cons op ops ih =>
    have room : q₀.next + 1 < 2 ^ 32 ∨ ∀ r t, s.exec op = some (r, t) → r = 0 := by
      by_cases all : ∀ r t, s.exec op = some (r, t) → r = 0
      · exact .inr all
      · left
        simp only [not_forall] at all
        obtain ⟨r, t, exec, hr⟩ := all
        have runs := run_isSome (op :: ops) h.holds sized
        have runs' : (t.run ops).isSome := by
          simp only [run, exec, Option.bind_eq_bind, Option.bind_some] at runs
          cases hrun : t.run ops with
          | none => simp [hrun] at runs
          | some => rfl
        rw [appended_cons exec runs', if_neg hr] at few
        omega
    obtain ⟨r, t, q₁, exec, step, sized', sim, next⟩ := exec_simulates sized h room
    have few' : q₁.next + t.appended ops < 2 ^ 32 := by
      rw [appended_cons exec (run_isSome ops sim.holds sized')] at few
      omega
    obtain ⟨q, start, rest⟩ := ih sized' sim few'
    refine ⟨fun | 0 => q₀ | i + 1 => q i, rfl, fun i hi => ?_⟩
    cases i with
    | zero =>
      refine ⟨[], s, by simp [run], h.observes, fun op' hop => ?_⟩
      obtain rfl : op = op' := by simpa using hop
      exact ⟨r, t, exec, by simpa only [start] using step⟩
    | succ i =>
      obtain ⟨rs, u, runs, observes, step'⟩ := rest i (by simpa using hi)
      exact ⟨r :: rs, u, by simp [run, exec, runs], observes, by simpa using step'⟩

/-- **The ring is a bounded FIFO.** For every capacity and every run of appends
and clears with fewer than 2^32 - 1 packets stored, some sequence of abstract
queues, one before the run and one after each operation, takes the operations'
steps and answers every read of the states the run passes through. -/
theorem packet_store_refines_fifo (capacity : UInt32) (ops : List Fifo.Op)
    (few : (new capacity).appended ops < 2 ^ 32 - 1) :
    ∃ q : Nat → Fifo, q 0 = Fifo.initial ∧ ∀ i, i ≤ ops.length →
      ∃ rs t, (new capacity).run (ops.take i) = some (rs, t) ∧ Observes t (q i) ∧
        ∀ op, ops[i]? = some op →
          ∃ r u, t.exec op = some (r, u) ∧ Fifo.Step capacity (q i) op r (q (i + 1)) :=
  run_simulates ops rfl (new_simulates capacity) (by simp only [Fifo.initial]; omega)

/-- Two records that fill the pool to its last byte, a purge, and a third over the first. -/
def wrapTour : List Fifo.Op :=
  [.append 7 (-70) 9 kFlagReceived ⟨[1, 2, 3], by decide⟩,
    .append 8 (-71) 9 kFlagReceived ⟨[4], by decide⟩, .clear,
    .append 9 (-72) 9 kFlagSent ⟨[5, 6], by decide⟩]

theorem packet_store_refines_fifo_tour :
    ∃ q : Nat → Fifo, q 0 = Fifo.initial ∧ ∀ i, i ≤ wrapTour.length →
      ∃ rs t, (new 36).run (wrapTour.take i) = some (rs, t) ∧ Observes t (q i) ∧
        ∀ op, wrapTour[i]? = some op →
          ∃ r u, t.exec op = some (r, u) ∧ Fifo.Step 36 (q i) op r (q (i + 1)) :=
  packet_store_refines_fifo 36 wrapTour (by decide)

end PacketStore

end MeshPigeon
