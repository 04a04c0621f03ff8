import MeshPigeon.Store.Layout

/-! What evicting, placing and writing a record does to the entries a store holds. -/
namespace MeshPigeon.PacketStore

/-- The store once its oldest record, with a payload of `len` bytes, is gone. -/
def popped (s : PacketStore) (len : UInt8) : PacketStore :=
  { s with
    headOff := s.nextOffset s.headOff len
    wrap := if s.nextOffset s.headOff len = 0 then s.capacity else s.wrap
    count := s.count - 1
    headSeq := s.headSeq + 1
    dropped := s.dropped + 1 }

theorem Layout.popped {s : PacketStore} {e : StoredPacket} {A B : List StoredPacket}
    (h : Layout s (e :: A) B) : ∃ A' B', A ++ B = A' ++ B' ∧ Layout (s.popped e.raw.len) A' B' := by
  have hcap := s.capacity.toNat_lt
  obtain ⟨_, fits, inside⟩ := h.head_held
  have hnext := toNat_nextOffset s s.headOff e (by omega)
  have hsize := size_pos e
  cases h with
  | linear _ held len tail wrap =>
    have hw := congrArg UInt32.toNat wrap
    simp only [span_cons] at len
    rw [if_neg (by omega)] at hnext
    have off0 : s.nextOffset s.headOff e.raw.len ≠ 0 := by
      intro zero; rw [zero] at hnext; simp at hnext; omega
    refine ⟨A, [], rfl, ?_⟩
    by_cases hA : A = []
    · subst hA
      refine .empty ?_ (by simp only [PacketStore.popped]; omega)
        (by simp only [PacketStore.popped, off0, if_false, wrap])
      apply UInt32.toNat_inj.mp
      simp only [PacketStore.popped, hnext]
      simpa using len
    · refine .linear hA ?_ ?_ tail (by simp only [PacketStore.popped, off0, if_false, wrap])
      · simp only [PacketStore.popped, hnext]
        exact (held_cons.mp held).2.congr fun _ _ _ => rfl
      · simp only [PacketStore.popped, hnext]
        omega
  | wrapped _ held front len wrap btail full =>
    simp only [span_cons] at len
    by_cases hA : A = []
    · subst hA
      rw [if_pos (by simp at len; omega)] at hnext
      have off0 : s.nextOffset s.headOff e.raw.len = 0 := UInt32.toNat_inj.mp hnext
      refine ⟨B, [], by simp, ?_⟩
      by_cases hB : B = []
      · subst hB
        have tail0 : s.tailOff = 0 := UInt32.toNat_inj.mp (by simpa using btail.symm)
        exact .empty (by simp [PacketStore.popped, off0, tail0]) (by simp [PacketStore.popped, tail0])
          (by simp [PacketStore.popped, off0])
      · refine .linear hB ?_ ?_ ?_ (by simp [PacketStore.popped, off0])
        · simp only [PacketStore.popped, off0]
          exact front.congr fun _ _ _ => rfl
        · simpa [PacketStore.popped, off0] using btail
        · simp only [PacketStore.popped]; omega
    · have hspan := span_pos hA
      rw [if_neg (by omega)] at hnext
      have off0 : s.nextOffset s.headOff e.raw.len ≠ 0 := by
        intro zero; rw [zero] at hnext; simp at hnext; omega
      refine ⟨A, B, rfl, .wrapped hA ?_ (front.congr fun _ _ _ => rfl) ?_ ?_ btail ?_⟩
      · simp only [PacketStore.popped, hnext]
        exact (held_cons.mp held).2.congr fun _ _ _ => rfl
      · simp only [PacketStore.popped, hnext, off0, if_false]; omega
      · simpa only [PacketStore.popped, off0, if_false] using wrap
      · simp only [PacketStore.popped, hnext]; omega

theorem Layout.nonempty_head {s : PacketStore} {e : StoredPacket} {L A B : List StoredPacket}
    (h : Layout s A B) (eq : e :: L = A ++ B) : ∃ A', A = e :: A' ∧ L = A' ++ B := by
  cases A with
  | nil => cases h with
    | empty => cases eq
    | linear ne => contradiction
    | wrapped ne => contradiction
  | cons a A' => obtain ⟨rfl, rfl⟩ := List.cons.inj eq; exact ⟨A', rfl, rfl⟩

/-- Popping takes exactly the oldest entry. -/
theorem popOldest_holds {s : PacketStore} {e : StoredPacket} {L : List StoredPacket}
    (h : Holds s (e :: L)) :
    s.popOldest = some (s.popped e.raw.len) ∧ Holds (s.popped e.raw.len) L := by
  obtain ⟨⟨A, B, eq, layout⟩, count, numbered, next⟩ := h
  obtain ⟨A', rfl, rfl⟩ := layout.nonempty_head eq
  constructor
  · obtain ⟨held, fits, inside⟩ := layout.head_held
    rw [popOldest, readHeader_held held (by omega)]
    rfl
  · refine ⟨layout.popped, ?_, numbered.2, ?_⟩
    · simp only [popped, UInt32.toNat_sub, UInt32.reduceToNat, count, List.length_cons]
      have := s.count.toNat_lt
      simp only [List.length_cons] at count
      omega
    · simp only [popped, next]
      rw [UInt32.add_assoc, UInt32.add_comm 1, UInt32.sub_add_cancel]

/-- The eviction loop takes entries from the oldest end until its condition no
longer holds or nothing is left; what every pop preserves, it preserves. -/
theorem popWhile_rule (cond : PacketStore → Bool) (P : PacketStore → List StoredPacket → Prop)
    (pop : ∀ s e L, Holds s (e :: L) → cond s = true → P s (e :: L) → P (s.popped e.raw.len) L)
    (turns : Nat) {s : PacketStore} {L : List StoredPacket} (h : Holds s L) (hP : P s L)
    (enough : L.length ≤ turns) :
    ∃ t K, popWhile cond turns s = some t ∧ Holds t K ∧ P t K ∧ (K = [] ∨ cond t = false) := by
  induction turns generalizing s L with
  | zero =>
    have : L = [] := List.eq_nil_of_length_eq_zero (by omega)
    exact ⟨s, L, rfl, h, hP, .inl this⟩
  | succ turns ih =>
    cases L with
    | nil =>
      have hc : s.count = 0 := UInt32.toNat_inj.mp h.count
      exact ⟨s, [], by simp [popWhile, hc], h, hP, .inl rfl⟩
    | cons e L =>
      have hc : 0 < s.count := by
        rw [UInt32.lt_iff_toNat_lt, h.count]; simp
      cases hcond : cond s with
      | false => exact ⟨s, e :: L, by simp [popWhile, hcond], h, hP, .inr hcond⟩
      | true =>
        obtain ⟨popped, rest⟩ := popOldest_holds h
        obtain ⟨t, K, run, holds, kept, stop⟩ :=
          ih rest (pop s e L h hcond hP) (by simp at enough; omega)
        refine ⟨t, K, ?_, holds, kept, stop⟩
        simp [popWhile, hc, hcond, popped, run]

/-- The record of `need` bytes has a place: anywhere once nothing is left, in
the hole of a wrapped pool, behind the tail or before the head of a linear one,
and nowhere in a full one. -/
def Fits (s : PacketStore) (need : Nat) : Prop :=
  s.count = 0 ∨
  (s.tailOff < s.headOff ∧ s.tailOff.toNat + need ≤ s.headOff.toNat) ∨
  (s.headOff < s.tailOff ∧
    (s.tailOff.toNat + need ≤ s.capacity.toNat ∨ need ≤ s.headOff.toNat))

/-- The words that choosing a place leaves alone. -/
structure SameCounts (s t : PacketStore) : Prop where
  capacity : t.capacity = s.capacity
  nextSeq : t.nextSeq = s.nextSeq
  dropped : t.dropped = s.dropped

/-- One piece of records before the tail, in a pool that has not wrapped. -/
structure Flat (s : PacketStore) (L : List StoredPacket) : Prop where
  held : Held s s.headOff.toNat L
  ends : s.headOff.toNat + span L = s.tailOff.toNat
  inside : s.tailOff.toNat < s.capacity.toNat
  wrap : s.wrap = s.capacity

theorem Flat.popped {s : PacketStore} {e : StoredPacket} {L : List StoredPacket}
    (h : Flat s (e :: L)) : Flat (s.popped e.raw.len) L := by
  obtain ⟨held, ends, inside, wrap⟩ := h
  have hcap := s.capacity.toNat_lt
  have hw := congrArg UInt32.toNat wrap
  simp only [span_cons] at ends
  have hnext := toNat_nextOffset s s.headOff e (by omega)
  rw [if_neg (by omega)] at hnext
  refine ⟨?_, ?_, inside, ?_⟩
  · simp only [PacketStore.popped, hnext]
    exact (held_cons.mp held).2.congr fun _ _ _ => rfl
  · simp only [PacketStore.popped, hnext]; omega
  · simp [PacketStore.popped, wrap]

/-! ## Room for one more record -/

/-- Where the next record of `need` bytes may go: after records that reach the
tail, or at the front of the pool, before the head. -/
inductive Room (s : PacketStore) (need : Nat) : List StoredPacket → Prop
  | back {A : List StoredPacket} : Held s s.headOff.toNat A →
      s.headOff.toNat + span A = s.tailOff.toNat → s.wrap = s.capacity →
      s.tailOff.toNat + need ≤ s.capacity.toNat → Room s need A
  | front {A B : List StoredPacket} : A ≠ [] → Held s s.headOff.toNat A → Held s 0 B →
      s.headOff.toNat + span A = s.wrap.toNat → s.wrap.toNat ≤ s.capacity.toNat →
      span B = s.tailOff.toNat → s.tailOff.toNat + need ≤ s.headOff.toNat → Room s need (A ++ B)

theorem Room.fits {s : PacketStore} {need : Nat} {L : List StoredPacket} (h : Room s need L) :
    s.tailOff.toNat + need ≤ s.wrap.toNat ∧ s.wrap.toNat ≤ s.capacity.toNat := by
  cases h with
  | back _ _ wrap fits => rw [wrap]; exact ⟨fits, Nat.le_refl _⟩
  | front _ _ _ len wrap _ fits => exact ⟨by omega, wrap⟩

/-- The store once the record of `e` is written at the tail. -/
def written (s : PacketStore) (e : StoredPacket) : PacketStore :=
  { s with
    buf := Memory.store s.buf s.tailOff.toNat (record e)
    tailOff := if s.tailOff + UInt32.ofNat (size e) ≥ s.wrap then 0
      else s.tailOff + UInt32.ofNat (size e)
    count := s.count + 1
    nextSeq := s.nextSeq + 1 }

@[simp] theorem written_headOff (s : PacketStore) (e : StoredPacket) :
    (s.written e).headOff = s.headOff := rfl
@[simp] theorem written_wrap (s : PacketStore) (e : StoredPacket) :
    (s.written e).wrap = s.wrap := rfl
@[simp] theorem written_capacity (s : PacketStore) (e : StoredPacket) :
    (s.written e).capacity = s.capacity := rfl

theorem held_written {s : PacketStore} {e : StoredPacket} {off : Nat} {L : List StoredPacket}
    (held : Held s off L)
    (apart : off + span L ≤ s.tailOff.toNat ∨ s.tailOff.toNat + size e ≤ off) :
    Held (s.written e) off L := by
  refine held.congr fun i lo hi => ?_
  exact (Memory.store_outside _ _ _ (by simp only [length_record]; omega)).symm

theorem held_new (s : PacketStore) (e : StoredPacket) : Held (s.written e) s.tailOff.toNat [e] := by
  have h := Memory.load_store_same s.buf s.tailOff.toNat (record e)
  simpa [Held, bytesOf, written] using h

theorem toNat_written_tail {s : PacketStore} {e : StoredPacket}
    (fits : s.tailOff.toNat + size e < 2 ^ 32) :
    (s.written e).tailOff.toNat =
      if s.wrap.toNat ≤ s.tailOff.toNat + size e then 0 else s.tailOff.toNat + size e := by
  have hsum : (s.tailOff + UInt32.ofNat (size e)).toNat = s.tailOff.toNat + size e := by
    simp only [UInt32.toNat_add, UInt32.toNat_ofNat']
    omega
  simp only [written, ge_iff_le, UInt32.le_iff_toNat_le, hsum]
  split
  · rfl
  · exact hsum

theorem Room.layout {s : PacketStore} {e : StoredPacket} {L : List StoredPacket}
    (h : Room s (size e) L) : ∃ A B, L ++ [e] = A ++ B ∧ Layout (s.written e) A B := by
  have hcap := s.capacity.toNat_lt
  have hsize := size_pos e
  obtain ⟨fits, inside⟩ := h.fits
  have htail := toNat_written_tail (s := s) (e := e) (by omega)
  have hnew := held_new s e
  cases h with
  | back held ends wrap room =>
    have hw := congrArg UInt32.toNat wrap
    have whole : Held (s.written e) s.headOff.toNat (L ++ [e]) :=
      held_append.mpr ⟨held_written held (by omega), ends ▸ hnew⟩
    refine ⟨L ++ [e], [], by simp, ?_⟩
    by_cases full : s.wrap.toNat ≤ s.tailOff.toNat + size e
    · rw [if_pos full] at htail
      refine .wrapped (by simp) whole (held_nil _ _) ?_ inside (by simp [htail]) (by omega)
      simp only [span_append, span_cons, span_nil, written_headOff, written_wrap]; omega
    · rw [if_neg full] at htail
      refine .linear (by simp) whole ?_ ?_ wrap
      · rw [htail]; simp only [span_append, span_cons, span_nil, written_headOff]; omega
      · rw [htail, written_capacity]; omega
  | @front A B ne held front len wrap btail room =>
    have hspan := span_pos ne
    rw [if_neg (by omega)] at htail
    refine ⟨A, B ++ [e], by simp, ?_⟩
    have old : Held (s.written e) s.headOff.toNat A := held_written held (.inr (by omega))
    refine .wrapped ne old ?_ len wrap ?_ ?_
    · refine held_append.mpr ⟨held_written front (by omega), ?_⟩
      rw [Nat.zero_add, btail]; exact hnew
    · rw [htail]; simp only [span_append, span_cons, span_nil]; omega
    · rw [htail]; exact room

theorem Numbered.snoc {q : UInt32} {L : List StoredPacket} {e : StoredPacket}
    (h : Numbered q L) (he : e.seq = q + UInt32.ofNat L.length) : Numbered q (L ++ [e]) := by
  induction L generalizing q with
  | nil => exact ⟨by simpa using he, trivial⟩
  | cons a L ih =>
    refine ⟨h.1, ih h.2 ?_⟩
    rw [he, List.length_cons, UInt32.ofNat_add, UInt32.add_assoc, UInt32.add_comm 1]
    rfl

theorem Room.written_holds {s : PacketStore} {e : StoredPacket} {L : List StoredPacket}
    (room : Room s (size e) L) (h : Holds s L) (he : e.seq = s.nextSeq) :
    Holds (s.written e) (L ++ [e]) := by
  have hcap := s.capacity.toNat_lt
  have hsize := size_pos e
  have hfits : L.length * 16 ≤ s.capacity.toNat := by
    have spans : ∀ K : List StoredPacket, K.length * 16 ≤ span K := by
      intro K
      induction K with
      | nil => simp
      | cons a K ih => have := size_pos a; simp only [span_cons, List.length_cons]; omega
    obtain ⟨fits, inside⟩ := room.fits
    cases room with
    | back _ ends _ _ => have := spans L; omega
    | @front A B _ _ _ len _ btail _ =>
      have := spans A; have := spans B; simp only [List.length_append]; omega
  have hone : (s.count + 1).toNat = s.count.toNat + 1 := by
    have := h.count
    simp only [UInt32.toNat_add, UInt32.reduceToNat]
    omega
  refine ⟨room.layout, ?_, h.numbered.snoc ?_, ?_⟩
  · rw [List.length_append, List.length_singleton, ← h.count]; exact hone
  · rw [he, h.next, ← h.count, UInt32.ofNat_toNat]
  · simp only [written, h.next, UInt32.add_assoc]

theorem rewind_room {s : PacketStore} {need : Nat} (h : Holds s [])
    (small : need ≤ s.capacity.toNat) : Holds s.rewind [] ∧ Room s.rewind need [] :=
  ⟨⟨⟨[], [], rfl, .empty rfl (by simp [rewind]) rfl⟩, h.count, h.numbered, h.next⟩,
    .back (held_nil _ _) rfl rfl (by simpa [rewind] using small)⟩

theorem Holds.count_eq_zero {s : PacketStore} {L : List StoredPacket} (h : Holds s L) :
    s.count = 0 ↔ L = [] := by
  rw [← UInt32.toNat_inj, h.count, UInt32.toNat_zero, List.length_eq_zero_iff]

/-- In a wrapped pool the free bytes are those between tail and head. -/
theorem free_between {s : PacketStore} {need : UInt32} (pos : 0 < need.toNat) (live : s.count ≠ 0)
    (full : s.tailOff.toNat ≤ s.headOff.toNat) (free : ¬ s.freeBytes < need) :
    s.tailOff.toNat < s.headOff.toNat ∧ s.tailOff.toNat + need.toNat ≤ s.headOff.toNat := by
  simp only [freeBytes, live, if_false, UInt32.lt_iff_toNat_lt, gt_iff_lt] at free
  have apart : s.headOff ≠ s.tailOff := by
    intro eq
    simp only [eq, if_true, UInt32.toNat_zero] at free
    omega
  have above : s.tailOff.toNat < s.headOff.toNat := by
    have : s.headOff.toNat ≠ s.tailOff.toNat := fun eq => apart (UInt32.toNat_inj.mp eq)
    omega
  simp only [apart, above, if_false, if_true] at free
  rw [UInt32.toNat_sub_of_le _ _ (UInt32.le_iff_toNat_le.mpr (by omega))] at free
  exact ⟨above, by omega⟩

/-- While the free bytes are too few, no place fits. -/
theorem not_fits_of_free {s : PacketStore} {L : List StoredPacket} {need : UInt32} (h : Holds s L)
    (live : s.count ≠ 0) (few : s.freeBytes < need) : ¬Fits s need.toNat := by
  simp only [freeBytes, live, if_false, gt_iff_lt, UInt32.lt_iff_toNat_lt] at few
  rintro (none | ⟨above, room⟩ | ⟨below, room⟩)
  · exact live none
  · rw [UInt32.lt_iff_toNat_lt] at above
    have apart : s.headOff ≠ s.tailOff := fun eq => by simp [eq] at above
    rw [if_neg apart, if_pos above,
      UInt32.toNat_sub_of_le _ _ (UInt32.le_iff_toNat_le.mpr (by omega))] at few
    omega
  · rw [UInt32.lt_iff_toNat_lt] at below
    have apart : s.headOff ≠ s.tailOff := fun eq => by simp [eq] at below
    rw [if_neg apart, if_neg (by omega)] at few
    obtain ⟨A, B, _, layout⟩ := h.layout
    cases layout with
    | empty meet => exact apart meet
    | linear _ _ _ inside wrap =>
      have hw := congrArg UInt32.toNat wrap
      have hcap := s.capacity.toNat_lt
      have back : (s.wrap - s.tailOff).toNat = s.wrap.toNat - s.tailOff.toNat :=
        UInt32.toNat_sub_of_le _ _ (UInt32.le_iff_toNat_le.mpr (by omega))
      rw [UInt32.toNat_add, back] at few
      omega
    | wrapped _ _ _ _ _ _ full => omega

/-- While the record fits neither behind the tail nor before the head of a
linear pool, it has no place. -/
theorem Flat.not_fits {s : PacketStore} {L : List StoredPacket} {need : UInt32} (flat : Flat s L)
    (live : s.count ≠ 0) (short : s.wrap - s.tailOff < need) (front : s.headOff < need) :
    ¬Fits s need.toNat := by
  have hw := congrArg UInt32.toNat flat.wrap
  have inside := flat.inside
  have ends := flat.ends
  rw [UInt32.lt_iff_toNat_lt] at front
  rw [UInt32.lt_iff_toNat_lt,
    UInt32.toNat_sub_of_le _ _ (UInt32.le_iff_toNat_le.mpr (by omega))] at short
  rintro (none | ⟨above, _⟩ | ⟨_, room⟩)
  · exact live none
  · rw [UInt32.lt_iff_toNat_lt] at above
    omega
  · omega

section
variable {need : UInt32} {P : PacketStore → List StoredPacket → Prop}
  (pop : ∀ s e L, Holds s (e :: L) → ¬Fits s need.toNat → P s (e :: L) → P (s.popped e.raw.len) L)

include pop

/-- Moving the tail to the front evicts until the front is clear. -/
theorem place_front {s : PacketStore} {A : List StoredPacket} (h : Holds s A) (hP : P s A)
    (flat : Flat s A) (small : need ≤ s.capacity) (live : s.count ≠ 0)
    (below : ¬ s.tailOff < s.headOff) (short : s.wrap - s.tailOff < need) :
    ∃ t u K, s.place need = some u ∧ P t K ∧ Fits t need.toNat ∧ SameCounts t u ∧ Holds u K ∧
      Room u need.toNat K := by
  have hsmall := UInt32.le_iff_toNat_le.mp small
  obtain ⟨t, K, run, holds, ⟨flat, hP, cap, tail⟩, stop⟩ :=
    popWhile_rule (fun s => decide (s.headOff < need))
      (fun t K => Flat t K ∧ P t K ∧ t.capacity = s.capacity ∧ t.tailOff = s.tailOff)
      (fun t e K holds front ⟨flat', hP, cap, tail⟩ => by
        have more : t.count ≠ 0 := mt holds.count_eq_zero.mp (List.cons_ne_nil e K)
        have wrap : t.wrap = s.wrap := by rw [flat'.wrap, cap, ← flat.wrap]
        have none := flat'.not_fits more (by rw [wrap, tail]; exact short) (of_decide_eq_true front)
        exact ⟨flat'.popped, pop t e K holds none hP, cap, tail⟩)
      s.count.toNat h ⟨flat, hP, rfl, rfl⟩ (Nat.le_of_eq h.count.symm)
  by_cases hK : K = []
  · subst hK
    have fits : need.toNat ≤ t.capacity.toNat := by rw [cap]; exact hsmall
    obtain ⟨holds', room⟩ := rewind_room holds fits
    refine ⟨t, t.rewind, [], ?_, hP, .inl (holds.count_eq_zero.mpr rfl), ⟨rfl, rfl, rfl⟩, holds', room⟩
    simp only [place, live, if_false, gt_iff_lt, below, short, if_true, run, Option.bind_eq_bind,
      Option.bind_some, holds.count_eq_zero.mpr rfl]
    rfl
  · have clear : ¬ t.headOff < need := by simpa using stop.resolve_left hK
    rw [UInt32.lt_iff_toNat_lt] at clear
    have inside := flat.inside
    have ends := flat.ends
    have hspan := span_pos hK
    have ahead : t.headOff < t.tailOff := by rw [UInt32.lt_iff_toNat_lt]; omega
    refine ⟨t, { t with wrap := t.tailOff, tailOff := 0 }, K, ?_, hP,
      .inr (.inr ⟨ahead, .inr (Nat.le_of_not_lt clear)⟩), ⟨rfl, rfl, rfl⟩,
      ⟨?_, holds.count, holds.numbered, holds.next⟩, ?_⟩
    · simp only [place, live, if_false, gt_iff_lt, below, short, if_true, run,
        Option.bind_eq_bind, Option.bind_some, mt holds.count_eq_zero.mp hK]
      rfl
    · refine ⟨K, [], by simp, .wrapped hK flat.held (held_nil _ _) flat.ends ?_ rfl (by simp)⟩
      simp only; omega
    · have room : Room { t with wrap := t.tailOff, tailOff := 0 } need.toNat (K ++ []) :=
        .front hK flat.held (held_nil _ _) flat.ends (by simp only; omega) rfl (by simp; omega)
      simpa using room

/-- Placing the tail leaves room for the next record, at the cost of the
oldest entries when the tail has to move to the front. -/
theorem place_room {s : PacketStore} {L : List StoredPacket} (h : Holds s L) (hP : P s L)
    (pos : 0 < need) (small : need ≤ s.capacity) (free : L = [] ∨ ¬ s.freeBytes < need) :
    ∃ t u K, s.place need = some u ∧ P t K ∧ Fits t need.toNat ∧ SameCounts t u ∧ Holds u K ∧
      Room u need.toNat K := by
  by_cases hL : L = []
  · subst hL
    obtain ⟨holds, room⟩ := rewind_room h (UInt32.le_iff_toNat_le.mp small)
    refine ⟨s, s.rewind, [], ?_, hP, .inl (h.count_eq_zero.mpr rfl), ⟨rfl, rfl, rfl⟩, holds, room⟩
    simp only [place, h.count_eq_zero.mpr rfl, if_true]
    rfl
  have live : s.count ≠ 0 := mt h.count_eq_zero.mp hL
  have hfree := free.resolve_left hL
  obtain ⟨A, B, rfl, layout⟩ := h.layout
  cases layout with
  | empty => exact absurd rfl hL
  | wrapped ne held front len wrap btail full =>
    obtain ⟨above, room⟩ :=
      free_between (by simpa [UInt32.lt_iff_toNat_lt] using pos) live full hfree
    refine ⟨s, s, A ++ B, ?_, hP, .inr (.inl ⟨UInt32.lt_iff_toNat_lt.mpr above, room⟩),
      ⟨rfl, rfl, rfl⟩, h, .front ne held front len wrap btail room⟩
    simp only [place, live, if_false, gt_iff_lt, UInt32.lt_iff_toNat_lt, above, if_true]
    rfl
  | linear ne held ends inside wrap =>
    simp only [List.append_nil] at h hP hL ⊢
    have hspan := span_pos ne
    have hw := congrArg UInt32.toNat wrap
    have below : ¬ s.tailOff < s.headOff := by rw [UInt32.lt_iff_toNat_lt]; omega
    by_cases short : s.wrap - s.tailOff < need
    · exact place_front pop h hP ⟨held, ends, inside, wrap⟩ small live below short
    · have room : s.tailOff.toNat + need.toNat ≤ s.capacity.toNat := by
        rw [UInt32.lt_iff_toNat_lt,
          UInt32.toNat_sub_of_le _ _ (UInt32.le_iff_toNat_le.mpr (by omega))] at short
        omega
      have ahead : s.headOff < s.tailOff := by rw [UInt32.lt_iff_toNat_lt]; omega
      refine ⟨s, s, A, ?_, hP, .inr (.inr ⟨ahead, .inl room⟩), ⟨rfl, rfl, rfl⟩, h,
        .back held ends wrap room⟩
      simp only [place, live, if_false, gt_iff_lt, below, short]
      rfl

/-- Evicting until the free bytes suffice and then placing the tail makes room. -/
theorem room_made {s : PacketStore} {L : List StoredPacket} (h : Holds s L) (hP : P s L)
    (pos : 0 < need) (small : need ≤ s.capacity) :
    ∃ t₀ K₀ t u K, popWhile (fun s => s.freeBytes < need) s.count.toNat s = some t₀ ∧
      Holds t₀ K₀ ∧ t₀.place need = some u ∧ P t K ∧ Fits t need.toNat ∧ SameCounts t u ∧
      Holds u K ∧ Room u need.toNat K := by
  obtain ⟨t₀, K₀, run, holds, ⟨hP₀, cap⟩, stop⟩ :=
    popWhile_rule (fun s => decide (s.freeBytes < need))
      (fun t K => P t K ∧ t.capacity = s.capacity)
      (fun t e K holds few ⟨hP, cap⟩ => by
        have live : t.count ≠ 0 := mt holds.count_eq_zero.mp (List.cons_ne_nil e K)
        have none := not_fits_of_free holds live (of_decide_eq_true few)
        exact ⟨pop t e K holds none hP, cap⟩)
      s.count.toNat h ⟨hP, rfl⟩ (Nat.le_of_eq h.count.symm)
  obtain ⟨t, u, K, placed, rest⟩ :=
    place_room pop holds hP₀ pos (by rw [cap]; exact small) (by simpa using stop)
  exact ⟨t₀, K₀, t, u, K, run, holds, placed, rest⟩

end

/-! ## Append -/

/-- The entry an append stores. -/
def entry (s : PacketStore) (uptimeMs : UInt64) (rssi snr : Int8) (flags : UInt8)
    (raw : Payload) : StoredPacket := ⟨s.nextSeq, uptimeMs, rssi, snr, flags, raw⟩

theorem toNat_need (raw : Payload) : (16 + raw.len.toUInt32).toNat = 16 + raw.1.length := by
  have := raw.2
  simp only [UInt32.toNat_add, UInt8.toNat_toUInt32, Payload.toNat_len, UInt32.reduceToNat]
  omega

/-- A packet that can never fit is dropped and counted, and nothing else moves. -/
theorem append_refused {s : PacketStore} {uptimeMs : UInt64} {rssi snr : Int8} {flags : UInt8}
    {raw : Payload} (big : s.capacity.toNat < 16 + raw.1.length) :
    s.append uptimeMs rssi snr flags raw =
      some ⟨{ s with dropped := s.dropped + 1 }, 0, none⟩ := by
  have hneed : s.capacity < 16 + raw.len.toUInt32 := by
    rw [UInt32.lt_iff_toNat_lt, toNat_need]; exact big
  simp [append, hneed]

theorem roomy {s : PacketStore} {raw : Payload} (fits : 16 + raw.1.length ≤ s.capacity.toNat) :
    ¬(s.capacity = 0 ∨ s.capacity < 16 + raw.len.toUInt32) := by
  rintro (zero | lt)
  · rw [zero, UInt32.toNat_zero] at fits
    omega
  · rw [UInt32.lt_iff_toNat_lt, toNat_need] at lt
    omega

/-! The two copies of an append put down one record, which reads back as the entry. -/

theorem header_written {s : PacketStore} {e : StoredPacket}
    (inside : s.tailOff.toNat + size e ≤ s.capacity.toNat) :
    s.writeHeader s.tailOff (header e) =
      some { s with buf := Memory.store s.buf s.tailOff.toNat (header e).encode } := by
  have fits : s.tailOff.toNat + 16 ≤ s.capacity.toNat := by
    rw [size] at inside
    omega
  simp [writeHeader, write, length_encode, fits]

theorem payload_written {s : PacketStore} {e : StoredPacket}
    (inside : s.tailOff.toNat + size e ≤ s.capacity.toNat) :
    write { s with buf := Memory.store s.buf s.tailOff.toNat (header e).encode }
        (s.tailOff.toNat + 16) e.raw.1 =
      some { s with buf := Memory.store s.buf s.tailOff.toNat (record e) } := by
  have fits : s.tailOff.toNat + 16 + e.raw.1.length ≤ s.capacity.toNat := by
    rw [size] at inside
    omega
  have bytes := Memory.store_append s.buf s.tailOff.toNat (header e).encode e.raw.1
  rw [length_encode] at bytes
  simp only [write, fits, if_true, bytes, record]

theorem record_reads {s : PacketStore} {e : StoredPacket}
    (inside : s.tailOff.toNat + size e ≤ s.capacity.toNat) :
    readEntry { s with buf := Memory.store s.buf s.tailOff.toNat (record e) } s.tailOff (header e) =
      some e :=
  readEntry_held ((held_new s e).congr fun _ _ _ => rfl) inside

/-- Every other packet is stored once the oldest entries have made place for it.
What popping the oldest entry preserves while the packet has no place holds of
the store where it first has one. -/
theorem append_rule {s : PacketStore} {L : List StoredPacket} (h : Holds s L)
    (uptimeMs : UInt64) (rssi snr : Int8) (flags : UInt8) {raw : Payload}
    (fits : 16 + raw.1.length ≤ s.capacity.toNat)
    (P : PacketStore → List StoredPacket → Prop) (hP : P s L)
    (pop : ∀ s e L, Holds s (e :: L) → ¬Fits s (16 + raw.1.length) → P s (e :: L) →
      P (s.popped e.raw.len) L) :
    ∃ t u K, P t K ∧ Fits t (16 + raw.1.length) ∧
      s.append uptimeMs rssi snr flags raw =
        some ⟨u, t.nextSeq, some (t.entry uptimeMs rssi snr flags raw)⟩ ∧
      Holds u (K ++ [t.entry uptimeMs rssi snr flags raw]) ∧
      u.capacity = t.capacity ∧ u.nextSeq = t.nextSeq + 1 ∧ u.dropped = t.dropped := by
  have hneed := toNat_need raw
  rw [← hneed] at pop ⊢
  have small : 16 + raw.len.toUInt32 ≤ s.capacity := by
    rw [UInt32.le_iff_toNat_le, hneed]; exact fits
  have pos : 0 < 16 + raw.len.toUInt32 := by
    rw [UInt32.lt_iff_toNat_lt, hneed, UInt32.toNat_zero]; omega
  obtain ⟨t₀, K₀, t, u, K, run, _, placed, hP', place, same, holds', room⟩ :=
    room_made pop h hP pos small
  generalize he : t.entry uptimeMs rssi snr flags raw = e
  have hhead : header e = ⟨uptimeMs, u.nextSeq, rssi, snr, flags, raw.len⟩ := by
    rw [← he, same.nextSeq]; rfl
  have hraw : raw = e.raw := by rw [← he]; rfl
  have hsize : (16 + raw.len.toUInt32).toNat = size e := by rw [hneed, size, hraw]
  have hword : 16 + raw.len.toUInt32 = UInt32.ofNat (size e) := by
    rw [← hsize, UInt32.ofNat_toNat]
  rw [hsize] at room
  have inside : u.tailOff.toNat + size e ≤ u.capacity.toNat :=
    Nat.le_trans room.fits.1 room.fits.2
  have written := room.written_holds holds' (by rw [← he]; exact same.nextSeq.symm)
  refine ⟨t, u.written e, K, hP', place, ?_, by rw [he]; exact written, same.capacity,
    by rw [PacketStore.written, same.nextSeq], same.dropped⟩
  rw [he]
  simp only [append, gt_iff_lt, Bool.or_eq_true, decide_eq_true_eq, roomy fits, if_false, run,
    placed, Option.bind_eq_bind, Option.bind_some, ← hhead, header_written inside]
  rw [hraw, payload_written inside]
  simp only [Option.bind_some, record_reads inside]
  rw [← hraw, hword, ← same.nextSeq]
  rfl

/-- It is stored under the next sequence number; the entries before it are
those at the newest end of what was held. -/
theorem append_stored {s : PacketStore} {L : List StoredPacket} (h : Holds s L)
    (uptimeMs : UInt64) (rssi snr : Int8) (flags : UInt8) {raw : Payload}
    (fits : 16 + raw.1.length ≤ s.capacity.toNat) :
    ∃ t K, s.append uptimeMs rssi snr flags raw =
        some ⟨t, s.nextSeq, some (s.entry uptimeMs rssi snr flags raw)⟩ ∧
      K <:+ L ∧ Holds t (K ++ [s.entry uptimeMs rssi snr flags raw]) ∧
      t.capacity = s.capacity ∧ t.nextSeq = s.nextSeq + 1 := by
  obtain ⟨t, u, K, ⟨suffix, cap, seq⟩, _, run, holds, cap', next, _⟩ :=
    append_rule h uptimeMs rssi snr flags fits
      (fun t K => K <:+ L ∧ t.capacity = s.capacity ∧ t.nextSeq = s.nextSeq)
      ⟨List.suffix_refl L, rfl, rfl⟩
      (fun t e K _ _ ⟨suffix, cap, seq⟩ => ⟨(List.suffix_cons e K).trans suffix, cap, seq⟩)
  have entry : t.entry uptimeMs rssi snr flags raw = s.entry uptimeMs rssi snr flags raw := by
    rw [PacketStore.entry, seq]
    rfl
  rw [entry] at run holds
  rw [seq] at run next
  exact ⟨u, K, run, suffix, holds, cap'.trans cap, next⟩

end MeshPigeon.PacketStore
