import MeshPigeon.Lib.Tiling
import MeshPigeon.Store.Walk

/-!
# Where the records of a store lie

The live records cover the pool from the head to the tail, or from the head to
`wrap` and again from the front to the tail, and the walk visits them in order.
-/
namespace MeshPigeon.PacketStore

open Tiling

/-- The bytes between head and tail. In a pool whose tail is not ahead of the
head they are those up to `wrap` and those before the tail. -/
def InUse (s : PacketStore) (b : Nat) : Prop :=
  s.count ≠ 0 ∧
    if s.headOff < s.tailOff then s.headOff.toNat ≤ b ∧ b < s.tailOff.toNat
    else (s.headOff.toNat ≤ b ∧ b < s.wrap.toNat) ∨ b < s.tailOff.toNat

instance (s : PacketStore) : DecidablePred s.InUse := fun b => by
  unfold InUse
  infer_instance

/-- First byte and length of the record `i` steps from the head. -/
def stretch (s : PacketStore) (i : Nat) : Option (Nat × Nat) := do
  let off ← s.walk i s.headOff
  let h ← s.readHeader off
  return (off.toNat, kStoredPacketOverhead + h.len.toNat)

/-- The walk visits the live records by their numbers and ends at the tail; they
tile the bytes in use, all of which are bytes of the pool. -/
structure Tiled (s : PacketStore) : Prop where
  numbered : ∀ i < s.count.toNat, ∃ off h, s.walk i s.headOff = some off ∧
    s.readHeader off = some h ∧ h.seq.toNat = s.headSeq.toNat + i
  ends : s.walk s.count.toNat s.headOff = some s.tailOff
  tiles : ∃ ps, (List.range s.count.toNat).map s.stretch = ps.map some ∧ Tiles ps s.InUse
  inside : ∀ b, s.InUse b → b < s.capacity.toNat

/-! ## Offsets on the walk -/

theorem walk_add (s : PacketStore) (m n : Nat) (off : UInt32) :
    s.walk (m + n) off = (s.walk m off).bind (s.walk n) := by
  induction m generalizing off with
  | zero => rw [Nat.zero_add]; rfl
  | succ m ih =>
    rw [Nat.succ_add, walk, walk]
    cases s.readHeader off with
    | none => rfl
    | some h => exact ih _

theorem At.walk_one {s : PacketStore} {off : UInt32} {e : StoredPacket} (h : At s off e) :
    s.walk 1 off = some (s.nextOffset off e.raw.len) := by
  rw [walk, h.readHeader_eq]
  rfl

theorem At.toNat_next {s : PacketStore} {off : UInt32} {e : StoredPacket} (h : At s off e) :
    (s.nextOffset off e.raw.len).toNat =
      if s.wrap.toNat ≤ off.toNat + size e then 0 else off.toNat + size e :=
  toNat_nextOffset s off e (Nat.lt_of_le_of_lt h.fits s.capacity.toNat_lt)

section

variable {s : PacketStore} {off : UInt32} {A : List StoredPacket}

/-- The walk over records that lie in one piece below `wrap`. -/
theorem walk_segment (held : Held s off.toNat A) (below : off.toNat + span A ≤ s.wrap.toNat)
    (inside : s.wrap.toNat ≤ s.capacity.toNat) {i : Nat} {e : StoredPacket} (here : A[i]? = some e) :
    ∃ off', s.walk i off = some off' ∧ off'.toNat = off.toNat + span (A.take i) ∧ At s off' e := by
  induction i generalizing off A with
  | zero =>
    cases A with
    | nil => cases here
    | cons a A =>
      obtain rfl := Option.some.inj here
      rw [span_cons] at below
      exact ⟨off, rfl, rfl, (held_cons.mp held).1, by omega⟩
  | succ i ih =>
    cases A with
    | nil => cases here
    | cons a A =>
      obtain ⟨first, rest⟩ := held_cons.mp held
      rw [span_cons] at below
      rw [List.getElem?_cons_succ] at here
      have more := span_pos (List.ne_nil_of_mem (List.mem_of_getElem? here))
      have at' : At s off a := ⟨first, by omega⟩
      have next := at'.toNat_next
      rw [if_neg (by omega)] at next
      rw [← next] at rest
      obtain ⟨off', walked, offset, there⟩ := ih rest (by omega) here
      refine ⟨off', ?_, by rw [offset, next, List.take_succ_cons, span_cons, Nat.add_assoc], there⟩
      rw [Nat.add_comm i 1, walk_add, at'.walk_one]
      exact walked

/-- Behind the last of them it is where they end, or at the front. -/
theorem walk_segment_end (held : Held s off.toNat A) (below : off.toNat + span A ≤ s.wrap.toNat)
    (inside : s.wrap.toNat ≤ s.capacity.toNat) (ne : A ≠ []) :
    ∃ off', s.walk A.length off = some off' ∧
      off'.toNat = if s.wrap.toNat ≤ off.toNat + span A then 0 else off.toNat + span A := by
  obtain ⟨init, e, rfl⟩ := (List.eq_nil_or_concat A).resolve_left ne
  rw [List.concat_eq_append] at *
  have here : (init ++ [e])[init.length]? = some e := by simp
  obtain ⟨off', walked, offset, there⟩ := walk_segment held below inside here
  refine ⟨s.nextOffset off' e.raw.len, ?_, ?_⟩
  · rw [List.length_append, List.length_singleton, walk_add, walked]
    exact there.walk_one
  · rw [there.toNat_next, offset, List.take_left]
    simp only [span_append, span_cons, span_nil, Nat.add_zero, Nat.add_assoc]

end

/-! ## The records of the layouts -/

/-- Where the records of a layout lie. -/
def places (s : PacketStore) (A B : List StoredPacket) : List (Nat × Nat) :=
  pieces s.headOff.toNat (A.map size) ++ pieces 0 (B.map size)

theorem getElem?_pieces_size (o : Nat) {A : List StoredPacket} {i : Nat} {e : StoredPacket}
    (here : A[i]? = some e) : (pieces o (A.map size))[i]? = some (o + span (A.take i), size e) := by
  rw [getElem?_pieces, List.getElem?_map, here, ← List.map_take]
  rfl

/-- The record with index `i` is found where it lies. -/
theorem Layout.walk {s : PacketStore} {A B : List StoredPacket} (h : Layout s A B) {i : Nat}
    {e : StoredPacket} (here : (A ++ B)[i]? = some e) :
    ∃ off, s.walk i s.headOff = some off ∧ At s off e ∧
      (places s A B)[i]? = some (off.toNat, size e) := by
  have segment (held : Held s s.headOff.toNat A) (below : s.headOff.toNat + span A ≤ s.wrap.toNat)
      (inside : s.wrap.toNat ≤ s.capacity.toNat) (here : A[i]? = some e) :
      ∃ off, s.walk i s.headOff = some off ∧ At s off e ∧
        (places s A B)[i]? = some (off.toNat, size e) := by
    obtain ⟨off, walked, offset, there⟩ := walk_segment held below inside here
    refine ⟨off, walked, there, ?_⟩
    have short : i < A.length := (List.getElem?_eq_some_iff.mp here).1
    rw [places, List.getElem?_append_left (by simpa using short), getElem?_pieces_size _ here, offset]
  cases h with
  | empty => cases here
  | linear ne held ends inside wrap =>
    have hw := congrArg UInt32.toNat wrap
    rw [List.append_nil] at here
    exact segment held (by omega) (by omega) here
  | wrapped ne held front ends inside btail full =>
    by_cases early : i < A.length
    · rw [List.getElem?_append_left early] at here
      exact segment held (by omega) inside here
    · obtain ⟨j, rfl⟩ := Nat.exists_eq_add_of_le (Nat.le_of_not_lt early)
      rw [List.getElem?_append_right (Nat.le_add_right ..), Nat.add_sub_cancel_left] at here
      have positive := span_pos ne
      obtain ⟨off, turned, zero⟩ := walk_segment_end held (Nat.le_of_eq ends) inside ne
      rw [if_pos (Nat.le_of_eq ends.symm)] at zero
      obtain rfl : off = 0 := UInt32.toNat_inj.mp zero
      rw [← UInt32.toNat_zero] at front
      obtain ⟨off', walked, offset, there⟩ :=
        walk_segment front (by rw [UInt32.toNat_zero]; omega) inside here
      refine ⟨off', by rw [walk_add, turned]; exact walked, there, ?_⟩
      rw [places, List.getElem?_append_right (by simp), length_pieces, List.length_map,
        Nat.add_sub_cancel_left, getElem?_pieces_size _ here, offset]
      rfl

theorem Layout.walk_end {s : PacketStore} {A B : List StoredPacket} (h : Layout s A B) :
    s.walk (A ++ B).length s.headOff = some s.tailOff := by
  cases h with
  | empty meet => exact congrArg some meet
  | linear ne held ends inside wrap =>
    have hw := congrArg UInt32.toNat wrap
    obtain ⟨off, walked, offset⟩ := walk_segment_end held (by omega) (by omega) ne
    rw [if_neg (by omega), ends] at offset
    rw [List.append_nil, walked, UInt32.toNat_inj.mp offset]
  | wrapped ne held front ends inside btail full =>
    have positive := span_pos ne
    obtain ⟨off, turned, zero⟩ := walk_segment_end held (Nat.le_of_eq ends) inside ne
    rw [if_pos (Nat.le_of_eq ends.symm)] at zero
    obtain rfl : off = 0 := UInt32.toNat_inj.mp zero
    rw [List.length_append, walk_add, turned, Option.bind_some]
    by_cases none : B = []
    · subst none
      exact congrArg some (UInt32.toNat_inj.mp btail)
    · rw [← UInt32.toNat_zero] at front
      obtain ⟨off', walked, offset⟩ :=
        walk_segment_end front (by rw [UInt32.toNat_zero]; omega) inside none
      rw [UInt32.toNat_zero, Nat.zero_add, if_neg (by omega), btail] at offset
      rw [walked, UInt32.toNat_inj.mp offset]

/-- They tile the bytes in use. -/
theorem Layout.tiles {s : PacketStore} {A B : List StoredPacket} (h : Layout s A B)
    (count : s.count.toNat = (A ++ B).length) : Tiles (places s A B) s.InUse := by
  have live (some : A ≠ []) : s.count ≠ 0 := by
    rintro zero
    rw [zero, UInt32.toNat_zero, List.length_append] at count
    have := List.length_pos_iff.mpr some
    omega
  have sums (L : List StoredPacket) : (L.map size).sum = span L := rfl
  cases h with
  | empty =>
    refine tiles_nil.congr fun b => iff_of_false not_false fun use => use.1 ?_
    exact UInt32.toNat_inj.mp count
  | linear ne held ends inside wrap =>
    have positive := span_pos ne
    have ahead : s.headOff < s.tailOff := UInt32.lt_iff_toNat_lt.mpr (by omega)
    rw [places, List.map_nil, pieces, List.append_nil]
    refine (tiles_pieces _ _).congr fun b => ?_
    rw [InUse, if_pos ahead, sums, ends]
    exact (and_iff_right (live ne)).symm
  | wrapped ne held front ends inside btail full =>
    have behind : ¬s.headOff < s.tailOff := by
      rw [UInt32.lt_iff_toNat_lt]
      omega
    refine ((tiles_pieces _ _).append (tiles_pieces _ _) ?_).congr fun b => ?_
    · intro b inA inB
      rw [sums] at inA inB
      omega
    · rw [InUse, if_neg behind, sums, sums, ends, btail, Nat.zero_add, and_iff_right (Nat.zero_le b)]
      exact (and_iff_right (live ne)).symm

theorem Layout.inUse_lt {s : PacketStore} {A B : List StoredPacket} (h : Layout s A B) {b : Nat}
    (use : s.InUse b) (count : s.count.toNat = (A ++ B).length) : b < s.capacity.toNat := by
  obtain ⟨live, within⟩ := use
  cases h with
  | empty => exact absurd (UInt32.toNat_inj.mp count) live
  | linear ne held ends inside wrap =>
    have hw := congrArg UInt32.toNat wrap
    split at within
    · omega
    · omega
  | wrapped ne held front ends inside btail full =>
    split at within
    · omega
    · omega

/-! ## Every store with well-placed records -/

theorem numbered_at {q : UInt32} {L : List StoredPacket} (h : Numbered q L) {i : Nat}
    {e : StoredPacket} (here : L[i]? = some e) : e.seq = q + UInt32.ofNat i := by
  induction L generalizing q i with
  | nil => cases here
  | cons a L ih =>
    cases i with
    | zero =>
      obtain rfl := Option.some.inj here
      rw [h.1]
      exact (UInt32.add_zero q).symm
    | succ i =>
      rw [ih h.2 here, UInt32.ofNat_add, UInt32.add_assoc, UInt32.add_comm 1]
      rfl

theorem Holds.tiled {s : PacketStore} {L : List StoredPacket} (h : Holds s L)
    (fits : s.headSeq.toNat + s.count.toNat ≤ 2 ^ 32) : Tiled s := by
  obtain ⟨A, B, rfl, layout⟩ := h.layout
  have count := h.count
  have placed (i : Nat) (live : i < s.count.toNat) : ∃ off e, (A ++ B)[i]? = some e ∧
      s.walk i s.headOff = some off ∧ At s off e ∧ (places s A B)[i]? = some (off.toNat, size e) := by
    rw [count] at live
    obtain ⟨off, rest⟩ := layout.walk (List.getElem?_eq_getElem live)
    exact ⟨off, _, List.getElem?_eq_getElem live, rest⟩
  refine ⟨?_, by rw [count]; exact layout.walk_end, ⟨places s A B, ?_, layout.tiles count⟩,
    fun b use => layout.inUse_lt use count⟩
  · intro i live
    obtain ⟨off, e, here, walked, there, _⟩ := placed i live
    refine ⟨off, header e, walked, there.readHeader_eq, ?_⟩
    rw [header, numbered_at h.numbered here, UInt32.toNat_add, UInt32.toNat_ofNat']
    omega
  · apply List.ext_getElem?
    intro i
    rw [List.getElem?_map, List.getElem?_map]
    by_cases live : i < s.count.toNat
    · obtain ⟨off, e, here, walked, there, place⟩ := placed i live
      rw [List.getElem?_range live, place, Option.map_some, Option.map_some, stretch, walked]
      rw [Option.bind_eq_bind, Option.bind_some, there.readHeader_eq]
      simp [header, size]
    · have long : (places s A B).length ≤ i := by
        rw [count, List.length_append] at live
        rw [places, List.length_append, length_pieces, length_pieces, List.length_map,
          List.length_map]
        omega
      rw [List.getElem?_eq_none (by simpa using live), List.getElem?_eq_none long]
      rfl

end MeshPigeon.PacketStore
