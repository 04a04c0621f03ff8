import Mathlib.Data.List.Induction
import Mathlib.Data.List.Nodup
import MeshPigeon.Store.Valid

/-! The numbers on a page of the store. -/
namespace MeshPigeon

open PacketStore

theorem filter_above (since o n : Nat) :
    (List.range' o n).filter (fun x => since < x) =
      List.range' (max (since + 1) o) (o + n - max (since + 1) o) := by
  induction n generalizing o with
  | zero =>
    rw [show o + 0 - max (since + 1) o = 0 by omega]
    rfl
  | succ n ih =>
    rw [List.range'_succ, List.filter_cons]
    split
    · rename_i above
      have above := of_decide_eq_true above
      rw [ih, show max (since + 1) (o + 1) = o + 1 by omega, show max (since + 1) o = o by omega,
        show o + (n + 1) - o = n + 1 by omega, List.range'_succ,
        show o + 1 + n - (o + 1) = n by omega]
    · rename_i below
      have below : ¬since < o := fun above => below (decide_eq_true above)
      rw [ih, show max (since + 1) (o + 1) = max (since + 1) o by omega,
        show o + 1 + n = o + (n + 1) by omega]

theorem take_range' (o n k : Nat) : (List.range' o n).take k = List.range' o (min k n) := by
  rcases Nat.le_total n k with all | some
  · rw [List.take_range'_of_length_le all, Nat.min_eq_right all]
  · rw [List.take_range'_of_length_ge some, Nat.min_eq_left some]

/-- Where a value stands in consecutive numbers. -/
theorem range'_at {xs ys : List Nat} {x o n : Nat} (h : xs ++ x :: ys = List.range' o n) :
    x = o + xs.length := by
  induction xs generalizing o n with
  | nil =>
    cases n with
    | zero => cases h
    | succ n => exact (List.cons.inj h).1
  | cons y xs ih =>
    cases n with
    | zero => cases h
    | succ n =>
      have := ih (List.cons.inj h).2
      rw [List.length_cons]
      omega

theorem PacketStore.Simulates.oldestSeq_le {s : PacketStore} {q : Fifo} (h : Simulates s q) :
    s.oldestSeq.toNat ≤ s.nextSeq.toNat := by
  have head := h.headSeq
  have next := h.next
  unfold oldestSeq
  split
  · exact Nat.le_refl _
  · omega

/-- A retained entry is found under its number. -/
theorem PacketStore.Simulates.get_mem {s : PacketStore} {q : Fifo} (h : Simulates s q)
    {e : StoredPacket} (he : e ∈ q.entries) : s.get e.seq = some (some e) := by
  rw [h.get_eq]
  cases found : q.entries.find? fun d => d.seq = e.seq with
  | none => simpa using List.find?_eq_none.mp found e he
  | some d =>
    have once : (q.entries.map (·.seq.toNat)).Nodup := by
      rw [h.observes.seqs]
      exact List.nodup_range'
    have same : d.seq = e.seq := by simpa using List.find?_some found
    rw [List.inj_on_of_nodup_map once (List.mem_of_find?_eq_some found) he
      (congrArg UInt32.toNat same)]

namespace Store

/-- A page is consecutive from the first retained number after the cursor. -/
theorem page_seqs {s : Store} {q : Fifo} (h : Simulates s.1 q) (sinceSeq maxCount : UInt32) :
    (s.page sinceSeq maxCount).map (·.seq.toNat) =
      List.range' (max (sinceSeq.toNat + 1) s.1.oldestSeq.toNat)
        (min maxCount.toNat (q.next - max (sinceSeq.toNat + 1) s.1.oldestSeq.toNat)) := by
  have seqs := h.observes.seqs
  have oldest := h.oldestSeq_le
  have newer : (q.entries.filter fun e => sinceSeq < e.seq).map (·.seq.toNat) =
      (q.entries.map (·.seq.toNat)).filter fun x => sinceSeq.toNat < x := by
    rw [List.filter_map]
    simp only [UInt32.lt_iff_toNat_lt]
    rfl
  rw [page_eq h.holds, List.map_take, newer, seqs, filter_above, take_range',
    Nat.add_sub_cancel' oldest, h.next]

theorem page_retained {s : Store} {q : Fifo} (h : Simulates s.1 q) {sinceSeq maxCount : UInt32}
    {e : StoredPacket} (he : e ∈ s.page sinceSeq maxCount) : e ∈ q.entries := by
  rw [page_eq h.holds] at he
  exact List.mem_of_mem_filter (List.mem_of_mem_take he)

theorem page_length_le (s : Store) (sinceSeq maxCount : UInt32) :
    (s.page sinceSeq maxCount).length ≤ maxCount.toNat := by
  obtain ⟨L, holds⟩ := s.2
  rw [page_eq holds]
  exact List.length_take_le _ _

/-- The cursor after a page: the last entry's number, or the cursor before an empty one. -/
def cursorAfter (sinceSeq : UInt32) (page : List StoredPacket) : UInt32 :=
  page.getLast?.elim sinceSeq (·.seq)

/-- A page shorter than asked for leaves nothing newer behind. -/
theorem page_short {s : Store} {q : Fifo} (h : Simulates s.1 q) {sinceSeq maxCount : UInt32}
    (short : (s.page sinceSeq maxCount).length < maxCount.toNat) {seq : UInt32}
    (newer : cursorAfter sinceSeq (s.page sinceSeq maxCount) < seq) : s.1.get seq = some none := by
  have seqs := page_seqs h sinceSeq maxCount
  have oldest := h.oldestSeq_le
  have next := h.next
  have retained := h.observes.seqs
  have count := congrArg List.length seqs
  rw [List.length_map, List.length_range'] at count
  have whole : (s.page sinceSeq maxCount).length =
      q.next - max (sinceSeq.toNat + 1) s.1.oldestSeq.toNat := by omega
  have beyond : sinceSeq.toNat < seq.toNat ∧
      (s.page sinceSeq maxCount ≠ [] → q.next ≤ seq.toNat) := by
    rw [cursorAfter] at newer
    generalize s.page sinceSeq maxCount = page at seqs newer whole
    induction page using List.reverseRecOn with
    | nil => exact ⟨UInt32.lt_iff_toNat_lt.mp newer, fun some => absurd rfl some⟩
    | append_singleton zs z _ =>
      rw [List.map_append, List.map_singleton] at seqs
      have last := range'_at seqs
      rw [List.length_map] at last
      rw [List.length_append, List.length_singleton] at whole
      have newer : z.seq.toNat < seq.toNat := by simpa [UInt32.lt_iff_toNat_lt] using newer
      exact ⟨by omega, fun _ => by omega⟩
  rw [h.get_eq, List.find?_eq_none.mpr]
  intro e he same
  obtain rfl := of_decide_eq_true same
  have inside : e.seq.toNat ∈ q.entries.map (·.seq.toNat) := List.mem_map_of_mem he
  rw [retained, List.mem_range'_1] at inside
  by_cases none : s.page sinceSeq maxCount = []
  · rw [none, List.length_nil] at whole
    omega
  · have := beyond.2 none
    omega

end Store

end MeshPigeon
