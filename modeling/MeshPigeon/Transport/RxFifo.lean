import Mathlib.Data.Nat.Bitwise
import MeshPigeon.Lib.LossyQueue
import MeshPigeon.Lib.RingBuffer
import MeshPigeon.Framing.Drain
import MeshPigeon.Transport.Esp32Ble

/-!
# The receive FIFO

`RxFifo` of `transports.h`, between the host task that writes and the board loop
that reads. `size_t` is 32 bits wide and both indices run freely.
-/
namespace MeshPigeon

structure RxFifo (N : Nat) where
  buf : Fin N → UInt8
  head : UInt32
  tail : UInt32

namespace RxFifo

open LossyQueue

variable {N : Nat} [NeZero N]

/-- `i & (N - 1)` -/
def slot (i : UInt32) : Fin N :=
  ⟨(i &&& UInt32.ofNat (N - 1)).toNat, by
    have masked : (i &&& UInt32.ofNat (N - 1)).toNat ≤ (N - 1) % 2 ^ 32 := by
      rw [UInt32.toNat_and, UInt32.toNat_ofNat']
      exact Nat.and_le_right
    have below := Nat.mod_le (N - 1) (2 ^ 32)
    have positive := Nat.pos_of_neZero N
    omega⟩

/-- One turn of the loop of `write`: `none` when the FIFO is full. -/
def put (f : RxFifo N) (b : UInt8) : Option (RxFifo N) :=
  if f.head - f.tail ≥ UInt32.ofNat N then none
  else some { f with buf := Function.update f.buf (slot f.head) b, head := f.head + 1 }

def write (f : RxFifo N) : List UInt8 → RxFifo N
  | [] => f
  | b :: data =>
    match f.put b with
    | none => f
    | some f => f.write data

def available (f : RxFifo N) : Int := (f.head - f.tail).toInt32.toInt

def read (f : RxFifo N) : Int × RxFifo N :=
  if f.head = f.tail then (-1, f)
  else ((f.buf (slot f.tail)).toNat, { f with tail := f.tail + 1 })

def clear (f : RxFifo N) : RxFifo N := { f with tail := f.head }

/-- The bytes between the indices. -/
def queued (f : RxFifo N) : List UInt8 :=
  RingBuffer.contents f.buf f.tail.toNat (f.head - f.tail).toNat

/-- What a reader makes of the `int` that `read` returns. -/
def byteOf (r : Int) : Option UInt8 := if r < 0 then none else some (UInt8.ofInt r)

/-- The FIFO between its two tasks. -/
structure Shared (N : Nat) where
  fifo : RxFifo N
  /-- what the call of `write` under way has not come to yet -/
  rest : List UInt8 := []

namespace Shared

/-- One step of either task. A call of `write` while another is under way, and a
turn of its loop while none is, are not enabled. -/
def step (s : Shared N) : TaskStep UInt8 → Shared N × List (Did UInt8)
  | .write data =>
    match s.rest with
    | [] => ({ s with rest := data }, [.written data])
    | _ :: _ => (s, [])
  | .put =>
    match s.rest with
    | [] => (s, [])
    | b :: rest =>
      match s.fifo.put b with
      | none => ({ s with rest := [] }, [.refused (b :: rest)])
      | some fifo => (⟨fifo, rest⟩, [.accepted b])
  | .available => (s, [.found s.fifo.available])
  | .read => ({ s with fifo := s.fifo.read.2 }, [.got (byteOf s.fifo.read.1)])
  | .clear => ({ s with fifo := s.fifo.clear }, [.cleared s.fifo.queued])

def run (s : Shared N) : List (TaskStep UInt8) → Shared N × List (Did UInt8)
  | [] => (s, [])
  | act :: acts =>
    let r := s.step act
    let t := run r.1 acts
    (t.1, r.2 ++ t.2)

end Shared

/-! ## The FIFO as a list -/

/-- The slots from `tail` on hold `q`, and `head` is as far ahead. -/
structure Represents (f : RxFifo N) (q : List UInt8) : Prop where
  contents : RingBuffer.contents f.buf f.tail.toNat q.length = q
  head : f.head = f.tail + UInt32.ofNat q.length
  fits : q.length ≤ N

theorem represents_meet (buf : Fin N → UInt8) (start : UInt32) :
    Represents ⟨buf, start, start⟩ [] := ⟨rfl, (UInt32.add_zero _).symm, Nat.zero_le _⟩

theorem Represents.read_nil {f : RxFifo N} (h : Represents f []) : f.read = (-1, f) := by
  have meet : f.head = f.tail := by
    rw [h.head]
    exact UInt32.add_zero _
  rw [read, if_pos meet]

section

variable {k : Nat} (small : k < 31) {f : RxFifo (2 ^ k)} {q : List UInt8}

include small

theorem size_lt : 2 ^ k < 2 ^ 31 := Nat.pow_lt_pow_right (by decide) small

theorem turns : 2 ^ k ∣ 2 ^ 32 := Nat.pow_dvd_pow 2 (by omega)

/-- For a power of two the mask is the rest. -/
theorem slot_eq (i : UInt32) : (slot i : Fin (2 ^ k)) = Fin.ofNat (2 ^ k) i.toNat := by
  have below := size_lt small
  apply Fin.ext
  show (i &&& UInt32.ofNat (2 ^ k - 1)).toNat = i.toNat % 2 ^ k
  rw [UInt32.toNat_and, UInt32.toNat_ofNat', Nat.mod_eq_of_lt (by omega),
    Nat.and_two_pow_sub_one_eq_mod]

/-- The difference of the indices is the length, wherever they stand. -/
theorem Represents.length (h : Represents f q) : (f.head - f.tail).toNat = q.length := by
  have below := size_lt small
  have fits := h.fits
  rw [h.head, UInt32.add_comm, UInt32.add_sub_cancel, UInt32.toNat_ofNat',
    Nat.mod_eq_of_lt (by omega)]

theorem Represents.queued (h : Represents f q) : f.queued = q := by
  rw [RxFifo.queued, h.length small, h.contents]

theorem Represents.available (h : Represents f q) : f.available = q.length := by
  have below := size_lt small
  have fits := h.fits
  have length := h.length small
  rw [RxFifo.available, UInt32.toInt32, Int32.toInt, BitVec.toInt_eq_toNat_of_lt]
  · exact congrArg Nat.cast length
  · show 2 * (f.head - f.tail).toNat < 2 ^ 32
    omega

theorem Represents.full (h : Represents f q) :
    f.head - f.tail ≥ UInt32.ofNat (2 ^ k) ↔ q.length = 2 ^ k := by
  have below := size_lt small
  have fits := h.fits
  rw [ge_iff_le, UInt32.le_iff_toNat_le, h.length small, UInt32.toNat_ofNat',
    Nat.mod_eq_of_lt (by omega)]
  omega

theorem Represents.put_full (h : Represents f q) (full : q.length = 2 ^ k) (b : UInt8) :
    f.put b = none := by
  rw [put, if_pos ((h.full small).mpr full)]

theorem Represents.put_room (h : Represents f q) (room : q.length < 2 ^ k) (b : UInt8) :
    ∃ f', f.put b = some f' ∧ Represents f' (q ++ [b]) := by
  have below := size_lt small
  have next : (slot f.head : Fin (2 ^ k)) = Fin.ofNat (2 ^ k) (f.tail.toNat + q.length) := by
    rw [slot_eq small, h.head]
    apply Fin.ext
    show (f.tail + UInt32.ofNat q.length).toNat % 2 ^ k = (f.tail.toNat + q.length) % 2 ^ k
    rw [UInt32.toNat_add, UInt32.toNat_ofNat', Nat.mod_eq_of_lt (a := q.length) (by omega),
      Nat.mod_mod_of_dvd _ (turns small)]
  refine ⟨_, if_neg (mt (h.full small).mp (Nat.ne_of_lt room)), ?_, ?_, ?_⟩
  · rw [next, List.length_append, List.length_singleton, RingBuffer.contents_push _ _ room,
      h.contents]
  · show f.head + 1 = f.tail + UInt32.ofNat (q ++ [b]).length
    rw [h.head, List.length_append, UInt32.ofNat_add, UInt32.add_assoc]
    rfl
  · rw [List.length_append, List.length_singleton]
    exact room

theorem Represents.read_cons {b : UInt8} (h : Represents f (b :: q)) :
    ∃ f', f.read = ((b.toNat : Int), f') ∧ Represents f' q := by
  have apart : f.head ≠ f.tail := by
    intro meet
    have length := h.length small
    rw [meet, UInt32.sub_self] at length
    exact absurd length.symm (Nat.succ_ne_zero _)
  have contents := h.contents
  rw [List.length_cons, RingBuffer.contents_pop, ← slot_eq small] at contents
  obtain ⟨first, others⟩ := List.cons.inj contents
  refine ⟨{ f with tail := f.tail + 1 }, ?_, ?_, ?_, Nat.le_of_succ_le h.fits⟩
  · rw [read, if_neg apart, first]
  · show RingBuffer.contents f.buf (f.tail + 1).toNat q.length = q
    rw [UInt32.toNat_add]
    exact (RingBuffer.contents_mod _ (turns small) _ _).trans others
  · show f.head = f.tail + 1 + UInt32.ofNat q.length
    rw [h.head, List.length_cons, UInt32.ofNat_add, UInt32.add_assoc, UInt32.add_comm 1]
    rfl

end

/-! ## The steps of the two tasks -/

theorem byteOf_toNat (b : UInt8) : byteOf (b.toNat : Int) = some b := by
  rw [byteOf, if_neg (by omega), ByteSource.ofInt_toNat]

namespace Shared

/-- The shared FIFO and the queue it is. -/
structure Simulates (s : Shared N) (q : Queue UInt8) : Prop where
  fifo : Represents s.fifo q.entries
  rest : s.rest = q.rest

variable {k : Nat} (small : k < 31) {s : Shared (2 ^ k)} {q : Queue UInt8}

include small

theorem step_simulates (h : Simulates s q) (act : TaskStep UInt8) :
    Simulates (s.step act).1 (q.step (2 ^ k) act).1 ∧ (s.step act).2 = (q.step (2 ^ k) act).2 := by
  obtain ⟨fifo, rest⟩ := s
  obtain ⟨entries, rest'⟩ := q
  obtain ⟨represents, rfl⟩ : Represents fifo entries ∧ rest = rest' := ⟨h.fifo, h.rest⟩
  cases act with
  | write data => cases rest <;> exact ⟨⟨represents, rfl⟩, rfl⟩
  | put =>
    cases rest with
    | nil => exact ⟨⟨represents, rfl⟩, rfl⟩
    | cons b rest =>
      by_cases room : entries.length < 2 ^ k
      · obtain ⟨fifo', put, represents'⟩ := represents.put_room small room b
        simp only [step, Queue.step, put, if_pos room, and_true]
        exact ⟨represents', rfl⟩
      · have full : entries.length = 2 ^ k := Nat.le_antisymm represents.fits (Nat.le_of_not_lt room)
        simp only [step, Queue.step, represents.put_full small full b, if_neg room, and_true]
        exact ⟨represents, rfl⟩
  | available => exact ⟨h, by simp only [step, Queue.step, represents.available small]⟩
  | read =>
    cases entries with
    | nil =>
      rw [step, Queue.step, represents.read_nil]
      exact ⟨⟨represents, rfl⟩, rfl⟩
    | cons b entries =>
      obtain ⟨fifo', read, represents'⟩ := represents.read_cons small
      rw [step, Queue.step, read, byteOf_toNat]
      exact ⟨⟨represents', rfl⟩, rfl⟩
  | clear =>
    rw [step, Queue.step, represents.queued small]
    exact ⟨⟨represents_meet fifo.buf fifo.head, rfl⟩, rfl⟩

theorem run_simulates (acts : List (TaskStep UInt8)) (h : Simulates s q) :
    Simulates (s.run acts).1 (q.run (2 ^ k) acts).1 ∧ (s.run acts).2 = (q.run (2 ^ k) acts).2 := by
  induction acts generalizing s q with
  | nil => exact ⟨h, rfl⟩
  | cons act acts ih =>
    obtain ⟨next, same⟩ := step_simulates small h act
    obtain ⟨last, same'⟩ := ih next
    exact ⟨last, by rw [run, Queue.run, same, same']⟩

end Shared

/-! ## A whole call of `write` -/

theorem Represents.write {k : Nat} (small : k < 31) {f : RxFifo (2 ^ k)} {q : List UInt8}
    (h : Represents f q) (data : List UInt8) :
    Represents (f.write data) (q ++ data.take (2 ^ k - q.length)) := by
  induction data generalizing f q with
  | nil =>
    rw [List.take_nil, List.append_nil]
    exact h
  | cons b data ih =>
    by_cases room : q.length < 2 ^ k
    · obtain ⟨f', put, next⟩ := h.put_room small room b
      have later := ih next
      have left : 2 ^ k - q.length = 2 ^ k - (q ++ [b]).length + 1 := by
        rw [List.length_append, List.length_singleton]
        omega
      rw [left, List.take_succ_cons, RxFifo.write, put]
      rw [List.append_assoc] at later
      exact later
    · have full : q.length = 2 ^ k := Nat.le_antisymm h.fits (Nat.le_of_not_lt room)
      rw [full, Nat.sub_self, List.take_zero, List.append_nil, RxFifo.write, h.put_full small full]
      exact h

theorem Shared.run_put (s : Shared N) (idle : s.rest = []) (n : Nat) :
    (s.run (List.replicate n .put)).1 = s := by
  induction n with
  | zero => rfl
  | succ n ih =>
    have stays : s.step .put = (s, []) := by
      rw [step]
      simp only [idle]
    rw [List.replicate_succ, run, stays]
    exact ih

/-- Left alone, the turns of the loop are the call. -/
theorem Shared.run_write (f : RxFifo N) (data : List UInt8) :
    (Shared.run ⟨f, data⟩ (List.replicate data.length .put)).1 = ⟨f.write data, []⟩ := by
  induction data generalizing f with
  | nil => rfl
  | cons b data ih =>
    rw [List.length_cons, List.replicate_succ, run, RxFifo.write]
    cases put : f.put b with
    | none =>
      simp only [step, put]
      exact run_put ⟨f, []⟩ rfl _
    | some f' =>
      simp only [step, put]
      exact ih f'

/-! ## The FIFO of a connection -/

/-- The ring of 512 slots is the FIFO of bytes that the connections have. -/
theorem esp32_rx {f : RxFifo (2 ^ 9)} {rx : Esp32Ble.RxFifo} (h : Represents f rx.1) :
    (∀ data, Represents (f.write data) (rx.write data).1) ∧
    Represents f.clear Esp32Ble.RxFifo.clear.1 ∧
    f.read.1 = (rx.1.head?.map fun b => (b.toNat : Int)).getD (-1) ∧
    Represents f.read.2 (rx.read 1).1 := by
  obtain ⟨bytes, fits⟩ := rx
  refine ⟨fun data => h.write (by decide) data, represents_meet f.buf f.head, ?_, ?_⟩
  · cases bytes with
    | nil => rw [h.read_nil]; rfl
    | cons b bytes =>
      obtain ⟨f', read, _⟩ := h.read_cons (by decide)
      rw [read]
      rfl
  · cases bytes with
    | nil =>
      rw [h.read_nil]
      exact h
    | cons b bytes =>
      obtain ⟨f', read, next⟩ := h.read_cons (by decide)
      rw [read]
      exact next

/-- From any indices that meet, whatever the interleaving: as many bytes are
queued as the indices are apart, at most `N`; the accepted bytes are, in order,
those that left (by being read or by `clear`) and those queued; each byte of a
write was accepted, refused or is still to come; and every step is that of the
bounded queue, which refuses the rest of a write and only when `N` bytes are queued. -/
theorem rx_fifo_in_order (k : Nat) (small : k < 31) (buf : Fin (2 ^ k) → UInt8) (start : UInt32)
    (acts : List (TaskStep UInt8)) :
    let r := Shared.run ⟨⟨buf, start, start⟩, []⟩ acts
    let queued := r.1.fifo.queued
    (r.1.fifo.head - r.1.fifo.tail).toNat = queued.length ∧ queued.length ≤ 2 ^ k ∧
    accepted r.2 = (departed r.2).map Prod.fst ++ queued ∧
    delivered r.2 = marked (departed r.2) ∧
    written r.2 = (settled r.2).map Prod.fst ++ r.1.rest ∧
    accepted r.2 = marked (settled r.2) ∧
    ∀ act, let t := r.1.step act
      let t' := Queue.step (2 ^ k) ⟨queued, r.1.rest⟩ act
      t.2 = t'.2 ∧ t.1.fifo.queued = t'.1.entries ∧ t.1.rest = t'.1.rest ∧
      ∀ rest, Did.refused rest ∈ t.2 →
        act = .put ∧ queued.length = 2 ^ k ∧ rest = r.1.rest ∧ t.1.rest = [] := by
  intro r queued
  obtain ⟨simulates, log⟩ := Shared.run_simulates small acts (s := ⟨⟨buf, start, start⟩, []⟩)
    (q := {}) ⟨represents_meet buf start, rfl⟩
  have balance := Queue.run_balance (2 ^ k) acts ({} : Queue UInt8)
  have entries : queued = _ := simulates.fifo.queued small
  have length : (r.1.fifo.head - r.1.fifo.tail).toNat = _ := simulates.fifo.length small
  have fits := simulates.fifo.fits
  rw [← log] at balance
  rw [← entries] at length fits
  refine ⟨length, fits, ?_, delivered_eq_marked _, ?_, accepted_eq_marked _, ?_⟩
  · rw [entries]
    exact balance.entries
  · rw [simulates.rest]
    exact balance.rest
  intro act t t'
  have here : Shared.Simulates r.1 ⟨queued, r.1.rest⟩ :=
    ⟨entries ▸ simulates.fifo, rfl⟩
  obtain ⟨next, same⟩ := Shared.step_simulates small here act
  refine ⟨same, next.fifo.queued small, next.rest, ?_⟩
  intro rest refused
  rw [show t.2 = t'.2 from same] at refused
  obtain ⟨put, full, all, ended⟩ := Queue.refused_of_step refused
  exact ⟨put, Nat.le_antisymm fits full, all, next.rest.trans ended⟩

/-- Four slots, across the wrap of both indices: five bytes written, the fifth refused. -/
theorem rx_fifo_in_order_wrap :
    let r := Shared.run (N := 2 ^ 2) ⟨⟨fun _ => 0, 0xFFFFFFFE, 0xFFFFFFFE⟩, []⟩
      [.write [1, 2, 3, 4, 5], .put, .put, .put, .put, .put, .read, .write [6], .put]
    r.1.fifo.queued.length ≤ 4 ∧ accepted r.2 = (departed r.2).map Prod.fst ++ r.1.fifo.queued :=
  have inOrder := rx_fifo_in_order 2 (by decide) (fun _ => 0) 0xFFFFFFFE
    [.write [1, 2, 3, 4, 5], .put, .put, .put, .put, .put, .read, .write [6], .put]
  ⟨inOrder.2.1, inOrder.2.2.1⟩

end RxFifo

end MeshPigeon
