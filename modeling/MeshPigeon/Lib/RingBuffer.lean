import Mathlib.Algebra.Ring.Nat
import Mathlib.Logic.Function.Basic
import Mathlib.Data.List.Basic
import Mathlib.Tactic.Common

/-! Queues in the slots of a ring, from an index on that runs freely. -/
namespace RingBuffer

variable {α : Type} {N : Nat} [NeZero N]

/-- The `n` elements from index `start` on, the slot of an index being its rest modulo `N`. -/
def contents (slots : Fin N → α) (start n : Nat) : List α :=
  (List.range n).map fun i => slots (Fin.ofNat N (start + i))

/-- The oldest element, and the others. -/
theorem contents_pop (slots : Fin N → α) (start n : Nat) :
    contents slots start (n + 1) =
      slots (Fin.ofNat N start) :: contents slots (start + 1) n := by
  rw [contents, List.range_succ_eq_map, List.map_cons, List.map_map]
  congr 1
  apply List.map_congr_left
  intro i _
  show slots (Fin.ofNat N (start + (i + 1))) = slots (Fin.ofNat N (start + 1 + i))
  rw [Nat.add_assoc, Nat.add_comm 1]

/-- Indices less than a turn apart have slots of their own. -/
theorem slot_ne (start : Nat) {i n : Nat} (before : i < n) (turn : n - i < N) :
    Fin.ofNat N (start + i) ≠ Fin.ofNat N (start + n) := by
  intro same
  have same : (start + i) % N = (start + n) % N := congrArg Fin.val same
  have apart : n - i = (start + n) - (start + i) := by omega
  have whole : N ∣ n - i := by
    rw [apart]
    exact Nat.dvd_of_mod_eq_zero (Nat.sub_mod_eq_zero_of_mod_eq same.symm)
  exact absurd (Nat.le_of_dvd (by omega) whole) (Nat.not_le.mpr turn)

/-- Filling the next slot, while there is a free one. -/
theorem contents_push (slots : Fin N → α) (start : Nat) {n : Nat} (room : n < N) (a : α) :
    contents (Function.update slots (Fin.ofNat N (start + n)) a) start (n + 1) =
      contents slots start n ++ [a] := by
  rw [contents, List.range_succ, List.map_append, List.map_singleton, Function.update_self]
  congr 1
  apply List.map_congr_left
  intro i before
  have before := List.mem_range.mp before
  exact Function.update_of_ne (slot_ne start before (by omega)) _ _

/-- An index kept modulo a multiple of the size finds the same slots. -/
theorem contents_mod (slots : Fin N → α) {M : Nat} (turns : N ∣ M) (start n : Nat) :
    contents slots (start % M) n = contents slots start n := by
  apply List.map_congr_left
  intro i _
  congr 1
  apply Fin.ext
  show (start % M + i) % N = (start + i) % N
  rw [Nat.add_mod, Nat.mod_mod_of_dvd _ turns, ← Nat.add_mod]

end RingBuffer
