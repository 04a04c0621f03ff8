import Mathlib.Algebra.Ring.Nat
import Mathlib.Data.List.Basic
import Mathlib.Tactic.Common

/-! Flat memory addressed by naturals: loads and stores of whole blocks. -/
namespace Memory

variable {α : Type}

/-- The `n` cells from `off` on. -/
def load (m : Nat → α) (off n : Nat) : List α := (List.range n).map fun i => m (off + i)

/-- `m` with `bs` written from `off` on. -/
def store (m : Nat → α) (off : Nat) (bs : List α) : Nat → α := fun i =>
  if off ≤ i then bs[i - off]?.getD (m i) else m i

@[simp] theorem length_load (m : Nat → α) (off n : Nat) : (load m off n).length = n := by
  simp [load]

theorem load_add (m : Nat → α) (off a b : Nat) :
    load m off (a + b) = load m off a ++ load m (off + a) b := by
  simp [load, List.range_add, Function.comp_def, Nat.add_assoc]

/-- A block read as a concatenation holds each part at its own offset. -/
theorem load_append {m : Nat → α} {off : Nat} {xs ys : List α}
    (h : load m off (xs ++ ys).length = xs ++ ys) :
    load m off xs.length = xs ∧ load m (off + xs.length) ys.length = ys := by
  rw [List.length_append, load_add] at h
  exact List.append_inj h (by simp)

theorem load_append_iff {m : Nat → α} {off : Nat} {xs ys : List α} :
    load m off (xs ++ ys).length = xs ++ ys ↔
      load m off xs.length = xs ∧ load m (off + xs.length) ys.length = ys := by
  refine ⟨load_append, fun ⟨hx, hy⟩ => ?_⟩
  rw [List.length_append, load_add, hx, hy]

theorem load_congr {m m' : Nat → α} {off n : Nat}
    (h : ∀ i, off ≤ i → i < off + n → m i = m' i) : load m off n = load m' off n := by
  apply List.map_congr_left
  intro i hi
  exact h _ (by omega) (by have := List.mem_range.mp hi; omega)

theorem store_outside (m : Nat → α) (off : Nat) (bs : List α) {i : Nat}
    (h : i < off ∨ off + bs.length ≤ i) : store m off bs i = m i := by
  unfold store
  split
  · rw [List.getElem?_eq_none (by omega), Option.getD_none]
  · rfl

theorem load_store_same (m : Nat → α) (off : Nat) (bs : List α) :
    load (store m off bs) off bs.length = bs := by
  apply List.ext_getElem (by simp)
  intro i _ hi
  simp [load, store, List.getElem?_eq_getElem hi]

/-- A block stored behind what was read before extends it. -/
theorem load_store_append (m : Nat → α) (n : Nat) (bs : List α) :
    load (store m n bs) 0 (n + bs.length) = load m 0 n ++ bs := by
  have before : load (store m n bs) 0 n = load m 0 n :=
    load_congr fun i _ hi => store_outside m n bs (Or.inl (by omega))
  rw [load_add, before, Nat.zero_add, load_store_same]

/-- Two blocks stored one after the other are one block. -/
theorem store_append (m : Nat → α) (off : Nat) (xs ys : List α) :
    store (store m off xs) (off + xs.length) ys = store m off (xs ++ ys) := by
  funext i
  unfold store
  by_cases hx : off + xs.length ≤ i
  · have lo : off ≤ i := by omega
    simp only [hx, lo, if_true]
    rw [List.getElem?_append_right (by omega), List.getElem?_eq_none (l := xs) (by omega),
      Nat.sub_add_eq, Option.getD_none]
  · simp only [hx, if_false]
    by_cases lo : off ≤ i
    · rw [List.getElem?_append_left (by omega)]
    · simp only [lo, if_false]

end Memory
