import Mathlib.Algebra.Ring.Nat
import Mathlib.Data.List.Basic
import Mathlib.Tactic.Common

/-! Times that keep a distance from each other, and how many of them there can be. -/
namespace Spacing

/-- From index `k` on, each time is at least `d` after the one before it. -/
def From (k d : Nat) (ts : List Nat) : Prop :=
  ∀ i a b, k ≤ i → ts[i]? = some a → ts[i + 1]? = some b → a + d ≤ b

variable {k d : Nat} {ts : List Nat}

theorem from_nil : From k d [] := by
  intro i a b _ ha
  cases ha

/-- One more time, far enough from the last one if that one counts. -/
theorem From.snoc (h : From k d ts) {t : Nat}
    (far : k < ts.length → ∀ last, ts.getLast? = some last → last + d ≤ t) :
    From k d (ts ++ [t]) := by
  intro i a b hi ha hb
  by_cases inside : i + 1 < ts.length
  · rw [List.getElem?_append_left (by omega)] at ha
    rw [List.getElem?_append_left inside] at hb
    exact h i a b hi ha hb
  · have there : i + 1 < (ts ++ [t]).length := (List.getElem?_eq_some_iff.mp hb).1
    rw [List.length_append, List.length_singleton] at there
    rw [List.getElem?_append_left (by omega)] at ha
    rw [List.getElem?_append_right (by omega), show i + 1 - ts.length = 0 by omega] at hb
    obtain rfl := Option.some.inj hb
    apply far (by omega)
    rw [List.getLast?_eq_getElem?, show ts.length - 1 = i by omega]
    exact ha

theorem From.apart (h : From k d ts) {a : Nat} (ha : ts[k]? = some a) (n : Nat) {b : Nat}
    (hb : ts[k + n]? = some b) : a + n * d ≤ b := by
  induction n generalizing b with
  | zero =>
    obtain rfl := Option.some.inj (ha.symm.trans hb)
    omega
  | succ n ih =>
    have inside : k + n < ts.length := by
      have := (List.getElem?_eq_some_iff.mp hb).1
      omega
    have here : ts[k + n]? = some ts[k + n] := List.getElem?_eq_getElem inside
    have next := h (k + n) _ b (Nat.le_add_right k n) here hb
    have before := ih here
    rw [Nat.succ_mul]
    omega

/-- By a time `t` there are no more than fit at distance `d`. -/
theorem From.count_le (h : From k d ts) (pos : 0 < d) {a t : Nat} (ha : ts[k]? = some a)
    (le : a ≤ t) : ts.countP (· ≤ t) ≤ k + 1 + (t - a) / d := by
  rw [← List.take_append_drop (k + 1 + (t - a) / d) ts, List.countP_append]
  have late : (ts.drop (k + 1 + (t - a) / d)).countP (· ≤ t) = 0 := by
    rw [List.countP_eq_zero]
    intro b hb early
    obtain ⟨i, hi⟩ := List.getElem?_of_mem hb
    rw [List.getElem?_drop, Nat.add_assoc, Nat.add_assoc] at hi
    have far := h.apart ha _ hi
    have room := Nat.lt_mul_div_succ (t - a) pos
    have early := of_decide_eq_true early
    have enough : d * ((t - a) / d + 1) ≤ (1 + ((t - a) / d + i)) * d := by
      rw [Nat.mul_comm]
      exact Nat.mul_le_mul_right d (by omega)
    omega
  rw [late, Nat.add_zero]
  exact Nat.le_trans List.countP_le_length (List.length_take_le _ _)

end Spacing
