import Mathlib.Algebra.Ring.Nat
import Mathlib.Data.List.Basic
import Mathlib.Logic.ExistsUnique
import Mathlib.Tactic.Common

/-! Stretches of numbers that lie one after the other, and what they cover. -/
namespace Tiling

/-- `b` is on the stretch that starts at the first number and has the second as its length. -/
def On (p : Nat × Nat) (b : Nat) : Prop := p.1 ≤ b ∧ b < p.1 + p.2

/-- The stretches cover `R` and nothing else, without a gap or an overlap. -/
structure Tiles (ps : List (Nat × Nat)) (R : Nat → Prop) : Prop where
  once : ∀ b, R b → ∃! i : Nat, ∃ p, ps[i]? = some p ∧ On p b
  only : ∀ (i : Nat) (p : Nat × Nat) (b : Nat), ps[i]? = some p → On p b → R b

variable {ps qs : List (Nat × Nat)} {R S : Nat → Prop}

theorem tiles_nil : Tiles [] fun _ => False := ⟨fun _ none => none.elim, fun _ _ _ none => by simp at none⟩

theorem tiles_single (p : Nat × Nat) : Tiles [p] (On p) := by
  have first {i : Nat} {q : Nat × Nat} (h : [p][i]? = some q) : i = 0 ∧ q = p := by
    cases i with
    | zero => exact ⟨rfl, (Option.some.inj h).symm⟩
    | succ i => simp at h
  constructor
  · intro b on
    refine ⟨0, ⟨p, rfl, on⟩, ?_⟩
    rintro i ⟨q, here, _⟩
    exact (first here).1
  · intro i q b here on
    exact (first here).2 ▸ on

theorem Tiles.append (h : Tiles ps R) (h' : Tiles qs S) (apart : ∀ b, R b → ¬S b) :
    Tiles (ps ++ qs) fun b => R b ∨ S b := by
  constructor
  · rintro b (inR | inS)
    · obtain ⟨i, ⟨p, here, on⟩, unique⟩ := h.once b inR
      have left := (List.getElem?_eq_some_iff.mp here).1
      refine ⟨i, ⟨p, by rw [List.getElem?_append_left left, here], on⟩, ?_⟩
      rintro j ⟨q, there, on'⟩
      by_cases inside : j < ps.length
      · rw [List.getElem?_append_left inside] at there
        exact unique j ⟨q, there, on'⟩
      · rw [List.getElem?_append_right (Nat.le_of_not_lt inside)] at there
        exact absurd (h'.only _ q b there on') (apart b inR)
    · obtain ⟨i, ⟨p, here, on⟩, unique⟩ := h'.once b inS
      refine ⟨ps.length + i, ⟨p, ?_, on⟩, ?_⟩
      · rw [List.getElem?_append_right (Nat.le_add_right ..), Nat.add_sub_cancel_left, here]
      rintro j ⟨q, there, on'⟩
      by_cases inside : j < ps.length
      · rw [List.getElem?_append_left inside] at there
        exact absurd inS (apart b (h.only j q b there on'))
      · rw [List.getElem?_append_right (Nat.le_of_not_lt inside)] at there
        have := unique _ ⟨q, there, on'⟩
        omega
  · intro i p b here on
    by_cases inside : i < ps.length
    · rw [List.getElem?_append_left inside] at here
      exact .inl (h.only i p b here on)
    · rw [List.getElem?_append_right (Nat.le_of_not_lt inside)] at here
      exact .inr (h'.only _ p b here on)

theorem Tiles.congr (h : Tiles ps R) (same : ∀ b, R b ↔ S b) : Tiles ps S := by
  obtain rfl : R = S := funext fun b => propext (same b)
  exact h

/-- Stretches of the given lengths, one after the other from `o` on. -/
def pieces : Nat → List Nat → List (Nat × Nat)
  | _, [] => []
  | o, n :: ns => (o, n) :: pieces (o + n) ns

@[simp] theorem length_pieces (o : Nat) (ns : List Nat) : (pieces o ns).length = ns.length := by
  induction ns generalizing o with
  | nil => rfl
  | cons n ns ih => rw [pieces, List.length_cons, List.length_cons, ih]

theorem getElem?_pieces (o : Nat) (ns : List Nat) (i : Nat) :
    (pieces o ns)[i]? = ns[i]?.map fun n => (o + (ns.take i).sum, n) := by
  induction ns generalizing o i with
  | nil => rfl
  | cons n ns ih =>
    cases i with
    | zero => rfl
    | succ i =>
      rw [pieces, List.getElem?_cons_succ, List.getElem?_cons_succ, ih, List.take_succ_cons,
        List.sum_cons, Nat.add_assoc]

theorem tiles_pieces (o : Nat) (ns : List Nat) :
    Tiles (pieces o ns) fun b => o ≤ b ∧ b < o + ns.sum := by
  induction ns generalizing o with
  | nil =>
    refine tiles_nil.congr fun b => iff_of_false not_false fun within => ?_
    rw [List.sum_nil] at within
    omega
  | cons n ns ih =>
    have both := (tiles_single (o, n)).append (ih (o + n)) (by simp only [On]; omega)
    refine both.congr fun b => ?_
    rw [On, List.sum_cons]
    omega

end Tiling
