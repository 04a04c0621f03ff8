import Mathlib.Algebra.Ring.Nat
import Mathlib.Data.List.Basic
import Mathlib.Tactic.Common

/-!
# Cyclic redundancy checks

A check register divides the message, one bit at a time and the most
significant bit first, by a polynomial given without its leading term. Feeding
a whole word into the top of the register and then shifting divides by the same
bits.
-/
namespace Crc

variable {w : Nat}

/-- Multiply the register by `x` and reduce. -/
def shift (poly r : BitVec w) : BitVec w := if r.msb then (r <<< 1) ^^^ poly else r <<< 1

/-- The register's leading term alone. -/
def top (b : Bool) : BitVec w := if b then BitVec.intMin w else 0

/-- Divide one more message bit. -/
def step (poly r : BitVec w) (b : Bool) : BitVec w := shift poly (r ^^^ top b)

def run (poly r : BitVec w) (message : List Bool) : BitVec w := message.foldl (step poly) r

/-- The first `k` bits of a word, the most significant first. -/
def leading {v : Nat} (k : Nat) (d : BitVec v) : List Bool := (List.range k).map d.getMsbD

/-- The bits of bytes in the order they are divided. -/
def bits (bytes : List UInt8) : List Bool := bytes.flatMap fun b => leading 8 b.toBitVec

def shifts (poly : BitVec w) : Nat → BitVec w → BitVec w
  | 0, r => r
  | k + 1, r => shifts poly k (shift poly r)

theorem run_append (poly r : BitVec w) (a b : List Bool) :
    run poly r (a ++ b) = run poly (run poly r a) b := List.foldl_append

@[simp] theorem leading_zero {v : Nat} (d : BitVec v) : leading 0 d = [] := rfl

theorem leading_succ {v : Nat} (k : Nat) (d : BitVec v) :
    leading (k + 1) d = d.msb :: leading k (d <<< 1) := by
  rw [leading, List.range_succ_eq_map, List.map_cons, List.map_map, leading]
  congr 1
  apply List.map_congr_left
  intro i _
  simp [BitVec.getMsbD_shiftLeft]

theorem top_msb (d : BitVec w) : (d ^^^ top d.msb).msb = false := by
  cases hm : d.msb with
  | false => simp [top, hm]
  | true =>
    have : 0 < w := by
      rcases Nat.eq_zero_or_pos w with rfl | h
      · simp [BitVec.msb] at hm
      · exact h
    simp [top, hm, BitVec.msb_intMin, this]

theorem top_shift (b : Bool) : (top b : BitVec w) <<< 1 = 0#w := by
  cases b with
  | false => simp [top]
  | true =>
    apply BitVec.eq_of_getLsbD_eq
    intro i hi
    simp [top, BitVec.getLsbD_intMin]
    omega

theorem shift_xor (poly a b : BitVec w) (hb : b.msb = false) :
    shift poly (a ^^^ b) = shift poly a ^^^ (b <<< 1) := by
  simp only [shift, BitVec.msb_xor, hb, Bool.xor_false, BitVec.shiftLeft_xor_distrib]
  split
  · rw [BitVec.xor_assoc, BitVec.xor_comm (b <<< 1), BitVec.xor_assoc]
  · rfl

/-- Shifting a register that had `d` fed into its top divides by the leading bits of `d`. -/
theorem shifts_xor (poly : BitVec w) {k : Nat} (hk : k ≤ w) (r d : BitVec w)
    (hd : d <<< k = 0) : shifts poly k (r ^^^ d) = run poly r (leading k d) := by
  induction k generalizing r d with
  | zero => simp_all [shifts, run]
  | succ k ih =>
    have split : r ^^^ d = (r ^^^ top d.msb) ^^^ (d ^^^ top d.msb) := by
      rw [BitVec.xor_assoc, ← BitVec.xor_assoc (top d.msb), BitVec.xor_comm (top d.msb),
        BitVec.xor_assoc d, BitVec.xor_self, BitVec.xor_zero]
    have rest : (d ^^^ top d.msb) <<< 1 = d <<< 1 := by
      rw [BitVec.shiftLeft_xor_distrib, top_shift, BitVec.xor_zero]
    rw [shifts, split, shift_xor _ _ _ (top_msb d), rest, leading_succ]
    exact ih (Nat.le_of_succ_le hk) _ _ (by rw [← BitVec.shiftLeft_add, Nat.add_comm, hd])

/-! ## What a division cannot confuse

With an odd polynomial a shift loses nothing, so neither the register nor a
burst of message bits no wider than it can change without the remainder. -/

theorem shift_injective {poly : BitVec w} (odd : poly.getLsbD 0 = true) :
    Function.Injective (shift poly) := by
  intro a b same
  have lowest (r : BitVec w) : (shift poly r).getLsbD 0 = r.msb := by
    unfold shift
    cases hm : r.msb <;> simp [odd]
  have msb : a.msb = b.msb := by rw [← lowest, same, lowest]
  have shifted : a <<< 1 = b <<< 1 := by
    unfold shift at same
    rw [msb] at same
    split at same
    · exact (BitVec.xor_left_inj _).mp same
    · exact same
  apply BitVec.eq_of_getLsbD_eq
  intro i hi
  by_cases last : i + 1 = w
  · have index : i = w - 1 := by omega
    rw [BitVec.msb_eq_getLsbD_last, BitVec.msb_eq_getLsbD_last] at msb
    rw [index]
    exact msb
  · have bit := congrArg (BitVec.getLsbD · (i + 1)) shifted
    simpa only [BitVec.getLsbD_shiftLeft, show i + 1 < w by omega, decide_true,
      show ¬i + 1 < 1 by omega, decide_false, Bool.not_false, Bool.true_and,
      Nat.add_sub_cancel] using bit

theorem shifts_injective {poly : BitVec w} (odd : poly.getLsbD 0 = true) (k : Nat) :
    Function.Injective (shifts poly k) := by
  induction k with
  | zero => exact fun _ _ same => same
  | succ k ih => exact ih.comp (shift_injective odd)

/-- Equal remainders come from equal registers. -/
theorem run_injective {poly : BitVec w} (odd : poly.getLsbD 0 = true) (message : List Bool) :
    Function.Injective fun r => run poly r message := by
  induction message with
  | nil => exact fun _ _ same => same
  | cons b message ih =>
    intro a a' same
    have stepped : step poly a b = step poly a' b := ih same
    exact (BitVec.xor_left_inj _).mp (shift_injective odd stepped)

theorem leading_append {u v : Nat} (x : BitVec u) (y : BitVec v) :
    leading (u + v) (x ++ y) = leading u x ++ leading v y := by
  rw [leading, List.range_add, List.map_append, List.map_map, leading, leading]
  congr 1
  · apply List.map_congr_left
    intro i hi
    have := List.mem_range.mp hi
    rw [BitVec.getMsbD_append, if_neg (by omega)]
  · apply List.map_congr_left
    intro i _
    rw [Function.comp_apply, BitVec.getMsbD_append, if_pos (by omega), Nat.add_sub_cancel_left]

/-- A word at the top of the register. -/
def aligned {k : Nat} (d : BitVec k) : BitVec w := d.setWidth w <<< (w - k)

theorem run_leading {k : Nat} (hk : k ≤ w) (poly r : BitVec w) (d : BitVec k) :
    run poly r (leading k d) = shifts poly k (r ^^^ aligned d) := by
  have out : (aligned d : BitVec w) <<< k = 0#w := by
    rw [aligned, ← BitVec.shiftLeft_add, Nat.sub_add_cancel hk]
    exact BitVec.shiftLeft_eq_zero (Nat.le_refl w)
  have same : leading k (aligned d : BitVec w) = leading k d := by
    apply List.map_congr_left
    intro i hi
    have := List.mem_range.mp hi
    rw [aligned, BitVec.getMsbD_shiftLeft, BitVec.getMsbD_setWidth,
      show i + (w - k) + k - w = i by omega]
    simp
  rw [shifts_xor poly hk _ _ out, same]

theorem aligned_injective {k : Nat} (hk : k ≤ w) :
    Function.Injective (aligned : BitVec k → BitVec w) := by
  intro d d' same
  apply BitVec.eq_of_getLsbD_eq
  intro i hi
  have bit := congrArg (BitVec.getLsbD · (i + (w - k))) same
  simpa only [aligned, BitVec.getLsbD_shiftLeft, BitVec.getLsbD_setWidth,
    show i + (w - k) < w by omega, show i < w by omega, show ¬i + (w - k) < w - k by omega,
    decide_true, decide_false, Bool.not_false, Bool.true_and, Nat.add_sub_cancel] using bit

/-- A burst no wider than the register shows in the remainder. -/
theorem run_burst {poly : BitVec w} (odd : poly.getLsbD 0 = true) {k : Nat} (hk : k ≤ w)
    {r : BitVec w} {before after : List Bool} {d d' : BitVec k}
    (same : run poly r (before ++ (leading k d ++ after)) =
      run poly r (before ++ (leading k d' ++ after))) : d = d' := by
  rw [run_append, run_append poly r, run_append, run_append poly (run poly r before)] at same
  have words := run_injective odd after same
  rw [run_leading hk, run_leading hk] at words
  exact aligned_injective hk ((BitVec.xor_right_inj _).mp (shifts_injective odd k words))

end Crc
