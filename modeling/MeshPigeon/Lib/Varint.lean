import Mathlib.Algebra.Ring.Nat
import Mathlib.Data.List.Basic
import Mathlib.Tactic.Common

/-!
# Base-128 numbers

A number as its groups of seven bits, lowest first; every byte but the last
has its top bit set.
-/
namespace Varint

/-- The shortest form of `n`. -/
def put (n : Nat) : List UInt8 :=
  if n < 128 then [UInt8.ofNat n] else UInt8.ofNat (n % 128 + 128) :: put (n / 128)

/-- The number a stream starts with, and what follows it. -/
def get : List UInt8 → Option (Nat × List UInt8)
  | [] => none
  | b :: bs =>
    if b.toNat < 128 then some (b.toNat, bs)
    else (get bs).map fun found => (b.toNat % 128 + 128 * found.1, found.2)

theorem put_small {n : Nat} (h : n < 128) : put n = [UInt8.ofNat n] := by
  rw [put, if_pos h]

theorem put_large {n : Nat} (h : 128 ≤ n) :
    put n = UInt8.ofNat (n % 128 + 128) :: put (n / 128) := by
  rw [put, if_neg (Nat.not_lt.mpr h)]

theorem put_ne_nil (n : Nat) : put n ≠ [] := by
  rw [put]
  split <;> exact List.cons_ne_nil _ _

theorem get_put (n : Nat) (rest : List UInt8) : get (put n ++ rest) = some (n, rest) := by
  induction n using Nat.strongRecOn with
  | ind n ih =>
    by_cases small : n < 128
    · have byte : (UInt8.ofNat n).toNat = n := by
        rw [UInt8.toNat_ofNat']
        omega
      simp [put_small small, get, byte, small]
    · have byte : (UInt8.ofNat (n % 128 + 128)).toNat = n % 128 + 128 := by
        rw [UInt8.toNat_ofNat']
        omega
      rw [put_large (Nat.not_lt.mp small), List.cons_append, get, byte, if_neg (by omega),
        ih (n / 128) (by omega)]
      simp only [Option.map_some]
      congr 2
      omega

/-- Seven bits a byte. -/
theorem length_put_le {n : Nat} (k : Nat) (h : n < 128 ^ (k + 1)) : (put n).length ≤ k + 1 := by
  induction k generalizing n with
  | zero =>
    rw [put_small (by omega)]
    exact Nat.le_refl _
  | succ k ih =>
    by_cases small : n < 128
    · simp [put_small small]
    · have rest : n / 128 < 128 ^ (k + 1) := by
        rw [Nat.div_lt_iff_lt_mul (by decide), ← Nat.pow_succ]
        exact h
      rw [put_large (Nat.not_lt.mp small), List.length_cons]
      exact Nat.succ_le_succ (ih rest)

/-- The bytes the shortest form takes. -/
def width (n : Nat) : Nat := Nat.log2 n / 7 + 1

theorem width_word : width (2 ^ 32) = 5 := by decide

theorem length_put_le_width {m n : Nat} (h : m ≤ n) : (put m).length ≤ width n := by
  apply length_put_le
  have log : n < 2 ^ (Nat.log2 n + 1) := Nat.lt_log2_self
  have groups : (128 : Nat) ^ (Nat.log2 n / 7 + 1) = 2 ^ (7 * (Nat.log2 n / 7 + 1)) :=
    (Nat.pow_mul 2 7 _).symm
  have enough : 2 ^ (Nat.log2 n + 1) ≤ 2 ^ (7 * (Nat.log2 n / 7 + 1)) :=
    Nat.pow_le_pow_right (by decide) (by omega)
  rw [groups]
  omega

theorem length_put_pos (n : Nat) : 0 < (put n).length := List.length_pos_iff.mpr (put_ne_nil n)

/-- What is read is a part of the stream, and not an empty one. -/
theorem get_split {s rest : List UInt8} {n : Nat} (h : get s = some (n, rest)) :
    ∃ used, s = used ++ rest ∧ used ≠ [] := by
  induction s generalizing n with
  | nil => cases h
  | cons b s ih =>
    rw [get] at h
    split at h
    · obtain ⟨_, rfl⟩ := Prod.mk.inj (Option.some.inj h)
      exact ⟨[b], rfl, List.cons_ne_nil _ _⟩
    · obtain ⟨found, read, same⟩ := Option.map_eq_some_iff.mp h
      obtain ⟨_, rfl⟩ := Prod.mk.inj same
      obtain ⟨used, rfl, _⟩ := ih read
      exact ⟨b :: used, rfl, List.cons_ne_nil _ _⟩

/-- No form of a number is shorter than the one that is written. -/
theorem length_put_le_get {s rest : List UInt8} {n : Nat} (h : get s = some (n, rest)) :
    (put n).length + rest.length ≤ s.length := by
  induction s generalizing n with
  | nil => cases h
  | cons b s ih =>
    rw [get] at h
    split at h
    · rename_i last
      obtain ⟨rfl, rfl⟩ := Prod.mk.inj (Option.some.inj h)
      rw [put_small last, List.length_singleton, List.length_cons, Nat.add_comm]
    · obtain ⟨⟨m, rest'⟩, read, same⟩ := Option.map_eq_some_iff.mp h
      obtain ⟨rfl, rfl⟩ := Prod.mk.inj same
      have tail := ih read
      have one := length_put_pos m
      rw [List.length_cons]
      by_cases small : b.toNat % 128 + 128 * m < 128
      · rw [put_small small, List.length_singleton]
        omega
      · have shift : (b.toNat % 128 + 128 * m) / 128 = m := by omega
        rw [put_large (Nat.not_lt.mp small), shift, List.length_cons]
        omega

/-! ## Bounded reading -/

/-- A number below `bound` in at most `width` bytes. -/
def read (width bound : Nat) (s : List UInt8) : Option (Nat × List UInt8) :=
  (get s).filter fun found => s.length - found.2.length ≤ width ∧ found.1 < bound

theorem read_eq_some {width bound n : Nat} {s rest : List UInt8} :
    read width bound s = some (n, rest) ↔
      get s = some (n, rest) ∧ s.length - rest.length ≤ width ∧ n < bound := by
  simp [read, Option.filter_eq_some_iff]

theorem read_eq (width bound : Nat) (s : List UInt8) :
    read width bound s = (get s).bind fun found =>
      if s.length - found.2.length ≤ width ∧ found.1 < bound then some found else none := by
  unfold read
  cases get s with
  | none => rfl
  | some found => simp only [Option.filter_some, decide_eq_true_eq, Option.bind_some]

theorem read_put {width bound n : Nat} (fits : (put n).length ≤ width) (below : n < bound)
    (rest : List UInt8) : read width bound (put n ++ rest) = some (n, rest) := by
  rw [read_eq_some]
  refine ⟨get_put n rest, ?_, below⟩
  rw [List.length_append, Nat.add_sub_cancel]
  exact fits

theorem get_more {s rest : List UInt8} {n : Nat} (h : get s = some (n, rest)) (more : List UInt8) :
    get (s ++ more) = some (n, rest ++ more) := by
  induction s generalizing n with
  | nil => cases h
  | cons b s ih =>
    rw [get] at h
    rw [List.cons_append, get]
    split at h
    · rename_i last
      obtain ⟨rfl, rfl⟩ := Prod.mk.inj (Option.some.inj h)
      rw [if_pos last]
    · rename_i more
      obtain ⟨found, read, same⟩ := Option.map_eq_some_iff.mp h
      obtain ⟨rfl, rfl⟩ := Prod.mk.inj same
      rw [if_neg more, ih read]
      rfl

theorem read_more {width bound n : Nat} {s rest : List UInt8}
    (h : read width bound s = some (n, rest)) (more : List UInt8) :
    read width bound (s ++ more) = some (n, rest ++ more) := by
  obtain ⟨found, short, below⟩ := read_eq_some.mp h
  rw [read_eq_some]
  refine ⟨get_more found more, ?_, below⟩
  simp only [List.length_append]
  omega

theorem length_of_read {width bound n : Nat} {s rest : List UInt8}
    (h : read width bound s = some (n, rest)) : rest.length < s.length := by
  obtain ⟨used, rfl, nonempty⟩ := get_split (read_eq_some.mp h).1
  have := List.length_pos_iff.mpr nonempty
  rw [List.length_append]
  omega

end Varint
