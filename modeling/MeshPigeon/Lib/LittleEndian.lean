import Mathlib.Algebra.Ring.Nat
import Mathlib.Data.List.Basic
import Mathlib.Tactic.Common

/-! Fixed-width little-endian numbers as byte lists. -/
namespace LittleEndian

/-- The `k` lowest bytes of `n`, lowest first. -/
def put : Nat → Nat → List UInt8
  | 0, _ => []
  | k + 1, n => UInt8.ofNat n :: put k (n / 256)

/-- The number whose little-endian bytes these are. -/
def get : List UInt8 → Nat
  | [] => 0
  | b :: bs => b.toNat + 256 * get bs

@[simp] theorem length_put (k n : Nat) : (put k n).length = k := by
  induction k generalizing n with
  | zero => rfl
  | succ k ih => simp [put, ih]

theorem get_put (k n : Nat) : get (put k n) = n % 256 ^ k := by
  induction k generalizing n with
  | zero => simp [put, get, Nat.mod_one]
  | succ k ih =>
    have hb : (UInt8.ofNat n).toNat = n % 256 := by simp [UInt8.toNat_ofNat']
    rw [put, get, ih, hb, Nat.pow_succ', Nat.mod_mul]

theorem get_put_of_lt {k n : Nat} (h : n < 256 ^ k) : get (put k n) = n := by
  rw [get_put, Nat.mod_eq_of_lt h]

theorem put_get (bs : List UInt8) : put bs.length (get bs) = bs := by
  induction bs with
  | nil => rfl
  | cons b bs ih =>
    have hb := b.toNat_lt
    have low : UInt8.ofNat (b.toNat + 256 * get bs) = b := by
      apply UInt8.toNat_inj.mp
      rw [UInt8.toNat_ofNat']
      omega
    have rest : (b.toNat + 256 * get bs) / 256 = get bs := by omega
    rw [List.length_cons, get, put, low, rest, ih]

/-- A number and its bytes determine each other. -/
theorem eq_put_iff {k n : Nat} {bs : List UInt8} (h : n < 256 ^ k) (len : bs.length = k) :
    bs = put k n ↔ get bs = n := by
  constructor
  · rintro rfl
    exact get_put_of_lt h
  · rintro rfl
    rw [← len, put_get]

theorem get_lt (bs : List UInt8) : get bs < 256 ^ bs.length := by
  have kept := get_put bs.length (get bs)
  rw [put_get] at kept
  rw [kept]
  exact Nat.mod_lt _ (Nat.pow_pos (by decide))

theorem put_uint16 {bs : List UInt8} (two : bs.length = 2) :
    put 2 (UInt16.ofNat (get bs)).toNat = bs := by
  have bound := get_lt bs
  rw [two] at bound
  rw [UInt16.toNat_ofNat_of_lt' bound, ← two, put_get]

theorem put_uint32 {bs : List UInt8} (four : bs.length = 4) :
    put 4 (UInt32.ofNat (get bs)).toNat = bs := by
  have bound := get_lt bs
  rw [four] at bound
  rw [UInt32.toNat_ofNat_of_lt' bound, ← four, put_get]

theorem uint64_roundtrip (x : UInt64) : UInt64.ofNat (get (put 8 x.toNat)) = x := by
  rw [get_put_of_lt (by have := x.toNat_lt; omega), UInt64.ofNat_toNat]

theorem uint16_roundtrip (x : UInt16) : UInt16.ofNat (get (put 2 x.toNat)) = x := by
  rw [get_put_of_lt (by have := x.toNat_lt; omega), UInt16.ofNat_toNat]

theorem uint32_roundtrip (x : UInt32) : UInt32.ofNat (get (put 4 x.toNat)) = x := by
  rw [get_put_of_lt (by have := x.toNat_lt; omega), UInt32.ofNat_toNat]

end LittleEndian
