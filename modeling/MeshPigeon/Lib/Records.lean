import MeshPigeon.Lib.Varint

/-!
# Numbered records

A message on the wire is a row of records, each a field number with a value in
one of four forms. What is written is read back record by record (`parse_putAll`).
-/
namespace Records

inductive Value where
  | varint (n : Nat)
  | word64 (bs : List UInt8)
  | bytes (bs : List UInt8)
  | word32 (bs : List UInt8)
  deriving DecidableEq, Repr

structure Record where
  number : Nat
  value : Value
  deriving DecidableEq, Repr

/-! ## Writing -/

namespace Value

/-- The form's number, which is sent beside the field's. -/
def kind : Value → Nat
  | varint _ => 0
  | word64 _ => 1
  | bytes _ => 2
  | word32 _ => 5

def put : Value → List UInt8
  | varint n => Varint.put n
  | word64 bs => bs
  | bytes bs => Varint.put bs.length ++ bs
  | word32 bs => bs

/-- What a reader with 64-bit numbers and 32-bit lengths can take. -/
def Fits : Value → Prop
  | varint n => n < 2 ^ 64
  | word64 bs => bs.length = 8
  | bytes bs => bs.length < 2 ^ 32
  | word32 bs => bs.length = 4

instance (p : Value) : Decidable p.Fits := by
  unfold Fits
  split <;> infer_instance

end Value

namespace Record

def put (r : Record) : List UInt8 := Varint.put (8 * r.number + r.value.kind) ++ r.value.put

def Fits (r : Record) : Prop := (0 < r.number ∧ r.number < 2 ^ 29) ∧ r.value.Fits

instance (r : Record) : Decidable r.Fits := inferInstanceAs (Decidable (_ ∧ _))

end Record

def putAll (rs : List Record) : List UInt8 := rs.flatMap Record.put

/-! ## Reading -/

def cut (n : Nat) (s : List UInt8) : Option (List UInt8 × List UInt8) :=
  if n ≤ s.length then some (s.take n, s.drop n) else none

def Value.get (kind : Nat) (s : List UInt8) : Option (Value × List UInt8) :=
  if kind = 0 then (Varint.read 10 (2 ^ 64) s).map fun found => (.varint found.1, found.2)
  else if kind = 1 then (cut 8 s).map fun found => (.word64 found.1, found.2)
  else if kind = 2 then
    (Varint.read 10 (2 ^ 32) s).bind fun found =>
      (cut found.1 found.2).map fun found => (.bytes found.1, found.2)
  else if kind = 5 then (cut 4 s).map fun found => (.word32 found.1, found.2)
  else none

def Record.get (s : List UInt8) : Option (Record × List UInt8) :=
  (Varint.read 10 (2 ^ 32) s).bind fun found =>
    if found.1 / 8 = 0 then none
    else (Value.get (found.1 % 8) found.2).map fun value => (⟨found.1 / 8, value.1⟩, value.2)

theorem cut_eq_some {n : Nat} {s front back : List UInt8} :
    cut n s = some (front, back) ↔ front.length = n ∧ s = front ++ back := by
  unfold cut
  constructor
  · intro h
    split at h
    · rename_i enough
      obtain ⟨rfl, rfl⟩ := Prod.mk.inj (Option.some.inj h)
      exact ⟨List.length_take_of_le enough, (List.take_append_drop n s).symm⟩
    · cases h
  · rintro ⟨rfl, rfl⟩
    simp

theorem cut_append (front rest : List UInt8) : cut front.length (front ++ rest) = some (front, rest) :=
  cut_eq_some.mpr ⟨rfl, rfl⟩

theorem Value.get_put {p : Value} (h : p.Fits) (rest : List UInt8) :
    Value.get p.kind (p.put ++ rest) = some (p, rest) := by
  cases p with
  | varint n =>
    have short : (Varint.put n).length ≤ 10 := Varint.length_put_le 9 (Nat.lt_trans h (by decide))
    show (Varint.read 10 (2 ^ 64) (Varint.put n ++ rest)).map _ = _
    rw [Varint.read_put short h]
    rfl
  | word64 bs =>
    have eight := cut_append bs rest
    rw [h] at eight
    show (cut 8 (bs ++ rest)).map _ = _
    rw [eight]
    rfl
  | bytes bs =>
    have short : (Varint.put bs.length).length ≤ 10 :=
      Varint.length_put_le 9 (Nat.lt_trans h (by decide))
    show (Varint.read 10 (2 ^ 32) (Varint.put bs.length ++ bs ++ rest)).bind _ = _
    rw [List.append_assoc, Varint.read_put short h, Option.bind_some, cut_append]
    rfl
  | word32 bs =>
    have four := cut_append bs rest
    rw [h] at four
    show (cut 4 (bs ++ rest)).map _ = _
    rw [four]
    rfl

theorem Value.kind_of_get {kind : Nat} {s rest : List UInt8} {p : Value}
    (h : Value.get kind s = some (p, rest)) : p.kind = kind := by
  unfold Value.get at h
  split at h
  · rename_i form
    obtain ⟨_, _, same⟩ := Option.map_eq_some_iff.mp h
    rw [form, ← (Prod.mk.inj same).1]
    rfl
  split at h
  · rename_i form
    obtain ⟨_, _, same⟩ := Option.map_eq_some_iff.mp h
    rw [form, ← (Prod.mk.inj same).1]
    rfl
  split at h
  · rename_i form
    obtain ⟨_, _, h⟩ := Option.bind_eq_some_iff.mp h
    obtain ⟨_, _, same⟩ := Option.map_eq_some_iff.mp h
    rw [form, ← (Prod.mk.inj same).1]
    rfl
  split at h
  · rename_i form
    obtain ⟨_, _, same⟩ := Option.map_eq_some_iff.mp h
    rw [form, ← (Prod.mk.inj same).1]
    rfl
  · cases h

theorem Value.kind_lt (p : Value) : p.kind < 8 := by cases p <;> simp [kind]

theorem Record.get_put {r : Record} (h : r.Fits) (rest : List UInt8) :
    Record.get (r.put ++ rest) = some (r, rest) := by
  obtain ⟨⟨positive, small⟩, fits⟩ := h
  have kind := r.value.kind_lt
  have below : 8 * r.number + r.value.kind < 2 ^ 32 := by omega
  have short : (Varint.put (8 * r.number + r.value.kind)).length ≤ 10 :=
    Varint.length_put_le 9 (Nat.lt_trans below (by decide))
  have number : (8 * r.number + r.value.kind) / 8 = r.number := by omega
  have form : (8 * r.number + r.value.kind) % 8 = r.value.kind := by omega
  rw [Record.get, Record.put, List.append_assoc, Varint.read_put short below, Option.bind_some,
    number, form, if_neg (Nat.ne_of_gt positive), Value.get_put fits]
  rfl

theorem Value.length_of_get {kind : Nat} {s rest : List UInt8} {p : Value}
    (h : Value.get kind s = some (p, rest)) : rest.length ≤ s.length := by
  unfold Value.get at h
  split at h
  · obtain ⟨found, read, same⟩ := Option.map_eq_some_iff.mp h
    obtain ⟨_, rfl⟩ := Prod.mk.inj same
    exact Nat.le_of_lt (Varint.length_of_read read)
  split at h
  · obtain ⟨found, read, same⟩ := Option.map_eq_some_iff.mp h
    obtain ⟨_, rfl⟩ := Prod.mk.inj same
    simp [(cut_eq_some.mp read).2]
  split at h
  · obtain ⟨size, read, h⟩ := Option.bind_eq_some_iff.mp h
    obtain ⟨found, whole, same⟩ := Option.map_eq_some_iff.mp h
    obtain ⟨_, rfl⟩ := Prod.mk.inj same
    have shorter := Varint.length_of_read read
    rw [(cut_eq_some.mp whole).2, List.length_append] at shorter
    omega
  split at h
  · obtain ⟨found, read, same⟩ := Option.map_eq_some_iff.mp h
    obtain ⟨_, rfl⟩ := Prod.mk.inj same
    simp [(cut_eq_some.mp read).2]
  · cases h

theorem Record.length_of_get {s rest : List UInt8} {r : Record}
    (h : Record.get s = some (r, rest)) : rest.length < s.length := by
  obtain ⟨tag, read, h⟩ := Option.bind_eq_some_iff.mp h
  split at h
  · cases h
  · obtain ⟨value, got, same⟩ := Option.map_eq_some_iff.mp h
    obtain ⟨_, rfl⟩ := Prod.mk.inj same
    exact Nat.lt_of_le_of_lt (Value.length_of_get got) (Varint.length_of_read read)

/-- The records a stream is made of. -/
def parse (s : List UInt8) : Option (List Record) :=
  if s = [] then some []
  else
    match _h : Record.get s with
    | none => none
    | some (r, rest) => (parse rest).map (r :: ·)
termination_by s.length
decreasing_by exact Record.length_of_get _h

@[simp] theorem parse_nil : parse [] = some [] := by
  rw [parse, if_pos rfl]

theorem parse_cons {s rest : List UInt8} {r : Record} (h : Record.get s = some (r, rest)) :
    parse s = (parse rest).map (r :: ·) := by
  have nonempty : s ≠ [] := by
    rintro rfl
    cases h
  rw [parse, if_neg nonempty]
  split
  · rename_i found
    cases h.symm.trans found
  · rename_i found
    obtain ⟨rfl, rfl⟩ := Prod.mk.inj (Option.some.inj (h.symm.trans found))
    rfl

/-- What holds of the empty row, and of a row whose tail it holds of, holds of every row read. -/
theorem parse_induction {motive : List UInt8 → List Record → Prop} (nil : motive [] [])
    (cons : ∀ s rest r rs, Record.get s = some (r, rest) → parse rest = some rs →
      motive rest rs → motive s (r :: rs)) {s : List UInt8} {rs : List Record}
    (h : parse s = some rs) : motive s rs := by
  induction len : s.length using Nat.strongRecOn generalizing s rs with
  | ind n ih =>
    by_cases empty : s = []
    · subst empty
      rw [parse_nil] at h
      cases h
      exact nil
    · cases found : Record.get s with
      | none =>
        rw [parse, if_neg empty] at h
        split at h
        · cases h
        · rename_i other
          cases found.symm.trans other
      | some head =>
        obtain ⟨r, rest⟩ := head
        rw [parse_cons found] at h
        obtain ⟨tail, rows, rfl⟩ := Option.map_eq_some_iff.mp h
        have shorter := Record.length_of_get found
        exact cons s rest r tail found rows (ih _ (len ▸ shorter) rows rfl)

theorem parse_putAll {rs : List Record} (fits : ∀ r ∈ rs, r.Fits) : parse (putAll rs) = some rs := by
  induction rs with
  | nil => exact parse_nil
  | cons r rs ih =>
    have head := Record.get_put (fits r List.mem_cons_self) (putAll rs)
    show parse (r.put ++ putAll rs) = _
    rw [parse_cons head, ih fun x hx => fits x (List.mem_cons_of_mem r hx)]
    rfl

theorem cut_more {n : Nat} {s front back : List UInt8} (h : cut n s = some (front, back))
    (more : List UInt8) : cut n (s ++ more) = some (front, back ++ more) := by
  obtain ⟨len, rfl⟩ := cut_eq_some.mp h
  exact cut_eq_some.mpr ⟨len, List.append_assoc ..⟩

theorem Value.get_more {kind : Nat} {s rest : List UInt8} {p : Value}
    (h : Value.get kind s = some (p, rest)) (more : List UInt8) :
    Value.get kind (s ++ more) = some (p, rest ++ more) := by
  unfold Value.get at h ⊢
  split at h
  · rename_i form
    obtain ⟨found, read, same⟩ := Option.map_eq_some_iff.mp h
    obtain ⟨rfl, rfl⟩ := Prod.mk.inj same
    rw [if_pos form, Varint.read_more read]
    rfl
  rename_i notVarint
  rw [if_neg notVarint]
  split at h
  · rename_i form
    obtain ⟨found, read, same⟩ := Option.map_eq_some_iff.mp h
    obtain ⟨rfl, rfl⟩ := Prod.mk.inj same
    rw [if_pos form, cut_more read]
    rfl
  rename_i notWord64
  rw [if_neg notWord64]
  split at h
  · rename_i form
    obtain ⟨size, read, h⟩ := Option.bind_eq_some_iff.mp h
    obtain ⟨found, whole, same⟩ := Option.map_eq_some_iff.mp h
    obtain ⟨rfl, rfl⟩ := Prod.mk.inj same
    rw [if_pos form, Varint.read_more read, Option.bind_some, cut_more whole]
    rfl
  rename_i notBytes
  rw [if_neg notBytes]
  split at h
  · rename_i form
    obtain ⟨found, read, same⟩ := Option.map_eq_some_iff.mp h
    obtain ⟨rfl, rfl⟩ := Prod.mk.inj same
    rw [if_pos form, cut_more read]
    rfl
  · cases h

theorem Record.get_more {s rest : List UInt8} {r : Record} (h : Record.get s = some (r, rest))
    (more : List UInt8) : Record.get (s ++ more) = some (r, rest ++ more) := by
  unfold Record.get at h ⊢
  obtain ⟨tag, read, h⟩ := Option.bind_eq_some_iff.mp h
  rw [Varint.read_more read, Option.bind_some]
  split at h
  · cases h
  · rename_i numbered
    obtain ⟨value, got, same⟩ := Option.map_eq_some_iff.mp h
    obtain ⟨rfl, rfl⟩ := Prod.mk.inj same
    rw [if_neg numbered, Value.get_more got]
    rfl

end Records
