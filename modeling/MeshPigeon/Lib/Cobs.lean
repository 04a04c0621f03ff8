import Mathlib.Algebra.Ring.Nat
import Mathlib.Data.List.Basic
import Mathlib.Tactic.Common

/-!
# Consistent overhead byte stuffing

A COBS body is a sequence of blocks: a code byte and then one byte fewer than
the code says. Between blocks stands an implicit zero, except after a full
block of 254 bytes.
-/
namespace Cobs

/-- The bytes of blocks, each given by its data. -/
def wire (bs : List (List UInt8)) : List UInt8 :=
  bs.flatMap fun d => UInt8.ofNat (d.length + 1) :: d

/-- No block holds more than 254 bytes, so that its code fits a byte. -/
def Short (bs : List (List UInt8)) : Prop := ∀ d ∈ bs, d.length ≤ 254

/-- The zero a block that is not the last stands for. -/
def gap (d : List UInt8) : List UInt8 := if d.length < 254 then [0] else []

/-- The last block of `w` is a full one, whose code is 255. -/
def EndsFull (w : List UInt8) : Prop := ∃ bs d, Short (bs ++ [d]) ∧ wire (bs ++ [d]) = w ∧ d.length = 254

def payload : List (List UInt8) → List UInt8
  | [] => []
  | [d] => d
  | d :: d' :: bs => d ++ gap d ++ payload (d' :: bs)

/-- Collect a block that still lacks `k` bytes, and the blocks after it. -/
def parseIn : Nat → List UInt8 → List UInt8 → Option (List (List UInt8))
  | 0, d, [] => some [d]
  | _ + 1, _, [] => none
  | 0, d, c :: w => if c = 0 then none else (parseIn (c.toNat - 1) [] w).map (d :: ·)
  | k + 1, d, b :: w => parseIn k (d ++ [b]) w

/-- Cut a body into blocks. -/
def parse : List UInt8 → Option (List (List UInt8))
  | [] => some []
  | c :: w => if c = 0 then none else parseIn (c.toNat - 1) [] w

def decode (w : List UInt8) : Option (List UInt8) := (parse w).map payload

/-- The grammar: `w` is a sequence of blocks that decodes to `d`. -/
def Decodes (w d : List UInt8) : Prop := ∃ bs, Short bs ∧ wire bs = w ∧ payload bs = d

@[simp] theorem wire_nil : wire [] = [] := rfl
@[simp] theorem wire_cons (d : List UInt8) (bs : List (List UInt8)) :
    wire (d :: bs) = UInt8.ofNat (d.length + 1) :: (d ++ wire bs) := by simp [wire]
@[simp] theorem wire_append (as bs : List (List UInt8)) : wire (as ++ bs) = wire as ++ wire bs := by
  simp [wire]

theorem payload_cons (d : List UInt8) (bs : List (List UInt8)) :
    payload (d :: bs) = if bs = [] then d else d ++ gap d ++ payload bs := by
  cases bs with
  | nil => simp [payload]
  | cons d' bs => simp [payload]

theorem parseIn_eq (k : Nat) (d w : List UInt8) :
    parseIn k d w =
      if w.length < k then none else (parse (w.drop k)).map ((d ++ w.take k) :: ·) := by
  induction w generalizing k d with
  | nil => cases k <;> simp [parseIn, parse]
  | cons b w ih =>
    cases k with
    | zero =>
      simp only [parseIn, parse, List.drop_zero, List.take_zero, List.append_nil, Nat.not_lt_zero,
        if_false]
      split <;> rfl
    | succ k => simp [parseIn, ih]

/-- Parsing takes one whole block at a time. -/
theorem parse_cons (c : UInt8) (w : List UInt8) :
    parse (c :: w) =
      if c = 0 then none else if w.length < c.toNat - 1 then none
      else (parse (w.drop (c.toNat - 1))).map (w.take (c.toNat - 1) :: ·) := by
  rw [parse, parseIn_eq]
  rfl

theorem parse_wire {bs : List (List UInt8)} (h : Short bs) : parse (wire bs) = some bs := by
  induction bs with
  | nil => rfl
  | cons d bs ih =>
    have hd : d.length ≤ 254 := h d List.mem_cons_self
    have code : (UInt8.ofNat (d.length + 1)).toNat = d.length + 1 := by
      rw [UInt8.toNat_ofNat']; omega
    have nonzero : UInt8.ofNat (d.length + 1) ≠ 0 := by
      intro zero; rw [zero] at code; simp at code
    rw [wire_cons, parse_cons, if_neg nonzero, code]
    simp [ih fun x hx => h x (List.mem_cons_of_mem d hx)]

theorem parse_sound {w : List UInt8} {bs : List (List UInt8)} (h : parse w = some bs) :
    wire bs = w ∧ Short bs := by
  induction hn : w.length using Nat.strongRecOn generalizing w bs with
  | ind n ih =>
    cases w with
    | nil => cases h; exact ⟨rfl, by simp [Short]⟩
    | cons c w =>
      rw [parse_cons] at h
      split at h
      · cases h
      rename_i nonzero
      split at h
      · cases h
      rename_i long
      obtain ⟨rest, hrest, rfl⟩ := Option.map_eq_some_iff.mp h
      have hc : c.toNat ≠ 0 := fun zero => nonzero (UInt8.toNat_inj.mp zero)
      have hlt := c.toNat_lt
      obtain ⟨hw, hs⟩ := ih _ (by simp at hn ⊢; omega) hrest rfl
      have taken : (w.take (c.toNat - 1)).length = c.toNat - 1 := by simp; omega
      refine ⟨?_, ?_⟩
      · rw [wire_cons, hw, taken, List.take_append_drop, Nat.sub_add_cancel (by omega),
          UInt8.ofNat_toNat]
      · intro d hd
        rcases List.mem_cons.mp hd with rfl | hd
        · rw [taken]; omega
        · exact hs d hd

/-- Decoding takes one whole block at a time. -/
theorem decode_cons (c : UInt8) (w : List UInt8) :
    decode (c :: w) =
      if c = 0 then none else if w.length < c.toNat - 1 then none
      else if w.drop (c.toNat - 1) = [] then some (w.take (c.toNat - 1))
      else (decode (w.drop (c.toNat - 1))).map
        (w.take (c.toNat - 1) ++ gap (w.take (c.toNat - 1)) ++ ·) := by
  rw [decode, parse_cons]
  split
  · rfl
  split
  · rfl
  split
  · rename_i last
    rw [last]
    rfl
  · rename_i more
    rw [decode, Option.map_map, Option.map_map]
    apply Option.map_congr
    intro bs hbs
    have nonempty : bs ≠ [] := by
      rintro rfl
      exact more (parse_sound hbs).1.symm
    simp only [Function.comp_apply]
    rw [payload_cons, if_neg nonempty]

theorem decode_iff {w d : List UInt8} : decode w = some d ↔ Decodes w d := by
  constructor
  · intro h
    obtain ⟨bs, hbs, rfl⟩ := Option.map_eq_some_iff.mp h
    obtain ⟨hw, hs⟩ := parse_sound hbs
    exact ⟨bs, hs, hw, rfl⟩
  · rintro ⟨bs, hs, rfl, rfl⟩
    simp [decode, parse_wire hs]

/-! ## Encoding -/

/-- Cut a payload into blocks, the first of which already holds `d`. -/
def blocksFrom (d : List UInt8) : List UInt8 → List (List UInt8)
  | [] => [d]
  | v :: s =>
    if v = 0 then d :: blocksFrom [] s
    else if d.length + 1 = 254 then (d ++ [v]) :: blocksFrom [] s
    else blocksFrom (d ++ [v]) s

def encode (s : List UInt8) : List UInt8 := wire (blocksFrom [] s)

theorem blocksFrom_ne_nil (d s : List UInt8) : blocksFrom d s ≠ [] := by
  induction s generalizing d with
  | nil => simp [blocksFrom]
  | cons v s ih =>
    simp only [blocksFrom]
    split
    · simp
    · split
      · simp
      · exact ih _

theorem blocksFrom_short {d : List UInt8} (s : List UInt8) (h : d.length < 254) :
    Short (blocksFrom d s) := by
  induction s generalizing d with
  | nil => intro x hx; simp [blocksFrom] at hx; subst hx; omega
  | cons v s ih =>
    have cons {x : List UInt8} (hx : x.length ≤ 254) : Short (x :: blocksFrom [] s) := by
      intro y hy
      rcases List.mem_cons.mp hy with rfl | hy
      · exact hx
      · exact ih (d := []) (by simp) y hy
    simp only [blocksFrom]
    split
    · exact cons (by omega)
    · split
      · exact cons (by simp; omega)
      · exact ih (by simp; omega)

theorem payload_blocksFrom {d : List UInt8} (s : List UInt8) (h : d.length < 254) :
    payload (blocksFrom d s) = d ++ s := by
  induction s generalizing d with
  | nil => simp [blocksFrom, payload]
  | cons v s ih =>
    have rest := ih (d := []) (by simp)
    simp only [blocksFrom]
    split
    · rename_i zero
      rw [payload_cons, if_neg (blocksFrom_ne_nil _ _), rest, gap, if_pos h, zero]
      simp
    · split
      · rename_i full
        rw [payload_cons, if_neg (blocksFrom_ne_nil _ _), rest, gap, if_neg (by simp; omega)]
        simp
      · rw [ih (by simp; omega)]
        simp

/-- Round trip. -/
theorem decode_encode (s : List UInt8) : decode (encode s) = some s := by
  rw [decode, encode, parse_wire (blocksFrom_short s (by simp)), Option.map_some,
    payload_blocksFrom s (by simp), List.nil_append]

/-- The overhead is one byte and one more for every full 254. -/
theorem length_encode_le (s : List UInt8) : (encode s).length ≤ s.length + s.length / 254 + 1 := by
  have general : ∀ (s d : List UInt8), d.length < 254 →
      (wire (blocksFrom d s)).length ≤ d.length + 1 + s.length + (d.length + s.length) / 254 := by
    intro s
    induction s with
    | nil => intro d h; simp [blocksFrom]
    | cons v s ih =>
      intro d h
      have rest := ih [] (by simp)
      simp only [List.length_nil] at rest
      simp only [blocksFrom]
      split
      · simp only [wire_cons, List.length_cons, List.length_append]; omega
      · split
        · simp only [wire_cons, List.length_cons, List.length_append, List.length_nil]; omega
        · have := ih (d ++ [v]) (by simp; omega)
          simp only [List.length_append, List.length_cons, List.length_nil] at this ⊢
          omega
  have := general s [] (by simp)
  simp only [List.length_nil, Nat.zero_add] at this
  unfold encode
  omega

/-- Every block costs at least the zero it stands for. -/
theorem length_payload_lt {bs : List (List UInt8)} (nonempty : bs ≠ []) :
    (payload bs).length < (wire bs).length := by
  induction bs with
  | nil => exact absurd rfl nonempty
  | cons d bs ih =>
    rw [payload_cons, wire_cons, List.length_cons, List.length_append]
    by_cases last : bs = []
    · rw [if_pos last]
      omega
    · have rest := ih last
      have one : (gap d).length ≤ 1 := by
        unfold gap
        split <;> simp
      rw [if_neg last, List.length_append, List.length_append]
      omega

theorem length_lt_encode (s : List UInt8) : s.length < (encode s).length := by
  have blocks := length_payload_lt (blocksFrom_ne_nil [] s)
  rw [payload_blocksFrom s (by simp), List.nil_append] at blocks
  exact blocks

theorem zero_not_mem_encode (s : List UInt8) : 0 ∉ encode s := by
  have general : ∀ (s d : List UInt8), d.length < 254 → 0 ∉ d → 0 ∉ wire (blocksFrom d s) := by
    intro s
    have code (d : List UInt8) (h : d.length ≤ 254) : (0 : UInt8) ≠ UInt8.ofNat (d.length + 1) := by
      intro zero
      have := congrArg UInt8.toNat zero
      rw [UInt8.toNat_ofNat'] at this
      simp at this
      omega
    induction s with
    | nil =>
      intro d h hd
      simp only [blocksFrom, wire_cons, wire_nil, List.append_nil, List.mem_cons, not_or]
      exact ⟨code d (by omega), hd⟩
    | cons v s ih =>
      intro d h hd
      have rest := ih [] (by simp) (by simp)
      simp only [blocksFrom]
      split
      · simp only [wire_cons, List.mem_cons, List.mem_append, not_or]
        exact ⟨code d (by omega), hd, rest⟩
      · rename_i nonzero
        have hd' : 0 ∉ d ++ [v] := by
          simp only [List.mem_append, List.mem_singleton, not_or]
          exact ⟨hd, fun eq => nonzero eq.symm⟩
        split
        · rw [wire_cons, List.mem_cons, List.mem_append, not_or, not_or]
          exact ⟨code _ (by simp; omega), hd', rest⟩
        · exact ih (d ++ [v]) (by simp; omega) hd'
  exact general s [] (by simp) (by simp)

theorem encode_ne_nil (s : List UInt8) : encode s ≠ [] := by
  unfold encode
  cases h : blocksFrom [] s with
  | nil => exact absurd h (blocksFrom_ne_nil _ _)
  | cons d bs => simp

/-! ## Encoding what a body decodes to -/

theorem blocksFrom_grown {d x : List UInt8} (s : List UInt8) (clean : 0 ∉ x)
    (room : d.length + x.length < 254) : blocksFrom d (x ++ s) = blocksFrom (d ++ x) s := by
  induction x generalizing d with
  | nil => simp
  | cons v x ih =>
    simp only [List.mem_cons, not_or] at clean
    simp only [List.length_cons] at room
    have rest := ih (d := d ++ [v]) clean.2 (by simp; omega)
    rw [List.append_assoc] at rest
    rw [List.cons_append, blocksFrom, if_neg (Ne.symm clean.1), if_neg (by omega)]
    exact rest

/-- A short block stands for its data and a zero. -/
theorem blocksFrom_zero {d : List UInt8} (s : List UInt8) (clean : 0 ∉ d) (short : d.length < 254) :
    blocksFrom [] (d ++ 0 :: s) = d :: blocksFrom [] s := by
  rw [blocksFrom_grown _ clean (by simpa using short), blocksFrom, if_pos rfl]
  rfl

theorem blocksFrom_full {d : List UInt8} (s : List UInt8) (clean : 0 ∉ d) (full : d.length = 254) :
    blocksFrom [] (d ++ s) = d :: blocksFrom [] s := by
  obtain ⟨x, v, rfl⟩ : ∃ x v, d = x ++ [v] := by
    refine ⟨d.dropLast, d.getLast (List.ne_nil_of_length_eq_add_one full), ?_⟩
    exact (List.dropLast_append_getLast _).symm
  simp only [List.mem_append, List.mem_singleton, not_or] at clean
  simp only [List.length_append, List.length_singleton] at full
  rw [List.append_assoc, blocksFrom_grown _ clean.1 (by simp; omega)]
  simp only [List.nil_append, List.cons_append, blocksFrom]
  rw [if_neg (Ne.symm clean.2), if_pos full]

/-- Encoding what blocks free of delimiters decode to gives them back. A full
block at the end is followed by an empty one. -/
theorem encode_payload {bs : List (List UInt8)} (short : Short bs) (clean : 0 ∉ wire bs)
    (nonempty : bs ≠ []) :
    encode (payload bs) = wire bs ++ if (bs.getLast nonempty).length = 254 then [1] else [] := by
  induction bs with
  | nil => exact absurd rfl nonempty
  | cons d bs ih =>
    rw [wire_cons, List.mem_cons, List.mem_append, not_or, not_or] at clean
    obtain ⟨_, cleanHead, cleanRest⟩ := clean
    have bound : d.length ≤ 254 := short d List.mem_cons_self
    unfold encode
    rw [payload_cons]
    by_cases last : bs = []
    · subst last
      rw [if_pos rfl, List.getLast_singleton]
      by_cases full : d.length = 254
      · have cut := blocksFrom_full [] cleanHead full
        rw [List.append_nil] at cut
        rw [cut, if_pos full]
        simp [blocksFrom]
      · have cut := blocksFrom_grown (d := []) [] cleanHead (by simp; omega)
        rw [List.append_nil, List.nil_append] at cut
        rw [cut, blocksFrom, if_neg full, List.append_nil]
    · have rest := ih (fun x hx => short x (List.mem_cons_of_mem d hx)) cleanRest last
      unfold encode at rest
      rw [if_neg last, gap, List.getLast_cons last]
      by_cases full : d.length = 254
      · rw [if_neg (by omega), List.append_nil, blocksFrom_full _ cleanHead full, wire_cons, rest]
        simp
      · rw [if_pos (by omega), List.append_assoc, List.singleton_append,
          blocksFrom_zero _ cleanHead (by omega), wire_cons, rest]
        simp

theorem wire_length_le {bs : List (List UInt8)} (short : Short bs) (clean : 0 ∉ wire bs) :
    (wire bs).length ≤ (encode (payload bs)).length := by
  by_cases nonempty : bs = []
  · simp [nonempty]
  · rw [encode_payload short clean nonempty, List.length_append]
    exact Nat.le_add_right _ _

/-- A body and the blocks it is cut into. -/
theorem endsFull_iff {bs : List (List UInt8)} (short : Short bs) (nonempty : bs ≠ []) :
    EndsFull (wire bs) ↔ (bs.getLast nonempty).length = 254 := by
  constructor
  · rintro ⟨init, d, short', same, full⟩
    have blocks := parse_wire short'
    rw [same, parse_wire short, Option.some.injEq] at blocks
    simp only [blocks, List.getLast_append_singleton]
    exact full
  · intro full
    have split : bs.dropLast ++ [bs.getLast nonempty] = bs := List.dropLast_append_getLast nonempty
    exact ⟨bs.dropLast, bs.getLast nonempty, by rw [split]; exact short, by rw [split], full⟩

/-- A body free of delimiters is at most as long as the encoding of what it decodes to. -/
theorem length_le_of_decode {w s : List UInt8} (h : decode w = some s) (clean : 0 ∉ w) :
    w.length ≤ (encode s).length := by
  obtain ⟨bs, short, rfl, rfl⟩ := decode_iff.mp h
  exact wire_length_le short clean

end Cobs
