import MeshPigeon.Lib.Records

/-!
# Messages as rows of records

A schema says which records a message is written as and what one record does to
a message that is being read. A record whose number it does not name does
nothing.

* `interp_records`: reading a message's records copies it, slot by slot;
* `interp_known`: unknown records drop out, wherever they stand;
* `length_records_le`: a bound on the bytes, from the bounds of the slots.
-/
namespace Records

/-! ## Values -/

/-- A type of values with one form on the wire. `value` is `none` for a value that has no
encoding; `apply` has the value that is being overwritten as its last argument. -/
structure Codec (α : Type) where
  kind : Nat
  value : α → Option Value
  apply : Value → α → Option α
  size : Nat
  kind_value : ∀ {a p}, value a = some p → p.kind = kind
  kind_apply : ∀ {p old a}, apply p old = some a → p.kind = kind
  fits : ∀ {a p}, value a = some p → p.Fits
  bounded : ∀ {a p}, value a = some p → p.put.length ≤ size

/-- A value written and read back over another one. -/
def Codec.carry {α : Type} (c : Codec α) (a old : α) : Option α :=
  (c.value a).bind fun p => c.apply p old

namespace Codec

variable {α : Type}

/-- Values sent as numbers below `2 ^ bits`. -/
def number (bits : Nat) (word : bits ≤ 64) (toNat : α → Nat) (below : ∀ a, toNat a < 2 ^ bits)
    (ofNat : Nat → Option α) : Codec α where
  kind := 0
  value a := some (.varint (toNat a))
  apply
    | .varint n, _ => ofNat n
    | _, _ => none
  size := Varint.width (2 ^ bits - 1)
  kind_value := by
    intro a p h
    cases h
    rfl
  kind_apply := by
    intro p old a h
    cases p with
    | varint n => rfl
    | word64 bs => cases h
    | bytes bs => cases h
    | word32 bs => cases h
  fits := by
    intro a p h
    cases h
    exact Nat.lt_of_lt_of_le (below a) (Nat.pow_le_pow_right (by decide) word)
  bounded := by
    intro a p h
    cases h
    exact Varint.length_put_le_width (Nat.le_sub_one_of_lt (below a))

/-- Values sent as at most `cap` bytes. -/
def text (cap : Nat) (small : cap < 2 ^ 32) (str : α → List UInt8)
    (write : List UInt8 → α → Option α) : Codec α where
  kind := 2
  value a := if (str a).length ≤ cap then some (.bytes (str a)) else none
  apply
    | .bytes bs, old => write bs old
    | _, _ => none
  size := Varint.width cap + cap
  kind_value := by
    intro a p h
    obtain ⟨_, same⟩ := Option.ite_none_right_eq_some.mp h
    cases same
    rfl
  kind_apply := by
    intro p old a h
    cases p with
    | bytes bs => rfl
    | varint n => cases h
    | word64 bs => cases h
    | word32 bs => cases h
  fits := by
    intro a p h
    obtain ⟨short, same⟩ := Option.ite_none_right_eq_some.mp h
    cases same
    exact Nat.lt_of_le_of_lt short small
  bounded := by
    intro a p h
    obtain ⟨short, same⟩ := Option.ite_none_right_eq_some.mp h
    cases same
    rw [Value.put, List.length_append]
    exact Nat.add_le_add (Varint.length_put_le_width short) short

theorem text_carry {cap : Nat} {small : cap < 2 ^ 32} {str : α → List UInt8}
    {write : List UInt8 → α → Option α} {a : α} (short : (str a).length ≤ cap) (old : α) :
    (text cap small str write).carry a old = write (str a) old := by
  simp [carry, text, short]

end Codec

/-- The numbers in a row of them. -/
def numbers (s : List UInt8) : Option (List Nat) :=
  if s = [] then some []
  else
    match _h : Varint.read 10 (2 ^ 64) s with
    | none => none
    | some (n, rest) => (numbers rest).map (n :: ·)
termination_by s.length
decreasing_by exact Varint.length_of_read _h

theorem numbers_cons {s rest : List UInt8} {n : Nat}
    (h : Varint.read 10 (2 ^ 64) s = some (n, rest)) : numbers s = (numbers rest).map (n :: ·) := by
  have nonempty : s ≠ [] := by
    rintro rfl
    cases h
  rw [numbers, if_neg nonempty]
  split
  · rename_i found
    cases h.symm.trans found
  · rename_i found
    obtain ⟨rfl, rfl⟩ := Prod.mk.inj (Option.some.inj (h.symm.trans found))
    rfl

theorem numbers_split {s : List UInt8} {ns : List Nat} (nonempty : s ≠ [])
    (h : numbers s = some ns) :
    ∃ n rest tail, Varint.read 10 (2 ^ 64) s = some (n, rest) ∧ numbers rest = some tail ∧
      ns = n :: tail := by
  cases found : Varint.read 10 (2 ^ 64) s with
  | none =>
    rw [numbers, if_neg nonempty] at h
    split at h
    · cases h
    · rename_i other
      cases found.symm.trans other
  | some head =>
    obtain ⟨n, rest⟩ := head
    rw [numbers_cons found] at h
    obtain ⟨tail, row, rfl⟩ := Option.map_eq_some_iff.mp h
    exact ⟨n, rest, tail, rfl, row, rfl⟩

theorem numbers_put {ns : List Nat} (fits : ∀ n ∈ ns, n < 2 ^ 64) :
    numbers (ns.flatMap Varint.put) = some ns := by
  induction ns with
  | nil =>
    show numbers [] = _
    rw [numbers, if_pos rfl]
  | cons n ns ih =>
    have word := fits n List.mem_cons_self
    have short : (Varint.put n).length ≤ 10 := Varint.length_put_le 9 (Nat.lt_trans word (by decide))
    rw [List.flatMap_cons, numbers_cons (Varint.read_put short word _),
      ih fun x hx => fits x (List.mem_cons_of_mem n hx)]
    rfl

theorem length_row {ns : List Nat} {cap bits : Nat} (few : ns.length ≤ cap)
    (below : ∀ n ∈ ns, n < 2 ^ bits) :
    (ns.flatMap Varint.put).length ≤ cap * Varint.width (2 ^ bits) := by
  have each : (ns.flatMap Varint.put).length ≤ ns.length * Varint.width (2 ^ bits) := by
    clear few
    induction ns with
    | nil => exact Nat.zero_le _
    | cons n ns ih =>
      have head := Varint.length_put_le_width (Nat.le_of_lt (below n List.mem_cons_self))
      have tail := ih fun x hx => below x (List.mem_cons_of_mem n hx)
      rw [List.flatMap_cons, List.length_append, List.length_cons, Nat.succ_mul, Nat.add_comm]
      exact Nat.add_le_add tail head
  exact Nat.le_trans each (Nat.mul_le_mul_right _ few)

/-! ## Slots -/

/-- One field of a message. -/
structure Slot (M : Type) where
  number : Nat
  records : M → Option (List Value)
  apply : Value → M → Option M
  size : Nat
  fits : ∀ {m ps}, records m = some ps → ∀ p ∈ ps, p.Fits
  bounded : ∀ {m ps}, records m = some ps →
    (ps.flatMap fun p => Record.put ⟨number, p⟩).length ≤ size

/-- The bytes a field number takes, with the form beside it. -/
def tagSize (number : Nat) : Nat := Varint.width (8 * number + 7)

theorem length_put_record (number : Nat) (p : Value) :
    (Record.put ⟨number, p⟩).length ≤ tagSize number + p.put.length := by
  have kind := p.kind_lt
  have tag : (Varint.put (8 * number + p.kind)).length ≤ tagSize number :=
    Varint.length_put_le_width (by omega)
  rw [Record.put, List.length_append]
  exact Nat.add_le_add_right tag _

namespace Slot

variable {M : Type}

/-- A slot written and read back over another message. -/
def merge (μ : Slot M) (src dst : M) : Option M :=
  (μ.records src).bind fun ps => ps.foldlM (fun m p => μ.apply p m) dst

variable {α : Type}

/-- A field left out when it holds the default. -/
def singular (c : Codec α) (isDefault : α → Bool) (number : Nat) (get : M → α) (set : α → M → M) :
    Slot M where
  number := number
  records m := if isDefault (get m) then some [] else (c.value (get m)).map fun p => [p]
  apply p m := (c.apply p (get m)).map fun a => set a m
  size := tagSize number + c.size
  fits := by
    intro m ps h p hp
    split at h
    · cases h
      cases hp
    · obtain ⟨p', written, rfl⟩ := Option.map_eq_some_iff.mp h
      obtain rfl := List.mem_singleton.mp hp
      exact c.fits written
  bounded := by
    intro m ps h
    split at h
    · cases h
      exact Nat.zero_le _
    · obtain ⟨p, written, rfl⟩ := Option.map_eq_some_iff.mp h
      have := c.bounded written
      have := length_put_record number p
      rw [List.flatMap_singleton]
      omega

/-- A field that is written when it is there, whatever it holds. -/
def present (c : Codec α) (zero : α) (number : Nat) (member : M → Option α) (select : α → M → M) :
    Slot M where
  number := number
  records m := (member m).elim (some []) fun a => (c.value a).map fun p => [p]
  apply p m := (c.apply p ((member m).getD zero)).map fun a => select a m
  size := tagSize number + c.size
  fits := by
    intro m ps h p hp
    cases there : member m with
    | none =>
      rw [there] at h
      cases h
      cases hp
    | some a =>
      rw [there] at h
      obtain ⟨p', written, rfl⟩ := Option.map_eq_some_iff.mp h
      obtain rfl := List.mem_singleton.mp hp
      exact c.fits written
  bounded := by
    intro m ps h
    cases there : member m with
    | none =>
      rw [there] at h
      cases h
      exact Nat.zero_le _
    | some a =>
      rw [there] at h
      obtain ⟨p, written, rfl⟩ := Option.map_eq_some_iff.mp h
      have := c.bounded written
      have := length_put_record number p
      rw [List.flatMap_singleton]
      omega

variable {β : Type}

/-- An array of at most `cap` numbers below `2 ^ bits`, written as one row of them and read in a
row or one by one. -/
def repeated (cap bits : Nat) (small : cap * Varint.width (2 ^ bits) < 2 ^ 32) (number : Nat)
    (isEmpty : β → Bool) (elements : β → Option (List Nat))
    (short : ∀ {b ns}, elements b = some ns → ns.length ≤ cap ∧ ∀ n ∈ ns, n < 2 ^ bits)
    (push : Nat → β → Option β) (get : M → β) (set : β → M → M) : Slot M where
  number := number
  records m :=
    if isEmpty (get m) then some []
    else (elements (get m)).map fun ns => [.bytes (ns.flatMap Varint.put)]
  apply
    | .bytes bs, m => (numbers bs).bind fun ns =>
        (ns.foldlM (fun b n => push n b) (get m)).map fun b => set b m
    | .varint n, m => (push n (get m)).map fun b => set b m
    | _, _ => none
  size := tagSize number +
    (Varint.width (cap * Varint.width (2 ^ bits)) + cap * Varint.width (2 ^ bits))
  fits := by
    intro m ps h p hp
    split at h
    · cases h
      cases hp
    · obtain ⟨ns, found, rfl⟩ := Option.map_eq_some_iff.mp h
      obtain rfl := List.mem_singleton.mp hp
      obtain ⟨few, below⟩ := short found
      exact Nat.lt_of_le_of_lt (length_row few below) small
  bounded := by
    intro m ps h
    split at h
    · cases h
      exact Nat.zero_le _
    · obtain ⟨ns, found, rfl⟩ := Option.map_eq_some_iff.mp h
      obtain ⟨few, below⟩ := short found
      have len := length_row few below
      have record := length_put_record number (.bytes (ns.flatMap Varint.put))
      have size := Varint.length_put_le_width len
      rw [List.flatMap_singleton]
      rw [Value.put, List.length_append] at record
      omega

end Slot

/-! ## Schemas -/

abbrev Schema (M : Type) := List (Slot M)

namespace Schema

variable {M : Type}

/-- No two slots share a number, and every number can be sent. -/
def Numbered (σ : Schema M) : Prop :=
  (σ.map Slot.number).Nodup ∧ ∀ n ∈ σ.map Slot.number, 0 < n ∧ n < 2 ^ 29

instance (σ : Schema M) : Decidable σ.Numbered := inferInstanceAs (Decidable (_ ∧ _))

def records : Schema M → M → Option (List Record)
  | [], _ => some []
  | μ :: σ, m =>
    (μ.records m).bind fun ps => (records σ m).map fun rs => ps.map (Record.mk μ.number) ++ rs

def find (σ : Schema M) (number : Nat) : Option (Slot M) := σ.find? fun μ => μ.number = number

def step (σ : Schema M) (m : M) (r : Record) : Option M :=
  match σ.find r.number with
  | none => some m
  | some μ => μ.apply r.value m

/-- What a row of records makes of a message. -/
def interp (σ : Schema M) (rs : List Record) (m : M) : Option M := rs.foldlM σ.step m

/-- Every slot written and read back over another message. -/
def merge (σ : Schema M) (src dst : M) : Option M := σ.foldlM (fun d μ => μ.merge src d) dst

@[simp] theorem merge_nil (src dst : M) : merge [] src dst = some dst := rfl

@[simp] theorem merge_cons (μ : Slot M) (σ : Schema M) (src dst : M) :
    merge (μ :: σ) src dst = (μ.merge src dst).bind (merge σ src) := rfl

theorem find_of_mem {σ : Schema M} (numbered : σ.Numbered) {μ : Slot M} (h : μ ∈ σ) :
    σ.find μ.number = some μ := by
  have distinct := numbered.1
  clear numbered
  induction σ with
  | nil => cases h
  | cons ν σ ih =>
    rw [List.map_cons, List.nodup_cons] at distinct
    by_cases head : ν.number = μ.number
    · have same : μ = ν := by
        by_contra other
        have tail : μ ∈ σ := (List.mem_cons.mp h).resolve_left other
        exact distinct.1 (head ▸ List.mem_map_of_mem tail)
      simp [find, same]
    · have tail : μ ∈ σ := (List.mem_cons.mp h).resolve_left fun same => head (same ▸ rfl)
      rw [find, List.find?_cons_of_neg (by simpa using head)]
      exact ih tail distinct.2

/-- A message's records copy it slot by slot. -/
theorem interp_records {σ : Schema M} (numbered : σ.Numbered) {src : M} {rs : List Record}
    (h : σ.records src = some rs) (dst : M) : σ.interp rs dst = σ.merge src dst := by
  have part : ∀ τ : Schema M, (∀ μ ∈ τ, μ ∈ σ) → ∀ rs, records τ src = some rs → ∀ dst,
      σ.interp rs dst = merge τ src dst := by
    intro τ sub
    induction τ with
    | nil =>
      intro rs h dst
      cases h
      rfl
    | cons μ τ ih =>
      intro rs h dst
      obtain ⟨ps, own, h⟩ := Option.bind_eq_some_iff.mp h
      obtain ⟨others, rest, rfl⟩ := Option.map_eq_some_iff.mp h
      have found := find_of_mem numbered (sub μ List.mem_cons_self)
      have mine : ∀ d, (ps.map (Record.mk μ.number)).foldlM σ.step d =
          ps.foldlM (fun m p => μ.apply p m) d := by
        intro d
        rw [List.foldlM_map]
        congr 1
        funext m p
        simp [step, found]
      rw [interp, List.foldlM_append, mine, merge_cons, Slot.merge, own, Option.bind_some]
      exact congrArg _ (funext fun d =>
        ih (fun ν hν => sub ν (List.mem_cons_of_mem μ hν)) others rest d)
  exact part σ (fun _ h => h) rs h dst

/-- Whether the schema names a record's number. -/
def known (σ : Schema M) (r : Record) : Bool := (σ.find r.number).isSome

/-- Unknown records drop out, wherever they stand. -/
theorem interp_known (σ : Schema M) (rs : List Record) (m : M) :
    σ.interp (rs.filter σ.known) m = σ.interp rs m := by
  induction rs generalizing m with
  | nil => rfl
  | cons r rs ih =>
    cases found : σ.find r.number with
    | none =>
      have skipped : σ.step m r = some m := by simp [step, found]
      rw [List.filter_cons_of_neg (by simp [known, found]), ih, interp, interp, List.foldlM_cons,
        skipped]
      rfl
    | some μ =>
      rw [List.filter_cons_of_pos (by simp [known, found]), interp, interp, List.foldlM_cons,
        List.foldlM_cons]
      exact congrArg _ (funext fun m' => ih m')

/-- The sum of the slots' bounds. -/
def size (σ : Schema M) : Nat := (σ.map Slot.size).sum

theorem length_records_le {σ : Schema M} {m : M} {rs : List Record} (h : σ.records m = some rs) :
    (putAll rs).length ≤ σ.size := by
  induction σ generalizing rs with
  | nil =>
    cases h
    exact Nat.zero_le _
  | cons μ σ ih =>
    obtain ⟨ps, own, h⟩ := Option.bind_eq_some_iff.mp h
    obtain ⟨others, rest, rfl⟩ := Option.map_eq_some_iff.mp h
    have first := μ.bounded own
    have tail := ih rest
    have shape : putAll (ps.map (Record.mk μ.number) ++ others) =
        (ps.flatMap fun p => Record.put ⟨μ.number, p⟩) ++ putAll others := by
      rw [putAll, List.flatMap_append, List.flatMap_map]
      rfl
    rw [shape, List.length_append, size, List.map_cons, List.sum_cons]
    exact Nat.add_le_add first tail

theorem fits_records {σ : Schema M} (numbered : σ.Numbered) {m : M} {rs : List Record}
    (h : σ.records m = some rs) : ∀ r ∈ rs, r.Fits := by
  have range := numbered.2
  clear numbered
  induction σ generalizing rs with
  | nil =>
    cases h
    exact fun r hr => absurd hr List.not_mem_nil
  | cons μ σ ih =>
    obtain ⟨ps, own, h⟩ := Option.bind_eq_some_iff.mp h
    obtain ⟨others, rest, rfl⟩ := Option.map_eq_some_iff.mp h
    intro r hr
    rcases List.mem_append.mp hr with here | later
    · obtain ⟨p, hp, rfl⟩ := List.mem_map.mp here
      exact ⟨range μ.number (by simp), μ.fits own p hp⟩
    · exact ih rest (fun n hn => range n (List.mem_cons_of_mem _ hn)) r later

/-- What is written and read back is the message merged into the one at hand. -/
theorem interp_parse {σ : Schema M} (numbered : σ.Numbered) {src : M} {rs : List Record}
    (h : σ.records src = some rs) (dst : M) :
    (parse (putAll rs)).bind (fun rs => σ.interp rs dst) = σ.merge src dst := by
  rw [parse_putAll (fits_records numbered h), Option.bind_some, interp_records numbered h]

/-! ## A message with one slot in use -/

/-- Whether a message writes nothing for a slot. -/
def silent (m : M) (μ : Slot M) : Bool := μ.records m = some []

theorem records_silent {σ : Schema M} {m : M} (h : σ.all (silent m) = true) :
    σ.records m = some [] := by
  induction σ with
  | nil => rfl
  | cons μ σ ih =>
    rw [List.all_cons, Bool.and_eq_true] at h
    rw [records, of_decide_eq_true h.1, Option.bind_some, ih h.2]
    rfl

theorem merge_silent {σ : Schema M} {src : M} (h : σ.all (silent src) = true) (dst : M) :
    σ.merge src dst = some dst := by
  induction σ with
  | nil => rfl
  | cons μ σ ih =>
    rw [List.all_cons, Bool.and_eq_true] at h
    rw [merge_cons, Slot.merge, of_decide_eq_true h.1]
    exact ih h.2

theorem merge_next {μ : Slot M} {σ : Schema M} {src dst mid m : M} (first : μ.merge src dst = some mid)
    (others : σ.merge src mid = some m) : merge (μ :: σ) src dst = some m := by
  rw [merge_cons, first, Option.bind_some, others]

/-- Only the slot in use is merged. -/
theorem merge_alone {σ : Schema M} {src dst m : M} (i : Nat) {μ : Slot M} (here : σ[i]? = some μ)
    (before : (σ.take i).all (silent src) = true)
    (after : (σ.drop (i + 1)).all (silent src) = true) (own : μ.merge src dst = some m) :
    σ.merge src dst = some m := by
  induction i generalizing σ with
  | zero =>
    cases σ with
    | nil => cases here
    | cons ν σ =>
      cases here
      exact merge_next own (merge_silent after m)
  | succ i ih =>
    cases σ with
    | nil => cases here
    | cons ν σ =>
      rw [List.take_succ_cons, List.all_cons, Bool.and_eq_true] at before
      have skipped : ν.merge src dst = some dst := by
        rw [Slot.merge, of_decide_eq_true before.1]
        rfl
      exact merge_next skipped (ih here before.2 after)

/-- Only the slot in use is written. -/
theorem length_alone {σ : Schema M} {m : M} (i : Nat) {μ : Slot M} (here : σ[i]? = some μ)
    (before : (σ.take i).all (silent m) = true) (after : (σ.drop (i + 1)).all (silent m) = true)
    {rs : List Record} (h : σ.records m = some rs) : (putAll rs).length ≤ μ.size := by
  induction i generalizing σ with
  | zero =>
    cases σ with
    | nil => cases here
    | cons ν σ =>
      cases here
      obtain ⟨ps, own, h⟩ := Option.bind_eq_some_iff.mp h
      have rest : records σ m = some [] := records_silent after
      rw [rest, Option.map_some, List.append_nil] at h
      cases h
      rw [putAll, List.flatMap_map]
      exact μ.bounded own
  | succ i ih =>
    cases σ with
    | nil => cases here
    | cons ν σ =>
      rw [List.take_succ_cons, List.all_cons, Bool.and_eq_true] at before
      rw [records, of_decide_eq_true before.1, Option.bind_some] at h
      obtain ⟨others, rest, rfl⟩ := Option.map_eq_some_iff.mp h
      exact ih here before.2 after rest

/-! ## Messages inside messages -/

/-- A message as the value of a field. -/
def codec (σ : Schema M) (small : σ.size < 2 ^ 32) : Codec M where
  kind := 2
  value m := (σ.records m).map fun rs => .bytes (putAll rs)
  apply
    | .bytes bs, m => (parse bs).bind fun rs => σ.interp rs m
    | _, _ => none
  size := Varint.width σ.size + σ.size
  kind_value := by
    intro m p h
    obtain ⟨rs, _, rfl⟩ := Option.map_eq_some_iff.mp h
    rfl
  kind_apply := by
    intro p old m h
    cases p with
    | bytes bs => rfl
    | varint n => cases h
    | word64 bs => cases h
    | word32 bs => cases h
  fits := by
    intro m p h
    obtain ⟨rs, written, rfl⟩ := Option.map_eq_some_iff.mp h
    exact Nat.lt_of_le_of_lt (length_records_le written) small
  bounded := by
    intro m p h
    obtain ⟨rs, written, rfl⟩ := Option.map_eq_some_iff.mp h
    have len := length_records_le written
    rw [Value.put, List.length_append]
    exact Nat.add_le_add (Varint.length_put_le_width len) len

theorem codec_carry {σ : Schema M} (numbered : σ.Numbered) {small : σ.size < 2 ^ 32} {src : M}
    {rs : List Record} (h : σ.records src = some rs) (dst : M) :
    (σ.codec small).carry src dst = σ.merge src dst := by
  show ((σ.records src).map _).bind _ = _
  rw [h, ← interp_parse numbered h]
  rfl

end Schema

end Records
