import MeshPigeon.Nanopb.Refines

/-!
# What a reader has of what was written

A value that can be sent is written, and read back from zeros as `received`: the
same value, with zeros behind the end of every string and array.

* `pbDecode_encode`: the round trip of a message;
* `pbEncode_room`: a message is written when its records have room.
-/
namespace MeshPigeon

/-- The string, and zeros behind it. -/
def CharArray.clean {n : Nat} (a : CharArray n) : CharArray n := padded n a.str a.strlen_lt

namespace Nanopb

open Records

variable {M α : Type}

/-! ## Values -/

/-- What can be sent of a type, and what a reader has of it. -/
class Carried (d : DataType α) [spec : DataSpec d] where
  Sendable : α → Prop
  received : α → α
  carry : ∀ {a}, Sendable a → spec.codec.carry a d.zero = some (received a)

export Carried (Sendable received)

/-- The default can be left out. -/
class Omitted (d : Scalar α) [DataSpec d.toDataType] extends Carried d.toDataType where
  zero : ∀ {a}, d.isDefault a = true → received a = d.toDataType.zero

instance : Omitted bool where
  Sendable _ := True
  received a := a
  carry := by
    intro a _
    cases a <;> rfl
  zero := by
    intro a h
    cases a with
    | false => rfl
    | true => cases h

instance : Omitted uint32 where
  Sendable _ := True
  received a := a
  carry := by
    intro a _
    show (if a.toNat < 2 ^ 32 then some (UInt32.ofNat a.toNat) else none) = some a
    rw [if_pos a.toNat_lt, UInt32.ofNat_toNat]
  zero := of_decide_eq_true

instance : Omitted uint64 where
  Sendable _ := True
  received a := a
  carry := by
    intro a _
    show (if a.toNat < 2 ^ 64 then some (UInt64.ofNat a.toNat) else none) = some a
    rw [if_pos a.toNat_lt, UInt64.ofNat_toNat]
  zero := of_decide_eq_true

/-- A number keeps its sign in the low word of its 64-bit form. -/
theorem int32_word (a : Int32) : (UInt64.ofNat a.toInt64.toUInt64.toNat).toUInt32.toInt32 = a := by
  rw [UInt64.ofNat_toNat]
  apply Int32.toBitVec_inj.mp
  show (a.toBitVec.signExtend 64).setWidth 32 = a.toBitVec
  rw [← BitVec.signExtend_eq_setWidth_of_le _ (by decide)]
  exact congrArg Int32.toBitVec a.toInt32_toInt64

instance : Omitted int32 where
  Sendable _ := True
  received a := a
  carry := fun {a} _ => congrArg some (int32_word a)
  zero := of_decide_eq_true

theorem overwrite_zero {n : Nat} (data : List UInt8) (fits : data.length + 1 ≤ n) :
    overwrite (CharArray.padded n [] (Nat.lt_of_lt_of_le (Nat.succ_pos _) fits)) data fits =
      CharArray.padded n data fits := by
  have length : n - data.length = n - 0 - (data.length + 1) + 1 := by omega
  apply Subtype.ext
  show data ++ 0 :: (([] : List UInt8) ++ List.replicate (n - 0) 0).drop (data.length + 1) =
    data ++ List.replicate (n - data.length) 0
  rw [List.nil_append, List.drop_replicate, length, List.replicate_succ]

instance {n : Nat} [Fact (n < 2 ^ 15)] : Omitted (string n) where
  Sendable _ := True
  received := CharArray.clean
  carry := by
    intro a _
    have short : a.str.length ≤ n := Nat.le_of_lt_succ a.strlen_lt
    refine (Codec.text_carry short _).trans ?_
    rw [dif_pos (Nat.succ_le_succ short)]
    exact congrArg some (overwrite_zero a.str _)
  zero := by
    intro a h
    have empty : a.str = [] := of_decide_eq_true h
    apply Subtype.ext
    show a.str ++ List.replicate (n + 1 - a.str.length) 0 = [] ++ List.replicate (n + 1 - 0) 0
    rw [empty]
    rfl

instance {n : Nat} [Fact (n < 2 ^ 15)] : Omitted (bytes n) where
  Sendable a := a.length ≤ bytesRoom n
  received a := a
  carry := by
    intro a short
    exact (Codec.text_carry short _).trans (if_pos short)
  zero := of_decide_eq_true

/-! ## Fields -/

section
variable {tag : Nat} {src dst : M}

/-- What a singular field leaves in a message that has its default. -/
theorem merge_singular {d : Scalar α} [DataSpec d.toDataType] [Omitted d] {get : M → α}
    {set : α → M → M} (sendable : Sendable d.toDataType (get src))
    (fresh : get dst = d.toDataType.zero) (same : set d.toDataType.zero dst = dst) :
    (FieldSpec.slot (singular d tag get set)).merge src dst =
      some (set (received d.toDataType (get src)) dst) := by
  have carried := Carried.carry sendable
  obtain ⟨p, written, read⟩ := Option.bind_eq_some_iff.mp carried
  show (if d.isDefault (get src) = true then some [] else Option.map _ _).bind _ = _
  by_cases default : d.isDefault (get src) = true
  · rw [if_pos default, Omitted.zero default, same]
    rfl
  · rw [if_neg default, written, Option.map_some, Option.bind_some]
    show (Option.map _ (Codec.apply _ p (get dst))).bind _ = _
    rw [fresh, read]
    rfl

theorem merge_present {d : DataType α} [DataSpec d] [Carried d] {get : M → Option α}
    {set : Option α → M → M} (sendable : ∀ a, get src = some a → Sendable d a)
    (fresh : get dst = none) (same : set none dst = dst) :
    (FieldSpec.slot (optional d tag get set)).merge src dst =
      some (set ((get src).map (received d)) dst) := by
  show ((get src).elim (some []) _).bind _ = _
  cases there : get src with
  | none => exact congrArg some same.symm
  | some a =>
    obtain ⟨p, written, read⟩ := Option.bind_eq_some_iff.mp (Carried.carry (sendable a there))
    rw [Option.elim_some, written, Option.map_some, Option.bind_some]
    show (Option.map _ (Codec.apply _ p ((get dst).getD d.zero))).bind _ = _
    rw [fresh, Option.getD_none, read]
    rfl

/-- An optional field whose values arrive as they are. -/
theorem merge_same {d : DataType α} [DataSpec d] [Carried d] {get : M → Option α}
    {set : Option α → M → M} (sendable : ∀ a, Sendable d a) (unchanged : ∀ a, received d a = a)
    (fresh : get dst = none) (same : set none dst = dst) :
    (FieldSpec.slot (optional d tag get set)).merge src dst = some (set (get src) dst) := by
  rw [merge_present (fun a _ => sendable a) fresh same, funext unchanged, Option.map_id']

theorem merge_selected {d : DataType α} [DataSpec d] [Carried d] {member : M → Option α}
    {select : α → M → M} {a : α} (there : member src = some a) (sendable : Sendable d a)
    (fresh : member dst = none) :
    (FieldSpec.slot (oneof d tag member select)).merge src dst =
      some (select (received d a) dst) := by
  have sends : ∀ b, member src = some b → Sendable d b := by
    intro b same
    rw [there] at same
    cases same
    exact sendable
  refine (merge_present sends fresh rfl).trans ?_
  rw [there]
  rfl

/-- What a reader has of an array: zeros behind its end. -/
def arrayReceived (array : List UInt32 × Nat) : List UInt32 × Nat :=
  (array.1.take array.2 ++ List.replicate (array.1.length - array.2) 0, array.2)

theorem push_row (values : List UInt32) {arraySize : Nat} {front : List UInt32} {room : Nat}
    (size : arraySize = front.length + room) (fits : values.length ≤ room) :
    (values.map UInt32.toNat).foldlM (fun b n => arrayPush arraySize n b)
        (front ++ List.replicate room 0, front.length) =
      some (front ++ values ++ List.replicate (room - values.length) 0,
        front.length + values.length) := by
  induction values generalizing front room with
  | nil => simp
  | cons v values ih =>
    rw [List.length_cons] at fits
    obtain ⟨room, rfl⟩ : ∃ k, room = k + 1 := ⟨room - 1, by omega⟩
    have pushed : arrayPush arraySize v.toNat (front ++ List.replicate (room + 1) 0, front.length) =
        some (front ++ [v] ++ List.replicate room 0, (front ++ [v]).length) := by
      rw [arrayPush, if_pos ⟨v.toNat_lt, by dsimp only; omega⟩, UInt32.ofNat_toNat]
      simp [List.replicate_succ]
    rw [List.map_cons, List.foldlM_cons, pushed]
    refine (ih (by simp; omega) (Nat.le_of_succ_le_succ fits)).trans ?_
    simp
    omega

theorem merge_repeated {arraySize : Nat} [Fact (arraySize < 2 ^ 16)] {get : M → List UInt32 × Nat}
    {set : List UInt32 × Nat → M → M} (size : (get src).1.length = arraySize)
    (few : (get src).2 ≤ arraySize) (fresh : get dst = (List.replicate arraySize 0, 0))
    (same : set (List.replicate arraySize 0, 0) dst = dst) :
    (FieldSpec.slot (repeated arraySize tag get set)).merge src dst =
      some (set (arrayReceived (get src)) dst) := by
  show (if (decide ((get src).2 = 0)) = true then some []
    else (arrayElements arraySize (get src)).map fun ns =>
      [Value.bytes (ns.flatMap Varint.put)]).bind _ = _
  generalize get src = array at size few ⊢
  obtain ⟨values, count⟩ := array
  dsimp only at size few ⊢
  by_cases zero : count = 0
  · subst zero
    rw [if_pos (decide_eq_true rfl), arrayReceived, List.take_zero, List.nil_append, Nat.sub_zero,
      size, same]
    rfl
  have nonempty : ¬decide (count = 0) = true := mt of_decide_eq_true zero
  have row : numbers (((values.take count).map UInt32.toNat).flatMap Varint.put) =
      some ((values.take count).map UInt32.toNat) := by
    refine numbers_put fun n hn => ?_
    obtain ⟨v, _, rfl⟩ := List.mem_map.mp hn
    exact Nat.lt_trans v.toNat_lt (by decide)
  have len : (values.take count).length = count := List.length_take_of_le (size ▸ few)
  have pushed : ((values.take count).map UInt32.toNat).foldlM
      (fun b n => arrayPush arraySize n b) ([] ++ List.replicate arraySize 0, 0) = _ :=
    push_row (values.take count) (Nat.zero_add arraySize).symm (len.symm ▸ few)
  rw [List.nil_append, List.nil_append, List.length_nil, Nat.zero_add, len] at pushed
  rw [if_neg nonempty, arrayElements, if_neg (Nat.not_lt.mpr few), Option.map_some,
    Option.bind_some]
  show (Option.bind (numbers _) _).bind _ = _
  rw [row, Option.bind_some, fresh, pushed, arrayReceived, size]
  rfl

end

/-! ## Messages -/

@[simp] theorem schema_nil : TableSpec.schema ([] : List (PbField M)) = [] := rfl

@[simp] theorem schema_cons {f : PbField M} {fields : List (PbField M)} [FieldSpec f]
    [TableSpec fields] :
    TableSpec.schema (f :: fields) = FieldSpec.slot f :: TableSpec.schema fields := rfl

theorem records_of_merge {σ : Schema M} {src dst m : M} (h : σ.merge src dst = some m) :
    ∃ rs, σ.records src = some rs := by
  induction σ generalizing dst with
  | nil => exact ⟨[], rfl⟩
  | cons μ σ ih =>
    obtain ⟨next, first, others⟩ := Option.bind_eq_some_iff.mp h
    obtain ⟨ps, own, _⟩ := Option.bind_eq_some_iff.mp first
    obtain ⟨rs, rest⟩ := ih others
    exact ⟨ps.map (Record.mk μ.number) ++ rs, by rw [Schema.records, own, Option.bind_some, rest]; rfl⟩

section
variable {fields : List (PbField M)} [spec : TableSpec fields] {zero src m : M}

/-- What the schema makes of a row of records. -/
theorem pbDecode_complete {s : IStream} {rs : List Record} (row : parse s = some rs)
    (reads : spec.schema.interp rs zero = some m) : pbDecode fields zero s = some m :=
  pbDecodeInner_complete spec.refines row (Nat.le_refl _) reads

variable [sound : SoundTable fields]

/-- A message inside a message comes over as it does alone. -/
theorem carry_message (merged : spec.schema.merge src zero = some m) :
    (DataSpec.codec (message fields zero)).carry src (message fields zero).zero = some m := by
  obtain ⟨rs, written⟩ := records_of_merge merged
  exact (Schema.codec_carry sound.numbered written zero).trans merged

theorem pbEncode_records {rs : List Record} (written : spec.schema.records src = some rs)
    (s : OStream) : pbEncode fields s src = pbWrite s (putAll rs) := by
  rw [pbEncode_eq spec.refines (fun n hn => (sound.numbered.2 n hn).2) s src, written]
  rfl

/-- Whatever the buffer, what is written in it is the message's records. -/
theorem written_records {bufsize : Nat} {s : OStream}
    (encoded : pbEncode fields (pbOstreamFromBuffer bufsize) src = some s) :
    ∃ rs, spec.schema.records src = some rs ∧ s.written = putAll rs := by
  rw [pbEncode_eq spec.refines (fun n hn => (sound.numbered.2 n hn).2)] at encoded
  obtain ⟨rs, written, room⟩ := Option.bind_eq_some_iff.mp encoded
  rw [pbWrite_eq] at room
  obtain ⟨_, same⟩ := Option.ite_none_left_eq_some.mp room
  cases same
  exact ⟨rs, written, rfl⟩

/-- The round trip of a message that has room. -/
theorem pbDecode_encode (merged : spec.schema.merge src zero = some m) {bufsize : Nat} {s : OStream}
    (encoded : pbEncode fields (pbOstreamFromBuffer bufsize) src = some s) :
    pbDecode fields zero s.written = some m := by
  obtain ⟨rs, written, bytes⟩ := written_records encoded
  rw [bytes]
  refine pbDecode_complete (parse_putAll (Schema.fits_records sound.numbered written)) ?_
  rw [Schema.interp_records sound.numbered written, merged]

/-- A message is written when its records have room. -/
theorem pbEncode_room {rs : List Record} (written : spec.schema.records src = some rs)
    {bufsize : Nat} (room : (putAll rs).length ≤ bufsize) :
    pbEncode fields (pbOstreamFromBuffer bufsize) src =
      some { maxSize := some bufsize, written := putAll rs } := by
  rw [pbEncode_records written, pbWrite_eq, if_neg]
  · rfl
  · rintro ⟨_, size, same, past⟩
    cases same
    exact absurd past (by simpa [pbOstreamFromBuffer] using room)

end

end Nanopb

end MeshPigeon
