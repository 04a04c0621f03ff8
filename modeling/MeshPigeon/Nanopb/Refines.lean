import MeshPigeon.Lib.Schema
import MeshPigeon.Nanopb.Fields
import MeshPigeon.Nanopb.Varints

/-!
# The codec against the schema of its table

Each data type, field and table is tied to the codec, slot and schema it means.
The instances follow the tables, so the schema of a message is found from its
table alone.

* `pbEncode_eq`: what is written is the message's records, if there is room;
* `pbDecodeInner_complete`: what the schema makes of a row of records, the
  decoder makes of its bytes, whichever way they are padded;
* `pbDecodeInner_refuses`: a record its field refuses is the end of the row.
-/
namespace MeshPigeon.Nanopb

open Records

variable {M α : Type}

/-! ## Data types -/

/-- What is written is the value's form; what the codec takes, the decoder takes; and what the
decoder takes, it takes whole. -/
structure DataType.Refines (d : DataType α) (c : Codec α) : Prop where
  form : d.wireType = c.kind
  enc : ∀ s a, d.enc s a = (c.value a).bind fun p => pbWrite s p.put
  dec : ∀ {s p rest old a}, Value.get c.kind s = some (p, rest) → c.apply p old = some a →
    d.dec s old = some (a, rest)
  whole : ∀ {s p rest old a rest'}, Value.get c.kind s = some (p, rest) →
    d.dec s old = some (a, rest') → rest' = rest

/-- The codec a data type means. -/
class DataSpec (d : DataType α) where
  codec : Codec α
  refines : d.Refines codec

/-- A number's form on the wire. -/
theorem varint_get {s rest : IStream} {p : Value} (h : Value.get 0 s = some (p, rest)) :
    ∃ n, p = .varint n ∧ Varint.read 10 (2 ^ 64) s = some (n, rest) := by
  obtain ⟨found, read, same⟩ := Option.map_eq_some_iff.mp h
  obtain ⟨rfl, rfl⟩ := Prod.mk.inj same
  exact ⟨found.1, rfl, read⟩

theorem pbDecodeVarint_complete {s rest : IStream} {n : Nat}
    (h : Varint.read 10 (2 ^ 64) s = some (n, rest)) :
    pbDecodeVarint s = some (UInt64.ofNat n, rest) := by
  rw [pbDecodeVarint_eq, h]
  rfl

theorem varint_rest {s rest rest' : IStream} {n : Nat} {w : UInt64}
    (read : Varint.read 10 (2 ^ 64) s = some (n, rest)) (taken : pbDecodeVarint s = some (w, rest')) :
    rest' = rest := by
  rw [pbDecodeVarint_complete read] at taken
  exact (Prod.mk.inj (Option.some.inj taken)).2.symm

/-- A number read below a lower bound. -/
theorem read_below {s rest : List UInt8} {width bound bound' n : Nat}
    (h : Varint.read width bound s = some (n, rest)) (below : n < bound') :
    Varint.read width bound' s = some (n, rest) := by
  obtain ⟨found, short, _⟩ := Varint.read_eq_some.mp h
  exact Varint.read_eq_some.mpr ⟨found, short, below⟩

instance : DataSpec bool.toDataType where
  codec := .number 1 (by decide) (fun b => if b then 1 else 0) (fun b => by cases b <;> decide)
    fun n => if n < 2 ^ 32 then some (n ≠ 0) else none
  refines := {
    form := rfl
    enc := by
      intro s a
      show pbEncodeVarint s _ = pbWrite s _
      rw [pbEncodeVarint_eq]
      cases a <;> rfl
    dec := by
      intro s p rest old a got apply
      obtain ⟨n, rfl, read⟩ := varint_get got
      obtain ⟨below, same⟩ := Option.ite_none_right_eq_some.mp apply
      obtain rfl := Option.some.inj same
      have word : (UInt32.ofNat n).toNat = n := UInt32.toNat_ofNat_of_lt' below
      have zero : UInt32.ofNat n = 0 ↔ n = 0 := by
        rw [← UInt32.toNat_inj, word]
        rfl
      show (pbDecodeVarint32 s).map _ = _
      rw [pbDecodeVarint32_complete (read_below read below)]
      simp [zero]
    whole := by
      intro s p rest old a rest' got taken
      obtain ⟨n, _, read⟩ := varint_get got
      obtain ⟨found, short, same⟩ := Option.map_eq_some_iff.mp taken
      obtain ⟨_, rfl⟩ := Prod.mk.inj same
      obtain ⟨_, long, _⟩ := pbDecodeVarint32_sound short
      exact varint_rest read long }

theorem uint32_dec {s rest : IStream} {n : Nat} {old : UInt32}
    (read : Varint.read 10 (2 ^ 64) s = some (n, rest)) (below : n < 2 ^ 32) :
    uint32.dec s old = some (UInt32.ofNat n, rest) := by
  have word : (UInt64.ofNat n).toNat = n :=
    UInt64.toNat_ofNat_of_lt' (Nat.lt_trans below (by decide))
  have whole : (UInt64.ofNat n).toUInt32 = UInt32.ofNat n := by
    apply UInt32.toNat_inj.mp
    rw [UInt64.toNat_toUInt32, word, UInt32.toNat_ofNat_of_lt' below, Nat.mod_eq_of_lt below]
  have back : (UInt32.ofNat n).toUInt64 = UInt64.ofNat n := by
    apply UInt64.toNat_inj.mp
    rw [UInt32.toNat_toUInt64, word, UInt32.toNat_ofNat_of_lt' below]
  show (pbDecodeVarint s).bind _ = _
  rw [pbDecodeVarint_complete read, Option.bind_some]
  dsimp only
  rw [whole, if_neg (not_not_intro back)]

instance : DataSpec uint32.toDataType where
  codec := .number 32 (by decide) UInt32.toNat UInt32.toNat_lt
    fun n => if n < 2 ^ 32 then some (UInt32.ofNat n) else none
  refines := {
    form := rfl
    enc := by
      intro s a
      show pbEncodeVarint s a.toUInt64 = _
      rw [pbEncodeVarint_eq, UInt32.toNat_toUInt64]
      rfl
    dec := by
      intro s p rest old a got apply
      obtain ⟨n, rfl, read⟩ := varint_get got
      obtain ⟨below, same⟩ := Option.ite_none_right_eq_some.mp apply
      obtain rfl := Option.some.inj same
      exact uint32_dec read below
    whole := by
      intro s p rest old a rest' got taken
      obtain ⟨n, _, read⟩ := varint_get got
      obtain ⟨found, long, taken⟩ := Option.bind_eq_some_iff.mp taken
      obtain ⟨_, same⟩ := Option.ite_none_left_eq_some.mp taken
      obtain ⟨_, rfl⟩ := Prod.mk.inj (Option.some.inj same)
      exact varint_rest read long }

instance : DataSpec uint64.toDataType where
  codec := .number 64 (by decide) UInt64.toNat UInt64.toNat_lt
    fun n => if n < 2 ^ 64 then some (UInt64.ofNat n) else none
  refines := {
    form := rfl
    enc := by
      intro s a
      exact pbEncodeVarint_eq s a
    dec := by
      intro s p rest old a got apply
      obtain ⟨n, rfl, read⟩ := varint_get got
      obtain ⟨below, same⟩ := Option.ite_none_right_eq_some.mp apply
      obtain rfl := Option.some.inj same
      exact pbDecodeVarint_complete read
    whole := by
      intro s p rest old a rest' got taken
      obtain ⟨n, _, read⟩ := varint_get got
      exact varint_rest read taken }

instance : DataSpec int32.toDataType where
  codec := .number 64 (by decide) (fun v => v.toInt64.toUInt64.toNat)
    (fun v => v.toInt64.toUInt64.toNat_lt) fun n => some (UInt64.ofNat n).toUInt32.toInt32
  refines := {
    form := rfl
    enc := by
      intro s a
      exact pbEncodeVarint_eq s _
    dec := by
      intro s p rest old a got apply
      obtain ⟨n, rfl, read⟩ := varint_get got
      obtain rfl := Option.some.inj apply
      show (pbDecodeVarint s).map _ = _
      rw [pbDecodeVarint_complete read]
      rfl
    whole := by
      intro s p rest old a rest' got taken
      obtain ⟨n, _, read⟩ := varint_get got
      obtain ⟨found, long, same⟩ := Option.map_eq_some_iff.mp taken
      obtain ⟨_, rfl⟩ := Prod.mk.inj same
      exact varint_rest read long }

/-- A form that holds bytes. -/
theorem bytes_get {s rest : IStream} {p : Value} (h : Value.get 2 s = some (p, rest)) :
    ∃ bs, p = .bytes bs := by
  obtain ⟨size, read, h⟩ := Option.bind_eq_some_iff.mp h
  obtain ⟨found, whole, same⟩ := Option.map_eq_some_iff.mp h
  obtain ⟨rfl, rfl⟩ := Prod.mk.inj same
  exact ⟨found.1, rfl⟩

instance {n : Nat} [small : Fact (n < 2 ^ 15)] : DataSpec (string n).toDataType where
  codec := .text n (Nat.lt_trans small.out (by decide)) CharArray.str
    fun bs old => if fits : bs.length + 1 ≤ n + 1 then some (overwrite old bs fits) else none
  refines := {
    form := rfl
    enc := by
      intro s a
      have short : a.str.length ≤ n := Nat.le_of_lt_succ a.strlen_lt
      have bound := small.out
      show pbEncodeString s a.str = Option.bind (ite _ _ _) _
      rw [if_pos short, Option.bind_some, pbEncodeString_eq s (by omega)]
    dec := by
      intro s p rest old a got apply
      obtain ⟨bs, rfl⟩ := bytes_get got
      obtain ⟨fits, same⟩ := Option.dite_none_right_eq_some.mp apply
      obtain rfl := Option.some.inj same
      obtain ⟨size, stream, read, len, rfl⟩ := string_get got
      have bound := small.out
      have notMax : size ≠ 0xFFFFFFFF := by
        rintro rfl
        have : (0xFFFFFFFF : UInt32).toNat = 4294967295 := rfl
        omega
      have found : pbRead (bs ++ rest) size.toNat = some (bs, rest) :=
        pbRead_eq_some.mpr ⟨len.symm, rfl⟩
      show (pbDecodeVarint32 s).bind _ = _
      rw [read, Option.bind_some]
      dsimp only
      rw [if_neg notMax, dif_pos (by omega)]
      split
      · rename_i missing
        cases found.symm.trans missing
      · rename_i data stream' there
        obtain ⟨rfl, rfl⟩ := Prod.mk.inj (Option.some.inj (found.symm.trans there))
        rfl
    whole := by
      intro s p rest old a rest' got taken
      obtain ⟨bs, rfl⟩ := bytes_get got
      obtain ⟨size, stream, read, len, rfl⟩ := string_get got
      have found : pbRead (bs ++ rest) size.toNat = some (bs, rest) :=
        pbRead_eq_some.mpr ⟨len.symm, rfl⟩
      have taken : (pbDecodeVarint32 s).bind _ = _ := taken
      rw [read, Option.bind_some] at taken
      dsimp only at taken
      obtain ⟨_, taken⟩ := Option.ite_none_left_eq_some.mp taken
      obtain ⟨_, taken⟩ := Option.dite_none_right_eq_some.mp taken
      split at taken
      · cases taken
      · rename_i data stream' there
        obtain ⟨rfl, rfl⟩ := Prod.mk.inj (Option.some.inj (found.symm.trans there))
        exact (Prod.mk.inj (Option.some.inj taken)).2.symm }

instance {n : Nat} [small : Fact (n < 2 ^ 15)] : DataSpec (bytes n).toDataType where
  codec := .text (bytesRoom n) (by have := small.out; unfold bytesRoom; omega) (fun bs => bs)
    fun bs _ => if bs.length ≤ bytesRoom n then some bs else none
  refines := {
    form := rfl
    enc := by
      intro s a
      have bound := small.out
      show (if a.length > bytesRoom n then none else pbEncodeString s a) =
        Option.bind (if a.length ≤ bytesRoom n then some (Value.bytes a) else none) _
      by_cases short : a.length ≤ bytesRoom n
      · rw [if_neg (Nat.not_lt.mpr short), if_pos short, Option.bind_some,
          pbEncodeString_eq s (by unfold bytesRoom at short; omega)]
      · rw [if_pos (Nat.lt_of_not_le short), if_neg short]
        rfl
    dec := by
      intro s p rest old a got apply
      obtain ⟨bs, rfl⟩ := bytes_get got
      obtain ⟨short, same⟩ := Option.ite_none_right_eq_some.mp apply
      obtain rfl := Option.some.inj same
      obtain ⟨size, stream, read, len, rfl⟩ := string_get got
      have bound := small.out
      show (pbDecodeVarint32 s).bind _ = _
      rw [read, Option.bind_some]
      dsimp only
      rw [if_neg (by unfold bytesRoom at short; omega), if_neg (by omega)]
      exact pbRead_eq_some.mpr ⟨len.symm, rfl⟩
    whole := by
      intro s p rest old a rest' got taken
      obtain ⟨bs, rfl⟩ := bytes_get got
      obtain ⟨size, stream, read, len, rfl⟩ := string_get got
      have found : pbRead (bs ++ rest) size.toNat = some (bs, rest) :=
        pbRead_eq_some.mpr ⟨len.symm, rfl⟩
      have taken : (pbDecodeVarint32 s).bind _ = _ := taken
      rw [read, Option.bind_some] at taken
      dsimp only at taken
      obtain ⟨_, taken⟩ := Option.ite_none_left_eq_some.mp taken
      obtain ⟨_, taken⟩ := Option.ite_none_left_eq_some.mp taken
      exact (Prod.mk.inj (Option.some.inj (found.symm.trans taken))).2.symm }

/-! ## Fields -/

/-- The records of one field, written in a row. -/
def putValues (number : Nat) (ps : List Value) : List UInt8 :=
  ps.flatMap fun p => Record.put ⟨number, p⟩

structure PbField.Refines (f : PbField M) (μ : Slot M) : Prop where
  number : f.tag = μ.number
  encode : ∀ s m, μ.number < 2 ^ 29 →
    f.encode s m = (μ.records m).bind fun ps => pbWrite s (putValues μ.number ps)
  decode : ∀ {kind s p rest m m'}, Value.get kind s = some (p, rest) → μ.apply p m = some m' →
    f.decode kind s m = some (m', rest)
  whole : ∀ {kind s p rest m m' rest'}, Value.get kind s = some (p, rest) →
    f.decode kind s m = some (m', rest') → rest' = rest

/-- The slot a field means. -/
class FieldSpec (f : PbField M) where
  slot : Slot M
  refines : f.Refines slot

theorem pbWrite_nil (s : OStream) : pbWrite s [] = some s := by
  rw [pbWrite_eq, if_neg (fun h => absurd h.1 (by simp)), List.append_nil]

theorem encodeBasicField_eq {d : DataType α} {c : Codec α} (h : d.Refines c) {tag : Nat}
    (small : tag < 2 ^ 29) (s : OStream) (a : α) :
    encodeBasicField d tag s a = (c.value a).bind fun p => pbWrite s (Record.put ⟨tag, p⟩) := by
  unfold encodeBasicField
  cases written : c.value a with
  | none =>
    have fails : ∀ s, d.enc s a = none := fun s => by rw [h.enc, written]; rfl
    simp [fails]
  | some p =>
    have kind : p.kind = d.wireType := (c.kind_value written).trans h.form.symm
    have encodes : ∀ s, d.enc s a = pbWrite s p.put := fun s => by rw [h.enc, written]; rfl
    simp only [encodes, Option.bind_some]
    rw [pbEncodeTag_eq s (kind ▸ p.kind_lt) small, pbWrite_append, Record.put, kind]

theorem decodeBasicField_complete {d : DataType α} {c : Codec α} (h : d.Refines c) {kind : Nat}
    {s rest : IStream} {p : Value} {old a : α} (got : Value.get kind s = some (p, rest))
    (apply : c.apply p old = some a) : decodeBasicField d kind s old = some (a, rest) := by
  have form : kind = c.kind := (Value.kind_of_get got).symm.trans (c.kind_apply apply)
  subst form
  rw [decodeBasicField, if_neg (not_not_intro h.form.symm)]
  exact h.dec got apply

theorem decodeBasicField_whole {d : DataType α} {c : Codec α} (h : d.Refines c) {kind : Nat}
    {s rest rest' : IStream} {p : Value} {old a : α} (got : Value.get kind s = some (p, rest))
    (taken : decodeBasicField d kind s old = some (a, rest')) : rest' = rest := by
  obtain ⟨form, taken⟩ := Option.ite_none_left_eq_some.mp taken
  rw [Decidable.not_not] at form
  exact h.whole ((form.trans h.form) ▸ got) taken

instance {d : Scalar α} [spec : DataSpec d.toDataType] {tag : Nat} {get : M → α}
    {set : α → M → M} : FieldSpec (singular d tag get set) where
  slot := .singular spec.codec d.isDefault tag get set
  refines := {
    number := rfl
    encode := by
      intro s m small
      show ite _ _ _ = Option.bind (ite _ _ _) _
      split
      · exact (pbWrite_nil s).symm
      · have number : tag < 2 ^ 29 := small
        rw [encodeBasicField_eq spec.refines number, Option.bind_map]
        simp only [Function.comp_def, putValues, List.flatMap_singleton]
        rfl
    decode := by
      intro kind s p rest m m' got apply
      obtain ⟨a, applied, rfl⟩ := Option.map_eq_some_iff.mp apply
      show (decodeBasicField _ _ _ _).map _ = _
      rw [decodeBasicField_complete spec.refines got applied]
      rfl
    whole := by
      intro kind s p rest m m' rest' got taken
      obtain ⟨found, basic, same⟩ := Option.map_eq_some_iff.mp taken
      obtain ⟨_, rfl⟩ := Prod.mk.inj same
      exact decodeBasicField_whole spec.refines got basic }

instance {d : DataType α} [spec : DataSpec d] {tag : Nat} {get : M → Option α}
    {set : Option α → M → M} : FieldSpec (optional d tag get set) where
  slot := .present spec.codec d.zero tag get fun a => set (some a)
  refines := {
    number := rfl
    encode := by
      intro s m small
      show (match get m with | none => some s | some value => _) = Option.bind ((get m).elim _ _) _
      cases get m with
      | none => exact (pbWrite_nil s).symm
      | some a =>
        show encodeBasicField d tag s a = Option.bind (Option.map _ _) _
        have number : tag < 2 ^ 29 := small
        rw [encodeBasicField_eq spec.refines number, Option.bind_map]
        simp only [Function.comp_def, putValues, List.flatMap_singleton]
        rfl
    decode := by
      intro kind s p rest m m' got apply
      obtain ⟨a, applied, rfl⟩ := Option.map_eq_some_iff.mp apply
      show (decodeBasicField _ _ _ _).map _ = _
      rw [decodeBasicField_complete spec.refines got applied]
      rfl
    whole := by
      intro kind s p rest m m' rest' got taken
      obtain ⟨found, basic, same⟩ := Option.map_eq_some_iff.mp taken
      obtain ⟨_, rfl⟩ := Prod.mk.inj same
      exact decodeBasicField_whole spec.refines got basic }

instance {d : DataType α} [spec : DataSpec d] {tag : Nat} {member : M → Option α}
    {select : α → M → M} : FieldSpec (oneof d tag member select) :=
  inferInstanceAs (FieldSpec (optional d tag member fun a m => a.elim m fun a => select a m))

/-! ## Arrays -/

theorem encodeEach_eq (s : OStream) (values : List UInt32) :
    encodeEach s values = pbWrite s ((values.map UInt32.toNat).flatMap Varint.put) := by
  induction values generalizing s with
  | nil => exact (pbWrite_nil s).symm
  | cons v values ih =>
    have first : uint32.enc s v = pbWrite s (Varint.put v.toNat) := by
      show pbEncodeVarint s v.toUInt64 = _
      rw [pbEncodeVarint_eq, UInt32.toNat_toUInt64]
    show (uint32.enc s v).bind (fun s => encodeEach s values) = _
    simp only [first, ih]
    rw [pbWrite_append, List.map_cons, List.flatMap_cons]

theorem pbWrite_sizing (buf : List UInt8) :
    pbWrite OStream.sizing buf = some { maxSize := none, written := buf } := by
  rw [pbWrite_eq, if_neg]
  · rfl
  · rintro ⟨_, size, limit, _⟩
    cases limit

/-- The numbers of an array that can be sent. -/
def arrayElements (arraySize : Nat) (array : List UInt32 × Nat) : Option (List Nat) :=
  if array.2 > arraySize then none else some ((array.1.take array.2).map UInt32.toNat)

/-- One more number at the end of an array. -/
def arrayPush (arraySize n : Nat) (array : List UInt32 × Nat) : Option (List UInt32 × Nat) :=
  if n < 2 ^ 32 ∧ array.2 < arraySize then
    some (array.1.set array.2 (UInt32.ofNat n), array.2 + 1)
  else none

theorem arrayElements_short {arraySize : Nat} {array : List UInt32 × Nat} {ns : List Nat}
    (h : arrayElements arraySize array = some ns) :
    ns.length ≤ arraySize ∧ ∀ n ∈ ns, n < 2 ^ 32 := by
  obtain ⟨few, same⟩ := Option.ite_none_left_eq_some.mp h
  cases same
  refine ⟨?_, fun n hn => ?_⟩
  · rw [List.length_map, List.length_take]
    omega
  · obtain ⟨v, _, rfl⟩ := List.mem_map.mp hn
    exact v.toNat_lt

theorem decodePacked_complete {arraySize n : Nat} {s : IStream} {ns : List Nat}
    {array array' : List UInt32 × Nat} (fuel : s.length ≤ n) (row : numbers s = some ns)
    (pushed : ns.foldlM (fun b n => arrayPush arraySize n b) array = some array') :
    decodePacked arraySize n s array = some array' := by
  induction n generalizing s ns array with
  | zero =>
    obtain rfl := List.length_eq_zero_iff.mp (Nat.le_zero.mp fuel)
    rw [numbers, if_pos rfl] at row
    cases row
    exact pushed
  | succ n ih =>
    cases s with
    | nil =>
      rw [numbers, if_pos rfl] at row
      cases row
      exact pushed
    | cons b s =>
      obtain ⟨v, rest, tail, read, others, rfl⟩ := numbers_split (List.cons_ne_nil b s) row
      obtain ⟨next, one, more⟩ := Option.bind_eq_some_iff.mp pushed
      obtain ⟨⟨below, room⟩, same⟩ := Option.ite_none_right_eq_some.mp one
      obtain rfl := Option.some.inj same
      have shorter := Varint.length_of_read read
      rw [List.length_cons] at shorter fuel
      have turn : decodePacked arraySize (n + 1) (b :: s) array =
          decodePacked arraySize n rest (array.1.set array.2 (UInt32.ofNat v), array.2 + 1) := by
        show (if array.2 < arraySize then _ else _) = _
        rw [if_pos room, uint32_dec read below]
        rfl
      rw [turn]
      exact ih (by omega) others more

/-- A packed array is written as one record of bytes, on a sizing stream too. -/
theorem encodePacked_eq {tag : Nat} (number : tag < 2 ^ 29) {values : List UInt32}
    (few : values.length < 2 ^ 16) (s : OStream) :
    ((pbEncodeTag s wtString tag).bind fun stream =>
      (encodeEach OStream.sizing values).bind fun sized =>
        (pbEncodeVarint stream (UInt64.ofNat sized.written.length)).bind fun stream =>
          match stream.maxSize with
          | none => pbWrite stream sized.written
          | some _ => encodeEach stream values) =
      pbWrite s (Record.put ⟨tag, .bytes ((values.map UInt32.toNat).flatMap Varint.put)⟩) := by
  have kind : wtString < 8 := by decide
  have len : ((values.map UInt32.toNat).flatMap Varint.put).length ≤ 2 ^ 16 * 5 := by
    rw [← Varint.width_word]
    refine length_row (by rw [List.length_map]; omega) fun n hn => ?_
    obtain ⟨v, _, rfl⟩ := List.mem_map.mp hn
    exact v.toNat_lt
  generalize row : (values.map UInt32.toNat).flatMap Varint.put = bs at len
  have sized : encodeEach OStream.sizing values = some { maxSize := none, written := bs } := by
    rw [encodeEach_eq, row, pbWrite_sizing]
  have word : (UInt64.ofNat bs.length).toNat = bs.length :=
    UInt64.toNat_ofNat_of_lt' (Nat.lt_of_le_of_lt len (by decide))
  have body : ∀ stream : OStream, (match stream.maxSize with
      | none => pbWrite stream bs
      | some _ => encodeEach stream values) = pbWrite stream bs := by
    intro stream
    cases stream.maxSize with
    | none => rfl
    | some size => rw [encodeEach_eq, row]
  simp only [sized, Option.bind_some, pbEncodeTag_eq _ kind number, pbEncodeVarint_eq, word, body]
  simp only [pbWrite_append]
  rfl

instance {arraySize : Nat} [small : Fact (arraySize < 2 ^ 16)] {tag : Nat}
    {get : M → List UInt32 × Nat} {set : List UInt32 × Nat → M → M} :
    FieldSpec (repeated arraySize tag get set) where
  slot := .repeated arraySize 32
    (by
      have := small.out
      rw [Varint.width_word]
      omega)
    tag (fun array => array.2 = 0) (arrayElements arraySize) arrayElements_short
    (arrayPush arraySize) get set
  refines := {
    number := rfl
    encode := by
      intro s m range
      have number : tag < 2 ^ 29 := range
      have bound := small.out
      show (repeated arraySize tag get set).encode s m =
        Option.bind (if (decide ((get m).2 = 0)) = true then some []
          else (arrayElements arraySize (get m)).map fun ns =>
            [Value.bytes (ns.flatMap Varint.put)]) _
      unfold repeated arrayElements
      dsimp only
      obtain ⟨values, count⟩ := get m
      dsimp only
      by_cases zero : count = 0
      · rw [if_pos zero, if_pos (decide_eq_true zero)]
        exact (pbWrite_nil s).symm
      have nonempty : ¬decide (count = 0) = true := mt of_decide_eq_true zero
      rw [if_neg zero, if_neg nonempty]
      by_cases full : count > arraySize
      · rw [if_pos full, if_pos full]
        rfl
      rw [if_neg full, if_neg full]
      have few : (values.take count).length < 2 ^ 16 := by
        rw [List.length_take]
        omega
      refine (encodePacked_eq number few s).trans ?_
      simp only [Option.map_some, Option.bind_some, putValues, List.flatMap_singleton]
      rfl
    decode := by
      intro kind s p rest m m' got apply
      have form := Value.kind_of_get got
      cases p with
      | bytes bs =>
        subst form
        obtain ⟨ns, row, pushed⟩ := Option.bind_eq_some_iff.mp apply
        obtain ⟨array, all, rfl⟩ := Option.map_eq_some_iff.mp pushed
        show (pbMakeStringSubstream s).bind _ = _
        rw [pbMakeStringSubstream_complete got, Option.bind_some]
        show (decodePacked arraySize bs.length bs (get m)).map _ = _
        rw [decodePacked_complete (Nat.le_refl _) row all]
        rfl
      | varint n =>
        subst form
        obtain ⟨array, one, rfl⟩ := Option.map_eq_some_iff.mp apply
        obtain ⟨⟨below, room⟩, same⟩ := Option.ite_none_right_eq_some.mp one
        obtain rfl := Option.some.inj same
        obtain ⟨n', same, read⟩ := varint_get got
        cases same
        show (if (get m).2 ≥ arraySize then none
          else (uint32.dec s 0).map fun found =>
            (set ((get m).1.set (get m).2 found.1, (get m).2 + 1) m, found.2)) = _
        rw [if_neg (Nat.not_le.mpr room), uint32_dec read below]
        rfl
      | word64 bs => cases apply
      | word32 bs => cases apply
    whole := by
      intro kind s p rest m m' rest' got taken
      have form := Value.kind_of_get got
      simp only [repeated] at taken
      split at taken
      · rename_i packed
        subst packed
        obtain ⟨bs, rfl⟩ := bytes_get got
        rw [pbMakeStringSubstream_complete got, Option.bind_some] at taken
        obtain ⟨array, _, same⟩ := Option.map_eq_some_iff.mp taken
        exact (Prod.mk.inj same).2.symm
      · obtain ⟨_, single⟩ := Option.ite_none_left_eq_some.mp taken
        obtain ⟨found, basic, same⟩ := Option.map_eq_some_iff.mp single
        obtain ⟨_, rfl⟩ := Prod.mk.inj same
        exact decodeBasicField_whole DataSpec.refines got basic }

/-! ## Tables -/

/-- The schema a table means. -/
class TableSpec (fields : List (PbField M)) where
  schema : Schema M
  refines : List.Forall₂ PbField.Refines fields schema

instance : TableSpec ([] : List (PbField M)) := ⟨[], .nil⟩

instance {f : PbField M} {fields : List (PbField M)} [spec : FieldSpec f] [specs : TableSpec fields] :
    TableSpec (f :: fields) := ⟨spec.slot :: specs.schema, .cons spec.refines specs.refines⟩

/-- A table whose numbers are distinct and can be sent, for messages that can be. -/
class SoundTable (fields : List (PbField M)) [spec : TableSpec fields] : Prop where
  numbered : spec.schema.Numbered
  small : spec.schema.size < 2 ^ 32

theorem pbEncode_eq {fields : List (PbField M)} {σ : Schema M}
    (refines : List.Forall₂ PbField.Refines fields σ)
    (range : ∀ n ∈ σ.map Slot.number, n < 2 ^ 29) (s : OStream) (m : M) :
    pbEncode fields s m = (σ.records m).bind fun rs => pbWrite s (putAll rs) := by
  induction refines generalizing s with
  | nil => exact (pbWrite_nil s).symm
  | @cons f μ fields σ field _ ih =>
    have number := range μ.number List.mem_cons_self
    have rest := fun s => ih (fun n hn => range n (List.mem_cons_of_mem _ hn)) s
    show (f.encode s m).bind (fun s => pbEncode fields s m) =
      ((μ.records m).bind fun ps => (Schema.records σ m).map fun rs => _).bind _
    rw [field.encode s m number]
    simp only [rest]
    cases μ.records m with
    | none => rfl
    | some ps =>
      simp only [Option.bind_some]
      cases Schema.records σ m with
      | none => simp
      | some rs =>
        simp only [Option.bind_some, Option.map_some]
        have shape : putAll (ps.map (Record.mk μ.number) ++ rs) =
            putValues μ.number ps ++ putAll rs := by
          rw [putAll, List.flatMap_append, List.flatMap_map]
          rfl
        rw [shape, pbWrite_append]

theorem find_refines {fields : List (PbField M)} {σ : Schema M}
    (refines : List.Forall₂ PbField.Refines fields σ) (tag : Nat) :
    (fields.find? (fun f => f.tag = tag) = none ∧ σ.find tag = none) ∨
      ∃ f μ, fields.find? (fun f => f.tag = tag) = some f ∧ σ.find tag = some μ ∧ f.Refines μ := by
  induction refines with
  | nil => exact .inl ⟨rfl, rfl⟩
  | @cons f μ fields σ field _ ih =>
    by_cases here : f.tag = tag
    · have number : μ.number = tag := field.number ▸ here
      exact .inr ⟨f, μ, by simp [here], by simp [Schema.find, number], field⟩
    · have number : ¬μ.number = tag := field.number ▸ here
      simpa [Schema.find, here, number] using ih

theorem record_get {s rest : IStream} {r : Record} (h : Record.get s = some (r, rest)) :
    ∃ stream, pbDecodeTag s = some ((r.number, r.value.kind), stream) ∧ r.number ≠ 0 ∧
      Value.get r.value.kind stream = some (r.value, rest) := by
  obtain ⟨tag, read, h⟩ := Option.bind_eq_some_iff.mp h
  obtain ⟨numbered, h⟩ := Option.ite_none_left_eq_some.mp h
  obtain ⟨value, got, same⟩ := Option.map_eq_some_iff.mp h
  obtain ⟨rfl, rfl⟩ := Prod.mk.inj same
  have form := Value.kind_of_get got
  refine ⟨tag.2, ?_, numbered, ?_⟩
  · rw [pbDecodeTag_complete read, form]
  · rw [form]
    exact got

theorem pbDecodeInner_succ (fields : List (PbField M)) (n : Nat) {s : IStream} (nonempty : s ≠ [])
    (m : M) :
    pbDecodeInner fields (n + 1) s m = (pbDecodeTag s).bind fun ((tag, wireType), stream) =>
      if tag = 0 then none
      else
        match fields.find? fun f => f.tag = tag with
        | none => (pbSkipField stream wireType).bind fun stream => pbDecodeInner fields n stream m
        | some f => (f.decode wireType stream m).bind fun (m, stream) =>
            pbDecodeInner fields n stream m := by
  cases s with
  | nil => exact absurd rfl nonempty
  | cons b s => rfl

/-- What the schema makes of a row of records, the decoder makes of its bytes. -/
theorem pbDecodeInner_complete {fields : List (PbField M)} {σ : Schema M}
    (refines : List.Forall₂ PbField.Refines fields σ) {s : IStream} {rs : List Record}
    (row : parse s = some rs) {n : Nat} (fuel : s.length ≤ n) {m m' : M}
    (reads : σ.interp rs m = some m') : pbDecodeInner fields n s m = some m' := by
  refine parse_induction (motive := fun s rs => ∀ n m, s.length ≤ n → σ.interp rs m = some m' →
    pbDecodeInner fields n s m = some m') ?_ ?_ row n m fuel reads
  · intro n m _ reads
    cases reads
    cases n <;> rfl
  · intro s rest r rs found _ ih n m fuel reads
    have shorter := Record.length_of_get found
    obtain ⟨stream, tag, numbered, got⟩ := record_get found
    obtain ⟨next, one, more⟩ := Option.bind_eq_some_iff.mp reads
    obtain ⟨n, rfl⟩ : ∃ k, n = k + 1 := ⟨n - 1, by omega⟩
    have nonempty : s ≠ [] := by
      rintro rfl
      cases found
    rw [pbDecodeInner_succ fields n nonempty, tag, Option.bind_some]
    dsimp only
    rw [if_neg numbered]
    rcases find_refines refines r.number with ⟨unknown, skips⟩ | ⟨f, μ, known, slot, field⟩
    · have same : m = next := by simpa [Schema.step, skips] using one
      subst same
      rw [unknown]
      dsimp only
      rw [pbSkipField_complete got, Option.bind_some]
      exact ih n m (by omega) more
    · have applied : μ.apply r.value m = some next := by simpa [Schema.step, slot] using one
      rw [known]
      dsimp only
      rw [field.decode got applied, Option.bind_some]
      exact ih n next (by omega) more

/-- A record no message can take refuses every row it stands in. -/
theorem pbDecodeInner_refuses {fields : List (PbField M)} {σ : Schema M}
    (refines : List.Forall₂ PbField.Refines fields σ) {r : Record} {f : PbField M}
    (known : fields.find? (fun f => f.tag = r.number) = some f)
    (refused : ∀ {s rest m}, Value.get r.value.kind s = some (r.value, rest) →
      f.decode r.value.kind s m = none)
    {s : IStream} {rs : List Record} (row : parse s = some rs) (here : r ∈ rs) (n : Nat) (m : M) :
    pbDecodeInner fields n s m = none := by
  refine parse_induction (motive := fun s rs => r ∈ rs → ∀ n m, pbDecodeInner fields n s m = none)
    ?_ ?_ row here n m
  · exact fun absurd => by cases absurd
  · intro s rest r' rs found _ ih here n m
    obtain ⟨stream, tag, numbered, got⟩ := record_get found
    have nonempty : s ≠ [] := by
      rintro rfl
      cases found
    cases n with
    | zero =>
      cases s with
      | nil => exact absurd rfl nonempty
      | cons b s => rfl
    | succ n =>
      rw [pbDecodeInner_succ fields n nonempty, tag, Option.bind_some]
      dsimp only
      rw [if_neg numbered]
      by_cases same : r' = r
      · subst same
        rw [known]
        dsimp only
        rw [refused got]
        rfl
      have later : r ∈ rs := (List.mem_cons.mp here).resolve_left (Ne.symm same)
      rcases find_refines refines r'.number with ⟨unknown, _⟩ | ⟨g, μ, other, _, field⟩
      · rw [unknown]
        dsimp only
        rw [pbSkipField_complete got, Option.bind_some]
        exact ih later n m
      · rw [other]
        dsimp only
        cases taken : g.decode r'.value.kind stream m with
        | none => rfl
        | some next =>
          obtain ⟨next, rest'⟩ := next
          obtain rfl := field.whole got taken
          rw [Option.bind_some]
          exact ih later n next

/-! ## Messages as values -/

theorem pbWrite_inside {s s' : OStream} {buf : List UInt8} (positive : 0 < buf.length)
    (h : pbWrite s buf = some s') {size : Nat} (limit : s'.maxSize = some size) :
    s'.written.length ≤ size := by
  rw [pbWrite_eq] at h
  obtain ⟨room, same⟩ := Option.ite_none_left_eq_some.mp h
  cases same
  rw [List.length_append]
  exact Nat.not_lt.mp fun past => room ⟨positive, size, limit, past⟩

/-- The two passes write the message behind its length, or find no room for both. -/
theorem pbEncodeSubmessage_eq {fields : List (PbField M)} {σ : Schema M}
    (refines : List.Forall₂ PbField.Refines fields σ)
    (range : ∀ n ∈ σ.map Slot.number, n < 2 ^ 29) (small : σ.size < 2 ^ 32) (s : OStream) (m : M) :
    pbEncodeSubmessage fields s m =
      (σ.records m).bind fun rs => pbWrite s (Value.put (.bytes (putAll rs))) := by
  unfold pbEncodeSubmessage
  have encode := fun s => pbEncode_eq refines range s m
  cases written : σ.records m with
  | none => simp [encode, written]
  | some rs =>
    simp only [written, Option.bind_some] at encode
    have len := Nat.lt_of_le_of_lt (Schema.length_records_le written) small
    rw [Option.bind_some]
    generalize putAll rs = bs at encode len ⊢
    have word : (UInt64.ofNat bs.length).toNat = bs.length :=
      UInt64.toNat_ofNat_of_lt' (Nat.lt_trans len (by decide))
    have second : pbEncode fields { maxSize := some bs.length, written := [] } m =
        some { maxSize := some bs.length, written := bs } := by
      rw [encode, pbWrite_eq, if_neg]
      · rfl
      · rintro ⟨_, size, limit, past⟩
        cases limit
        simp at past
    rw [encode, pbWrite_sizing, Option.bind_some]
    dsimp only
    rw [pbEncodeVarint_eq, word, Value.put, ← pbWrite_append]
    cases head : pbWrite s (Varint.put bs.length) with
    | none => rfl
    | some stream =>
      -- the length took a byte at least, so what is written so far is inside the limit
      have inside : ∀ {size}, stream.maxSize = some size → stream.written.length ≤ size :=
        pbWrite_inside (Varint.length_put_pos bs.length) head
      show (match stream.maxSize with | none => pbWrite stream bs | some maxSize => _) = _
      rw [Option.bind_some, pbWrite_eq]
      split
      · rfl
      · rename_i maxSize limit
        have written_le := inside limit
        by_cases past : stream.written.length + bs.length > maxSize
        · rw [if_pos past, if_pos ⟨by omega, maxSize, limit, past⟩]
        · rw [if_neg past, second, Option.bind_some, if_neg (by simp), if_neg]
          rintro ⟨_, size, same, full⟩
          cases limit.symm.trans same
          exact past full

instance {fields : List (PbField M)} [spec : TableSpec fields] [sound : SoundTable fields]
    {zero : M} : DataSpec (message fields zero) where
  codec := spec.schema.codec sound.small
  refines := {
    form := rfl
    enc := by
      intro s a
      show pbEncodeSubmessage fields s a =
        ((spec.schema.records a).map fun rs => Value.bytes (putAll rs)).bind fun p =>
          pbWrite s p.put
      rw [pbEncodeSubmessage_eq spec.refines (fun n hn => (sound.numbered.2 n hn).2) sound.small,
        Option.bind_map]
      rfl
    dec := by
      intro s p rest old a got apply
      obtain ⟨bs, rfl⟩ := bytes_get got
      obtain ⟨rs, row, reads⟩ := Option.bind_eq_some_iff.mp apply
      show (pbMakeStringSubstream s).bind _ = _
      rw [pbMakeStringSubstream_complete got, Option.bind_some]
      show (pbDecodeInner fields bs.length bs old).map _ = _
      rw [pbDecodeInner_complete spec.refines row (Nat.le_refl _) reads]
      rfl
    whole := by
      intro s p rest old a rest' got taken
      obtain ⟨bs, rfl⟩ := bytes_get got
      have taken : (pbMakeStringSubstream s).bind _ = _ := taken
      rw [pbMakeStringSubstream_complete got, Option.bind_some] at taken
      obtain ⟨m, _, same⟩ := Option.map_eq_some_iff.mp taken
      exact (Prod.mk.inj same).2.symm }

end MeshPigeon.Nanopb
