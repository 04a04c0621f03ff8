import MeshPigeon.Core.Wire

/-!
# Envelopes no client of this schema would write

What the decoder makes of fields it does not know, and which fields make it
refuse the whole envelope.
-/
namespace MeshPigeon

namespace Nanopb

open Records

variable {M α : Type}

/-! ## Values a field refuses -/

/-- Whatever is there, this value is not read. -/
def DataType.Refuses (d : DataType α) (p : Value) : Prop :=
  ∀ s rest old, Value.get p.kind s = some (p, rest) → p.kind = d.wireType → d.dec s old = none

def PbField.Refuses (f : PbField M) (p : Value) : Prop :=
  ∀ s rest m, Value.get p.kind s = some (p, rest) → f.decode p.kind s m = none

theorem refuses_form {d : DataType α} {p : Value} (other : p.kind ≠ d.wireType) : d.Refuses p :=
  fun _ _ _ _ form => absurd form other

theorem refuses_uint32 {n : Nat} (large : 2 ^ 32 ≤ n) : uint32.toDataType.Refuses (.varint n) := by
  intro s rest old got _
  obtain ⟨n', same, read⟩ := varint_get got
  cases same
  obtain ⟨_, _, below⟩ := Varint.read_eq_some.mp read
  have word : (UInt64.ofNat n).toNat = n := UInt64.toNat_ofNat_of_lt' below
  show (pbDecodeVarint s).bind _ = none
  rw [pbDecodeVarint_complete read, Option.bind_some]
  refine if_pos fun kept => ?_
  have clamped := congrArg UInt64.toNat kept
  have small := (UInt64.ofNat n).toUInt32.toNat_lt
  rw [UInt32.toNat_toUInt64, word] at clamped
  omega

theorem refuses_string {n : Nat} {bs : List UInt8} (long : n < bs.length) :
    (string n).toDataType.Refuses (.bytes bs) := by
  intro s rest old got _
  obtain ⟨size, stream, read, len, rfl⟩ := string_get got
  show (pbDecodeVarint32 s).bind _ = none
  rw [read, Option.bind_some]
  dsimp only
  rw [dif_neg (by omega), ite_self]

theorem refuses_bytes {n : Nat} {bs : List UInt8} (long : bytesRoom n < bs.length) :
    (bytes n).toDataType.Refuses (.bytes bs) := by
  intro s rest old got _
  obtain ⟨size, stream, read, len, rfl⟩ := string_get got
  show (pbDecodeVarint32 s).bind _ = none
  rw [read, Option.bind_some]
  dsimp only
  rw [if_pos (by omega : size.toNat > bytesRoom n), ite_self]

/-- A message is refused with any of its fields. -/
theorem refuses_message {fields : List (PbField M)} [spec : TableSpec fields] {zero : M}
    {inner : List UInt8} {ps : List Record} (row : parse inner = some ps) {r : Record} (here : r ∈ ps)
    {f : PbField M} (known : fields.find? (fun f => f.tag = r.number) = some f)
    (refused : f.Refuses r.value) : (message fields zero).Refuses (.bytes inner) := by
  intro s rest old got _
  show (pbMakeStringSubstream s).bind _ = none
  rw [pbMakeStringSubstream_complete got, Option.bind_some]
  show (pbDecodeInner fields inner.length inner old).map _ = none
  rw [pbDecodeInner_refuses spec.refines known (refused _ _ _) row here]
  rfl

theorem refuses_basic {d : DataType α} {p : Value} (h : d.Refuses p) {s rest : IStream}
    (got : Value.get p.kind s = some (p, rest)) (old : α) :
    decodeBasicField d p.kind s old = none := by
  unfold decodeBasicField
  split
  · rfl
  · rename_i form
    exact h s rest old got (not_not.mp form)

theorem refuses_singular {d : Scalar α} {p : Value} (h : d.toDataType.Refuses p) {tag : Nat}
    {get : M → α} {set : α → M → M} : (singular d tag get set).Refuses p := by
  intro s rest m got
  show (decodeBasicField _ _ _ _).map _ = none
  rw [refuses_basic h got]
  rfl

theorem refuses_optional {d : DataType α} {p : Value} (h : d.Refuses p) {tag : Nat}
    {get : M → Option α} {set : Option α → M → M} : (optional d tag get set).Refuses p := by
  intro s rest m got
  show (decodeBasicField _ _ _ _).map _ = none
  rw [refuses_basic h got]
  rfl

theorem pbDecode_refuses {fields : List (PbField M)} [spec : TableSpec fields] {zero : M}
    {data : List UInt8} {rs : List Record} (row : parse data = some rs) {r : Record} (here : r ∈ rs)
    {f : PbField M} (known : fields.find? (fun f => f.tag = r.number) = some f)
    (refused : f.Refuses r.value) : pbDecode fields zero data = none :=
  pbDecodeInner_refuses spec.refines known (refused _ _ _) row here data.length zero

end Nanopb

open Nanopb Records

/-! ## Requests the decoder refuses -/

/-- The text fields of the requests: the member's number, the field's in it, and the longest text
the struct has room for. The bytes of a packet have one more than their cap, 256. -/
def textFields : List (Nat × Nat × Nat) := [
  (2, 1, bytesRoom 500), (6, 1, bytesRoom 255), (10, 1, kNameMax), (10, 2, kPinMax),
  (10, 4, kSsidMax), (10, 5, kPassMax), (12, 1, kPinMax)]

/-- A record no request can be read from. -/
inductive Refused : Record → Prop where
  | idForm {p : Records.Value} : p.kind ≠ wtVarint → Refused ⟨1, p⟩
  | idRange {n : Nat} : 2 ^ 32 ≤ n → Refused ⟨1, .varint n⟩
  | memberForm {number : Nat} {p : Records.Value} : 2 ≤ number → number ≤ 15 →
      p.kind ≠ wtString → Refused ⟨number, p⟩
  | textLength {number field cap : Nat} {inner bs : List UInt8} {ps : List Record} :
      (number, field, cap) ∈ textFields → parse inner = some ps → ⟨field, .bytes bs⟩ ∈ ps →
      cap < bs.length → Refused ⟨number, .bytes inner⟩

theorem decodeRequest_refused {data : List UInt8} {rs : List Record} (row : parse data = some rs)
    {r : Record} (here : r ∈ rs) (bad : Refused r) : decodeRequest data = none := by
  suffices none : pbDecode clientToRadioFields {} data = none by rw [decodeRequest, none]; rfl
  cases bad with
  | idForm other => exact pbDecode_refuses row here rfl (refuses_singular (refuses_form other))
  | idRange large => exact pbDecode_refuses row here rfl (refuses_singular (refuses_uint32 large))
  | @memberForm number p low high other =>
    have named : ∀ n < 16, 2 ≤ n →
        (clientToRadioFields.find? fun f => f.tag = n).isSome = true := by decide
    obtain ⟨f, known⟩ := Option.isSome_iff_exists.mp (named number (by omega) low)
    have tag : f.tag = number := by simpa using List.find?_some known
    have mem := List.mem_of_find?_eq_some known
    refine pbDecode_refuses row here known ?_
    simp only [clientToRadioFields, List.mem_cons, List.not_mem_nil, or_false] at mem
    rcases mem with rfl | rfl | rfl | rfl | rfl | rfl | rfl | rfl | rfl | rfl | rfl | rfl | rfl |
      rfl | rfl
    · have one : 1 = number := tag
      omega
    all_goals exact refuses_optional (refuses_form other)
  | textLength field inner text long =>
    simp only [textFields, List.mem_cons, Prod.mk.injEq, List.not_mem_nil, or_false] at field
    rcases field with ⟨rfl, rfl, rfl⟩ | ⟨rfl, rfl, rfl⟩ | ⟨rfl, rfl, rfl⟩ | ⟨rfl, rfl, rfl⟩ |
      ⟨rfl, rfl, rfl⟩ | ⟨rfl, rfl, rfl⟩ | ⟨rfl, rfl, rfl⟩
    · exact pbDecode_refuses row here rfl
        (refuses_optional (refuses_message inner text rfl (refuses_singular (refuses_bytes long))))
    · exact pbDecode_refuses row here rfl
        (refuses_optional (refuses_message inner text rfl (refuses_singular (refuses_bytes long))))
    · exact pbDecode_refuses row here rfl
        (refuses_optional (refuses_message inner text rfl (refuses_optional (refuses_string long))))
    · exact pbDecode_refuses row here rfl
        (refuses_optional (refuses_message inner text rfl (refuses_optional (refuses_string long))))
    · exact pbDecode_refuses row here rfl
        (refuses_optional (refuses_message inner text rfl (refuses_optional (refuses_string long))))
    · exact pbDecode_refuses row here rfl
        (refuses_optional (refuses_message inner text rfl (refuses_optional (refuses_string long))))
    · exact pbDecode_refuses row here rfl
        (refuses_optional (refuses_message inner text rfl (refuses_singular (refuses_string long))))

/-- **A refused envelope is dropped.** Whatever stands around the field, nothing is answered and
nothing changes. -/
theorem refused_dropped {σ : Type} [SettingsStore σ] (s : CommandProcessor σ) (env : Env)
    (sink : Sink) {data : List UInt8} {rs : List Record} (row : parse data = some rs) {r : Record}
    (here : r ∈ rs) (bad : Refused r) :
    s.onEnvelope decodeRequest env data sink = s.quiet := by
  rw [CommandProcessor.onEnvelope, CommandProcessor.decodeEnvelope, decodeRequest_refused row here bad]
  rfl

/-- An Auth with a PIN of nine digits. -/
theorem refused_dropped_pin : CommandProcessor.sampleBoot.onEnvelope decodeRequest
    ⟨none, true, true⟩ (putAll [⟨1, .varint 5⟩,
      ⟨12, .bytes (putAll [⟨1, .bytes (List.replicate 9 0x31)⟩])⟩]) 0 =
    CommandProcessor.sampleBoot.quiet := by
  have inner : parse (putAll [⟨1, .bytes (List.replicate 9 0x31)⟩]) = some [⟨1, .bytes _⟩] :=
    parse_putAll (by decide +kernel)
  exact refused_dropped _ _ _ (parse_putAll (by decide +kernel))
    (List.mem_cons_of_mem _ List.mem_cons_self)
    (.textLength (by decide : (12, 1, kPinMax) ∈ textFields) inner List.mem_cons_self (by decide))

/-! ## Fields the decoder does not know -/

/-- Whether a member's table names a record. -/
def memberKnown (number : Nat) (r : Record) : Bool :=
  match number with
  | 2 => (TableSpec.schema pingFields).known r
  | 5 => (TableSpec.schema setRadioSettingsFields).known r
  | 6 => (TableSpec.schema sendPacketFields).known r
  | 7 => (TableSpec.schema fetchPacketsFields).known r
  | 10 => (TableSpec.schema setDeviceSettingsFields).known r
  | 12 => (TableSpec.schema authFields).known r
  | _ => false

/-- The first record is the second one with unknown fields in its message. -/
inductive Extends : Record → Record → Prop where
  | same (r : Record) : Extends r r
  | member {number : Nat} {inner inner' : List UInt8} {ps : List Record} :
      parse inner' = some ps → parse inner = some (ps.filter (memberKnown number)) →
      Extends ⟨number, .bytes inner'⟩ ⟨number, .bytes inner⟩

theorem apply_member {M N : Type} {fields : List (PbField N)} [spec : TableSpec fields]
    [SoundTable fields] {zero : N} {tag : Nat} {member : M → Option N} {select : N → M → M}
    {inner inner' : List UInt8} {ps : List Record} (row : parse inner' = some ps)
    (kept : parse inner = some (ps.filter spec.schema.known)) (m : M) :
    (FieldSpec.slot (oneof (message fields zero) tag member select)).apply (.bytes inner') m =
      (FieldSpec.slot (oneof (message fields zero) tag member select)).apply (.bytes inner) m := by
  show (Option.bind (parse inner') _).map _ = (Option.bind (parse inner) _).map _
  rw [row, kept, Option.bind_some, Option.bind_some, Schema.interp_known]

theorem step_extends {r r' : Record} (h : Extends r' r) (m : ClientToRadioMessage) :
    (TableSpec.schema clientToRadioFields).step m r' =
      (TableSpec.schema clientToRadioFields).step m r := by
  cases h with
  | same => rfl
  | @member number inner inner' ps row kept =>
    unfold Schema.step
    cases found : (TableSpec.schema clientToRadioFields).find number with
    | none => rfl
    | some μ =>
      have mem := List.mem_of_find?_eq_some found
      have tag : μ.number = number := by simpa using List.find?_some found
      dsimp only
      simp only [clientToRadioFields, schema_cons, schema_nil, List.mem_cons, List.not_mem_nil,
        or_false] at mem
      rcases mem with rfl | rfl | rfl | rfl | rfl | rfl | rfl | rfl | rfl | rfl | rfl | rfl | rfl |
        rfl | rfl
      · rfl
      all_goals
        subst tag
        exact apply_member row kept m

theorem interp_extends {rs rs' : List Record} (h : List.Forall₂ Extends rs' rs)
    (m : ClientToRadioMessage) :
    (TableSpec.schema clientToRadioFields).interp rs' m =
      (TableSpec.schema clientToRadioFields).interp rs m := by
  induction h generalizing m with
  | nil => rfl
  | cons head _ ih =>
    rw [Schema.interp, Schema.interp, List.foldlM_cons, List.foldlM_cons, step_extends head]
    exact congrArg _ (funext ih)

/-- **A newer client is understood.** An envelope that holds the records of a request, with records
of unknown number between them or in its member, is handled as that request. -/
theorem newer_client_understood {σ : Type} [SettingsStore σ] (s : CommandProcessor σ) (env : Env)
    (sink : Sink) {req : ClientToRadio} (valid : req.Valid) {data : List UInt8}
    {rs rs' : List Record}
    (written : (TableSpec.schema clientToRadioFields).records req.message = some rs)
    (row : parse data = some rs')
    (newer : List.Forall₂ Extends
      (rs'.filter (TableSpec.schema clientToRadioFields).known) rs) :
    s.onEnvelope decodeRequest env data sink = s.handleRequest env req sink := by
  have merged := clientToRadio_merge req.message (Request.message_sendable valid.2)
  have reads : (TableSpec.schema clientToRadioFields).interp rs' {} = some req.message.received := by
    rw [← Schema.interp_known, interp_extends newer,
      Schema.interp_records SoundTable.numbered written, merged]
  have decoded : decodeRequest data = some req.received := by
    rw [decodeRequest, pbDecode_complete row reads]
    exact congrArg (fun body => some (ClientToRadio.mk req.id body)) req.body.message_received
  have named : CommandProcessor.decodeEnvelope decodeRequest data = some req.received := by
    rw [CommandProcessor.decodeEnvelope, decoded]
    exact Option.filter_some_pos (decide_eq_true valid.1)
  rw [CommandProcessor.onEnvelope, named]
  exact s.handleRequest_received env req sink

/-- An Auth from a client whose schema has three more fields. -/
theorem newer_client_understood_auth :
    CommandProcessor.sampleBoot.onEnvelope decodeRequest ⟨none, true, true⟩
      (putAll [⟨77, .bytes [1, 2]⟩, ⟨1, .varint 5⟩,
        ⟨12, .bytes (putAll [⟨1, .bytes CommandProcessor.samplePin.str⟩, ⟨9, .varint 300⟩])⟩,
        ⟨20, .word32 [0, 0, 0, 0]⟩]) 0 =
      CommandProcessor.sampleBoot.handleRequest ⟨none, true, true⟩
        ⟨5, .auth CommandProcessor.samplePin⟩ 0 := by
  have valid : ClientToRadio.Valid ⟨5, .auth CommandProcessor.samplePin⟩ := ⟨by decide, trivial⟩
  have member : Extends
      ⟨12, .bytes (putAll [⟨1, .bytes CommandProcessor.samplePin.str⟩, ⟨9, .varint 300⟩])⟩
      ⟨12, .bytes (putAll [⟨1, .bytes CommandProcessor.samplePin.str⟩])⟩ :=
    .member (parse_putAll (by decide +kernel)) (parse_putAll (by decide +kernel))
  exact newer_client_understood _ _ _ valid rfl (parse_putAll (by decide +kernel))
    (.cons (.same _) (.cons member .nil))

end MeshPigeon
