import MeshPigeon.Framing.Codec

/-!
# The frame reader against its batch specification

Cut the stream at its delimiters; each segment stands alone.
-/
namespace MeshPigeon.FrameReader

/-- What a frame's decoded bytes carry: everything before a correct trailer. -/
def unframe (d : List UInt8) : Option (List UInt8) :=
  let e := d.take (d.length - 2)
  if 3 ≤ d.length ∧ d.length ≤ 514 ∧ d.drop (d.length - 2) = trailer e then some e else none

/-- The envelope of one delimited segment. -/
def accept (segment : List UInt8) : Option (List UInt8) :=
  if 1 ≤ segment.length ∧ segment.length ≤ 518 then (Cobs.decode segment).bind unframe else none

/-- The segments that a delimiter ends. -/
def segments (stream : List UInt8) : List (List UInt8) := (stream.splitOn 0).dropLast

def Fed.received : Fed → Option (List UInt8)
  | .envelope payload => some payload
  | _ => Option.none

def feedAll (r : FrameReader) (stream : List UInt8) : FrameReader :=
  stream.foldl (fun r b => (r.feed b).1) r

/-- The envelopes returned while a stream is fed. -/
def envelopes (r : FrameReader) : List UInt8 → List (List UInt8)
  | [] => []
  | b :: stream => (r.feed b).2.received.toList ++ envelopes (r.feed b).1 stream

/-- Since the last delimiter the reader was fed `segment`. -/
structure Pending (r : FrameReader) (segment : List UInt8) : Prop where
  kept : r.wire = segment.take frameMaxWire
  overflow : r.overflow = decide (frameMaxWire < segment.length)
  clean : 0 ∉ segment

theorem pending_reset : Pending reset [] := ⟨rfl, rfl, by simp⟩

theorem Pending.feed_byte {r : FrameReader} {segment : List UInt8} (h : Pending r segment)
    {b : UInt8} (hb : b ≠ 0) :
    Pending (r.feed b).1 (segment ++ [b]) ∧ (r.feed b).2 = .none := by
  have clean : 0 ∉ segment ++ [b] := by
    simp only [List.mem_append, List.mem_singleton, not_or]
    exact ⟨h.clean, fun zero => hb zero.symm⟩
  have kept := h.kept
  have overflow := h.overflow
  unfold feed
  rw [if_neg hb]
  split
  · rename_i full
    rw [kept, List.length_take] at full
    refine ⟨⟨?_, ?_, clean⟩, rfl⟩
    · rw [kept, List.take_append_of_le_length (by omega)]
    · simp
      omega
  · rename_i room
    rw [kept, List.length_take] at room
    have short : segment.length < frameMaxWire := by omega
    refine ⟨⟨?_, ?_, clean⟩, rfl⟩
    · show r.wire ++ [b] = _
      rw [List.take_of_length_le (by simp; omega), kept, List.take_of_length_le (by omega)]
    · show r.overflow = _
      rw [overflow]
      simp
      omega

/-- The check at the end of a frame accepts what the specification accepts. -/
theorem unframe_eq (d : List UInt8) (long : 2 ≤ d.length) (cap : d.length ≤ frameMaxDecoded) :
    (if frameCrc d ≠
        (d.getD (d.length - 2) 0).toUInt16 ||| ((d.getD (d.length - 1) 0).toUInt16 <<< 8) then
      Fed.unusable
    else .ofPayload (d.take (d.length - 2))).received = unframe d := by
  obtain ⟨body, lo, hi, rfl⟩ := split_last_two long
  have front : (body ++ [lo, hi]).take ((body ++ [lo, hi]).length - 2) = body := by simp
  have back : (body ++ [lo, hi]).drop ((body ++ [lo, hi]).length - 2) = [lo, hi] := by simp
  simp only [unframe, front, back, ne_eq, frameCrc_check body lo hi]
  by_cases crc : [lo, hi] = trailer body
  · rw [if_neg (not_not_intro crc)]
    by_cases empty : body = []
    · simp [Fed.ofPayload, Fed.received, empty]
    · have nonempty := List.length_pos_iff.mpr empty
      rw [Fed.ofPayload, if_neg empty, if_pos ⟨by simp; omega, cap, crc⟩]
      rfl
  · rw [if_pos crc, if_neg (fun h => crc h.2.2)]
    rfl

theorem unframe_short {d : List UInt8} (h : d.length < 3) : unframe d = none := by
  rw [unframe, if_neg (fun all => by omega)]

theorem unframe_long {d : List UInt8} (h : frameMaxDecoded < d.length) : unframe d = none := by
  rw [unframe, if_neg (fun all => Nat.not_lt.mpr all.2.1 h)]

theorem Pending.feed_delimiter {r : FrameReader} {segment : List UInt8} (h : Pending r segment) :
    (r.feed 0).1 = reset ∧ (r.feed 0).2.received = accept segment := by
  have kept := h.kept
  unfold feed accept
  rw [if_pos rfl, h.overflow]
  by_cases out : frameMaxWire < segment.length
  · rw [if_pos (Or.inl (decide_eq_true out)), if_neg (fun both => Nat.not_lt.mpr both.2 out)]
    exact ⟨rfl, rfl⟩
  rw [List.take_of_length_le (Nat.not_lt.mp out)] at kept
  by_cases empty : segment.length = 0
  · rw [if_pos (Or.inr (by rw [kept, empty])), if_neg (fun both => by omega)]
    exact ⟨rfl, rfl⟩
  have open' : ¬(decide (frameMaxWire < segment.length) = true ∨ r.wire.length = 0) := by
    rw [kept]
    simp [out, empty]
  have inside : 1 ≤ segment.length ∧ segment.length ≤ 518 :=
    ⟨Nat.pos_of_ne_zero empty, Nat.not_lt.mp out⟩
  simp only [if_neg open', if_pos inside]
  rw [kept, cobsDecode_eq]
  cases Cobs.decode segment with
  | none => exact ⟨rfl, rfl⟩
  | some d =>
    simp only [Option.bind_some]
    by_cases cap : d.length ≤ frameMaxDecoded
    · rw [if_pos cap]
      by_cases short : d.length < 2
      · rw [if_pos short, unframe_short (by omega)]
        exact ⟨rfl, rfl⟩
      · rw [if_neg short, ← unframe_eq d (by omega) cap]
        split <;> exact ⟨rfl, rfl⟩
    · rw [if_neg cap, unframe_long (Nat.not_le.mp cap)]
      exact ⟨rfl, rfl⟩

theorem segments_clean {segment : List UInt8} (clean : 0 ∉ segment) : segments segment = [] := by
  rw [segments, List.splitOn_eq_singleton clean]
  rfl

theorem segments_delimited {segment : List UInt8} (clean : 0 ∉ segment) (stream : List UInt8) :
    segments (segment ++ 0 :: stream) = segment :: segments stream := by
  rw [segments, List.splitOn_append_cons_self_of_not_mem clean,
    List.dropLast_cons_of_ne_nil (List.splitOn_ne_nil _ _)]
  rfl

theorem envelopes_pending {r : FrameReader} {segment : List UInt8} (h : Pending r segment)
    (stream : List UInt8) :
    envelopes r stream = (segments (segment ++ stream)).filterMap accept := by
  induction stream generalizing r segment with
  | nil =>
    rw [List.append_nil, segments_clean h.clean]
    rfl
  | cons b stream ih =>
    by_cases hb : b = 0
    · subst hb
      obtain ⟨state, result⟩ := h.feed_delimiter
      rw [envelopes, state, result, ih pending_reset, segments_delimited h.clean]
      cases ha : accept segment <;> simp [ha]
    · obtain ⟨pending, result⟩ := h.feed_byte hb
      rw [envelopes, result, ih pending, List.append_assoc]
      rfl

/-- Feeding one byte keeps the reader at some pending segment. -/
theorem pending_feedAll {r : FrameReader} {segment : List UInt8} (h : Pending r segment)
    (p : List UInt8) : ∃ segment, Pending (feedAll r p) segment := by
  induction p generalizing r segment with
  | nil => exact ⟨segment, h⟩
  | cons b p ih =>
    by_cases hb : b = 0
    · subst hb
      rw [feedAll, List.foldl_cons, h.feed_delimiter.1]
      exact ih pending_reset
    · exact ih (h.feed_byte hb).1

theorem feedAll_append (r : FrameReader) (a b : List UInt8) :
    feedAll r (a ++ b) = feedAll (feedAll r a) b := List.foldl_append

theorem Pending.feed_clean {r : FrameReader} {segment : List UInt8} (h : Pending r segment)
    {more : List UInt8} (clean : 0 ∉ more) : Pending (feedAll r more) (segment ++ more) := by
  induction more generalizing r segment with
  | nil =>
    rw [List.append_nil]
    exact h
  | cons b more ih =>
    simp only [List.mem_cons, not_or] at clean
    have := ih (h.feed_byte (Ne.symm clean.1)).1 clean.2
    rw [List.append_assoc] at this
    exact this

/-- A frame's body is accepted as the envelope it was built from. -/
theorem accept_encode {e : List UInt8} (nonempty : 1 ≤ e.length) (fits : e.length ≤ 512) :
    accept (Cobs.encode (e ++ trailer e)) = some e := by
  have two : (trailer e).length = 2 := LittleEndian.length_put 2 _
  have bound := Cobs.length_encode_le (e ++ trailer e)
  have front : (e ++ trailer e).take ((e ++ trailer e).length - 2) = e := by simp [two]
  have back : (e ++ trailer e).drop ((e ++ trailer e).length - 2) = trailer e := by simp [two]
  have positive := List.length_pos_iff.mpr (Cobs.encode_ne_nil (e ++ trailer e))
  rw [List.length_append, two] at bound
  rw [accept, if_pos ⟨positive, by omega⟩, Cobs.decode_encode, Option.bind_some, unframe, front,
    back, if_pos ⟨by simp [two]; omega, by simp [two]; omega, rfl⟩]

/-- The streaming reader is the batch specification, and one delimiter makes it
read the next frame whatever came before. -/
theorem frame_reader_eq_batch :
    (∀ stream, envelopes new stream = (segments stream).filterMap accept) ∧
    ∀ (p e : List UInt8), 1 ≤ e.length → e.length ≤ 512 →
      ∃ body, frameEncodeEnvelope e = body ++ [0] ∧
        ((feedAll new (p ++ [0] ++ body)).feed 0).2 = .envelope e := by
  constructor
  · intro stream
    exact envelopes_pending pending_reset stream
  · intro p e nonempty fits
    have wire : frameEncodeEnvelope e = Cobs.encode (e ++ trailer e) ++ [0] :=
      frameEncodeEnvelope_eq (Nat.add_le_add_right fits 2)
    refine ⟨_, wire, ?_⟩
    obtain ⟨garbage, before⟩ := pending_feedAll pending_reset p
    have pending := pending_reset.feed_clean (Cobs.zero_not_mem_encode (e ++ trailer e))
    have result := pending.feed_delimiter.2
    rw [List.nil_append, accept_encode nonempty fits] at result
    have resync : feedAll (feedAll new p) [0] = reset := before.feed_delimiter.1
    rw [feedAll_append, feedAll_append, resync]
    cases fed : ((feedAll reset (Cobs.encode (e ++ trailer e))).feed 0).2 with
    | envelope payload =>
      rw [fed] at result
      exact congrArg Fed.envelope (Option.some.inj result)
    | none => rw [fed] at result; cases result
    | unusable => rw [fed] at result; cases result

/-- Three bytes framed after garbage. -/
theorem frame_reader_eq_batch_garbage :
    ∃ body, frameEncodeEnvelope [1, 0, 2] = body ++ [0] ∧
      ((feedAll new ([0x55, 0xAA] ++ [0] ++ body)).feed 0).2 = .envelope [1, 0, 2] :=
  frame_reader_eq_batch.2 [0x55, 0xAA] [1, 0, 2] (by decide) (by decide)

end MeshPigeon.FrameReader
