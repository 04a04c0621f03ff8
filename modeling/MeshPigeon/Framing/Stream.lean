import MeshPigeon.Framing.Reader

/-! Streams of frames, whole and cut. -/
namespace MeshPigeon

/-- The bytes of a frame before its delimiter. -/
def frameBody (envelope : List UInt8) : List UInt8 := Cobs.encode (envelope ++ trailer envelope)

theorem frameEncodeEnvelope_fits {e : List UInt8} (fits : e.length ≤ 512) :
    frameEncodeEnvelope e = frameBody e ++ [0] :=
  frameEncodeEnvelope_eq (Nat.add_le_add_right fits 2)

theorem frameEncodeEnvelope_long {e : List UInt8} (long : 512 < e.length) :
    frameEncodeEnvelope e = [] := by
  rw [frameEncodeEnvelope, if_pos]
  exact Nat.add_lt_add_right long 2

/-- Only an envelope that fits has a frame. -/
theorem frameEncodeEnvelope_ne_nil {e : List UInt8} : frameEncodeEnvelope e ≠ [] ↔ e.length ≤ 512 := by
  by_cases fits : e.length ≤ 512
  · simp [frameEncodeEnvelope_fits fits, fits]
  · simp [frameEncodeEnvelope_long (Nat.lt_of_not_le fits), fits]

theorem frameBody_clean (e : List UInt8) : 0 ∉ frameBody e := Cobs.zero_not_mem_encode _

/-- What lacks the end of its frame holds no delimiter. -/
theorem clean_of_take {e : List UInt8} {n : Nat} (short : n < (frameEncodeEnvelope e).length) :
    0 ∉ (frameEncodeEnvelope e).take n := by
  have fits : e.length ≤ 512 :=
    frameEncodeEnvelope_ne_nil.mp (List.length_pos_iff.mp (Nat.zero_lt_of_lt short))
  rw [frameEncodeEnvelope_fits fits] at short ⊢
  rw [List.length_append, List.length_singleton] at short
  rw [List.take_append_of_le_length (by omega)]
  intro zero
  exact frameBody_clean e (List.mem_of_mem_take zero)

namespace FrameReader

/-- A body is accepted as its envelope, unless that is empty. -/
theorem accept_frameBody {e : List UInt8} (fits : e.length ≤ 512) :
    accept (frameBody e) = if e = [] then none else some e := by
  by_cases empty : e = []
  · subst empty
    have two : (trailer []).length = 2 := LittleEndian.length_put 2 _
    unfold accept frameBody
    rw [Cobs.decode_encode, if_pos rfl]
    split
    · show unframe (trailer []) = none
      exact unframe_short (by rw [two]; decide)
    · rfl
  · rw [if_neg empty]
    exact accept_encode (List.length_pos_iff.mpr empty) fits

/-- Whole frames are read one by one, whatever part of another follows. -/
theorem envelopes_frames {es : List (List UInt8)} (fits : ∀ e ∈ es, e.length ≤ 512)
    {part : List UInt8} (clean : 0 ∉ part) :
    envelopes new ((es.map frameEncodeEnvelope).flatten ++ part) = es.filter (· ≠ []) := by
  rw [new, envelopes_pending pending_reset, List.nil_append]
  induction es with
  | nil => simp [segments_clean clean]
  | cons e es ih =>
    have here : e.length ≤ 512 := fits e List.mem_cons_self
    have rest := ih fun x hx => fits x (List.mem_cons_of_mem e hx)
    rw [List.map_cons, List.flatten_cons, frameEncodeEnvelope_fits here, List.append_assoc,
      List.append_assoc, List.singleton_append, segments_delimited (frameBody_clean e),
      List.filterMap_cons, accept_frameBody here, rest]
    by_cases empty : e = [] <;> simp [empty]

/-- An accepted segment decodes to its envelope and the trailer. -/
theorem decode_of_accept {segment e : List UInt8} (h : accept segment = some e) :
    Cobs.decode segment = some (e ++ trailer e) := by
  unfold accept at h
  split at h
  · obtain ⟨d, decoded, framed⟩ := Option.bind_eq_some_iff.mp h
    unfold unframe at framed
    dsimp only at framed
    split at framed
    · rename_i valid
      obtain rfl := Option.some.inj framed
      rw [decoded, ← valid.2.2, List.take_append_drop]
    · cases framed
  · cases h

/-- A frame with anything glued before it is not read. -/
theorem accept_glued {part e : List UInt8} (clean : 0 ∉ part) (glued : part ≠ []) :
    accept (part ++ frameBody e) ≠ some e := by
  intro read
  have bound := Cobs.length_le_of_decode (decode_of_accept read) (by
    simp only [List.mem_append, not_or]
    exact ⟨clean, frameBody_clean e⟩)
  have longer := List.length_pos_iff.mpr glued
  rw [List.length_append, frameBody] at bound
  omega

theorem envelopes_append (r : FrameReader) (a b : List UInt8) :
    envelopes r (a ++ b) = envelopes r a ++ envelopes (feedAll r a) b := by
  induction a generalizing r with
  | nil => rfl
  | cons byte a ih =>
    rw [List.cons_append, envelopes, envelopes, ih, List.append_assoc]
    rfl

/-- A frame is read exactly when nothing came since the last delimiter. -/
theorem Pending.reads {r : FrameReader} {segment e : List UInt8} (h : Pending r segment)
    (nonempty : e ≠ []) (fits : e.length ≤ 512) :
    envelopes r (frameEncodeEnvelope e) = [e] ↔ segment = [] := by
  have clean : 0 ∉ segment ++ frameBody e := by
    simp only [List.mem_append, not_or]
    exact ⟨h.clean, frameBody_clean e⟩
  rw [envelopes_pending h, frameEncodeEnvelope_fits fits, ← List.append_assoc,
    segments_delimited clean, segments_clean List.not_mem_nil]
  constructor
  · intro read
    by_contra glued
    cases found : accept (segment ++ frameBody e) with
    | none => simp [found] at read
    | some e' =>
      obtain rfl : e' = e := by simpa [found] using read
      exact accept_glued h.clean glued found
  · rintro rfl
    simp [accept_frameBody fits, nonempty]

theorem Pending.after_frame {r : FrameReader} {segment e : List UInt8} (h : Pending r segment)
    (fits : e.length ≤ 512) : Pending (feedAll r (frameEncodeEnvelope e)) [] := by
  rw [frameEncodeEnvelope_fits fits, feedAll_append]
  have fed := (h.feed_clean (frameBody_clean e)).feed_delimiter.1
  show Pending (FrameReader.feed _ 0).1 []
  rw [fed]
  exact pending_reset

end FrameReader

end MeshPigeon
