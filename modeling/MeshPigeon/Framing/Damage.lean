import MeshPigeon.Framing.Stream

/-!
# What the check sum sees

Bytes closed by their check sum, and the changes that leave them open: one
byte, two neighbours, or the check sum itself.
-/
namespace MeshPigeon

/-- The last two bytes are the check sum of the others. -/
def CrcClean (bytes : List UInt8) : Prop := ∃ body, bytes = body ++ trailer body

/-- A change to bytes whose first `n` are summed: of one byte anywhere, of two
neighbours before the check sum, or of the check sum. -/
inductive Damage (n : Nat) (bytes : List UInt8) : List UInt8 → Prop
  | byte (i : Nat) (b : UInt8) : Damage n bytes (bytes.set i b)
  | pair (i : Nat) (a b : UInt8) (inside : i + 1 < n) :
      Damage n bytes ((bytes.set i a).set (i + 1) b)
  | sum (lo hi : UInt8) : Damage n bytes (bytes.take n ++ [lo, hi])

@[simp] theorem length_trailer (body : List UInt8) : (trailer body).length = 2 :=
  LittleEndian.length_put 2 _

theorem crcClean_append {body sum : List UInt8} (two : sum.length = 2) :
    CrcClean (body ++ sum) ↔ sum = trailer body := by
  constructor
  · rintro ⟨x, same⟩
    obtain ⟨rfl, rfl⟩ := List.append_inj' same (by rw [two, length_trailer])
    rfl
  · rintro rfl
    exact ⟨body, rfl⟩

/-- The comparison the source makes of the last two bytes. -/
theorem crcClean_iff {d : List UInt8} (long : 2 ≤ d.length) :
    frameCrc d = (d.getD (d.length - 2) 0).toUInt16 ||| ((d.getD (d.length - 1) 0).toUInt16 <<< 8) ↔
      CrcClean d := by
  obtain ⟨body, lo, hi, rfl⟩ := split_last_two long
  rw [crcClean_append rfl]
  exact frameCrc_check body lo hi

/-! ## The check sum of changed bytes -/

theorem bits_append (x y : List UInt8) : Crc.bits (x ++ y) = Crc.bits x ++ Crc.bits y :=
  List.flatMap_append

theorem bits_cons (b : UInt8) (x : List UInt8) :
    Crc.bits (b :: x) = Crc.leading 8 b.toBitVec ++ Crc.bits x := rfl

theorem ccittFalse_byte {before after : List UInt8} {b b' : UInt8}
    (same : ccittFalse (before ++ b :: after) = ccittFalse (before ++ b' :: after)) : b = b' := by
  unfold ccittFalse at same
  rw [bits_append, bits_append, bits_cons, bits_cons] at same
  exact UInt8.toBitVec_inj.mp (Crc.run_burst (by decide) (by decide) same)

theorem ccittFalse_pair {before after : List UInt8} {a b a' b' : UInt8}
    (same : ccittFalse (before ++ a :: b :: after) = ccittFalse (before ++ a' :: b' :: after)) :
    a = a' ∧ b = b' := by
  have word (x y : UInt8) : Crc.bits (x :: y :: after) =
      Crc.leading 16 (x.toBitVec ++ y.toBitVec) ++ Crc.bits after := by
    rw [bits_cons, bits_cons, ← List.append_assoc]
    exact congrArg (· ++ _) (Crc.leading_append x.toBitVec y.toBitVec).symm
  unfold ccittFalse at same
  rw [bits_append, bits_append, word, word] at same
  have words := Crc.run_burst (by decide) (by decide) same
  have high := congrArg (BitVec.extractLsb' 8 8) words
  have low := congrArg (BitVec.setWidth 8) words
  simp only [BitVec.extractLsb'_append_eq_left, BitVec.setWidth_append_eq_right] at high low
  exact ⟨UInt8.toBitVec_inj.mp high, UInt8.toBitVec_inj.mp low⟩

theorem ccittFalse_of_trailer {x y : List UInt8} (same : trailer x = trailer y) :
    ccittFalse x = ccittFalse y := by
  have bound (z : List UInt8) : (ccittFalse z).toNat < 256 ^ 2 := (ccittFalse z).isLt
  have numbers := congrArg LittleEndian.get same
  rw [trailer, trailer, LittleEndian.get_put_of_lt (bound x), LittleEndian.get_put_of_lt (bound y)]
    at numbers
  exact BitVec.eq_of_toNat_eq numbers

theorem split_at {l : List UInt8} {i : Nat} (inside : i < l.length) :
    ∃ before b after, l = before ++ b :: after ∧ before.length = i :=
  ⟨l.take i, l[i], l.drop (i + 1), by rw [← List.drop_eq_getElem_cons inside, List.take_append_drop],
    by rw [List.length_take, Nat.min_eq_left (Nat.le_of_lt inside)]⟩

/-- No such change keeps the check sum right. -/
theorem Damage.not_crcClean {body bytes : List UInt8}
    (h : Damage body.length (body ++ trailer body) bytes) (changed : bytes ≠ body ++ trailer body) :
    ¬CrcClean bytes := by
  cases h with
  | byte i b =>
    by_cases inside : i < body.length
    · obtain ⟨before, old, after, rfl, rfl⟩ := split_at inside
      rw [List.set_append_left _ _ inside, List.set_append_right _ _ (Nat.le_refl _), Nat.sub_self,
        List.set_cons_zero] at changed ⊢
      rw [crcClean_append (length_trailer _)]
      intro same
      exact changed (by rw [ccittFalse_byte (ccittFalse_of_trailer same)])
    · rw [List.set_append_right _ _ (Nat.le_of_not_lt inside)] at changed ⊢
      rw [crcClean_append (by rw [List.length_set, length_trailer])]
      exact fun same => changed (by rw [same])
  | pair i a b inside =>
    obtain ⟨before, old, tail, rfl, rfl⟩ := split_at (Nat.lt_of_succ_lt inside)
    cases tail with
    | nil => simp at inside
    | cons old' after =>
      have written : ((before ++ old :: old' :: after ++ trailer (before ++ old :: old' :: after)).set
          before.length a).set (before.length + 1) b =
          before ++ a :: b :: after ++ trailer (before ++ old :: old' :: after) := by
        simp
      rw [written] at changed ⊢
      rw [crcClean_append (length_trailer _)]
      intro same
      obtain ⟨rfl, rfl⟩ := ccittFalse_pair (ccittFalse_of_trailer same)
      exact changed rfl
  | sum lo hi =>
    rw [List.take_left] at changed ⊢
    rw [crcClean_append rfl]
    exact fun same => changed (by rw [same])

theorem Damage.length {body bytes : List UInt8}
    (h : Damage body.length (body ++ trailer body) bytes) : bytes.length = body.length + 2 := by
  cases h with
  | byte => rw [List.length_set, List.length_append, length_trailer]
  | pair => rw [List.length_set, List.length_set, List.length_append, length_trailer]
  | sum => rw [List.take_left, List.length_append]; rfl

/-! ## A damaged frame -/

namespace FrameReader

/-- A frame without a right check sum ends as an unusable one. -/
theorem Pending.feed_damaged {r : FrameReader} {d : List UInt8} (h : Pending r (cobsEncode d))
    (long : 2 ≤ d.length) (fits : d.length ≤ frameMaxDecoded) (open' : ¬CrcClean d) :
    (r.feed 0).2 = .unusable := by
  have bound := Cobs.length_encode_le d
  rw [← cobsEncode_eq] at bound
  have nonempty : (cobsEncode d).length ≠ 0 := by
    rw [cobsEncode_eq]
    exact fun none => Cobs.encode_ne_nil d (List.length_eq_zero_iff.mp none)
  have short : (cobsEncode d).length ≤ frameMaxWire := by
    rw [frameMaxDecoded] at fits
    rw [frameMaxWire]
    omega
  have kept := h.kept
  rw [List.take_of_length_le short] at kept
  have whole : ¬(r.overflow = true ∨ r.wire.length = 0) := by
    rw [h.overflow, kept]
    simp [Nat.not_lt.mpr short, nonempty]
  have decoded : cobsDecode (cobsEncode d) frameMaxDecoded = d := by
    rw [cobsDecode_eq, cobsEncode_eq, Cobs.decode_encode]
    exact if_pos fits
  unfold feed
  rw [if_pos rfl, if_neg whole, kept, decoded]
  dsimp only
  rw [if_neg (Nat.not_lt.mpr long), if_pos (mt (crcClean_iff long).mp open')]

/-- Nothing was fed since the last delimiter. -/
def Delimits (past : List UInt8) : Prop := past = [] ∨ ∃ earlier, past = earlier ++ [0]

theorem pending_past (past : List UInt8) :
    ∃ segment, Pending (feedAll new past) segment ∧ (segment = [] ↔ Delimits past) := by
  obtain rfl | ⟨earlier, b, rfl⟩ := List.eq_nil_or_concat past
  · exact ⟨[], pending_reset, iff_of_true rfl (.inl rfl)⟩
  · obtain ⟨segment, open'⟩ := pending_feedAll pending_reset earlier
    rw [List.concat_eq_append, feedAll_append]
    by_cases delimiter : b = 0
    · subst delimiter
      refine ⟨[], ?_, iff_of_true rfl (.inr ⟨earlier, rfl⟩)⟩
      show Pending ((feedAll reset earlier).feed 0).1 []
      rw [open'.feed_delimiter.1]
      exact pending_reset
    · refine ⟨segment ++ [b], (open'.feed_byte delimiter).1, iff_of_false (by simp) ?_⟩
      rintro (empty | ⟨earlier', same⟩)
      · simp at empty
      · exact delimiter (List.singleton_inj.mp (List.append_inj_right' same rfl))

theorem Delimits.pending {past : List UInt8} (h : Delimits past) : Pending (feedAll new past) [] := by
  obtain ⟨segment, open', none⟩ := pending_past past
  obtain rfl := none.mpr h
  exact open'

/-- Every byte of a damaged frame yields nothing, and its delimiter the verdict. -/
theorem damaged_frame_unusable {e frame past : List UInt8} (fits : e.length ≤ 512)
    (h : Damage e.length (frameBuild e) frame) (changed : frame ≠ frameBuild e)
    (fresh : Delimits past) :
    ∃ body, frameEncodeWire frame = body ++ [0] ∧
      (∀ before b after, body = before ++ b :: after →
        ((feedAll new (past ++ before)).feed b).2 = .none) ∧
      ((feedAll new (past ++ body)).feed 0).2 = .unusable := by
  rw [frameBuild_eq] at h changed
  have clean : 0 ∉ cobsEncode frame := by
    rw [cobsEncode_eq]
    exact Cobs.zero_not_mem_encode frame
  refine ⟨cobsEncode frame, rfl, ?_, ?_⟩
  · intro before b after split
    rw [split, List.mem_append, List.mem_cons, not_or, not_or] at clean
    rw [feedAll_append]
    exact ((fresh.pending.feed_clean clean.1).feed_byte (Ne.symm clean.2.1)).2
  · have size := h.length
    rw [feedAll_append]
    exact (fresh.pending.feed_clean clean).feed_damaged (by omega)
      (by rw [frameMaxDecoded]; omega) (h.not_crcClean changed)

end FrameReader

end MeshPigeon
