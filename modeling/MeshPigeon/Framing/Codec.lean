import MeshPigeon.Framing.Framing
import MeshPigeon.Lib.LittleEndian

/-! The codecs of `framing.cpp` against the grammar of COBS and the CRC's definition. -/
namespace MeshPigeon

/-! ## The check sum -/

/-- CRC-16/CCITT-FALSE by its parameters: polynomial 0x1021, the register
preset to ones, nothing reflected and nothing added at the end. -/
def ccittFalse (data : List UInt8) : BitVec 16 := Crc.run 0x1021#16 0xFFFF#16 (Crc.bits data)

/-- The two bytes that close a frame. -/
def trailer (data : List UInt8) : List UInt8 := LittleEndian.put 2 (ccittFalse data).toNat

theorem and_intMin (x : BitVec 16) : x &&& 0x8000#16 = if x.msb then 0x8000#16 else 0#16 := by
  apply BitVec.eq_of_getLsbD_eq
  intro i hi
  have top : (0x8000#16).getLsbD i = decide (i + 1 = 16) := BitVec.getLsbD_intMin 16
  rw [BitVec.getLsbD_and, top]
  by_cases last : i + 1 = 16
  · obtain rfl : i = 15 := by omega
    cases hx : x.msb <;> simp_all [BitVec.msb_eq_getLsbD_last]
  · cases x.msb <;> simp [last, top]

theorem crcBit_toBitVec (crc : UInt16) :
    (crcBit crc).toBitVec = Crc.shift 0x1021#16 crc.toBitVec := by
  have bit : crc &&& 0x8000 ≠ 0 ↔ crc.toBitVec.msb = true := by
    rw [ne_eq, ← UInt16.toBitVec_inj, UInt16.toBitVec_and]
    show ¬ crc.toBitVec &&& 0x8000#16 = 0#16 ↔ _
    rw [and_intMin]
    cases crc.toBitVec.msb <;> simp
  unfold crcBit Crc.shift
  by_cases h : crc.toBitVec.msb = true
  · rw [if_pos (bit.mpr h), if_pos h]
    rfl
  · rw [if_neg (mt bit.mp h), if_neg h]
    rfl

theorem repeat_crcBit (k : Nat) (crc : UInt16) :
    (Nat.repeat crcBit k crc).toBitVec = Crc.shifts 0x1021#16 k crc.toBitVec := by
  have outer : ∀ (k : Nat) (r : BitVec 16),
      Crc.shifts 0x1021#16 (k + 1) r = Crc.shift 0x1021#16 (Crc.shifts 0x1021#16 k r) := by
    intro k
    induction k with
    | zero => intro r; rfl
    | succ k ih => intro r; exact ih _
  induction k with
  | zero => rfl
  | succ k ih => rw [Nat.repeat, crcBit_toBitVec, ih, outer]

theorem crcByte_toBitVec (crc : UInt16) (data : UInt8) :
    (crcByte crc data).toBitVec =
      Crc.run 0x1021#16 crc.toBitVec (Crc.leading 8 data.toBitVec) := by
  have word : (crc ^^^ (data.toUInt16 <<< 8)).toBitVec =
      crc.toBitVec ^^^ Crc.aligned data.toBitVec := rfl
  rw [crcByte, repeat_crcBit, word, Crc.run_leading (by decide)]

/-- The byte-wise loop divides the message bit by bit. -/
theorem frameCrc16_toBitVec (envelope : List UInt8) :
    (frameCrc16 envelope).toBitVec = ccittFalse envelope := by
  have general : ∀ (data : List UInt8) (init : UInt16), (crc16Ccitt data init).toBitVec =
      Crc.run 0x1021#16 init.toBitVec (Crc.bits data) := by
    intro data
    induction data with
    | nil => intro init; rfl
    | cons b data ih =>
      intro init
      have split : Crc.bits (b :: data) = Crc.leading 8 b.toBitVec ++ Crc.bits data := rfl
      rw [split, Crc.run_append, ← crcByte_toBitVec]
      exact ih _
  exact general envelope 0xFFFF

theorem crcBytes_eq (crc : UInt16) : crcBytes crc = LittleEndian.put 2 crc.toNat := by
  have low : (crc &&& 0xFF).toUInt8 = UInt8.ofNat crc.toNat := by
    apply UInt8.toNat_inj.mp
    rw [UInt16.toNat_toUInt8, UInt16.toNat_and, UInt8.toNat_ofNat']
    show (crc.toNat &&& (2 ^ 8 - 1)) % 2 ^ 8 = _
    rw [Nat.and_two_pow_sub_one_eq_mod, Nat.mod_mod]
  have high : (crc >>> 8).toUInt8 = UInt8.ofNat (crc.toNat / 256) := by
    apply UInt8.toNat_inj.mp
    rw [UInt16.toNat_toUInt8, UInt16.toNat_shiftRight, UInt8.toNat_ofNat']
    show (crc.toNat >>> 8) % 2 ^ 8 = _
    rw [Nat.shiftRight_eq_div_pow]
  simp [crcBytes, LittleEndian.put, low, high]

theorem frameBuild_eq (envelope : List UInt8) : frameBuild envelope = envelope ++ trailer envelope := by
  rw [frameBuild, crcBytes_eq, trailer, ← frameCrc16_toBitVec]
  rfl

/-- What holds two bytes ends in two bytes. -/
theorem split_last_two {d : List UInt8} (long : 2 ≤ d.length) : ∃ body lo hi, d = body ++ [lo, hi] := by
  have tail : (d.drop (d.length - 2)).length = 2 := by simp; omega
  obtain ⟨lo, hi, last⟩ := List.length_eq_two.mp tail
  exact ⟨d.take (d.length - 2), lo, hi, by rw [← last, List.take_append_drop]⟩

theorem frameCrc_eq_iff (body : List UInt8) (lo hi : UInt8) :
    frameCrc (body ++ [lo, hi]) = lo.toUInt16 ||| (hi.toUInt16 <<< 8) ↔ [lo, hi] = trailer body := by
  have checked : frameCrc (body ++ [lo, hi]) = frameCrc16 body := by
    rw [frameCrc, if_neg (by simp)]
    simp
  have word : (lo.toUInt16 ||| (hi.toUInt16 <<< 8)).toNat = LittleEndian.get [lo, hi] := by
    have hlo := lo.toNat_lt
    have hhi := hi.toNat_lt
    rw [UInt16.toNat_or, UInt16.toNat_shiftLeft, UInt8.toNat_toUInt16, UInt8.toNat_toUInt16]
    show lo.toNat ||| (hi.toNat <<< 8) % 2 ^ 16 = _
    rw [Nat.mod_eq_of_lt (by rw [Nat.shiftLeft_eq]; omega), Nat.or_comm,
      ← Nat.shiftLeft_add_eq_or_of_lt (by omega), Nat.shiftLeft_eq]
    simp only [LittleEndian.get]
    omega
  have bound : (ccittFalse body).toNat < 256 ^ 2 := (ccittFalse body).isLt
  rw [checked, trailer, LittleEndian.eq_put_iff bound rfl, ← word, ← frameCrc16_toBitVec,
    ← UInt16.toNat_inj]
  exact eq_comm

/-- The comparison at the end of a frame: its last two bytes are the trailer of the rest. -/
theorem frameCrc_check (body : List UInt8) (lo hi : UInt8) :
    let d := body ++ [lo, hi]
    frameCrc d = (d.getD (d.length - 2) 0).toUInt16 ||| ((d.getD (d.length - 1) 0).toUInt16 <<< 8) ↔
      [lo, hi] = trailer body := by
  have lows : (body ++ [lo, hi]).getD ((body ++ [lo, hi]).length - 2) 0 = lo := by simp
  have highs : (body ++ [lo, hi]).getD ((body ++ [lo, hi]).length - 1) 0 = hi := by simp
  dsimp only
  rw [lows, highs]
  exact frameCrc_eq_iff body lo hi

/-! ## COBS -/

namespace CobsEncoder

/-- The encoder after whole blocks and the first bytes of another. -/
def opened (blocks : List (List UInt8)) (d : List UInt8) : CobsEncoder :=
  { out := Cobs.wire blocks ++ 0 :: d
    codePtr := (Cobs.wire blocks).length
    code := UInt8.ofNat (d.length + 1) }

theorem opened_finish (blocks : List (List UInt8)) (d : List UInt8) :
    (opened blocks d).finish = Cobs.wire (blocks ++ [d]) := by
  simp [opened, finish]

theorem opened_closeBlock (blocks : List (List UInt8)) (d : List UInt8) :
    (opened blocks d).closeBlock = opened (blocks ++ [d]) [] := by
  simp [opened, closeBlock]

theorem opened_put (blocks : List (List UInt8)) (d : List UInt8) (v : UInt8)
    (room : d.length < 254) :
    (opened blocks d).put v =
      if v = 0 then opened (blocks ++ [d]) []
      else if d.length + 1 = 254 then opened (blocks ++ [d ++ [v]]) []
      else opened blocks (d ++ [v]) := by
  have grown : { opened blocks d with
      out := (opened blocks d).out ++ [v], code := (opened blocks d).code + 1 } =
      opened blocks (d ++ [v]) := by
    simp [opened, UInt8.ofNat_add]
  have full : (opened blocks (d ++ [v])).code = 0xFF ↔ d.length + 1 = 254 := by
    rw [← UInt8.toNat_inj, opened, UInt8.toNat_ofNat']
    simp
    omega
  unfold put
  rw [opened_closeBlock, grown]
  simp only [full, opened_closeBlock]

theorem foldl_put (src : List UInt8) (blocks : List (List UInt8)) (d : List UInt8)
    (room : d.length < 254) :
    (src.foldl put (opened blocks d)).finish = Cobs.wire (blocks ++ Cobs.blocksFrom d src) := by
  induction src generalizing blocks d with
  | nil => simp [Cobs.blocksFrom, opened_finish]
  | cons v src ih =>
    rw [List.foldl_cons, opened_put _ _ _ room, Cobs.blocksFrom]
    split
    · rw [ih _ _ (by decide), List.append_assoc]
      rfl
    · split
      · rw [ih _ _ (by decide), List.append_assoc]
        rfl
      · exact ih _ _ (by simp; omega)

end CobsEncoder

/-- The streaming encoder computes the encoding. -/
theorem cobsEncode_eq (src : List UInt8) : cobsEncode src = Cobs.encode src :=
  CobsEncoder.foldl_put src [] [] (by decide)

theorem frameEncodeEnvelope_eq {envelope : List UInt8}
    (fits : envelope.length + 2 ≤ frameMaxDecoded) :
    frameEncodeEnvelope envelope = Cobs.encode (envelope ++ trailer envelope) ++ [0] := by
  rw [← frameBuild_eq, ← cobsEncode_eq, frameEncodeEnvelope, if_neg (Nat.not_lt.mpr fits)]
  simp [cobsEncode, frameBuild, crcBytes]

theorem cobsDecodeLoop_eq (cap n : Nat) (src dst : List UInt8) (fuel : src.length ≤ n)
    (room : dst.length ≤ cap) :
    cobsDecodeLoop cap n src dst =
      match Cobs.decode src with
      | none => []
      | some d => if dst.length + d.length ≤ cap then dst ++ d else [] := by
  induction n generalizing src dst with
  | zero =>
    obtain rfl := List.length_eq_zero_iff.mp (Nat.le_zero.mp fuel)
    simp [cobsDecodeLoop, Cobs.decode, Cobs.parse, Cobs.payload, room]
  | succ n ih =>
    cases src with
    | nil => simp [cobsDecodeLoop, Cobs.decode, Cobs.parse, Cobs.payload, room]
    | cons code src =>
      rw [cobsDecodeLoop, Cobs.decode_cons]
      by_cases zero : code = 0
      · simp [zero]
      rw [if_neg zero, if_neg zero]
      by_cases short : src.length < code.toNat - 1
      · simp [short]
      have taken : (src.take (code.toNat - 1)).length = code.toNat - 1 := by simp; omega
      have left : (src.drop (code.toNat - 1)).length ≤ n := by simp at fuel ⊢; omega
      have notFull : code < 0xFF ↔ code.toNat - 1 < 254 := by
        rw [UInt8.lt_iff_toNat_lt]
        have : (0xFF : UInt8).toNat = 255 := rfl
        omega
      rw [if_neg short, if_neg short]
      generalize src.take (code.toNat - 1) = block at *
      generalize src.drop (code.toNat - 1) = rest at *
      rw [← taken] at notFull ⊢
      simp only [notFull]
      by_cases past : dst.length + block.length > cap
      · rw [if_pos past]
        by_cases last : rest = []
        · simp [last, Nat.not_le.mpr past]
        · rw [if_neg last]
          cases Cobs.decode rest with
          | none => rfl
          | some d => exact (if_neg (by simp; omega)).symm
      rw [if_neg past]
      have grown : (dst ++ block).length ≤ cap := by simp; omega
      by_cases last : rest = []
      · subst last
        rw [if_neg (by simp), ih [] _ (Nat.zero_le _) grown, if_pos rfl]
        simp [Cobs.decode, Cobs.parse, Cobs.payload, Nat.not_lt.mp past]
      rw [if_neg last]
      by_cases gap : block.length < 254
      · rw [if_pos ⟨gap, last⟩, Cobs.gap, if_pos gap]
        by_cases full : (dst ++ block).length ≥ cap
        · rw [if_pos full]
          cases Cobs.decode rest with
          | none => rfl
          | some d => exact (if_neg (by simp at full ⊢; omega)).symm
        rw [if_neg full, ih rest _ left (by simp at full ⊢; omega)]
        cases Cobs.decode rest with
        | none => rfl
        | some d => simp [Nat.add_assoc, Nat.add_comm 1]
      · rw [if_neg (fun h => gap h.1), Cobs.gap, if_neg gap, ih rest _ left grown]
        cases Cobs.decode rest with
        | none => rfl
        | some d => simp [Nat.add_assoc]

/-- The decoder computes the decoding when that fits. -/
theorem cobsDecode_eq (src : List UInt8) (cap : Nat) :
    cobsDecode src cap =
      match Cobs.decode src with
      | none => []
      | some d => if d.length ≤ cap then d else [] := by
  rw [cobsDecode, cobsDecodeLoop_eq cap _ _ _ (Nat.le_refl _) (Nat.zero_le _)]
  simp

end MeshPigeon
