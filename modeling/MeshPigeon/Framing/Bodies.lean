import MeshPigeon.Framing.Stream
import MeshPigeon.Lib.Memory

/-!
# Frame bodies and the buffers they are decoded into

The decoder over the memory it writes, which bodies it takes, and the two ways
to write a frame.
-/
namespace MeshPigeon

open Memory

/-- `cobs_decode` with the memory at `dst`: the returned length and the memory
afterwards. Every turn takes at least the code byte. -/
def cobsDecodeIntoLoop (dstCap : Nat) :
    Nat → List UInt8 → (Nat → UInt8) → Nat → Nat × (Nat → UInt8)
  | 0, _, dst, written => (written, dst)
  | _ + 1, [], dst, written => (written, dst)
  | n + 1, code :: src, dst, written =>
    if code = 0 then (0, dst)
    else
      let block := code.toNat - 1
      if src.length < block then (0, dst)
      else if written + block > dstCap then (0, dst)
      else
        let dst := store dst written (src.take block)
        let written := written + block
        let src := src.drop block
        if code < 0xFF ∧ src ≠ [] then
          if written ≥ dstCap then (0, dst)
          else cobsDecodeIntoLoop dstCap n src (store dst written [0]) (written + 1)
        else cobsDecodeIntoLoop dstCap n src dst written

def cobsDecodeInto (dst : Nat → UInt8) (src : List UInt8) (dstCap : Nat) : Nat × (Nat → UInt8) :=
  if src.length = 0 then (0, dst) else cobsDecodeIntoLoop dstCap src.length src dst 0

/-- Nothing is written from the cap on, whatever the input and the verdict. -/
theorem cobsDecodeIntoLoop_frame (cap n : Nat) (src : List UInt8) (dst : Nat → UInt8) (written : Nat)
    {i : Nat} (out : cap ≤ i) : (cobsDecodeIntoLoop cap n src dst written).2 i = dst i := by
  induction n generalizing src dst written with
  | zero => rfl
  | succ n ih =>
    cases src with
    | nil => rfl
    | cons code src =>
      rw [cobsDecodeIntoLoop]
      split
      · rfl
      dsimp only
      split
      · rfl
      split
      · rfl
      rename_i long room
      have taken : (src.take (code.toNat - 1)).length = code.toNat - 1 := by simp; omega
      have kept : store dst written (src.take (code.toNat - 1)) i = dst i :=
        store_outside _ _ _ (Or.inr (by omega))
      split
      · split
        · exact kept
        · rename_i open'
          rw [ih, store_outside _ _ _ (Or.inr (by simp; omega)), kept]
      · rw [ih, kept]

/-- What the buffer holds up to the returned length is the decoder's list. -/
theorem cobsDecodeIntoLoop_load (cap n : Nat) (src : List UInt8) (dst : Nat → UInt8) (written : Nat) :
    let (len, after) := cobsDecodeIntoLoop cap n src dst written
    load after 0 len = cobsDecodeLoop cap n src (load dst 0 written) := by
  induction n generalizing src dst written with
  | zero => rfl
  | succ n ih =>
    cases src with
    | nil => rfl
    | cons code src =>
      rw [cobsDecodeIntoLoop, cobsDecodeLoop, length_load]
      by_cases zero : code = 0
      · rw [if_pos zero, if_pos zero]
        rfl
      rw [if_neg zero, if_neg zero]
      by_cases short : src.length < code.toNat - 1
      · simp only [if_pos short]
        rfl
      by_cases past : written + (code.toNat - 1) > cap
      · simp only [if_neg short, if_pos past]
        rfl
      have taken : (src.take (code.toNat - 1)).length = code.toNat - 1 := by simp; omega
      have block := load_store_append dst written (src.take (code.toNat - 1))
      rw [taken] at block
      simp only [if_neg short, if_neg past]
      rw [← block]
      generalize store dst written (src.take (code.toNat - 1)) = dst'
      generalize src.drop (code.toNat - 1) = rest
      by_cases gap : code < 0xFF ∧ rest ≠ []
      · rw [if_pos gap, if_pos gap, length_load]
        by_cases full : written + (code.toNat - 1) ≥ cap
        · rw [if_pos full, if_pos full]
          rfl
        · rw [if_neg full, if_neg full, ← load_store_append]
          exact ih _ _ _
      · rw [if_neg gap, if_neg gap]
        exact ih _ _ _

/-- The decoder's list is what it leaves in the buffer. -/
theorem cobsDecodeInto_load (dst : Nat → UInt8) (src : List UInt8) (cap : Nat) :
    load (cobsDecodeInto dst src cap).2 0 (cobsDecodeInto dst src cap).1 = cobsDecode src cap := by
  unfold cobsDecodeInto
  split
  · rename_i empty
    rw [List.length_eq_zero_iff.mp empty]
    rfl
  · exact cobsDecodeIntoLoop_load cap src.length src dst 0

theorem cobsDecodeInto_length (dst : Nat → UInt8) (src : List UInt8) (cap : Nat) :
    (cobsDecodeInto dst src cap).1 = (cobsDecode src cap).length := by
  rw [← cobsDecodeInto_load dst, length_load]

theorem cobsDecodeInto_frame (dst : Nat → UInt8) (src : List UInt8) {cap i : Nat} (out : cap ≤ i) :
    (cobsDecodeInto dst src cap).2 i = dst i := by
  unfold cobsDecodeInto
  split
  · rfl
  · exact cobsDecodeIntoLoop_frame cap _ _ _ _ out

theorem cobsDecode_cobsEncode (s : List UInt8) (cap : Nat) :
    cobsDecode (cobsEncode s) cap = if s.length ≤ cap then s else [] := by
  rw [cobsDecode_eq, cobsEncode_eq, Cobs.decode_encode]

theorem length_frameEncodeEnvelope_le (e : List UInt8) :
    (frameEncodeEnvelope e).length ≤ frameMaxWire := by
  by_cases fits : e.length ≤ 512
  · have bound := Cobs.length_encode_le (e ++ trailer e)
    have two : (trailer e).length = 2 := LittleEndian.length_put 2 _
    rw [List.length_append, two] at bound
    rw [frameEncodeEnvelope_fits fits, List.length_append, List.length_singleton, frameBody,
      frameMaxWire]
    omega
  · rw [frameEncodeEnvelope_long (Nat.lt_of_not_le fits)]
    exact Nat.zero_le _

/-- What is encoded decodes to itself when it fits, and to nothing otherwise;
either way the buffer is left alone from its cap on. -/
theorem cobs_round_trip (s : List UInt8) (dst : Nat → UInt8) (dstCap : Nat) :
    0 ∉ cobsEncode s ∧ (cobsEncode s).length ≤ s.length + s.length / 254 + 1 ∧
    (s.length ≤ dstCap →
      (cobsDecodeInto dst (cobsEncode s) dstCap).1 = s.length ∧
      load (cobsDecodeInto dst (cobsEncode s) dstCap).2 0 s.length = s) ∧
    (dstCap < s.length → (cobsDecodeInto dst (cobsEncode s) dstCap).1 = 0) ∧
    (∀ i, dstCap ≤ i → (cobsDecodeInto dst (cobsEncode s) dstCap).2 i = dst i) ∧
    ∀ e : List UInt8, e.length ≤ 512 → (frameEncodeEnvelope e).length ≤ frameMaxWire := by
  have decoded := cobsDecode_cobsEncode s dstCap
  have left := cobsDecodeInto_load dst (cobsEncode s) dstCap
  have len := cobsDecodeInto_length dst (cobsEncode s) dstCap
  refine ⟨?_, ?_, ?_, ?_, fun i out => cobsDecodeInto_frame _ _ out,
    fun e _ => length_frameEncodeEnvelope_le e⟩
  · rw [cobsEncode_eq]
    exact Cobs.zero_not_mem_encode s
  · rw [cobsEncode_eq]
    exact Cobs.length_encode_le s
  · intro fits
    rw [decoded, if_pos fits] at left len
    exact ⟨len, by rw [← len, left]⟩
  · intro long
    rw [len, decoded, if_neg (Nat.not_le.mpr long)]
    rfl

/-- A byte, the zero between and a byte, into a buffer that fits and one that does not. -/
theorem cobs_round_trip_three :
    (cobsDecodeInto (fun _ => 7) (cobsEncode [1, 0, 2]) 3).1 = 3 ∧
    (cobsDecodeInto (fun _ => 7) (cobsEncode [1, 0, 2]) 2).1 = 0 ∧
    (frameEncodeEnvelope [1, 0, 2]).length ≤ frameMaxWire :=
  ⟨((cobs_round_trip [1, 0, 2] (fun _ => 7) 3).2.2.1 (by decide)).1,
    (cobs_round_trip [1, 0, 2] (fun _ => 7) 2).2.2.2.1 (by decide),
    (cobs_round_trip [1, 0, 2] (fun _ => 7) 2).2.2.2.2.2 [1, 0, 2] (by decide)⟩

/-! ## Which bodies are taken -/

/-- The decoder succeeds on the bodies of the grammar that fit. -/
theorem cobsDecode_success {w d : List UInt8} {cap : Nat} :
    cobsDecode w cap = d ∧ d ≠ [] ↔ Cobs.Decodes w d ∧ 1 ≤ d.length ∧ d.length ≤ cap := by
  rw [cobsDecode_eq, ← Cobs.decode_iff]
  cases Cobs.decode w with
  | none =>
    simp only [reduceCtorEq, false_and, iff_false, not_and]
    exact fun empty nonempty => nonempty empty.symm
  | some d' =>
    simp only [Option.some.injEq]
    constructor
    · rintro ⟨same, nonempty⟩
      split at same
      · subst same
        exact ⟨rfl, List.length_pos_iff.mpr nonempty, by assumption⟩
      · exact absurd same.symm nonempty
    · rintro ⟨rfl, positive, fits⟩
      exact ⟨if_pos fits, List.length_pos_iff.mp positive⟩

/-- Encoding what was decoded. -/
theorem cobsEncode_cobsDecode {w : List UInt8} {cap : Nat} (clean : 0 ∉ w)
    (ok : (cobsDecode w cap).length ≠ 0) :
    (Cobs.EndsFull w → cobsEncode (cobsDecode w cap) = w ++ [1]) ∧
    (¬Cobs.EndsFull w → cobsEncode (cobsDecode w cap) = w) := by
  have nonempty := mt List.length_eq_zero_iff.mpr ok
  obtain ⟨⟨bs, short, wire, payload⟩, positive, _⟩ := cobsDecode_success.mp ⟨rfl, nonempty⟩
  have some : bs ≠ [] := by
    intro none
    rw [← payload, none] at positive
    exact Nat.not_succ_le_zero _ positive
  subst wire
  rw [cobsEncode_eq, ← payload, Cobs.encode_payload short clean some, Cobs.endsFull_iff short some]
  refine ⟨fun full => by rw [if_pos full], fun open' => ?_⟩
  rw [if_neg open', List.append_nil]

/-- The bodies taken are those of the grammar with a decoded length the buffer
has room for. Each is the encoding of what it decodes to, or lacks the closing
empty block of that; so two of them that decode alike differ by it at most. -/
theorem cobs_decode_canonical (w : List UInt8) (clean : 0 ∉ w) (dstCap : Nat) :
    ((cobsDecode w dstCap).length ≠ 0 ↔
      ∃ bs, Cobs.Short bs ∧ Cobs.wire bs = w ∧
        1 ≤ (Cobs.payload bs).length ∧ (Cobs.payload bs).length ≤ dstCap) ∧
    ((cobsDecode w dstCap).length ≠ 0 →
      (Cobs.EndsFull w → cobsEncode (cobsDecode w dstCap) = w ++ [1]) ∧
      (¬Cobs.EndsFull w → cobsEncode (cobsDecode w dstCap) = w)) ∧
    ∀ (w' : List UInt8) (dstCap' : Nat), 0 ∉ w' → (cobsDecode w dstCap).length ≠ 0 →
      cobsDecode w' dstCap' = cobsDecode w dstCap → w' = w ∨ w' = w ++ [1] ∨ w = w' ++ [1] := by
  refine ⟨?_, cobsEncode_cobsDecode clean, ?_⟩
  · constructor
    · intro ok
      have nonempty := mt List.length_eq_zero_iff.mpr ok
      obtain ⟨⟨bs, short, wire, payload⟩, positive, fits⟩ := cobsDecode_success.mp ⟨rfl, nonempty⟩
      exact ⟨bs, short, wire, by rw [payload]; exact positive, by rw [payload]; exact fits⟩
    · rintro ⟨bs, short, wire, positive, fits⟩
      obtain ⟨same, nonempty⟩ := cobsDecode_success.mpr ⟨⟨bs, short, wire, rfl⟩, positive, fits⟩
      rw [same]
      exact mt List.length_eq_zero_iff.mp nonempty
  · intro w' dstCap' clean' ok same
    have here := cobsEncode_cobsDecode clean ok
    have ok' : (cobsDecode w' dstCap').length ≠ 0 := by
      rw [same]
      exact ok
    have there := cobsEncode_cobsDecode clean' ok'
    rw [same] at there
    by_cases full : Cobs.EndsFull w
    · have closed := here.1 full
      by_cases full' : Cobs.EndsFull w'
      · exact Or.inl (List.append_cancel_right ((there.1 full').symm.trans closed))
      · exact Or.inr (Or.inl ((there.2 full').symm.trans closed))
    · have whole := here.2 full
      by_cases full' : Cobs.EndsFull w'
      · exact Or.inr (Or.inr (whole.symm.trans (there.1 full')))
      · exact Or.inl ((there.2 full').symm.trans whole)

/-- Two blocks, the first of one byte. -/
theorem cobs_decode_canonical_two :
    (cobsDecode [2, 1, 2, 2] 3).length ≠ 0 ∧
    (¬Cobs.EndsFull [2, 1, 2, 2] → cobsEncode (cobsDecode [2, 1, 2, 2] 3) = [2, 1, 2, 2]) :=
  have canonical := cobs_decode_canonical [2, 1, 2, 2] (by decide) 3
  have ok := canonical.1.mpr ⟨[[1], [2]], by simp [Cobs.Short], by decide, by decide, by decide⟩
  ⟨ok, (canonical.2.1 ok).2⟩

/-! ## Two ways to write a frame -/

/-- The frame written without a scratch copy is the frame built and then
encoded, and ends in its only delimiter. -/
theorem frame_encode_envelope_agrees (envelope : List UInt8) :
    (envelope.length ≤ 512 →
      frameEncodeEnvelope envelope = frameEncodeWire (frameBuild envelope) ∧
      ∃ body, frameEncodeEnvelope envelope = body ++ [0] ∧ 0 ∉ body) ∧
    (512 < envelope.length → (frameEncodeEnvelope envelope).length = 0) := by
  constructor
  · intro fits
    have wire := frameEncodeEnvelope_fits fits
    refine ⟨?_, frameBody envelope, wire, frameBody_clean envelope⟩
    rw [wire, frameEncodeWire, frameBuild_eq, cobsEncode_eq, frameBody]
  · intro long
    rw [frameEncodeEnvelope_long long]
    rfl

/-- An envelope whose first block is full, with a zero in the second. -/
theorem frame_encode_envelope_agrees_two_blocks :
    let envelope := List.replicate 300 7 ++ [0, 7]
    frameEncodeEnvelope envelope = frameEncodeWire (frameBuild envelope) ∧
      ∃ body, frameEncodeEnvelope envelope = body ++ [0] ∧ 0 ∉ body := by
  refine (frame_encode_envelope_agrees _).1 ?_
  rw [List.length_append, List.length_replicate]
  decide

end MeshPigeon
