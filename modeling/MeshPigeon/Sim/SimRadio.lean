import MeshPigeon.Core.Transmit
import MeshPigeon.Radio.LoraRadio

/-!
# The simulator's radio

`sim_radio.h`: a radio that loses and duplicates by a generator of its own, and
a queue for the air between its sender and its receiver.
-/
namespace MeshPigeon

/-- A transmission takes 3 polls to finish. -/
def kTxTicks : Int := 3

theorem length_nil_payload : ([] : List UInt8).length ≤ 255 := Nat.zero_le _

structure SimRadio where
  rng : UInt32 := 1234
  lossPct : UInt8 := 0
  dupPct : UInt8 := 0
  /-- the first `last_tx_len_` bytes of `last_tx_` -/
  lastTx : Payload := ⟨[], length_nil_payload⟩
  txCount : Nat := 0
  txActive : Bool := false
  txTicksLeft : Int := kTxTicks
  air : List Payload := []

namespace SimRadio

/-! ## The generator -/

def nextRng (r : SimRadio) : UInt32 × SimRadio :=
  -- the constants in front, where a check that compares two radios does not count them out
  let rng := 12345 + 1103515245 * r.rng
  ((rng >>> 16) &&& 0x7FFF, { r with rng })

/-- A percentage is drawn. -/
def loss (r : SimRadio) : UInt32 × SimRadio := (r.nextRng.1 % 100, r.nextRng.2)

/-! ## The port -/

def apply (s : RadioSettings) : Bool := s.freqHz ≥ 150000000 && s.sf ≥ 5 && s.sf ≤ 12

/-- What `transmit` will return: the loss model may kill the send. -/
def transmits (r : SimRadio) : Bool := !(r.loss.1 < r.lossPct.toUInt32)

def transmit (r : SimRadio) (raw : Payload) : Int × SimRadio :=
  if r.transmits then
    (0, { r.loss.2 with lastTx := raw, txCount := r.txCount + 1, txActive := true })
  else (-1, r.loss.2)

def push (r : SimRadio) (raw : Payload) : SimRadio := { r with air := r.air ++ [raw] }

/-- A second copy, perhaps. -/
def dup (r : SimRadio) : SimRadio :=
  if r.loss.1 < r.dupPct.toUInt32 then r.loss.2.push r.lastTx else r.loss.2

/-- deliver to "the air": maybe duplicate, maybe drop -/
def deliver (r : SimRadio) : SimRadio :=
  if r.loss.1 ≥ r.lossPct.toUInt32 then (r.loss.2.push r.lastTx).dup else r.loss.2

def txDone (r : SimRadio) : Bool × SimRadio :=
  if !r.txActive then (true, r)
  else
    let r := { r with txTicksLeft := r.txTicksLeft - 1 }
    if r.txTicksLeft ≤ 0 then
      (true, { { r with txActive := false }.deliver with txTicksLeft := kTxTicks })
    else (false, r)

def receive (r : SimRadio) : Option Reception × SimRadio :=
  match r.air with
  | [] => (none, r)
  | p :: air =>
    let rssi := r.nextRng
    let snr := rssi.2.nextRng
    (some {
      raw := p
      rssi := Int8.ofInt (-60 - (rssi.1 % 40).toNat)
      snr := Int8.ofNat (snr.1 % 12).toNat }, { snr.2 with air := air })

/-- A packet as if another node had sent it. -/
def inject (r : SimRadio) (raw : Payload) : SimRadio := r.push raw

/-! ## What is still under way -/

/-- The counter is full while nothing is sent, and never runs out while something is. -/
structure Ready (r : SimRadio) : Prop where
  idle : r.txActive = false → r.txTicksLeft = kTxTicks
  busy : r.txActive = true → 1 ≤ r.txTicksLeft ∧ r.txTicksLeft ≤ kTxTicks

variable {r : SimRadio}

theorem ready_start (loss dup : UInt8) : Ready { lossPct := loss, dupPct := dup } :=
  ⟨fun _ => rfl, fun active => by cases active⟩

/-- A drawing changes nothing but the generator. -/
structure Drawn (r r' : SimRadio) : Prop where
  lossPct : r'.lossPct = r.lossPct
  dupPct : r'.dupPct = r.dupPct
  lastTx : r'.lastTx = r.lastTx
  txActive : r'.txActive = r.txActive
  txTicksLeft : r'.txTicksLeft = r.txTicksLeft
  air : r'.air = r.air

theorem drawn_loss (r : SimRadio) : Drawn r r.loss.2 := by
  cases r
  exact ⟨rfl, rfl, rfl, rfl, rfl, rfl⟩

theorem dup_cases (r : SimRadio) : ∃ copies : Nat,
    r.dup.air = r.air ++ List.replicate copies r.lastTx ∧ copies ≤ 1 ∧
      (r.dupPct = 0 → copies = 0) ∧ r.dup.txActive = r.txActive ∧ r.dup.lossPct = r.lossPct ∧
      r.dup.dupPct = r.dupPct := by
  have drawn := drawn_loss r
  unfold dup
  generalize r.loss = drawing at drawn
  split
  · rename_i again
    refine ⟨1, ?_, Nat.le_refl _, fun none => ?_, drawn.txActive, drawn.lossPct, drawn.dupPct⟩
    · rw [push, drawn.air]
      rfl
    · rw [none] at again
      exact absurd again UInt32.not_lt_zero
  · refine ⟨0, ?_, Nat.zero_le _, fun _ => rfl, drawn.txActive, drawn.lossPct, drawn.dupPct⟩
    rw [drawn.air]
    exact (List.append_nil _).symm

/-- A copy for the air, none or a second one. -/
theorem deliver_cases (r : SimRadio) : ∃ copies : Nat,
    r.deliver.air = r.air ++ List.replicate copies r.lastTx ∧ copies ≤ 2 ∧
      (r.lossPct = 0 → 1 ≤ copies) ∧ (r.dupPct = 0 → copies ≤ 1) ∧
      r.deliver.txActive = r.txActive ∧ r.deliver.lossPct = r.lossPct ∧
      r.deliver.dupPct = r.dupPct := by
  have drawn := drawn_loss r
  unfold deliver
  generalize r.loss = drawing at drawn
  split
  · obtain ⟨copies, air, few, single, txActive, lossPct, dupPct⟩ :=
      dup_cases (drawing.2.push r.lastTx)
    refine ⟨copies + 1, ?_, by omega, fun _ => by omega, fun none => ?_,
      txActive.trans drawn.txActive, lossPct.trans drawn.lossPct, dupPct.trans drawn.dupPct⟩
    · have own : (drawing.2.push r.lastTx).air = r.air ++ [r.lastTx] := by rw [push, drawn.air]
      have last : (drawing.2.push r.lastTx).lastTx = r.lastTx := drawn.lastTx
      rw [air, own, last, List.append_assoc, List.replicate_succ]
      rfl
    · have none' : (drawing.2.push r.lastTx).dupPct = 0 := drawn.dupPct.trans none
      rw [single none']
  · rename_i lost
    refine ⟨0, ?_, Nat.zero_le _, fun none => ?_, fun _ => Nat.zero_le _, drawn.txActive,
      drawn.lossPct, drawn.dupPct⟩
    · rw [drawn.air]
      exact (List.append_nil _).symm
    · rw [none] at lost
      exact absurd (UInt32.le_iff_toNat_le.mpr (Nat.zero_le _)) lost

/-- The percentages are never drawn anew. -/
structure Tuned (r r' : SimRadio) : Prop where
  lossPct : r'.lossPct = r.lossPct
  dupPct : r'.dupPct = r.dupPct

/-- A transmission starts, and the radio is on the air with it. -/
theorem transmit_started (started : r.transmits = true) (raw : Payload) :
    (r.transmit raw).1 = 0 ∧ Tuned r (r.transmit raw).2 ∧ (r.transmit raw).2.txActive = true ∧
      (r.transmit raw).2.lastTx = raw ∧ (r.transmit raw).2.txTicksLeft = r.txTicksLeft ∧
      (r.transmit raw).2.air = r.air := by
  have drawn := drawn_loss r
  rw [transmit, if_pos started]
  exact ⟨rfl, ⟨drawn.lossPct, drawn.dupPct⟩, rfl, rfl, drawn.txTicksLeft, drawn.air⟩

theorem transmit_killed (killed : r.transmits = false) (raw : Payload) :
    (r.transmit raw).1 = -1 ∧ Tuned r (r.transmit raw).2 ∧
      (r.transmit raw).2.txActive = r.txActive ∧ (r.transmit raw).2.lastTx = r.lastTx ∧
      (r.transmit raw).2.txTicksLeft = r.txTicksLeft ∧ (r.transmit raw).2.air = r.air := by
  have drawn := drawn_loss r
  rw [transmit, if_neg (by rw [killed]; decide)]
  exact ⟨rfl, ⟨drawn.lossPct, drawn.dupPct⟩, drawn.txActive, drawn.lastTx, drawn.txTicksLeft,
    drawn.air⟩

/-- A lossless radio kills no send. -/
theorem transmits_lossless (lossless : r.lossPct = 0) : r.transmits = true := by
  unfold transmits
  rw [lossless, Bool.not_eq_true', decide_eq_false_iff_not]
  exact UInt32.not_lt_zero

/-- The last of the three polls: the packet is delivered and the counter full again. -/
theorem txDone_last (active : r.txActive = true) (left : r.txTicksLeft = 1) :
    ∃ copies : Nat, r.txDone.1 = true ∧
      r.txDone.2.air = r.air ++ List.replicate copies r.lastTx ∧ copies ≤ 2 ∧
      (r.lossPct = 0 → 1 ≤ copies) ∧ (r.dupPct = 0 → copies ≤ 1) ∧
      Tuned r r.txDone.2 ∧ r.txDone.2.txActive = false ∧ r.txDone.2.txTicksLeft = kTxTicks := by
  obtain ⟨copies, air, few, some', single, idle, lossPct, dupPct⟩ :=
    deliver_cases { r with txTicksLeft := r.txTicksLeft - 1, txActive := false }
  have done : r.txDone = (true, { ({ r with
      txTicksLeft := r.txTicksLeft - 1, txActive := false } : SimRadio).deliver with
      txTicksLeft := kTxTicks }) := by
    rw [txDone, active, if_neg (by decide)]
    exact if_pos (by show r.txTicksLeft - 1 ≤ 0; omega)
  rw [done]
  exact ⟨copies, rfl, air, few, some', single, ⟨lossPct, dupPct⟩, idle, rfl⟩

theorem txDone_early (active : r.txActive = true) (left : 1 < r.txTicksLeft) :
    r.txDone = (false, { r with txTicksLeft := r.txTicksLeft - 1 }) := by
  rw [txDone, active, if_neg (by decide)]
  exact if_neg (by show ¬r.txTicksLeft - 1 ≤ 0; omega)

/-- One packet is taken off the air, the first. -/
theorem receive_cases (r : SimRadio) :
    r.receive = (none, r) ∧ r.air = [] ∨
      ∃ p air, r.air = p :: air ∧ (∃ rssi snr, r.receive.1 = some ⟨p, rssi, snr⟩) ∧
        r.receive.2.air = air ∧ Tuned r r.receive.2 ∧ r.receive.2.txActive = r.txActive ∧
        r.receive.2.lastTx = r.lastTx ∧ r.receive.2.txTicksLeft = r.txTicksLeft := by
  cases sky : r.air with
  | nil =>
    left
    rw [receive, sky]
    exact ⟨rfl, rfl⟩
  | cons p air =>
    right
    refine ⟨p, air, rfl, ?_⟩
    rw [receive, sky]
    cases r
    exact ⟨⟨_, _, rfl⟩, rfl, ⟨rfl, rfl⟩, rfl, rfl, rfl⟩

end SimRadio

end MeshPigeon
