import MeshPigeon.Core.CommandProcessor

/-!
# The radio port

`radio_lora.h`: the tuning sequence, the transmit lifecycle and the polled receive
path both radios share, over the driver of the part.
-/
namespace MeshPigeon

/-! ## The driver -/

/-- A call that answers a status code. The frequency and the bandwidth are recorded as they are
stored; the driver is handed each as a `float`, in MHz and kHz, so two may be one to it. -/
inductive Command where
  | standby
  | setFrequency (freqHz : UInt32)
  | setBandwidth (bwX100khz : UInt16)
  | setSpreadingFactor (sf : UInt8)
  | setCodingRate (cr : UInt8)
  | setPreambleLength (symbols : Nat)
  | setOutputPower (dbm : Int8)
  | setCrc (len : UInt8)
  | startReceive
  | startTransmit (raw : Payload)
  | finishTransmit
  | readData (len : Int)
  deriving DecidableEq, Repr

/-- A call on the driver with its answer. -/
inductive DriverCall where
  | command (c : Command) (state : Int16)
  | getIrqFlags (irq : UInt32)
  | getPacketLength (len : Int)
  | getRssi (dbm : Int8)
  | getSnr (db : Int8)
  deriving DecidableEq, Repr

/-- How the driver answers during one call of the port; 0 is `RADIOLIB_ERR_NONE`. -/
structure Driver where
  standby : Int16 := 0
  setFrequency : Int16 := 0
  setBandwidth : Int16 := 0
  setSpreadingFactor : Int16 := 0
  setCodingRate : Int16 := 0
  setPreambleLength : Int16 := 0
  setOutputPower : Int16 := 0
  setCrc : Int16 := 0
  startReceive : Int16 := 0
  startTransmit : Int16 := 0
  finishTransmit : Int16 := 0
  readData : Int16 := 0
  irqFlags : UInt32 := 0
  /-- the packet length when the header is in doubt -/
  headerLength : Int := 0
  packetLength : Int := 0
  /-- what `readData` leaves in the buffer -/
  buffer : Nat → UInt8 := fun _ => 0
  rssi : Int8 := 0
  snr : Int8 := 0

namespace Driver

def status (d : Driver) : Command → Int16
  | .standby => d.standby
  | .setFrequency _ => d.setFrequency
  | .setBandwidth _ => d.setBandwidth
  | .setSpreadingFactor _ => d.setSpreadingFactor
  | .setCodingRate _ => d.setCodingRate
  | .setPreambleLength _ => d.setPreambleLength
  | .setOutputPower _ => d.setOutputPower
  | .setCrc _ => d.setCrc
  | .startReceive => d.startReceive
  | .startTransmit _ => d.startTransmit
  | .finishTransmit => d.finishTransmit
  | .readData _ => d.readData

def call (d : Driver) (c : Command) : DriverCall := .command c (d.status c)

/-- Commands up to the first that fails, and whether none did. -/
def calls (d : Driver) : List Command → List DriverCall × Bool
  | [] => ([], true)
  | c :: cs =>
    if d.status c ≠ 0 then ([d.call c], false)
    else (d.call c :: (d.calls cs).1, (d.calls cs).2)

end Driver

/-! ## The port -/

/-- What the two radios differ in. -/
structure Traits where
  irqTxDone : UInt32
  irqRxDone : UInt32
  irqCrcErr : UInt32
  irqHeaderErr : UInt32
  crcLen : UInt8
  headerErrQuirk : Bool

/-- The SX1262, its IRQ bits as the driver numbers them. -/
def sx126xTraits (irqTxDone irqRxDone irqCrcErr irqHeaderErr : UInt32) : Traits :=
  { irqTxDone, irqRxDone, irqCrcErr, irqHeaderErr, crcLen := 1, headerErrQuirk := false }

/-- The LR1110: a corrupted LoRa header can desync its RX buffer. -/
def lr1110Traits (irqTxDone irqRxDone irqCrcErr irqHeaderErr : UInt32) : Traits :=
  { irqTxDone, irqRxDone, irqCrcErr, irqHeaderErr, crcLen := 2, headerErrQuirk := true }

structure LoraRadio where
  txStarted : Bool := false
  deriving DecidableEq, Repr

/-- The port a call leaves, the driver calls it made and what it returned. -/
structure PortCall (α : Type) where
  port : LoraRadio
  calls : List DriverCall
  result : α

/-- A packet off the air. -/
structure Reception where
  raw : Payload
  rssi : Int8
  snr : Int8

namespace LoraRadio

/-- Standby, the tuning itself, then back to receiving. -/
def tuning (t : Traits) (s : RadioSettings) : List Command :=
  [.standby, .setFrequency s.freqHz, .setBandwidth s.bwX100khz, .setSpreadingFactor s.sf,
    .setCodingRate s.cr, .setPreambleLength (if s.sf ≤ 8 then 32 else 16),
    .setOutputPower s.powerDbm.toInt8, .setCrc t.crcLen, .startReceive]

/-- Refuses rather than re-tunes while a transmission is on. -/
def apply (t : Traits) (d : Driver) (p : LoraRadio) (s : RadioSettings) : PortCall Bool :=
  if p.txStarted then ⟨p, [], false⟩
  else ⟨p, (d.calls (tuning t s)).1, (d.calls (tuning t s)).2⟩

def transmit (d : Driver) (p : LoraRadio) (raw : Payload) : PortCall Int :=
  if p.txStarted then ⟨p, [], -1⟩
  else if d.startTransmit ≠ 0 then
    ⟨p, [d.call .standby, d.call (.startTransmit raw), d.call .startReceive], -1⟩
  else ⟨{ p with txStarted := true }, [d.call .standby, d.call (.startTransmit raw)], 0⟩

def txDone (t : Traits) (d : Driver) (p : LoraRadio) : PortCall Bool :=
  if !p.txStarted then ⟨p, [], true⟩
  else if d.irqFlags &&& t.irqTxDone ≠ 0 then
    ⟨{ p with txStarted := false },
      [.getIrqFlags d.irqFlags, d.call .finishTransmit, d.call .startReceive], true⟩
  else ⟨p, [.getIrqFlags d.irqFlags], false⟩

/-- The packet in the radio's buffer, if it is whole and fits. -/
def readPacket (t : Traits) (d : Driver) : Option Reception :=
  if h : d.irqFlags &&& (t.irqCrcErr ||| t.irqHeaderErr) = 0 ∧ 0 < d.packetLength ∧
      d.packetLength ≤ 255 ∧ d.readData = 0 then
    some ⟨⟨(List.range d.packetLength.toNat).map d.buffer, by simp; omega⟩, d.rssi, d.snr⟩
  else none

def receive (t : Traits) (d : Driver) (p : LoraRadio) : PortCall (Option Reception) :=
  if d.irqFlags &&& t.irqRxDone = 0 then ⟨p, [.getIrqFlags d.irqFlags], none⟩
  else
    let quirk := t.headerErrQuirk && d.irqFlags &&& t.irqHeaderErr ≠ 0
    let peek := if quirk then [.getPacketLength d.headerLength] else []
    if quirk && d.headerLength = 0 then
      ⟨p, .getIrqFlags d.irqFlags :: peek ++ [d.call .standby, d.call .startReceive], none⟩
    else
      let fits := d.irqFlags &&& (t.irqCrcErr ||| t.irqHeaderErr) = 0 && 0 < d.packetLength &&
        d.packetLength ≤ 255
      let read := if fits then [d.call (.readData d.packetLength)] else []
      let levels := if (readPacket t d).isSome then [.getRssi d.rssi, .getSnr d.snr] else []
      ⟨p, .getIrqFlags d.irqFlags :: peek ++ .getPacketLength d.packetLength :: read ++
        d.call .startReceive :: levels, readPacket t d⟩

/-! ## What the port answers -/

/-- Whether `apply` succeeds, whatever the tuning. -/
def applies (t : Traits) (d : Driver) (p : LoraRadio) : Bool :=
  (p.apply t d RadioSettings.unset).result

/-- Whether `transmit` succeeds, whatever the packet. -/
def transmits (d : Driver) (p : LoraRadio) : Bool := !p.txStarted && d.startTransmit = 0

theorem calls_result (d : Driver) (cs : List Command) :
    (d.calls cs).2 = cs.all fun c => d.status c = 0 := by
  induction cs with
  | nil => rfl
  | cons c cs ih =>
    rw [Driver.calls, List.all_cons]
    by_cases failed : d.status c = 0
    · rw [if_neg (not_not.mpr failed), ih]
      simp [failed]
    · simp [failed]

theorem apply_result (t : Traits) (d : Driver) (p : LoraRadio) (s : RadioSettings) :
    (p.apply t d s).result = p.applies t d := by
  unfold applies apply
  cases p.txStarted with
  | true => rfl
  | false =>
    show (d.calls _).2 = (d.calls _).2
    rw [calls_result, calls_result]
    rfl

@[simp] theorem apply_port (t : Traits) (d : Driver) (p : LoraRadio) (s : RadioSettings) :
    (p.apply t d s).port = p := by
  unfold apply
  split <;> rfl

@[simp] theorem receive_port (t : Traits) (d : Driver) (p : LoraRadio) :
    (p.receive t d).port = p := by
  unfold receive
  split
  · rfl
  dsimp only
  split <;> rfl

/-- A transmission that goes out. -/
theorem transmit_started {d : Driver} {p : LoraRadio} (ok : p.transmits d = true) (raw : Payload) :
    p.transmit d raw = ⟨⟨true⟩, [.command .standby d.standby, .command (.startTransmit raw) 0], 0⟩ := by
  simp only [transmits, Bool.and_eq_true, Bool.not_eq_true', decide_eq_true_eq] at ok
  obtain ⟨free, started⟩ := ok
  simp [transmit, free, started, Driver.call, Driver.status]

/-- A transmission the radio refuses. -/
theorem transmit_failed {d : Driver} {p : LoraRadio} (free : p.txStarted = false)
    (failed : p.transmits d = false) (raw : Payload) :
    p.transmit d raw = ⟨p, [d.call .standby, d.call (.startTransmit raw),
      d.call .startReceive], -1⟩ ∧ d.startTransmit ≠ 0 := by
  simp only [transmits, free, Bool.not_false, Bool.true_and, decide_eq_false_iff_not] at failed
  refine ⟨?_, failed⟩
  simp [transmit, free, failed]

end LoraRadio

end MeshPigeon
