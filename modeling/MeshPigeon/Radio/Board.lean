import MeshPigeon.Core.Handled
import MeshPigeon.Lib.Trace
import MeshPigeon.Radio.LoraRadio

/-!
# The processor over the radio port

Everything the processor does, with the driver calls its calls of the port lead to.
-/
namespace MeshPigeon

/-- An entry of a board's log. -/
inductive Seen where
  | core (a : Act)
  | driver (c : DriverCall)
  /-- a transmission is over -/
  | airEnds
  deriving DecidableEq

structure RadioBoard (σ : Type) where
  core : CommandProcessor σ
  radio : LoraRadio

/-- What a board does, with the driver's answers on the way. -/
inductive RadioEvent where
  | connect (sink : Sink)
  | relink (sink : Sink)
  | disconnect (sink : Sink)
  | wifiStateChanged (link : Option LinkReport)
  | envelope (hooks : Option Hooks) (data : List UInt8) (sink : Sink) (d : Driver)
  | poll (millis : UInt32) (d : Driver)
  | receive (d : Driver)
  /-- the part is done sending -/
  | airEnds

namespace RadioBoard

variable {σ : Type}

/-- The port after a call of the processor, and the driver calls made. -/
def callRadio (t : Traits) (d : Driver) (p : LoraRadio) : Act → LoraRadio × List DriverCall
  | .radioApply s => ((p.apply t d s).port, (p.apply t d s).calls)
  | .radioTransmit raw => ((p.transmit d raw).port, (p.transmit d raw).calls)
  | _ => (p, [])

def perform (t : Traits) (d : Driver) (p : LoraRadio) : List Act → LoraRadio × List Seen
  | [] => (p, [])
  | a :: acts =>
    let called := callRadio t d p a
    let rest := perform t d called.1 acts
    (rest.1, .core a :: called.2.map .driver ++ rest.2)

/-- A call of the processor that leaves the radio alone. -/
def aside (b : RadioBoard σ) (o : Outcome σ) : RadioBoard σ × List Seen :=
  (⟨o.state, b.radio⟩, o.acts.map .core)

variable [SettingsStore σ]

/-- The processor's boot over a port just constructed. Bringing up the part, in
`begin`, is board work and not in the log. -/
def boot (t : Traits) (s : CommandProcessor σ) (beginOk : Bool) (d : Driver) :
    RadioBoard σ × List Seen :=
  let o := s.boot beginOk (({} : LoraRadio).applies t d)
  let performed := perform t d {} o.acts
  (⟨o.state, performed.1⟩, performed.2)

def step (pbDecode : List UInt8 → Option ClientToRadio) (t : Traits) (b : RadioBoard σ) :
    RadioEvent → RadioBoard σ × List Seen
  | .connect sink => b.aside (b.core.step pbDecode (.connect sink))
  | .relink sink => b.aside (b.core.step pbDecode (.relink sink))
  | .disconnect sink => b.aside (b.core.step pbDecode (.disconnect sink))
  | .wifiStateChanged link => b.aside (b.core.step pbDecode (.wifiStateChanged link))
  | .envelope hooks data sink d =>
    let env : Env := ⟨hooks, b.radio.applies t d, b.radio.transmits d⟩
    let o := b.core.step pbDecode (.envelope env data sink)
    let performed := perform t d b.radio o.acts
    (⟨o.state, performed.1⟩, performed.2)
  | .poll millis d =>
    -- `tx_pending_ && radio_.tx_done()`
    if b.core.txPending then
      let done := b.radio.txDone t d
      let o := b.core.step pbDecode (.poll millis done.result)
      (⟨o.state, done.port⟩, done.calls.map .driver ++ o.acts.map .core)
    else b.aside (b.core.step pbDecode (.poll millis false))
  | .receive d =>
    let received := b.radio.receive t d
    match received.result with
    | none => (⟨b.core, received.port⟩, received.calls.map .driver)
    | some x =>
      let o := b.core.step pbDecode (.packetReceived x.rssi x.snr x.raw)
      (⟨o.state, received.port⟩, received.calls.map .driver ++ o.acts.map .core)
  | .airEnds => (b, [.airEnds])

def run (pbDecode : List UInt8 → Option ClientToRadio) (t : Traits) (b : RadioBoard σ) :
    List RadioEvent → RadioBoard σ × List Seen
  | [] => (b, [])
  | e :: es =>
    let stepped := b.step pbDecode t e
    let rest := stepped.1.run pbDecode t es
    (rest.1, stepped.2 ++ rest.2)

/-- A processor is booted, then everything happens to it. -/
def lifetime (pbDecode : List UInt8 → Option ClientToRadio) (t : Traits) (s : CommandProcessor σ)
    (beginOk : Bool) (d : Driver) (events : List RadioEvent) : RadioBoard σ × List Seen :=
  let booted := boot t s beginOk d
  let ran := booted.1.run pbDecode t events
  (ran.1, booted.2 ++ ran.2)

variable {pbDecode : List UInt8 → Option ClientToRadio} {t : Traits}

theorem run_concat (b : RadioBoard σ) (es : List RadioEvent) (e : RadioEvent) :
    b.run pbDecode t (es ++ [e]) =
      (((b.run pbDecode t es).1.step pbDecode t e).1,
        (b.run pbDecode t es).2 ++ ((b.run pbDecode t es).1.step pbDecode t e).2) := by
  induction es generalizing b with
  | nil => simp [run]
  | cons e' es ih => simp [run, ih]

end RadioBoard

/-! ## The air -/

/-- Whether a transmission is running at the end of a log. -/
def running (log : List Seen) : Bool :=
  log.foldl (fun on entry => match entry with
    | .driver (.command (.startTransmit _) state) => on || state = 0
    | .airEnds => false
    | _ => on) false

/-- The driver raises neither TxDone nor RxDone while a transmission is running. -/
def Honest (t : Traits) (past : List Seen) : Seen → Prop
  | .driver (.getIrqFlags irq) =>
    irq &&& t.irqTxDone ≠ 0 ∨ irq &&& t.irqRxDone ≠ 0 → running past = false
  | _ => True

instance (t : Traits) (past : List Seen) (entry : Seen) : Decidable (Honest t past entry) := by
  unfold Honest
  split <;> infer_instance

/-- No transmission is started here. -/
def Unstarted (log : List Seen) : Prop :=
  ∀ raw state, .driver (.command (.startTransmit raw) state) ∉ log

/-- The last transmission started is the one of the packet accepted as `seq`. -/
def Keyed (seq : UInt32) (log : List Seen) : Prop :=
  ∃ past entry sink id state rest, log = past ++ [.core (.storeAppend entry),
    .core (.frame [sink] ⟨id, .packetAccepted seq⟩), .core (.radioTransmit entry.raw),
    .driver (.command .standby state), .driver (.command (.startTransmit entry.raw) 0)] ++ rest ∧
    entry.seq = seq ∧ Unstarted rest

/-- After that the driver has reported it done, and it was. -/
def Finished (t : Traits) (seq : UInt32) (log : List Seen) : Prop :=
  ∃ past irq rest, log = past ++ .driver (.getIrqFlags irq) :: rest ∧ irq &&& t.irqTxDone ≠ 0 ∧
    Keyed seq past ∧ running past = false ∧ Unstarted rest

end MeshPigeon
