import MeshPigeon.Core.Handled
import MeshPigeon.Framing.Drain
import MeshPigeon.Transport.WifiLink

/-!
# The processor and the Wi-Fi link

Either one calls the other: the link hands over requests and reports its state, and
a request may reconfigure the link it came over.
-/
namespace MeshPigeon

/-- What the board answers while a request is handled. -/
structure Answers extends Around where
  batteryMv : UInt16 := 0xFFFF
  macSuffix : List UInt8 := []
  fillCapabilities : List UInt32 → List UInt32 × Nat := fun out => (out, 0)
  applyOk : Bool := true
  transmitOk : Bool := true

/-- An entry of the log. -/
inductive WifiSeen where
  | core (a : Act)
  | link (e : WifiTransport.Effect)
  | opened (i : Slot)

def WifiTransport.Effect.hookCall : WifiTransport.Effect → HookCall
  | .dropped i => .removeSink i.sink
  | .changed _ link => .wifiStateChanged link

/-- The hooks of a board with this link. -/
def WifiTransport.hooks (w : WifiTransport) (a : Answers) : Hooks where
  batteryMv := a.batteryMv
  macSuffix := a.macSuffix
  link := w.linkReport a.toAround
  wifiSupported := true
  fillCapabilities := a.fillCapabilities
  applyWifi := fun settings => (w.apply a.toAround settings).2.map Effect.hookCall

structure WifiBoard (σ : Type) where
  core : CommandProcessor σ
  wifi : WifiTransport

/-- One slot's turn in `pump_clients`: the bytes waiting, whether a frame could not be
written in full, and whether the peer is still there. -/
structure Turn where
  bytes : List (UInt8 × Answers) := []
  writeFailed : Bool := false
  connected : Bool := true

/-- What one call of `pump` meets. -/
structure Pumped where
  status : WlStatus
  around : Around := {}
  incoming : Bool := false
  turns : Slot → Turn := fun _ => {}

/-- What happens to the board. The other connections have sinks of their own. -/
inductive WifiEvent where
  /-- from setup -/
  | apply (a : Around) (settings : DeviceSettings)
  | pump (p : Pumped)
  /-- a push to this slot could not be written in full -/
  | writeFailed (i : Slot)
  | connect (n : Nat)
  | relink (n : Nat)
  | disconnect (n : Nat)
  | envelope (n : Nat) (a : Answers) (data : List UInt8)
  | packetReceived (rssi snr : Int8) (raw : Payload)
  | poll (millis : UInt32) (txDone : Bool)
  | txResult (seq : UInt32) (ok : Bool)

/-- A sink that is no slot's. -/
def otherSink (n : Nat) : Sink := kMaxClients + n

namespace WifiBoard

variable {σ : Type}

/-- The board a call leaves, and what it logged. -/
abbrev Ran (σ : Type) := WifiBoard σ × List WifiSeen

def Ran.andThen (r : Ran σ) (f : WifiBoard σ → Ran σ) : Ran σ :=
  ((f r.1).1, r.2 ++ (f r.1).2)

/-- The processor hears of what the link did. -/
def settle (b : WifiBoard σ) (r : WifiTransport.Linked) : Ran σ :=
  let o := b.core.hookCalls (r.2.map WifiTransport.Effect.hookCall)
  (⟨o.state, r.1⟩, r.2.map .link ++ o.acts.map .core)

/-- A call of the processor that leaves the link alone. -/
def aside (b : WifiBoard σ) (o : Outcome σ) : Ran σ := (⟨o.state, b.wifi⟩, o.acts.map .core)

/-- The link after the calls of a request. -/
def perform (a : Around) (w : WifiTransport) : List Act → WifiTransport × List WifiSeen
  | [] => (w, [])
  | .applyWifi settings :: acts =>
    let applied := w.apply a settings
    let rest := perform a applied.1 acts
    (rest.1, .core (.applyWifi settings) :: applied.2.map .link ++ rest.2)
  | act :: acts =>
    let rest := perform a w acts
    (rest.1, .core act :: rest.2)

/-- The slots, one of them changed. -/
def setClient (b : WifiBoard σ) (i : Slot) (c : WifiTransport.TcpClient) : WifiBoard σ :=
  { b with wifi := { b.wifi with clients := Function.update b.wifi.clients i c } }

/-- The registry is asked first, so `add_sink` does not fail. -/
def acceptClients (b : WifiBoard σ) (incoming : Bool) : Ran σ :=
  if !b.wifi.serverUp || b.wifi.server.isNone || !incoming then (b, [])
  else
    match (List.finRange kMaxClients).find? fun i => !(b.wifi.clients i).inUse with
    | none => (b, [])
    | some i =>
      if b.core.sinks.length ≥ kMaxSinks then (b, [])
      else
        ({ core := (b.core.setAuthenticated i.sink false).addSink i.sink
           wifi := { b.wifi with
            clients := Function.update b.wifi.clients i
              { inUse := true, broken := false, reader := FrameReader.reset }
            numClients := b.wifi.numClients + 1 } },
          [.opened i])

variable [SettingsStore σ]

/-- An envelope arrives, over whatever link. -/
def request (pbDecode : List UInt8 → Option ClientToRadio) (b : WifiBoard σ) (a : Answers)
    (data : List UInt8) (sink : Sink) : Ran σ :=
  let env : Env := ⟨some (b.wifi.hooks a), a.applyOk, a.transmitOk⟩
  let o := b.core.onEnvelope pbDecode env data sink
  let performed := perform a.toAround b.wifi o.acts
  (⟨o.state, performed.1⟩, performed.2)

/-- `drain_frames`. A socket that was stopped has no bytes waiting; nothing here
relies on it. -/
def drain (pbDecode : List UInt8 → Option ClientToRadio) (b : WifiBoard σ) (i : Slot) :
    List (UInt8 × Answers) → Ran σ
  | [] => (b, [])
  | (byte, a) :: bytes =>
    let fed := (b.wifi.clients i).reader.feed byte
    let b := b.setClient i { b.wifi.clients i with reader := fed.1 }
    match fed.2 with
    | .envelope data => (b.request pbDecode a data i.sink).andThen fun b => b.drain pbDecode i bytes
    | _ => b.drain pbDecode i bytes

/-- The second half of a slot's turn. -/
def hangUp (b : WifiBoard σ) (i : Slot) (t : Turn) : Ran σ :=
  let b := if t.writeFailed then b.setClient i { b.wifi.clients i with broken := true } else b
  if (b.wifi.clients i).broken || !t.connected then b.settle (b.wifi.dropClient i) else (b, [])

/-- One turn of the loop of `pump_clients`. -/
def turn (pbDecode : List UInt8 → Option ClientToRadio) (b : WifiBoard σ) (i : Slot) (t : Turn) :
    Ran σ :=
  if !(b.wifi.clients i).inUse then (b, [])
  else
    Ran.andThen
      (if (b.wifi.clients i).broken then (b, [])
        else b.drain pbDecode i (t.bytes.take frameMaxDrainBytesPerPump))
      fun b => b.hangUp i t

def pumpClients (pbDecode : List UInt8 → Option ClientToRadio) (turns : Slot → Turn)
    (b : WifiBoard σ) : List Slot → Ran σ
  | [] => (b, [])
  | i :: is => (b.turn pbDecode i (turns i)).andThen fun b => b.pumpClients pbDecode turns is

def pump (pbDecode : List UInt8 → Option ClientToRadio) (b : WifiBoard σ) (p : Pumped) : Ran σ :=
  if !b.wifi.usable then (b, [])
  else
    ((b.settle (b.wifi.drive p.status p.around)).andThen fun b =>
      b.acceptClients p.incoming).andThen fun b =>
        b.pumpClients pbDecode p.turns (List.finRange kMaxClients)

def step (pbDecode : List UInt8 → Option ClientToRadio) (b : WifiBoard σ) : WifiEvent → Ran σ
  | .apply a settings => b.settle (b.wifi.apply a settings)
  | .pump p => b.pump pbDecode p
  | .writeFailed i => (b.setClient i { b.wifi.clients i with broken := true }, [])
  | .connect n => b.aside (b.core.step pbDecode (.connect (otherSink n)))
  | .relink n => b.aside (b.core.step pbDecode (.relink (otherSink n)))
  | .disconnect n => b.aside (b.core.step pbDecode (.disconnect (otherSink n)))
  | .envelope n a data => b.request pbDecode a data (otherSink n)
  | .packetReceived rssi snr raw => b.aside (b.core.step pbDecode (.packetReceived rssi snr raw))
  | .poll millis txDone => b.aside (b.core.step pbDecode (.poll millis txDone))
  | .txResult seq ok => b.aside (b.core.step pbDecode (.txResult seq ok))

def run (pbDecode : List UInt8 → Option ClientToRadio) (b : WifiBoard σ) : List WifiEvent → Ran σ
  | [] => (b, [])
  | e :: es => (b.step pbDecode e).andThen fun b => b.run pbDecode es

/-- The link begins over a processor, then everything happens to the board. -/
def lifetime (pbDecode : List UInt8 → Option ClientToRadio) (core : CommandProcessor σ)
    (a : Around) (events : List WifiEvent) : Ran σ :=
  ((WifiBoard.mk core {}).settle (WifiTransport.begin a)).andThen fun b => b.run pbDecode events

end WifiBoard

end MeshPigeon
