import Mathlib.Data.List.Induction
import MeshPigeon.Core.Responses

/-!
# Runs from boot

Everything a board does with the processor, in any order and with any answers
from the collaborators.
-/
namespace MeshPigeon

inductive Event where
  /-- a transport registers a connection, its auth flag cleared -/
  | connect (sink : Sink)
  /-- a connection object outlives its link: the flag is cleared in place -/
  | relink (sink : Sink)
  | disconnect (sink : Sink)
  | envelope (env : Env) (data : List UInt8) (sink : Sink)
  | packetReceived (rssi snr : Int8) (raw : Payload)
  | poll (now : UInt32) (txDone : Bool)
  | txResult (seq : UInt32) (ok : Bool)
  | wifiStateChanged (link : Option LinkReport)

namespace CommandProcessor

variable {σ : Type} [SettingsStore σ]

def step (pbDecode : List UInt8 → Option ClientToRadio) (s : CommandProcessor σ) : Event → Outcome σ
  | .connect sink => quiet ((s.setAuthenticated sink false).addSink sink)
  | .relink sink => quiet (s.setAuthenticated sink false)
  | .disconnect sink => quiet (s.removeSink sink)
  | .envelope env data sink => s.onEnvelope pbDecode env data sink
  | .packetReceived rssi snr raw => s.onPacketReceived rssi snr raw
  | .poll now txDone => s.poll now txDone
  | .txResult seq ok => s.onTxResult seq ok
  | .wifiStateChanged link => s.onWifiStateChanged link

def run (pbDecode : List UInt8 → Option ClientToRadio) (s : CommandProcessor σ) :
    List Event → Outcome σ
  | [] => s.quiet
  | e :: es => (s.step pbDecode e).andThen fun s => s.run pbDecode es

/-- The processor as `boot` leaves it: its store empty, no connection yet. -/
def Booted (s : CommandProcessor σ) : Prop :=
  ∃ (capacity : UInt32) (clock : UptimeClock) (settingsStore : σ) (boardName fwVersion : List UInt8)
    (response : RadioToClient) (beginOk applyOk : Bool),
    s = ((new (Store.new capacity) clock settingsStore boardName fwVersion response).boot
      beginOk applyOk).state

def Reachable (pbDecode : List UInt8 → Option ClientToRadio) (s : CommandProcessor σ) : Prop :=
  ∃ (s₀ : CommandProcessor σ) (events : List Event), Booted s₀ ∧ (s₀.run pbDecode events).state = s

variable {pbDecode : List UInt8 → Option ClientToRadio}

theorem run_append (s : CommandProcessor σ) (es fs : List Event) :
    s.run pbDecode (es ++ fs) =
      (s.run pbDecode es).andThen fun s => s.run pbDecode fs := by
  induction es generalizing s with
  | nil => simp [run, quiet, Outcome.andThen]
  | cons e es ih => simp [run, Outcome.andThen, ih]

theorem run_concat (s : CommandProcessor σ) (es : List Event) (e : Event) :
    s.run pbDecode (es ++ [e]) =
      (s.run pbDecode es).andThen fun s => s.step pbDecode e := by
  rw [run_append]
  simp [run, quiet, Outcome.andThen]

/-- What holds of a state and its history at boot and is kept by every event holds after any run. -/
theorem run_invariant (P : CommandProcessor σ → List Event → List Act → Prop)
    {s₀ : CommandProcessor σ} (start : P s₀ [] [])
    (kept : ∀ s es acts e, P s es acts →
      P (s.step pbDecode e).state (es ++ [e]) (acts ++ (s.step pbDecode e).acts))
    (events : List Event) :
    P (s₀.run pbDecode events).state events (s₀.run pbDecode events).acts := by
  induction events using List.reverseRecOn with
  | nil => exact start
  | append_singleton es e ih =>
    rw [run_concat]
    exact kept _ _ _ e ih

/-! ## A device for examples -/

/-- "1234" -/
def samplePin : CharArray (kPinMax + 1) := copyStr kPinMax [0x31, 0x32, 0x33, 0x34]

/-- Envelopes as they are on the wire, and what they decode to. -/
def samples : List (List UInt8 × ClientToRadio) :=
  [([0x08, 0x01, 0x62, 0x06, 0x0A, 0x04, 0x31, 0x32, 0x33, 0x34], ⟨1, .auth samplePin⟩),
    ([0x08, 0x02, 0x62, 0x06, 0x0A, 0x04, 0x34, 0x33, 0x32, 0x31],
      ⟨2, .auth (copyStr kPinMax [0x34, 0x33, 0x32, 0x31])⟩),
    ([0x08, 0x03, 0x52, 0x09, 0x0A, 0x01, 0x41, 0x12, 0x04, 0x31, 0x32, 0x33, 0x34],
      ⟨3, .setDeviceSettings { name := some (copyStr kNameMax [0x41]), pin := some samplePin }⟩),
    ([0x08, 0x04, 0x32, 0x03, 0x0A, 0x01, 0xAA], ⟨4, .sendPacket ⟨[0xAA], by decide⟩⟩)]

def sampleDecode (data : List UInt8) : Option ClientToRadio :=
  (samples.find? fun sample => sample.1 = data).map Prod.snd

/-- The envelope of the `i`-th sample arrives from `sink`. -/
def sampleEvent (i : Nat) (sink : Sink) : Event :=
  .envelope ⟨none, true, true⟩ ((samples.map Prod.fst).getD i []) sink

/-- A device that boots with a PIN of its own. -/
def sampleBoot : CommandProcessor MemorySettingsStore :=
  ((new (Store.new 1000) {} { savedDevice := some { DeviceSettings.defaults with pin := samplePin } }
    [] [] ⟨0, .none⟩).boot true true).state

theorem sampleBoot_booted : Booted sampleBoot :=
  ⟨1000, {}, { savedDevice := some { DeviceSettings.defaults with pin := samplePin } }, [], [],
    ⟨0, .none⟩, true, true, rfl⟩

end CommandProcessor

end MeshPigeon
