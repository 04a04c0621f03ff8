import Mathlib.Data.List.FinRange
import MeshPigeon.Core.CommandProcessor
import MeshPigeon.Transport.Wifi

/-!
# The Wi-Fi link

`wifi_transport.h` and `wifi_transport.cpp`: the station, its TCP server and the
client slots. A member function maps the transport to the one it leaves and what it
did to the processor, in order. The driver and mDNS only listen; what is read of
them comes with the call.
-/
namespace MeshPigeon

abbrev kMaxClients : Nat := 4

/-- An index into the client array. -/
abbrev Slot := Fin kMaxClients

/-- A client object as the processor sees it. -/
def Slot.sink (i : Slot) : Sink := i.val

/-- `WiFi.status()`, as far as it matters. -/
inductive WlStatus where
  | connected
  | noSsidAvail
  | connectFailed
  | other
  deriving DecidableEq, Repr

/-- What the board reads while the transport works. -/
structure Around where
  millis : UInt32 := 0
  /-- `WiFi.SSID()`, `WiFi.localIP()` and `WiFi.RSSI()` -/
  ssid : List UInt8 := []
  localIp : Fin 4 → UInt8 := fun _ => 0
  rssi : Int32 := 0
  bleClients : UInt8 := 0
  usbCdcClients : UInt8 := 0

namespace WifiTransport

def kBackoffStartMs : UInt32 := 5000
def kBackoffMaxMs : UInt32 := 120000

inductive State where
  /-- disabled or unconfigured -/
  | off
  /-- associating, or waiting out the backoff -/
  | connecting
  | connected
  | authFail
  | error
  deriving DecidableEq, Repr

/-- A slot of the client array; `authenticated` is with the processor. -/
structure TcpClient extends Client where
  reader : FrameReader := FrameReader.new
  deriving DecidableEq, Repr

end WifiTransport

/-- The members after construction; `begin` sets the settings. -/
structure WifiTransport where
  settings : DeviceSettings := DeviceSettings.defaults
  state : WifiTransport.State := .off
  /-- the listener, by the port it is bound to -/
  server : Option UInt16 := none
  serverUp : Bool := false
  port : UInt16 := kWifiPortDefault
  lastAttemptMs : UInt32 := 0
  backoffMs : UInt32 := 0
  clients : Slot → WifiTransport.TcpClient := fun _ => {}
  numClients : Nat := 0

namespace WifiTransport

/-! ## Status -/

def State.wire : State → WifiState
  | .off => .off
  | .connecting => .connecting
  | .connected => .connected
  | .authFail => .authFail
  | .error => .error

/-- `str[0] = 0` -/
def clearStr {n : Nat} (a : CharArray (n + 1)) : CharArray (n + 1) :=
  ⟨a.1.set 0 0, by rw [List.length_set]; exact a.2.1, by
    have := a.2.1
    exact List.mem_of_getElem? (i := 0) (by rw [List.getElem?_set_self (by omega)])⟩

/-- The SSID is the associated one, empty when not associated. -/
def fillStatus (w : WifiTransport) (a : Around) (m : Status) : Status :=
  { m with
    wifiState := w.state.wire
    wifiSsid := if w.state = .connected then copyStr kSsidMax a.ssid else clearStr m.wifiSsid
    wifiPort := w.port.toUInt32
    wifiIpv4 := if w.state = .connected then List.ofFn a.localIp else []
    wifiRssi := if w.state = .connected then a.rssi else 0 }

/-- What the board's hooks report of the links. -/
def linkReport (w : WifiTransport) (a : Around) : LinkReport where
  fillStatus := w.fillStatus a
  bleClients := a.bleClients
  usbCdcClients := a.usbCdcClients
  wifiTcpClients := UInt8.ofNat w.numClients

/-! ## The link -/

/-- What the transport does to the processor. -/
inductive Effect where
  /-- `remove_sink`, and the socket is closed -/
  | dropped (i : Slot)
  /-- `state_` is given another value, and the processor is told -/
  | changed (s : State) (link : LinkReport)

/-- The transport a call leaves, and what it did to the processor. -/
abbrev Linked := WifiTransport × List Effect

def Linked.andThen (r : Linked) (f : WifiTransport → Linked) : Linked :=
  ((f r.1).1, r.2 ++ (f r.1).2)

/-- Is there a network to be on? -/
def usable (w : WifiTransport) : Bool := w.settings.wifiEnabled && w.settings.wifiSsid.str ≠ []

/-- Only transitions push. -/
def setState (a : Around) (s : State) (w : WifiTransport) : Linked :=
  if w.state = s then (w, [])
  else ({ w with state := s }, [.changed s ({ w with state := s }.linkReport a)])

def dropClient (i : Slot) (w : WifiTransport) : Linked :=
  if !(w.clients i).inUse then (w, [])
  else
    ({ w with
        clients := Function.update w.clients i { w.clients i with inUse := false }
        numClients := w.numClients - 1 },
      [.dropped i])

def dropClients (w : WifiTransport) : List Slot → Linked
  | [] => (w, [])
  | i :: is => (w.dropClient i).andThen fun w => w.dropClients is

/-- Walk the slots, not the count. -/
def stopServer (w : WifiTransport) : Linked :=
  (w.dropClients (List.finRange kMaxClients)).andThen fun w =>
    ({ w with server := none, serverUp := false }, [])

def startServer (w : WifiTransport) : Linked :=
  w.stopServer.andThen fun w => ({ w with server := some w.port, serverUp := true }, [])

def disconnect (a : Around) (w : WifiTransport) : Linked := w.setState a .off

def connectStart (a : Around) (w : WifiTransport) : Linked :=
  (w.setState a .connecting).andThen fun w =>
    ({ w with lastAttemptMs := a.millis, backoffMs := kBackoffStartMs }, [])

/-- On a transport just constructed. -/
def begin (a : Around) : Linked :=
  ({ settings := DeviceSettings.defaults } : WifiTransport).stopServer.andThen (setState a .off)

def newPort (settings : DeviceSettings) : UInt16 :=
  if settings.wifiPort = 0 then kWifiPortDefault else settings.wifiPort

def credentialsChanged (w : WifiTransport) (settings : DeviceSettings) : Bool :=
  !w.settings.wifiSsid.strEq settings.wifiSsid || !w.settings.wifiPassword.strEq settings.wifiPassword

/-- The transport with the settings in force. -/
def configured (w : WifiTransport) (settings : DeviceSettings) : WifiTransport :=
  { w with settings := { settings with wifiPort := newPort settings }, port := newPort settings }

def apply (a : Around) (settings : DeviceSettings) (w : WifiTransport) : Linked :=
  let wasEnabled := w.settings.wifiEnabled
  let credentials := w.credentialsChanged settings
  let portChanged := newPort settings ≠ w.port
  let w := w.configured settings
  if !w.usable then
    if wasEnabled then w.stopServer.andThen (disconnect a) else (w, [])
  else if !wasEnabled || credentials then
    (w.stopServer.andThen (disconnect a)).andThen (connectStart a)
  else if portChanged ∧ w.serverUp then w.startServer
  else (w, [])

/-- 5 s doubling to a 2 min cap. -/
def nextBackoff (ms : UInt32) : UInt32 :=
  let ms := if ms < kBackoffMaxMs then (if ms ≠ 0 then ms * 2 else kBackoffStartMs) else ms
  if ms > kBackoffMaxMs then kBackoffMaxMs else ms

/-- Another attempt, when its time has come. -/
def retry (a : Around) (w : WifiTransport) : Linked :=
  if a.millis - w.lastAttemptMs ≥ w.backoffMs then
    ({ w with lastAttemptMs := a.millis, backoffMs := nextBackoff w.backoffMs }, [])
  else (w, [])

/-- The state machine of `pump`, up to the sockets. -/
def drive (st : WlStatus) (a : Around) (w : WifiTransport) : Linked :=
  if w.state = .connected ∧ st ≠ .connected then
    (w.stopServer.andThen (setState a .connecting)).andThen fun w =>
      ({ w with lastAttemptMs := a.millis, backoffMs := kBackoffStartMs }, [])
  else if w.state = .connecting ∨ w.state = .authFail ∨ w.state = .error then
    match st with
    | .connected =>
      ((if !w.serverUp then w.startServer else (w, [])).andThen fun w =>
        ({ w with backoffMs := 0 }, [])).andThen (setState a .connected)
    | .noSsidAvail => (w.setState a .error).andThen (retry a)
    | .connectFailed => (w.setState a .authFail).andThen (retry a)
    | .other => (w.setState a .connecting).andThen (retry a)
  else (w, [])

end WifiTransport

end MeshPigeon
