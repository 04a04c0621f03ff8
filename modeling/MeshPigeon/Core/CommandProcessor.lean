import MeshPigeon.Core.Messages

/-!
# The command processor

`command_processor.h` and `command_processor.cpp`: the dispatcher a board feeds
envelopes to. A member function maps the object to the object it leaves and the
calls it made on its collaborators, in order. What a collaborator answers comes
with the call, in `Env`.
-/
namespace MeshPigeon

/-- A connection, `IFrameSink*`. -/
abbrev Sink := Nat

/-! ## Collaborators -/

structure UptimeClock where
  lastMs : UInt32 := 0
  rollovers : UInt32 := 0
  bootCount : UInt32 := 0
  deriving DecidableEq, Repr

namespace UptimeClock

/-- A smaller reading of `millis()` means it wrapped. -/
def poll (c : UptimeClock) (now : UInt32) : UptimeClock :=
  { c with rollovers := if now < c.lastMs then c.rollovers + 1 else c.rollovers, lastMs := now }

def uptimeMs64 (c : UptimeClock) : UInt64 := c.rollovers.toUInt64 <<< 32 ||| c.lastMs.toUInt64

end UptimeClock

/-- What the board knows about its links when a status is built. -/
structure LinkReport where
  fillStatus : Status → Status
  bleClients : UInt8
  usbCdcClients : UInt8
  wifiTcpClients : UInt8

/-- How `apply_wifi` calls back before it returns. -/
inductive HookCall where
  | wifiStateChanged (link : LinkReport)
  | removeSink (sink : Sink)

/-- `IBoardHooks`, as it answers during one call of the processor. -/
structure Hooks where
  batteryMv : UInt16
  /-- the five bytes `mac_suffix` leaves in its argument -/
  macSuffix : List UInt8
  link : LinkReport
  wifiSupported : Bool
  fillCapabilities : List UInt32 → List UInt32 × Nat
  applyWifi : DeviceSettings → List HookCall

structure Env where
  hooks : Option Hooks
  applyOk : Bool
  transmitOk : Bool

/-- The calls the processor makes; a `frame` goes to each connection in its list. -/
inductive Act where
  | frame (dest : List Sink) (msg : RadioToClient)
  | storeAppend (e : StoredPacket)
  | storeClear
  | radioBegin
  | radioApply (s : RadioSettings)
  | radioTransmit (raw : Payload)
  | save (s : RadioSettings)
  | saveDevice (s : DeviceSettings)
  | clearDevice
  | rebootToBootloader
  | reboot
  | factoryReset
  | setDeviceName (name : CharArray (kNameMax + 1))
  | applyWifi (s : DeviceSettings)
  deriving DecidableEq, Repr

/-! ## State -/

def kMaxSinks : Nat := 8
def kFirstOwnerGraceMs : UInt64 := 300000
def kAuthFailsBeforeDelay : UInt8 := 3
def kAuthFailDelayMs : UInt64 := 1000
def kMaxFetchPerRequest : UInt32 := 64
def kTxPowerMax : UInt32 := 22
def kSpecVersion : UInt32 := 2

/-- "MeshPigeon-" -/
def kDefaultNamePrefix : List UInt8 :=
  [0x4D, 0x65, 0x73, 0x68, 0x50, 0x69, 0x67, 0x65, 0x6F, 0x6E, 0x2D]

structure CommandProcessor (σ : Type) where
  store : Store
  clock : UptimeClock
  settingsStore : σ
  boardName : CharArray 17
  fwVersion : CharArray 16
  settings : RadioSettings
  setCountSinceBoot : UInt32
  device : DeviceSettings
  radioOk : Bool
  noiseFloorDbm : Int32
  authFails : UInt8
  authBackoffUntil : UInt64
  txPending : Bool
  txPendingSeq : UInt32
  response : RadioToClient
  sinks : List Sink
  /-- the flag each connection object carries -/
  authenticated : Sink → Bool

/-- The object a call leaves, and the calls it made. -/
structure Outcome (σ : Type) where
  state : CommandProcessor σ
  acts : List Act

def Outcome.andThen {σ : Type} (o : Outcome σ) (f : CommandProcessor σ → Outcome σ) : Outcome σ :=
  { state := (f o.state).state, acts := o.acts ++ (f o.state).acts }

namespace CommandProcessor

variable {σ : Type}

def quiet (s : CommandProcessor σ) : Outcome σ := { state := s, acts := [] }

/-- One call on a collaborator. -/
def act (s : CommandProcessor σ) (a : Act) : Outcome σ := { state := s, acts := [a] }

/-- The constructor. `boot` sets the members given as defaults here. -/
def new (store : Store) (clock : UptimeClock) (settingsStore : σ) (boardName fwVersion : List UInt8)
    (response : RadioToClient) : CommandProcessor σ where
  store := store
  clock := clock
  settingsStore := settingsStore
  boardName := copyStr 16 boardName
  fwVersion := copyStr 15 fwVersion
  settings := RadioSettings.unset
  setCountSinceBoot := 0
  device := DeviceSettings.defaults
  radioOk := false
  noiseFloorDbm := 0
  authFails := 0
  authBackoffUntil := 0
  txPending := false
  txPendingSeq := 0
  response := response
  sinks := []
  authenticated := fun _ => false

def addSink (s : CommandProcessor σ) (sink : Sink) : CommandProcessor σ :=
  if s.sinks.length ≥ kMaxSinks then s else { s with sinks := s.sinks ++ [sink] }

def removeSink (s : CommandProcessor σ) (sink : Sink) : CommandProcessor σ :=
  { s with sinks := s.sinks.erase sink }

def effectiveName (s : CommandProcessor σ) (hooks : Option Hooks) : CharArray (kNameMax + 1) :=
  if s.device.name.str ≠ [] then copyStr kNameMax s.device.name.str
  else
    let suffix := match hooks with
      | none => [0x30, 0x30, 0x30, 0x30]
      | some h => cstr (h.macSuffix.take 4)
    copyStr kNameMax (kDefaultNamePrefix ++ suffix)

def boot [SettingsStore σ] (s : CommandProcessor σ) (beginOk applyOk : Bool) : Outcome σ :=
  let settings := (SettingsStore.load s.settingsStore).getD RadioSettings.unset
  let device := SettingsStore.loadDevice s.settingsStore
  let device := if device.wifiPort = 0 then { device with wifiPort := kWifiPortDefault } else device
  { state := { s with settings, setCountSinceBoot := 0, device, radioOk := beginOk && applyOk }
    acts := .radioBegin :: if beginOk then [.radioApply settings] else [] }

def firstOwnerLockActive (s : CommandProcessor σ) : Bool :=
  s.setCountSinceBoot ≥ 1 && s.clock.uptimeMs64 < kFirstOwnerGraceMs

/-! ## Auth -/

def pinMatches (s : CommandProcessor σ) (pin : List UInt8) (len : Nat) : Bool :=
  if len = 0 ∨ len > kPinMax then false
  else pin.take len = s.device.pin.1.take len && s.device.pin.1.getD len 0 = 0

def authBackoffActive (s : CommandProcessor σ) : Bool :=
  s.authBackoffUntil ≠ 0 && (s.clock.uptimeMs64 - s.authBackoffUntil).toInt64 < 0

/-- Saturating, not wrapping. -/
def noteAuthFailure (s : CommandProcessor σ) : CommandProcessor σ :=
  let fails := if s.authFails < 0xFF then s.authFails + 1 else s.authFails
  { s with
    authFails := fails
    authBackoffUntil :=
      if fails > kAuthFailsBeforeDelay then s.clock.uptimeMs64 + kAuthFailDelayMs
      else s.authBackoffUntil }

/-- Every gate and every filter asks this one question. -/
def isAuthorized (s : CommandProcessor σ) (sink : Sink) : Bool :=
  s.authenticated sink || s.device.pinIsDefault

def setAuthenticated (s : CommandProcessor σ) (sink : Sink) (flag : Bool) : CommandProcessor σ :=
  { s with authenticated := fun c => if c = sink then flag else s.authenticated c }

/-! ## Response delivery -/

/-- The one place a response is reset. -/
def beginResponse (s : CommandProcessor σ) (id : UInt32) : CommandProcessor σ :=
  { s with response := { id, body := .none } }

def setBody (s : CommandProcessor σ) (body : Body) : CommandProcessor σ :=
  { s with response := { s.response with body } }

def deliver (s : CommandProcessor σ) (dest : Sink) : Outcome σ := s.act (.frame [dest] s.response)

/-- The connections a push goes to. -/
def recipients (s : CommandProcessor σ) (except : Option Sink) (authorizedOnly : Bool) : List Sink :=
  s.sinks.filter fun c => some c ≠ except && (!authorizedOnly || s.isAuthorized c)

def broadcastResponse (s : CommandProcessor σ) (except : Option Sink) (authorizedOnly : Bool) :
    Outcome σ := s.act (.frame (s.recipients except authorizedOnly) s.response)

def radioSettingsMessage (settings : RadioSettings) : RadioSettingsMessage where
  freqHz := settings.freqHz
  bandwidthHz := settings.bwX100khz.toUInt32 * 10
  sf := settings.sf.toUInt32
  cr := settings.cr.toUInt32
  powerDbm := settings.powerDbm.toUInt32
  configEpoch := settings.configEpoch

def buildRadioSettings (s : CommandProcessor σ) : CommandProcessor σ :=
  s.setBody (.radioSettings (radioSettingsMessage s.settings))

/-- The PIN is write-only on the wire. -/
def buildDeviceSettings (s : CommandProcessor σ) (hooks : Option Hooks) : CommandProcessor σ :=
  s.setBody (.deviceSettings {
    name := s.effectiveName hooks
    wifiEnabled := s.device.wifiEnabled
    wifiSsid := copyStr kSsidMax s.device.wifiSsid.str
    wifiPassword := copyStr kPassMax s.device.wifiPassword.str
    wifiPort := s.device.wifiPort.toUInt32 })

def buildStatus (s : CommandProcessor σ) (link : Option LinkReport) : CommandProcessor σ :=
  let m := s.response.body.statusMember
  match link with
  | none => s.setBody (.status { m with bleClients := 0, usbCdcClients := 0, wifiTcpClients := 0 })
  | some l => s.setBody (.status { l.fillStatus m with
      bleClients := l.bleClients.toUInt32
      usbCdcClients := l.usbCdcClients.toUInt32
      wifiTcpClients := l.wifiTcpClients.toUInt32 })

def packetEntry (e : StoredPacket) : PacketEntry where
  seq := e.seq
  raw := e.raw
  uptimeMs := e.uptimeMs
  rssi := e.rssi.toInt32
  snr := e.snr.toInt32
  origin := if e.flags &&& kFlagSent ≠ 0 then .sent else .received

def buildPacketEntry (s : CommandProcessor σ) (id : UInt32) (e : StoredPacket) :
    CommandProcessor σ := (s.beginResponse id).setBody (.packetEntry (packetEntry e))

def sendError (s : CommandProcessor σ) (id : UInt32) (code : ErrorCode) (dest : Sink) : Outcome σ :=
  let s := s.beginResponse id
  (s.setBody (.error code s.response.body.errorMessage)).deliver dest

def sendOk (s : CommandProcessor σ) (id : UInt32) (dest : Sink) : Outcome σ :=
  ((s.beginResponse id).setBody .ok).deliver dest

def sendPong (s : CommandProcessor σ) (id : UInt32) (payload : List UInt8) (dest : Sink) :
    Outcome σ := ((s.beginResponse id).setBody (.pong (payload.take 500))).deliver dest

def sendRadioSettings (s : CommandProcessor σ) (id : UInt32) (dest : Sink) : Outcome σ :=
  (s.beginResponse id).buildRadioSettings.deliver dest

def sendDeviceSettings (s : CommandProcessor σ) (hooks : Option Hooks) (id : UInt32) (dest : Sink) :
    Outcome σ := ((s.beginResponse id).buildDeviceSettings hooks).deliver dest

def sendStatus (s : CommandProcessor σ) (hooks : Option Hooks) (id : UInt32) (dest : Sink) :
    Outcome σ := ((s.beginResponse id).buildStatus (hooks.map Hooks.link)).deliver dest

def sendDeviceInfo (s : CommandProcessor σ) (hooks : Option Hooks) (id : UInt32) (dest : Sink) :
    Outcome σ :=
  let s := s.beginResponse id
  let m := s.response.body.deviceInfoMember
  let capabilities := match hooks with
    | none => (m.capabilities, 0)
    | some h => h.fillCapabilities m.capabilities
  (s.setBody (.deviceInfo { m with
    specVersion := kSpecVersion
    fwVersion := copyStr 15 s.fwVersion.str
    boardName := copyStr 16 s.boardName.str
    capabilities := capabilities.1
    capabilitiesCount := min capabilities.2 kMaxCapabilities
    uptimeMs := s.clock.uptimeMs64
    bootCount := s.clock.bootCount
    store := some {
      count := s.store.1.count
      capacityBytes := s.store.1.capacity
      dropped := s.store.1.dropped
      oldestSeq := s.store.1.oldestSeq }
    radioConfigEpoch := s.settings.configEpoch
    batteryMv := (hooks.elim 0xFFFF Hooks.batteryMv).toUInt32
    radioOk := s.radioOk
    noiseFloorDbm := s.noiseFloorDbm
    -- an unauthenticated client sees the lock before it hits it
    authRequired := !s.isAuthorized dest })).deliver dest

/-! ## Pushes -/

def emitTxResult (s : CommandProcessor σ) (seq : UInt32) (ok : Bool) : Outcome σ :=
  ((s.beginResponse 0).setBody (.txResult seq ok)).broadcastResponse none false

def notifyRadioChanged (s : CommandProcessor σ) (except : Sink) : Outcome σ :=
  (s.beginResponse 0).buildRadioSettings.broadcastResponse (some except) true

def notifyDeviceSettingsChanged (s : CommandProcessor σ) (hooks : Option Hooks) (except : Sink) :
    Outcome σ :=
  ((s.beginResponse 0).buildDeviceSettings hooks).broadcastResponse (some except) true

def onWifiStateChanged (s : CommandProcessor σ) (link : Option LinkReport) : Outcome σ :=
  ((s.beginResponse 0).buildStatus link).broadcastResponse none false

/-! ## Handlers -/

/-- Go on if the client may proceed; otherwise answer AUTH_REQUIRED. -/
def requireAuth (s : CommandProcessor σ) (id : UInt32) (sink : Sink) (proceed : Outcome σ) :
    Outcome σ := if s.isAuthorized sink then proceed else s.sendError id .authRequired sink

/-- The wire values a tuning may carry, checked before they are narrowed. -/
def validTuning (m : RadioSettingsMessage) : Bool :=
  !(m.bandwidthHz = 0 || m.bandwidthHz % 10 ≠ 0 || m.bandwidthHz / 10 > 0xFFFF || m.freqHz = 0 ||
    m.sf < 5 || m.sf > 12 || m.cr < 5 || m.cr > 8 || m.powerDbm > kTxPowerMax)

/-- The tuning a request asks for, its epoch not yet set. -/
def requestedTuning (m : RadioSettingsMessage) : RadioSettings :=
  { RadioSettings.unset with
    freqHz := m.freqHz
    bwX100khz := (m.bandwidthHz / 10).toUInt16
    sf := m.sf.toUInt8
    cr := m.cr.toUInt8
    powerDbm := m.powerDbm.toUInt8 }

def handleSetRadioSettings [SettingsStore σ] (s : CommandProcessor σ) (env : Env) (id : UInt32)
    (settings : Option RadioSettingsMessage) (sink : Sink) : Outcome σ :=
  s.requireAuth id sink <|
    match settings with
    | none => s.sendError id .badPayload sink
    | some m =>
      if !validTuning m then s.sendError id .badPayload sink
      else if s.firstOwnerLockActive || s.txPending then s.sendError id .busy sink
      else
        let tuning := requestedTuning m
        (s.act (.radioApply tuning)).andThen fun s =>
          if !env.applyOk then s.sendError id .txFailed sink
          else
            let tuning := { tuning with configEpoch := s.settings.configEpoch + 1 }
            let s := { s with
              radioOk := true
              settings := tuning
              settingsStore := SettingsStore.save s.settingsStore tuning
              setCountSinceBoot := s.setCountSinceBoot + 1 }
            (s.act (.save tuning)).andThen fun s =>
              (s.notifyRadioChanged sink).andThen fun s => s.sendRadioSettings id sink

/-- `store_.append`, with what it stored. -/
def storeAppend (s : CommandProcessor σ) (a : Store.Appended) : Outcome σ :=
  { state := { s with store := a.store }
    acts := a.stored.toList.map .storeAppend }

/-- The response comes first, then the outcome, even when the radio refuses outright. -/
def acceptPacket (s : CommandProcessor σ) (env : Env) (id : UInt32) (raw : Payload) (seq : UInt32)
    (sink : Sink) : Outcome σ :=
  (((s.beginResponse id).setBody (.packetAccepted seq)).deliver sink).andThen fun s =>
    (s.act (.radioTransmit raw)).andThen fun s =>
      if !env.transmitOk then s.emitTxResult seq false
      else quiet { s with txPending := true, txPendingSeq := seq }

def handleSendPacket (s : CommandProcessor σ) (env : Env) (id : UInt32) (raw : Payload)
    (sink : Sink) : Outcome σ :=
  s.requireAuth id sink <|
    if raw.1.length = 0 ∨ raw.1.length > 255 then s.sendError id .badPayload sink
    else if !s.radioOk then s.sendError id .noRadio sink
    else if s.txPending then s.sendError id .busy sink
    else
      let a := s.store.append s.clock.uptimeMs64 0 0 kFlagSent raw
      (s.storeAppend a).andThen fun s =>
        if a.seq = 0 then s.sendError id .busy sink else s.acceptPacket env id raw a.seq sink

/-- What `handle_fetch_packets` does with one entry. -/
def fetchEntry (id : UInt32) (sink : Sink) (st : Outcome σ × UInt32) (e : StoredPacket) :
    Bool × Outcome σ × UInt32 :=
  (true, st.1.andThen fun s => (s.buildPacketEntry id e).deliver sink, st.2 + 1)

def handleFetchPackets (s : CommandProcessor σ) (id sinceSeq maxCount : UInt32) (sink : Sink) :
    Outcome σ :=
  s.requireAuth id sink <|
    let maxCount :=
      if maxCount = 0 ∨ maxCount > kMaxFetchPerRequest then kMaxFetchPerRequest else maxCount
    let fetched := (s.store.fetchSince sinceSeq maxCount (fetchEntry id sink) (s.quiet, 0)).2
    fetched.1.andThen fun s =>
      ((s.beginResponse id).setBody (.fetchEnd fetched.2)).deliver sink

def wifiTouched (m : SetDeviceSettingsMessage) : Bool :=
  m.wifiEnabled.isSome || m.wifiSsid.isSome || m.wifiPassword.isSome || m.wifiPort.isSome

/-- Every field that is present passes its check. -/
def validDevice (m : SetDeviceSettingsMessage) : Bool :=
  m.name.all (fun a => DeviceSettings.validName a.str) &&
    m.pin.all (fun a => DeviceSettings.validPinSet a.str) &&
    m.wifiSsid.all (fun a => DeviceSettings.validSsid a.str) &&
    m.wifiPassword.all (fun a => DeviceSettings.validPassword a.str) &&
    m.wifiPort.all DeviceSettings.validPort

/-- The record with the fields that are present written over it. -/
def candidate (d : DeviceSettings) (m : SetDeviceSettingsMessage) : DeviceSettings where
  name := m.name.elim d.name fun a => copyStr kNameMax a.str
  pin := m.pin.elim d.pin fun a => DeviceSettings.setPin a.str
  wifiEnabled := m.wifiEnabled.getD d.wifiEnabled
  wifiSsid := m.wifiSsid.elim d.wifiSsid fun a => copyStr kSsidMax a.str
  wifiPassword := m.wifiPassword.elim d.wifiPassword fun a => copyStr kPassMax a.str
  wifiPort := m.wifiPort.elim d.wifiPort UInt32.toUInt16

/-- The writer gains the session, every other connection loses its own. -/
def moveSessions (s : CommandProcessor σ) (sink : Sink) : CommandProcessor σ :=
  { s with
    authenticated := fun c =>
      if c = sink then true else if c ∈ s.sinks then false else s.authenticated c
    authFails := 0
    authBackoffUntil := 0 }

def hookCall (s : CommandProcessor σ) : HookCall → Outcome σ
  | .wifiStateChanged link => s.onWifiStateChanged (some link)
  | .removeSink c => quiet (s.removeSink c)

/-- What `apply_wifi` does to the processor before it returns. -/
def hookCalls (s : CommandProcessor σ) : List HookCall → Outcome σ
  | [] => s.quiet
  | call :: calls => (s.hookCall call).andThen fun s => s.hookCalls calls

/-- `set_device_name`, when the write names the device. -/
def announceName (s : CommandProcessor σ) (env : Env) (m : SetDeviceSettingsMessage) : Outcome σ :=
  if m.name.isSome && env.hooks.isSome then s.act (.setDeviceName (s.effectiveName env.hooks))
  else s.quiet

/-- `apply_wifi`, when the write touches the link. -/
def applyWifi (s : CommandProcessor σ) (env : Env) (m : SetDeviceSettingsMessage) : Outcome σ :=
  match env.hooks with
  | none => s.quiet
  | some h =>
    if wifiTouched m then
      (s.act (.applyWifi s.device)).andThen fun s => s.hookCalls (h.applyWifi s.device)
    else s.quiet

def handleSetDeviceSettings [SettingsStore σ] (s : CommandProcessor σ) (env : Env) (id : UInt32)
    (m : SetDeviceSettingsMessage) (sink : Sink) : Outcome σ :=
  s.requireAuth id sink <|
    if !validDevice m then s.sendError id .badPayload sink
    else if wifiTouched m && env.hooks.any (fun h => !h.wifiSupported) then
      s.sendError id .notSupported sink
    else
      let next := candidate s.device m
      if next.same s.device then s.sendDeviceSettings env.hooks id sink
      else
        let s := { s with device := next }
        let s := if m.pin.isSome then s.moveSessions sink else s
        let s := { s with settingsStore := SettingsStore.saveDevice s.settingsStore s.device }
        (s.act (.saveDevice s.device)).andThen fun s =>
          (s.announceName env m).andThen fun s =>
            (s.applyWifi env m).andThen fun s =>
              (s.notifyDeviceSettingsChanged env.hooks sink).andThen fun s =>
                s.sendDeviceSettings env.hooks id sink

def handleAuth (s : CommandProcessor σ) (id : UInt32) (pin : CharArray (kPinMax + 1)) (sink : Sink) :
    Outcome σ :=
  if s.authBackoffActive then s.sendError id .authRequired sink
  else if s.authenticated sink || s.device.pinIsDefault || s.pinMatches pin.1 pin.strlen then
    { s.setAuthenticated sink true with authFails := 0 }.sendOk id sink
  else s.noteAuthFailure.sendError id .authRequired sink

/-- A board hook that does not call back. -/
def boardAct (s : CommandProcessor σ) (env : Env) (a : Act) : Outcome σ :=
  if env.hooks.isSome then s.act a else s.quiet

def handleRequest [SettingsStore σ] (s : CommandProcessor σ) (env : Env) (req : ClientToRadio)
    (sink : Sink) : Outcome σ :=
  match req.body with
  | .ping payload => s.sendPong req.id payload sink
  | .getDeviceInfo => s.sendDeviceInfo env.hooks req.id sink
  | .getRadioSettings => s.requireAuth req.id sink (s.sendRadioSettings req.id sink)
  | .setRadioSettings settings => s.handleSetRadioSettings env req.id settings sink
  | .sendPacket raw => s.handleSendPacket env req.id raw sink
  | .fetchPackets sinceSeq maxCount => s.handleFetchPackets req.id sinceSeq maxCount sink
  | .purgeStore =>
    s.requireAuth req.id sink <|
      ({ s with store := s.store.clear }.act .storeClear).andThen fun s => s.sendOk req.id sink
  | .bootloader =>
    s.requireAuth req.id sink <|
      (s.sendOk req.id sink).andThen fun s => s.boardAct env .rebootToBootloader
  | .getDeviceSettings => s.requireAuth req.id sink (s.sendDeviceSettings env.hooks req.id sink)
  | .setDeviceSettings m => s.handleSetDeviceSettings env req.id m sink
  | .getStatus => s.sendStatus env.hooks req.id sink
  | .auth pin => s.handleAuth req.id pin sink
  | .reboot =>
    s.requireAuth req.id sink <|
      (s.sendOk req.id sink).andThen fun s => s.boardAct env .reboot
  | .factoryReset =>
    s.requireAuth req.id sink <|
      let s := { s with
        device := DeviceSettings.defaults
        settingsStore := SettingsStore.clearDevice s.settingsStore
        store := s.store.clear }
      ((s.act .clearDevice).andThen fun s => s.act .storeClear).andThen fun s =>
        (s.sendOk req.id sink).andThen fun s => s.boardAct env .factoryReset
  | .unknown => s.sendError req.id .badCommand sink

/-- Requests carry a client-chosen id; one without is dropped like one that does not decode. -/
def decodeEnvelope (pbDecode : List UInt8 → Option ClientToRadio) (data : List UInt8) :
    Option ClientToRadio := (pbDecode data).filter fun req => req.id ≠ 0

def onEnvelope [SettingsStore σ] (pbDecode : List UInt8 → Option ClientToRadio)
    (s : CommandProcessor σ) (env : Env) (data : List UInt8) (sink : Sink) : Outcome σ :=
  match decodeEnvelope pbDecode data with
  | none => s.quiet
  | some req => s.handleRequest env req sink

def onPacketReceived (s : CommandProcessor σ) (rssi snr : Int8) (raw : Payload) : Outcome σ :=
  let s := { s with noiseFloorDbm := rssi.toInt32 - snr.toInt32 }
  let a := s.store.append s.clock.uptimeMs64 rssi snr kFlagReceived raw
  (s.storeAppend a).andThen fun s =>
    if a.seq = 0 then s.quiet
    else match a.stored with
      | none => s.quiet
      | some e => (s.buildPacketEntry 0 e).broadcastResponse none true

def onTxResult (s : CommandProcessor σ) (seq : UInt32) (ok : Bool) : Outcome σ :=
  if !s.txPending || seq ≠ s.txPendingSeq then s.quiet
  else { s with txPending := false }.emitTxResult seq ok

def poll (s : CommandProcessor σ) (now : UInt32) (txDone : Bool) : Outcome σ :=
  let s := { s with clock := s.clock.poll now }
  if s.txPending && txDone then s.onTxResult s.txPendingSeq true else s.quiet

end CommandProcessor

end MeshPigeon
