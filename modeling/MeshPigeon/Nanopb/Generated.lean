import MeshPigeon.Core.Messages
import MeshPigeon.Nanopb.RoundTrip

/-!
# The generated messages

`device.pb.h`, `radio.pb.h` and `envelope.pb.h`: the struct of each message and
the table that is its `_FIELDLIST`. An enumeration is its number; a message
without fields is `Unit`.
-/
namespace MeshPigeon

open Nanopb

/-! ## Caps of the strings, bytes and arrays -/

instance short4 : Fact (4 < 2 ^ 15) := ⟨by decide⟩
instance shortPin : Fact (kPinMax < 2 ^ 15) := ⟨by decide⟩
instance short15 : Fact (15 < 2 ^ 15) := ⟨by decide⟩
instance short16 : Fact (16 < 2 ^ 15) := ⟨by decide⟩
instance shortName : Fact (kNameMax < 2 ^ 15) := ⟨by decide⟩
instance shortSsid : Fact (kSsidMax < 2 ^ 15) := ⟨by decide⟩
instance shortPass : Fact (kPassMax < 2 ^ 15) := ⟨by decide⟩
instance short64 : Fact (64 < 2 ^ 15) := ⟨by decide⟩
instance short255 : Fact (255 < 2 ^ 15) := ⟨by decide⟩
instance short500 : Fact (500 < 2 ^ 15) := ⟨by decide⟩
instance fewCapabilities : Fact (kMaxCapabilities < 2 ^ 16) := ⟨by decide⟩

/-! ## Radio -/

/-- Every field of the messages below is zero at first. -/
def RadioSettingsMessage.zero : RadioSettingsMessage := ⟨0, 0, 0, 0, 0, 0⟩

abbrev radioSettingsFields : List (PbField RadioSettingsMessage) := [
  singular uint32 1 (·.freqHz) fun v m => { m with freqHz := v },
  singular uint32 2 (·.bandwidthHz) fun v m => { m with bandwidthHz := v },
  singular uint32 3 (·.sf) fun v m => { m with sf := v },
  singular uint32 4 (·.cr) fun v m => { m with cr := v },
  singular uint32 5 (·.powerDbm) fun v m => { m with powerDbm := v },
  singular uint32 6 (·.configEpoch) fun v m => { m with configEpoch := v }]

instance : SoundTable radioSettingsFields := ⟨by decide, by decide⟩

structure SetRadioSettingsMessage where
  settings : Option RadioSettingsMessage := none
  deriving DecidableEq, Repr

abbrev setRadioSettingsFields : List (PbField SetRadioSettingsMessage) := [
  optional (message radioSettingsFields .zero) 1 (·.settings) fun v m => { m with settings := v }]

instance : SoundTable setRadioSettingsFields := ⟨by decide, by decide⟩

structure SendPacketMessage where
  raw : List UInt8 := []
  deriving DecidableEq, Repr

abbrev sendPacketFields : List (PbField SendPacketMessage) := [
  singular (bytes 255) 1 (·.raw) fun v m => { m with raw := v }]

instance : SoundTable sendPacketFields := ⟨by decide, by decide⟩

structure PacketAcceptedMessage where
  seq : UInt32 := 0
  deriving DecidableEq, Repr

abbrev packetAcceptedFields : List (PbField PacketAcceptedMessage) := [
  singular uint32 1 (·.seq) fun v m => { m with seq := v }]

instance : SoundTable packetAcceptedFields := ⟨by decide, by decide⟩

structure FetchPacketsMessage where
  sinceSeq : UInt32 := 0
  maxCount : UInt32 := 0
  deriving DecidableEq, Repr

abbrev fetchPacketsFields : List (PbField FetchPacketsMessage) := [
  singular uint32 1 (·.sinceSeq) fun v m => { m with sinceSeq := v },
  singular uint32 2 (·.maxCount) fun v m => { m with maxCount := v }]

instance : SoundTable fetchPacketsFields := ⟨by decide, by decide⟩

structure PacketEntryMessage where
  seq : UInt32 := 0
  raw : List UInt8 := []
  uptimeMs : UInt64 := 0
  rssi : Int32 := 0
  snr : Int32 := 0
  origin : UInt32 := 0
  deriving DecidableEq, Repr

abbrev packetEntryFields : List (PbField PacketEntryMessage) := [
  singular uint32 1 (·.seq) fun v m => { m with seq := v },
  singular (bytes 255) 2 (·.raw) fun v m => { m with raw := v },
  singular uint64 3 (·.uptimeMs) fun v m => { m with uptimeMs := v },
  singular int32 4 (·.rssi) fun v m => { m with rssi := v },
  singular int32 5 (·.snr) fun v m => { m with snr := v },
  singular uint32 6 (·.origin) fun v m => { m with origin := v }]

instance : SoundTable packetEntryFields := ⟨by decide, by decide⟩

structure FetchEndMessage where
  count : UInt32 := 0
  deriving DecidableEq, Repr

abbrev fetchEndFields : List (PbField FetchEndMessage) := [
  singular uint32 1 (·.count) fun v m => { m with count := v }]

instance : SoundTable fetchEndFields := ⟨by decide, by decide⟩

structure TxResultMessage where
  seq : UInt32 := 0
  success : Bool := false
  deriving DecidableEq, Repr

abbrev txResultFields : List (PbField TxResultMessage) := [
  singular uint32 1 (·.seq) fun v m => { m with seq := v },
  singular bool 2 (·.success) fun v m => { m with success := v }]

instance : SoundTable txResultFields := ⟨by decide, by decide⟩

/-! ## Device -/

abbrev storeInfoFields : List (PbField StoreInfo) := [
  singular uint32 1 (·.count) fun v m => { m with count := v },
  singular uint32 2 (·.capacityBytes) fun v m => { m with capacityBytes := v },
  singular uint32 3 (·.dropped) fun v m => { m with dropped := v },
  singular uint32 4 (·.oldestSeq) fun v m => { m with oldestSeq := v }]

instance : SoundTable storeInfoFields := ⟨by decide, by decide⟩

abbrev deviceInfoFields : List (PbField DeviceInfo) := [
  singular uint32 1 (·.specVersion) fun v m => { m with specVersion := v },
  singular (string 15) 2 (·.fwVersion) fun v m => { m with fwVersion := v },
  singular (string 16) 3 (·.boardName) fun v m => { m with boardName := v },
  repeated kMaxCapabilities 4 (fun m => (m.capabilities, m.capabilitiesCount)) fun v m =>
    { m with capabilities := v.1, capabilitiesCount := v.2 },
  singular uint64 5 (·.uptimeMs) fun v m => { m with uptimeMs := v },
  singular uint32 6 (·.bootCount) fun v m => { m with bootCount := v },
  optional (message storeInfoFields {}) 7 (·.store) fun v m => { m with store := v },
  singular uint32 8 (·.radioConfigEpoch) fun v m => { m with radioConfigEpoch := v },
  singular uint32 9 (·.batteryMv) fun v m => { m with batteryMv := v },
  singular bool 10 (·.radioOk) fun v m => { m with radioOk := v },
  singular bool 11 (·.authRequired) fun v m => { m with authRequired := v },
  singular int32 12 (·.noiseFloorDbm) fun v m => { m with noiseFloorDbm := v }]

instance : SoundTable deviceInfoFields := ⟨by decide, by decide⟩

def DeviceSettingsMessage.zero : DeviceSettingsMessage where
  name := copyStr kNameMax []
  wifiEnabled := false
  wifiSsid := copyStr kSsidMax []
  wifiPassword := copyStr kPassMax []
  wifiPort := 0

abbrev deviceSettingsFields : List (PbField DeviceSettingsMessage) := [
  singular (string kNameMax) 1 (·.name) fun v m => { m with name := v },
  singular bool 2 (·.wifiEnabled) fun v m => { m with wifiEnabled := v },
  singular (string kSsidMax) 3 (·.wifiSsid) fun v m => { m with wifiSsid := v },
  singular (string kPassMax) 4 (·.wifiPassword) fun v m => { m with wifiPassword := v },
  singular uint32 5 (·.wifiPort) fun v m => { m with wifiPort := v }]

instance : SoundTable deviceSettingsFields := ⟨by decide, by decide⟩

abbrev setDeviceSettingsFields : List (PbField SetDeviceSettingsMessage) := [
  optional (string kNameMax).toDataType 1 (·.name) fun v m => { m with name := v },
  optional (string kPinMax).toDataType 2 (·.pin) fun v m => { m with pin := v },
  optional bool.toDataType 3 (·.wifiEnabled) fun v m => { m with wifiEnabled := v },
  optional (string kSsidMax).toDataType 4 (·.wifiSsid) fun v m => { m with wifiSsid := v },
  optional (string kPassMax).toDataType 5 (·.wifiPassword) fun v m => { m with wifiPassword := v },
  optional uint32.toDataType 6 (·.wifiPort) fun v m => { m with wifiPort := v }]

instance : SoundTable setDeviceSettingsFields := ⟨by decide, by decide⟩

structure StatusMessage where
  wifiState : UInt32 := 0
  wifiSsid : CharArray (kSsidMax + 1) := copyStr kSsidMax []
  wifiIpv4 : List UInt8 := []
  wifiPort : UInt32 := 0
  wifiRssi : Int32 := 0
  bleClients : UInt32 := 0
  usbCdcClients : UInt32 := 0
  wifiTcpClients : UInt32 := 0
  deriving DecidableEq, Repr

abbrev statusFields : List (PbField StatusMessage) := [
  singular uint32 1 (·.wifiState) fun v m => { m with wifiState := v },
  singular (string kSsidMax) 2 (·.wifiSsid) fun v m => { m with wifiSsid := v },
  singular (bytes 4) 3 (·.wifiIpv4) fun v m => { m with wifiIpv4 := v },
  singular uint32 4 (·.wifiPort) fun v m => { m with wifiPort := v },
  singular int32 5 (·.wifiRssi) fun v m => { m with wifiRssi := v },
  singular uint32 6 (·.bleClients) fun v m => { m with bleClients := v },
  singular uint32 7 (·.usbCdcClients) fun v m => { m with usbCdcClients := v },
  singular uint32 8 (·.wifiTcpClients) fun v m => { m with wifiTcpClients := v }]

instance : SoundTable statusFields := ⟨by decide, by decide⟩

structure AuthMessage where
  pin : CharArray (kPinMax + 1) := copyStr kPinMax []
  deriving DecidableEq, Repr

abbrev authFields : List (PbField AuthMessage) := [
  singular (string kPinMax) 1 (·.pin) fun v m => { m with pin := v }]

instance : SoundTable authFields := ⟨by decide, by decide⟩

/-! ## Envelopes -/

/-- `Ping` and `Pong` alike. -/
structure PingMessage where
  payload : List UInt8 := []
  deriving DecidableEq, Repr

abbrev pingFields : List (PbField PingMessage) := [
  singular (bytes 500) 1 (·.payload) fun v m => { m with payload := v }]

instance : SoundTable pingFields := ⟨by decide, by decide⟩

structure ErrorMessage where
  code : UInt32 := 0
  message : CharArray 65 := copyStr 64 []
  deriving DecidableEq, Repr

abbrev errorFields : List (PbField ErrorMessage) := [
  singular uint32 1 (·.code) fun v m => { m with code := v },
  singular (string 64) 2 (·.message) fun v m => { m with message := v }]

instance : SoundTable errorFields := ⟨by decide, by decide⟩

/-- A message without fields. -/
abbrev noFields : List (PbField Unit) := []

instance : SoundTable noFields := ⟨by decide, by decide⟩

/-- `which_body` and the member it selects. -/
inductive ClientBody where
  | none
  | ping (m : PingMessage)
  | getDeviceInfo (m : Unit)
  | getRadioSettings (m : Unit)
  | setRadioSettings (m : SetRadioSettingsMessage)
  | sendPacket (m : SendPacketMessage)
  | fetchPackets (m : FetchPacketsMessage)
  | purgeStore (m : Unit)
  | getDeviceSettings (m : Unit)
  | setDeviceSettings (m : SetDeviceSettingsMessage)
  | getStatus (m : Unit)
  | auth (m : AuthMessage)
  | reboot (m : Unit)
  | factoryReset (m : Unit)
  | bootloader (m : Unit)
  deriving DecidableEq, Repr

structure ClientToRadioMessage where
  id : UInt32 := 0
  body : ClientBody := .none
  deriving DecidableEq, Repr

abbrev clientToRadioFields : List (PbField ClientToRadioMessage) := [
  singular uint32 1 (·.id) fun v m => { m with id := v },
  oneof (message pingFields {}) 2
    (fun m => match m.body with | .ping v => some v | _ => none)
    fun v m => { m with body := .ping v },
  oneof (message noFields ()) 3
    (fun m => match m.body with | .getDeviceInfo v => some v | _ => none)
    fun v m => { m with body := .getDeviceInfo v },
  oneof (message noFields ()) 4
    (fun m => match m.body with | .getRadioSettings v => some v | _ => none)
    fun v m => { m with body := .getRadioSettings v },
  oneof (message setRadioSettingsFields {}) 5
    (fun m => match m.body with | .setRadioSettings v => some v | _ => none)
    fun v m => { m with body := .setRadioSettings v },
  oneof (message sendPacketFields {}) 6
    (fun m => match m.body with | .sendPacket v => some v | _ => none)
    fun v m => { m with body := .sendPacket v },
  oneof (message fetchPacketsFields {}) 7
    (fun m => match m.body with | .fetchPackets v => some v | _ => none)
    fun v m => { m with body := .fetchPackets v },
  oneof (message noFields ()) 8
    (fun m => match m.body with | .purgeStore v => some v | _ => none)
    fun v m => { m with body := .purgeStore v },
  oneof (message noFields ()) 9
    (fun m => match m.body with | .getDeviceSettings v => some v | _ => none)
    fun v m => { m with body := .getDeviceSettings v },
  oneof (message setDeviceSettingsFields {}) 10
    (fun m => match m.body with | .setDeviceSettings v => some v | _ => none)
    fun v m => { m with body := .setDeviceSettings v },
  oneof (message noFields ()) 11
    (fun m => match m.body with | .getStatus v => some v | _ => none)
    fun v m => { m with body := .getStatus v },
  oneof (message authFields {}) 12
    (fun m => match m.body with | .auth v => some v | _ => none)
    fun v m => { m with body := .auth v },
  oneof (message noFields ()) 13
    (fun m => match m.body with | .reboot v => some v | _ => none)
    fun v m => { m with body := .reboot v },
  oneof (message noFields ()) 14
    (fun m => match m.body with | .factoryReset v => some v | _ => none)
    fun v m => { m with body := .factoryReset v },
  oneof (message noFields ()) 15
    (fun m => match m.body with | .bootloader v => some v | _ => none)
    fun v m => { m with body := .bootloader v }]

set_option synthInstance.maxSize 1024 in
instance : TableSpec clientToRadioFields := inferInstance

instance : SoundTable clientToRadioFields := ⟨by decide, by decide⟩

inductive RadioBody where
  | none
  | pong (m : PingMessage)
  | deviceInfo (m : DeviceInfo)
  | radioSettings (m : RadioSettingsMessage)
  | packetAccepted (m : PacketAcceptedMessage)
  | packetEntry (m : PacketEntryMessage)
  | fetchEnd (m : FetchEndMessage)
  | txResult (m : TxResultMessage)
  | deviceSettings (m : DeviceSettingsMessage)
  | status (m : StatusMessage)
  | ok (m : Unit)
  | error (m : ErrorMessage)
  deriving DecidableEq, Repr

structure RadioToClientMessage where
  id : UInt32 := 0
  body : RadioBody := .none
  deriving DecidableEq, Repr

abbrev radioToClientFields : List (PbField RadioToClientMessage) := [
  singular uint32 1 (·.id) fun v m => { m with id := v },
  oneof (message pingFields {}) 2
    (fun m => match m.body with | .pong v => some v | _ => none)
    fun v m => { m with body := .pong v },
  oneof (message deviceInfoFields {}) 3
    (fun m => match m.body with | .deviceInfo v => some v | _ => none)
    fun v m => { m with body := .deviceInfo v },
  oneof (message radioSettingsFields .zero) 4
    (fun m => match m.body with | .radioSettings v => some v | _ => none)
    fun v m => { m with body := .radioSettings v },
  oneof (message packetAcceptedFields {}) 5
    (fun m => match m.body with | .packetAccepted v => some v | _ => none)
    fun v m => { m with body := .packetAccepted v },
  oneof (message packetEntryFields {}) 6
    (fun m => match m.body with | .packetEntry v => some v | _ => none)
    fun v m => { m with body := .packetEntry v },
  oneof (message fetchEndFields {}) 7
    (fun m => match m.body with | .fetchEnd v => some v | _ => none)
    fun v m => { m with body := .fetchEnd v },
  oneof (message txResultFields {}) 8
    (fun m => match m.body with | .txResult v => some v | _ => none)
    fun v m => { m with body := .txResult v },
  oneof (message deviceSettingsFields .zero) 9
    (fun m => match m.body with | .deviceSettings v => some v | _ => none)
    fun v m => { m with body := .deviceSettings v },
  oneof (message statusFields {}) 10
    (fun m => match m.body with | .status v => some v | _ => none)
    fun v m => { m with body := .status v },
  oneof (message noFields ()) 11
    (fun m => match m.body with | .ok v => some v | _ => none)
    fun v m => { m with body := .ok v },
  oneof (message errorFields {}) 12
    (fun m => match m.body with | .error v => some v | _ => none)
    fun v m => { m with body := .error v }]

set_option synthInstance.maxSize 1024 in
instance : TableSpec radioToClientFields := inferInstance

instance : SoundTable radioToClientFields := ⟨by decide, by decide⟩

end MeshPigeon
