import MeshPigeon.Core.Settings
import MeshPigeon.Store.Valid

/-!
# Envelopes

The structs the protobuf schema generates, as the processor reads and fills
them. A request's optional field is `none` when its `has_` flag is false.
-/
namespace MeshPigeon

inductive ErrorCode where
  | badCommand
  | badPayload
  | busy
  | txFailed
  | noRadio
  | notSupported
  | authRequired
  deriving DecidableEq, Repr

structure RadioSettingsMessage where
  freqHz : UInt32
  bandwidthHz : UInt32
  sf : UInt32
  cr : UInt32
  powerDbm : UInt32
  configEpoch : UInt32
  deriving DecidableEq, Repr

structure SetDeviceSettingsMessage where
  name : Option (CharArray (kNameMax + 1)) := none
  pin : Option (CharArray (kPinMax + 1)) := none
  wifiEnabled : Option Bool := none
  wifiSsid : Option (CharArray (kSsidMax + 1)) := none
  wifiPassword : Option (CharArray (kPassMax + 1)) := none
  wifiPort : Option UInt32 := none
  deriving DecidableEq, Repr

/-- `which_body` and the member it selects; `unknown` is every other tag, a
missing body among them. -/
inductive Request where
  | ping (payload : List UInt8)
  | getDeviceInfo
  | getRadioSettings
  | setRadioSettings (settings : Option RadioSettingsMessage)
  | sendPacket (raw : Payload)
  | fetchPackets (sinceSeq maxCount : UInt32)
  | purgeStore
  | getDeviceSettings
  | setDeviceSettings (m : SetDeviceSettingsMessage)
  | getStatus
  | auth (pin : CharArray (kPinMax + 1))
  | reboot
  | factoryReset
  | bootloader
  | unknown
  deriving DecidableEq, Repr

structure ClientToRadio where
  id : UInt32
  body : Request
  deriving DecidableEq, Repr

structure StoreInfo where
  count : UInt32 := 0
  capacityBytes : UInt32 := 0
  dropped : UInt32 := 0
  oldestSeq : UInt32 := 0
  deriving DecidableEq, Repr

abbrev kMaxCapabilities : Nat := 16

structure DeviceInfo where
  specVersion : UInt32 := 0
  fwVersion : CharArray 16 := copyStr 15 []
  boardName : CharArray 17 := copyStr 16 []
  /-- the whole array; `capabilitiesCount` of it is sent -/
  capabilities : List UInt32 := List.replicate kMaxCapabilities 0
  capabilitiesCount : Nat := 0
  uptimeMs : UInt64 := 0
  bootCount : UInt32 := 0
  store : Option StoreInfo := none
  radioConfigEpoch : UInt32 := 0
  batteryMv : UInt32 := 0
  radioOk : Bool := false
  authRequired : Bool := false
  noiseFloorDbm : Int32 := 0
  deriving DecidableEq, Repr

structure DeviceSettingsMessage where
  name : CharArray (kNameMax + 1)
  wifiEnabled : Bool
  wifiSsid : CharArray (kSsidMax + 1)
  wifiPassword : CharArray (kPassMax + 1)
  wifiPort : UInt32
  deriving DecidableEq, Repr

inductive WifiState where
  | unspecified
  | off
  | connecting
  | connected
  | authFail
  | error
  deriving DecidableEq, Repr

structure Status where
  wifiState : WifiState := .unspecified
  wifiSsid : CharArray (kSsidMax + 1) := copyStr kSsidMax []
  wifiIpv4 : List UInt8 := []
  wifiPort : UInt32 := 0
  wifiRssi : Int32 := 0
  bleClients : UInt32 := 0
  usbCdcClients : UInt32 := 0
  wifiTcpClients : UInt32 := 0
  deriving DecidableEq, Repr

inductive Origin where
  | sent
  | received
  deriving DecidableEq, Repr

structure PacketEntry where
  seq : UInt32
  raw : Payload
  uptimeMs : UInt64
  rssi : Int32
  snr : Int32
  origin : Origin
  deriving DecidableEq, Repr

inductive Body where
  | none
  | pong (payload : List UInt8)
  | deviceInfo (m : DeviceInfo)
  | radioSettings (m : RadioSettingsMessage)
  | packetAccepted (seq : UInt32)
  | packetEntry (m : PacketEntry)
  | fetchEnd (count : UInt32)
  | txResult (seq : UInt32) (success : Bool)
  | deviceSettings (m : DeviceSettingsMessage)
  | status (m : Status)
  | ok
  | error (code : ErrorCode) (message : List UInt8)
  deriving DecidableEq, Repr

structure RadioToClient where
  id : UInt32
  body : Body
  deriving DecidableEq, Repr

namespace Body

/-! A builder fills a member in place, so it starts from what the body held. -/

def statusMember : Body → Status
  | .status m => m
  | _ => {}

def deviceInfoMember : Body → DeviceInfo
  | .deviceInfo m => m
  | _ => {}

def errorMessage : Body → List UInt8
  | .error _ message => message
  | _ => []

end Body

end MeshPigeon
