import MeshPigeon.Core.Confidential
import MeshPigeon.Nanopb.Messages

/-!
# Envelopes on the wire

`decode_envelope` and `encode_envelope` of `command_processor.cpp`, and the
structs the processor is given and fills, as the generated ones.

* `envelopes_round_trip`: what one side encodes is what the other is handed;
* `envelopes_fit_frame`: no envelope is longer than a frame may be.
-/
namespace MeshPigeon

open Nanopb

/-! ## Requests -/

/-- The decoder has room for one byte more than a packet has; the handler refuses such a payload,
as it refuses an empty one. -/
def SendPacketMessage.packet (m : SendPacketMessage) : Payload :=
  if fits : m.raw.length ≤ 255 then ⟨m.raw, fits⟩ else ⟨[], by decide⟩

def ClientBody.request : ClientBody → Request
  | .none => .unknown
  | .ping m => .ping m.payload
  | .getDeviceInfo _ => .getDeviceInfo
  | .getRadioSettings _ => .getRadioSettings
  | .setRadioSettings m => .setRadioSettings m.settings
  | .sendPacket m => .sendPacket m.packet
  | .fetchPackets m => .fetchPackets m.sinceSeq m.maxCount
  | .purgeStore _ => .purgeStore
  | .getDeviceSettings _ => .getDeviceSettings
  | .setDeviceSettings m => .setDeviceSettings m
  | .getStatus _ => .getStatus
  | .auth m => .auth m.pin
  | .reboot _ => .reboot
  | .factoryReset _ => .factoryReset
  | .bootloader _ => .bootloader

/-- `pb_decode` into a `ClientToRadio`. -/
def decodeRequest (data : List UInt8) : Option ClientToRadio :=
  (pbDecode clientToRadioFields {} data).map fun m => ⟨m.id, m.body.request⟩

/-- The struct a client fills. -/
def Request.message : Request → ClientBody
  | .ping payload => .ping ⟨payload⟩
  | .getDeviceInfo => .getDeviceInfo ()
  | .getRadioSettings => .getRadioSettings ()
  | .setRadioSettings settings => .setRadioSettings ⟨settings⟩
  | .sendPacket raw => .sendPacket ⟨raw.1⟩
  | .fetchPackets sinceSeq maxCount => .fetchPackets ⟨sinceSeq, maxCount⟩
  | .purgeStore => .purgeStore ()
  | .getDeviceSettings => .getDeviceSettings ()
  | .setDeviceSettings m => .setDeviceSettings m
  | .getStatus => .getStatus ()
  | .auth pin => .auth ⟨pin⟩
  | .reboot => .reboot ()
  | .factoryReset => .factoryReset ()
  | .bootloader => .bootloader ()
  | .unknown => .none

def ClientToRadio.message (req : ClientToRadio) : ClientToRadioMessage := ⟨req.id, req.body.message⟩

/-- `pb_encode` of a request into the buffer of a frame. -/
def encodeRequest (req : ClientToRadio) : Option (List UInt8) :=
  (pbEncode clientToRadioFields (pbOstreamFromBuffer kMaxFramePayload) req.message).map
    OStream.written

/-- A ping within the cap of its payload; the other texts cannot be longer than theirs. -/
def Request.Sendable : Request → Prop
  | .ping payload => payload.length ≤ 500
  | _ => True

instance (r : Request) : Decidable r.Sendable := by
  unfold Request.Sendable
  split <;> infer_instance

/-- What the processor has of a request: zeros behind the end of its strings. -/
def Request.received : Request → Request
  | .setDeviceSettings m => .setDeviceSettings m.received
  | .auth pin => .auth pin.clean
  | r => r

def ClientToRadio.received (req : ClientToRadio) : ClientToRadio := ⟨req.id, req.body.received⟩

theorem Request.message_sendable {r : Request} (h : r.Sendable) : r.message.Sendable := by
  cases r with
  | ping payload => exact h
  | sendPacket raw => exact Nat.le_trans raw.2 (by decide)
  | _ => trivial

theorem Request.message_received (r : Request) : r.message.received.request = r.received := by
  cases r with
  | sendPacket raw => exact congrArg Request.sendPacket (dif_pos raw.2)
  | _ => rfl

/-- Every request a client can fill in is encoded in a frame, and decoded as it was. -/
theorem decodeRequest_encode {req : ClientToRadio} (h : req.body.Sendable) :
    ∃ data, encodeRequest req = some data ∧ data.length ≤ kMaxFramePayload ∧
      decodeRequest data = some req.received := by
  have merged := clientToRadio_merge req.message (Request.message_sendable h)
  obtain ⟨rs, written⟩ := records_of_merge merged
  have room := clientToRadio_length written
  have encoded := pbEncode_room written room
  refine ⟨Records.putAll rs, by rw [encodeRequest, encoded]; rfl, room, ?_⟩
  have decoded := pbDecode_encode merged encoded
  rw [decodeRequest, decoded]
  exact congrArg (fun body => some (ClientToRadio.mk req.id body)) req.body.message_received

/-! ## Responses -/

def ErrorCode.number : ErrorCode → UInt32
  | .badCommand => 1
  | .badPayload => 2
  | .busy => 3
  | .txFailed => 4
  | .noRadio => 5
  | .notSupported => 6
  | .authRequired => 7

def WifiState.number : WifiState → UInt32
  | .unspecified => 0
  | .off => 1
  | .connecting => 2
  | .connected => 3
  | .authFail => 4
  | .error => 5

def Origin.number : Origin → UInt32
  | .sent => 1
  | .received => 2

def Status.message (m : Status) : StatusMessage where
  wifiState := m.wifiState.number
  wifiSsid := m.wifiSsid
  wifiIpv4 := m.wifiIpv4
  wifiPort := m.wifiPort
  wifiRssi := m.wifiRssi
  bleClients := m.bleClients
  usbCdcClients := m.usbCdcClients
  wifiTcpClients := m.wifiTcpClients

def PacketEntry.message (m : PacketEntry) : PacketEntryMessage where
  seq := m.seq
  raw := m.raw.1
  uptimeMs := m.uptimeMs
  rssi := m.rssi
  snr := m.snr
  origin := m.origin.number

def Body.message : Body → RadioBody
  | .none => .none
  | .pong payload => .pong ⟨payload⟩
  | .deviceInfo m => .deviceInfo m
  | .radioSettings m => .radioSettings m
  | .packetAccepted seq => .packetAccepted ⟨seq⟩
  | .packetEntry m => .packetEntry m.message
  | .fetchEnd count => .fetchEnd ⟨count⟩
  | .txResult seq success => .txResult ⟨seq, success⟩
  | .deviceSettings m => .deviceSettings m
  | .status m => .status m.message
  | .ok => .ok ()
  | .error code message => .error ⟨code.number, copyStr 64 message⟩

def RadioToClient.message (r : RadioToClient) : RadioToClientMessage := ⟨r.id, r.body.message⟩

/-- The bytes put in the buffer; none of them when there is no room. -/
def encodeEnvelope (cap : Nat) (msg : RadioToClientMessage) : List UInt8 :=
  match pbEncode radioToClientFields (pbOstreamFromBuffer cap) msg with
  | none => []
  | some stream => stream.written

def encodeResponse (response : RadioToClient) : List UInt8 :=
  encodeEnvelope kMaxFramePayload response.message

/-- `pb_decode` into a `RadioToClient`. -/
def decodeResponse (data : List UInt8) : Option RadioToClientMessage :=
  pbDecode radioToClientFields {} data

/-- A body with its strings and arrays within their caps. -/
def Body.Sendable (b : Body) : Prop := b ≠ .none ∧ b.message.Sendable

/-- Every such response is encoded in a frame, and a client reads it as it was. -/
theorem decodeResponse_encode {r : RadioToClient} (h : r.body.Sendable) :
    encodeResponse r ≠ [] ∧ (encodeResponse r).length ≤ kMaxFramePayload ∧
      decodeResponse (encodeResponse r) = some r.message.received := by
  have merged := radioToClient_merge r.message h.2
  obtain ⟨rs, written⟩ := records_of_merge merged
  have room := radioToClient_length written
  have encoded := pbEncode_room written room
  have bytes : encodeResponse r = Records.putAll rs := by
    rw [encodeResponse, encodeEnvelope, encoded]
  have decoded : decodeResponse (encodeResponse r) = some r.message.received := by
    rw [bytes]
    exact pbDecode_encode merged encoded
  refine ⟨?_, bytes ▸ room, decoded⟩
  intro empty
  rw [empty] at decoded
  have zero : r.message.received = {} := (Option.some.inj decoded).symm
  obtain ⟨id, body⟩ := r
  have none : body.message.received = .none := congrArg RadioToClientMessage.body zero
  cases body with
  | none => exact h.1 rfl
  | _ => cases none

/-- **What is encoded is decoded as it was.** Every request whose ping is within its cap, and every
response whose texts and arrays are within theirs, is encoded in one frame, and the other side is
handed what was filled in: the numbers and the presence of each field as they were, and the texts
with zeros behind their end. -/
theorem envelopes_round_trip :
    (∀ req : ClientToRadio, req.body.Sendable → ∃ data, encodeRequest req = some data ∧
      data.length ≤ kMaxFramePayload ∧ decodeRequest data = some req.received) ∧
    ∀ r : RadioToClient, r.body.Sendable → encodeResponse r ≠ [] ∧
      (encodeResponse r).length ≤ kMaxFramePayload ∧
      decodeResponse (encodeResponse r) = some r.message.received :=
  ⟨fun _ sendable => decodeRequest_encode sendable, fun _ sendable => decodeResponse_encode sendable⟩

/-- A ping and its answer. -/
theorem envelopes_round_trip_ping :
    (∃ data, encodeRequest ⟨1, .ping [7, 8]⟩ = some data ∧ data.length ≤ kMaxFramePayload ∧
      decodeRequest data = some ⟨1, .ping [7, 8]⟩) ∧
    decodeResponse (encodeResponse ⟨1, .pong [7, 8]⟩) = some ⟨1, .pong ⟨[7, 8]⟩⟩ :=
  have short : ([7, 8] : List UInt8).length ≤ 500 := by decide
  ⟨envelopes_round_trip.1 ⟨1, .ping [7, 8]⟩ short,
    (envelopes_round_trip.2 ⟨1, .pong [7, 8]⟩ ⟨nofun, short⟩).2.2⟩

/-- **The frame cap is the size of the largest envelope.** Neither envelope is ever longer, whatever
it holds and whatever buffer it is given, and one response needs every byte of the cap. -/
theorem envelopes_fit_frame :
    (∀ cap m s, pbEncode clientToRadioFields (pbOstreamFromBuffer cap) m = some s →
      s.written.length ≤ kMaxFramePayload) ∧
    (∀ cap msg, (encodeEnvelope cap msg).length ≤ kMaxFramePayload) ∧
    ∃ msg : RadioToClientMessage, msg.body.Sendable ∧
      (encodeEnvelope kMaxFramePayload msg).length = kMaxFramePayload ∧
      encodeEnvelope (kMaxFramePayload - 1) msg = [] := by
  refine ⟨fun cap m s encoded => ?_, fun cap msg => ?_,
    ⟨0xFFFFFFFF, .pong ⟨List.replicate 500 0⟩⟩, ?_, ?_, ?_⟩
  · obtain ⟨rs, written, bytes⟩ := written_records encoded
    rw [bytes]
    exact clientToRadio_length written
  · unfold encodeEnvelope
    split
    · exact Nat.zero_le _
    · rename_i s encoded
      obtain ⟨rs, written, bytes⟩ := written_records encoded
      rw [bytes]
      exact radioToClient_length written
  · exact (List.length_replicate ..).le
  · decide +kernel
  · decide +kernel

end MeshPigeon
