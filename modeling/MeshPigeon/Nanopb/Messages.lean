import MeshPigeon.Nanopb.Generated

/-!
# What arrives of each message

One lemma a table: read into a fresh message, it leaves the fields that were
sent, strings and arrays with zeros behind their end.
-/
namespace MeshPigeon

open Nanopb Records.Schema

/-! ## Radio -/

instance : Carried (message radioSettingsFields .zero) where
  Sendable _ := True
  received m := m
  carry := by
    intro m _
    exact carry_message <|
      merge_next (merge_singular trivial rfl rfl) <|
      merge_next (merge_singular trivial rfl rfl) <|
      merge_next (merge_singular trivial rfl rfl) <|
      merge_next (merge_singular trivial rfl rfl) <|
      merge_next (merge_singular trivial rfl rfl) <|
      merge_next (merge_singular trivial rfl rfl) rfl

instance : Carried (message setRadioSettingsFields {}) where
  Sendable _ := True
  received m := m
  carry := by
    intro m _
    exact carry_message <|
      merge_next (merge_same (fun _ => trivial) (fun _ => rfl) rfl rfl) rfl

instance : Carried (message sendPacketFields {}) where
  Sendable m := m.raw.length ≤ bytesRoom 255
  received m := m
  carry := by
    intro m short
    exact carry_message (merge_next (merge_singular short rfl rfl) rfl)

instance : Carried (message packetAcceptedFields {}) where
  Sendable _ := True
  received m := m
  carry := by
    intro m _
    exact carry_message (merge_next (merge_singular trivial rfl rfl) rfl)

instance : Carried (message fetchPacketsFields {}) where
  Sendable _ := True
  received m := m
  carry := by
    intro m _
    exact carry_message <|
      merge_next (merge_singular trivial rfl rfl) <|
      merge_next (merge_singular trivial rfl rfl) rfl

instance : Carried (message packetEntryFields {}) where
  Sendable m := m.raw.length ≤ bytesRoom 255
  received m := m
  carry := by
    intro m short
    exact carry_message <|
      merge_next (merge_singular trivial rfl rfl) <|
      merge_next (merge_singular short rfl rfl) <|
      merge_next (merge_singular trivial rfl rfl) <|
      merge_next (merge_singular trivial rfl rfl) <|
      merge_next (merge_singular trivial rfl rfl) <|
      merge_next (merge_singular trivial rfl rfl) rfl

instance : Carried (message fetchEndFields {}) where
  Sendable _ := True
  received m := m
  carry := by
    intro m _
    exact carry_message (merge_next (merge_singular trivial rfl rfl) rfl)

instance : Carried (message txResultFields {}) where
  Sendable _ := True
  received m := m
  carry := by
    intro m _
    exact carry_message <|
      merge_next (merge_singular trivial rfl rfl) <|
      merge_next (merge_singular trivial rfl rfl) rfl

/-! ## Device -/

instance : Carried (message storeInfoFields {}) where
  Sendable _ := True
  received m := m
  carry := by
    intro m _
    exact carry_message <|
      merge_next (merge_singular trivial rfl rfl) <|
      merge_next (merge_singular trivial rfl rfl) <|
      merge_next (merge_singular trivial rfl rfl) <|
      merge_next (merge_singular trivial rfl rfl) rfl

def DeviceInfo.received (m : DeviceInfo) : DeviceInfo :=
  { m with
    fwVersion := m.fwVersion.clean
    boardName := m.boardName.clean
    capabilities := (arrayReceived (m.capabilities, m.capabilitiesCount)).1 }

instance : Carried (message deviceInfoFields {}) where
  Sendable m := m.capabilities.length = kMaxCapabilities ∧ m.capabilitiesCount ≤ kMaxCapabilities
  received := DeviceInfo.received
  carry := by
    rintro m ⟨whole, few⟩
    exact carry_message <|
      merge_next (merge_singular trivial rfl rfl) <|
      merge_next (merge_singular trivial rfl rfl) <|
      merge_next (merge_singular trivial rfl rfl) <|
      merge_next (merge_repeated whole few rfl rfl) <|
      merge_next (merge_singular trivial rfl rfl) <|
      merge_next (merge_singular trivial rfl rfl) <|
      merge_next (merge_same (fun _ => trivial) (fun _ => rfl) rfl rfl) <|
      merge_next (merge_singular trivial rfl rfl) <|
      merge_next (merge_singular trivial rfl rfl) <|
      merge_next (merge_singular trivial rfl rfl) <|
      merge_next (merge_singular trivial rfl rfl) <|
      merge_next (merge_singular trivial rfl rfl) rfl

def DeviceSettingsMessage.received (m : DeviceSettingsMessage) : DeviceSettingsMessage :=
  { m with
    name := m.name.clean
    wifiSsid := m.wifiSsid.clean
    wifiPassword := m.wifiPassword.clean }

instance : Carried (message deviceSettingsFields .zero) where
  Sendable _ := True
  received := DeviceSettingsMessage.received
  carry := by
    intro m _
    exact carry_message <|
      merge_next (merge_singular trivial rfl rfl) <|
      merge_next (merge_singular trivial rfl rfl) <|
      merge_next (merge_singular trivial rfl rfl) <|
      merge_next (merge_singular trivial rfl rfl) <|
      merge_next (merge_singular trivial rfl rfl) rfl

def SetDeviceSettingsMessage.received (m : SetDeviceSettingsMessage) : SetDeviceSettingsMessage :=
  { m with
    name := m.name.map CharArray.clean
    pin := m.pin.map CharArray.clean
    wifiSsid := m.wifiSsid.map CharArray.clean
    wifiPassword := m.wifiPassword.map CharArray.clean }

instance : Carried (message setDeviceSettingsFields {}) where
  Sendable _ := True
  received := SetDeviceSettingsMessage.received
  carry := by
    intro m _
    exact carry_message <|
      merge_next (merge_present (fun _ _ => trivial) rfl rfl) <|
      merge_next (merge_present (fun _ _ => trivial) rfl rfl) <|
      merge_next (merge_same (fun _ => trivial) (fun _ => rfl) rfl rfl) <|
      merge_next (merge_present (fun _ _ => trivial) rfl rfl) <|
      merge_next (merge_present (fun _ _ => trivial) rfl rfl) <|
      merge_next (merge_same (fun _ => trivial) (fun _ => rfl) rfl rfl) rfl

def StatusMessage.received (m : StatusMessage) : StatusMessage :=
  { m with wifiSsid := m.wifiSsid.clean }

instance : Carried (message statusFields {}) where
  Sendable m := m.wifiIpv4.length ≤ bytesRoom 4
  received := StatusMessage.received
  carry := by
    intro m short
    exact carry_message <|
      merge_next (merge_singular trivial rfl rfl) <|
      merge_next (merge_singular trivial rfl rfl) <|
      merge_next (merge_singular short rfl rfl) <|
      merge_next (merge_singular trivial rfl rfl) <|
      merge_next (merge_singular trivial rfl rfl) <|
      merge_next (merge_singular trivial rfl rfl) <|
      merge_next (merge_singular trivial rfl rfl) <|
      merge_next (merge_singular trivial rfl rfl) rfl

instance : Carried (message authFields {}) where
  Sendable _ := True
  received m := { m with pin := m.pin.clean }
  carry := by
    intro m _
    exact carry_message (merge_next (merge_singular trivial rfl rfl) rfl)

/-! ## Envelopes -/

instance : Carried (message pingFields {}) where
  Sendable m := m.payload.length ≤ bytesRoom 500
  received m := m
  carry := by
    intro m short
    exact carry_message (merge_next (merge_singular short rfl rfl) rfl)

instance : Carried (message errorFields {}) where
  Sendable _ := True
  received m := { m with message := m.message.clean }
  carry := by
    intro m _
    exact carry_message <|
      merge_next (merge_singular trivial rfl rfl) <|
      merge_next (merge_singular trivial rfl rfl) rfl

instance : Carried (message noFields ()) where
  Sendable _ := True
  received m := m
  carry := fun _ => carry_message rfl

/-- The text fields of a request hold what they can carry. -/
def ClientBody.Sendable : ClientBody → Prop
  | .ping m => Nanopb.Sendable (message pingFields {}) m
  | .sendPacket m => Nanopb.Sendable (message sendPacketFields {}) m
  | _ => True

def ClientBody.received : ClientBody → ClientBody
  | .setDeviceSettings m => .setDeviceSettings m.received
  | .auth m => .auth { m with pin := m.pin.clean }
  | body => body

def ClientToRadioMessage.received (m : ClientToRadioMessage) : ClientToRadioMessage :=
  { m with body := m.body.received }

theorem clientToRadio_merge (m : ClientToRadioMessage) (h : m.body.Sendable) :
    (TableSpec.schema clientToRadioFields).merge m {} = some m.received := by
  obtain ⟨id, body⟩ := m
  refine merge_next (merge_singular trivial rfl rfl) ?_
  cases body with
  | none => exact merge_silent rfl _
  | ping m => exact merge_alone 0 rfl rfl rfl (merge_selected rfl h rfl)
  | getDeviceInfo m => exact merge_alone 1 rfl rfl rfl (merge_selected rfl trivial rfl)
  | getRadioSettings m => exact merge_alone 2 rfl rfl rfl (merge_selected rfl trivial rfl)
  | setRadioSettings m => exact merge_alone 3 rfl rfl rfl (merge_selected rfl trivial rfl)
  | sendPacket m => exact merge_alone 4 rfl rfl rfl (merge_selected rfl h rfl)
  | fetchPackets m => exact merge_alone 5 rfl rfl rfl (merge_selected rfl trivial rfl)
  | purgeStore m => exact merge_alone 6 rfl rfl rfl (merge_selected rfl trivial rfl)
  | getDeviceSettings m => exact merge_alone 7 rfl rfl rfl (merge_selected rfl trivial rfl)
  | setDeviceSettings m => exact merge_alone 8 rfl rfl rfl (merge_selected rfl trivial rfl)
  | getStatus m => exact merge_alone 9 rfl rfl rfl (merge_selected rfl trivial rfl)
  | auth m => exact merge_alone 10 rfl rfl rfl (merge_selected rfl trivial rfl)
  | reboot m => exact merge_alone 11 rfl rfl rfl (merge_selected rfl trivial rfl)
  | factoryReset m => exact merge_alone 12 rfl rfl rfl (merge_selected rfl trivial rfl)
  | bootloader m => exact merge_alone 13 rfl rfl rfl (merge_selected rfl trivial rfl)

/-- The text fields and arrays of a response hold what they can carry. -/
def RadioBody.Sendable : RadioBody → Prop
  | .pong m => Nanopb.Sendable (message pingFields {}) m
  | .deviceInfo m => Nanopb.Sendable (message deviceInfoFields {}) m
  | .packetEntry m => Nanopb.Sendable (message packetEntryFields {}) m
  | .status m => Nanopb.Sendable (message statusFields {}) m
  | _ => True

def RadioBody.received : RadioBody → RadioBody
  | .deviceInfo m => .deviceInfo m.received
  | .deviceSettings m => .deviceSettings m.received
  | .status m => .status m.received
  | .error m => .error { m with message := m.message.clean }
  | body => body

def RadioToClientMessage.received (m : RadioToClientMessage) : RadioToClientMessage :=
  { m with body := m.body.received }

theorem radioToClient_merge (m : RadioToClientMessage) (h : m.body.Sendable) :
    (TableSpec.schema radioToClientFields).merge m {} = some m.received := by
  obtain ⟨id, body⟩ := m
  refine merge_next (merge_singular trivial rfl rfl) ?_
  cases body with
  | none => exact merge_silent rfl _
  | pong m => exact merge_alone 0 rfl rfl rfl (merge_selected rfl h rfl)
  | deviceInfo m => exact merge_alone 1 rfl rfl rfl (merge_selected rfl h rfl)
  | radioSettings m => exact merge_alone 2 rfl rfl rfl (merge_selected rfl trivial rfl)
  | packetAccepted m => exact merge_alone 3 rfl rfl rfl (merge_selected rfl trivial rfl)
  | packetEntry m => exact merge_alone 4 rfl rfl rfl (merge_selected rfl h rfl)
  | fetchEnd m => exact merge_alone 5 rfl rfl rfl (merge_selected rfl trivial rfl)
  | txResult m => exact merge_alone 6 rfl rfl rfl (merge_selected rfl trivial rfl)
  | deviceSettings m => exact merge_alone 7 rfl rfl rfl (merge_selected rfl trivial rfl)
  | status m => exact merge_alone 8 rfl rfl rfl (merge_selected rfl h rfl)
  | ok m => exact merge_alone 9 rfl rfl rfl (merge_selected rfl trivial rfl)
  | error m => exact merge_alone 10 rfl rfl rfl (merge_selected rfl trivial rfl)

/-! ## Sizes -/

/-- `MESHPIGEON_MAX_FRAME_PAYLOAD` -/
def kMaxFramePayload : Nat := 512

/-- An envelope is its id and one member. -/
theorem length_envelope {M : Type} {μ : Records.Slot M} {σ : Records.Schema M} {m : M}
    {rs : List Records.Record} (h : records (μ :: σ) m = some rs) {bound : Nat}
    (body : ∀ rs, records σ m = some rs → (Records.putAll rs).length ≤ bound) :
    (Records.putAll rs).length ≤ μ.size + bound := by
  obtain ⟨ps, own, h⟩ := Option.bind_eq_some_iff.mp h
  obtain ⟨others, rest, rfl⟩ := Option.map_eq_some_iff.mp h
  have head := μ.bounded own
  have tail := body others rest
  rw [Records.putAll, List.flatMap_append, List.flatMap_map, List.length_append]
  exact Nat.add_le_add head tail

theorem clientToRadio_length {m : ClientToRadioMessage} {rs : List Records.Record}
    (h : (TableSpec.schema clientToRadioFields).records m = some rs) :
    (Records.putAll rs).length ≤ kMaxFramePayload := by
  obtain ⟨id, body⟩ := m
  refine Nat.le_trans (length_envelope h fun rs h => ?_) (by decide : 6 + 506 ≤ kMaxFramePayload)
  cases body with
  | none =>
    obtain rfl := Option.some.inj ((records_silent rfl).symm.trans h)
    exact Nat.zero_le _
  | ping m => exact length_alone 0 rfl rfl rfl h
  | getDeviceInfo m => exact Nat.le_trans (length_alone 1 rfl rfl rfl h) (by decide)
  | getRadioSettings m => exact Nat.le_trans (length_alone 2 rfl rfl rfl h) (by decide)
  | setRadioSettings m => exact Nat.le_trans (length_alone 3 rfl rfl rfl h) (by decide)
  | sendPacket m => exact Nat.le_trans (length_alone 4 rfl rfl rfl h) (by decide)
  | fetchPackets m => exact Nat.le_trans (length_alone 5 rfl rfl rfl h) (by decide)
  | purgeStore m => exact Nat.le_trans (length_alone 6 rfl rfl rfl h) (by decide)
  | getDeviceSettings m => exact Nat.le_trans (length_alone 7 rfl rfl rfl h) (by decide)
  | setDeviceSettings m => exact Nat.le_trans (length_alone 8 rfl rfl rfl h) (by decide)
  | getStatus m => exact Nat.le_trans (length_alone 9 rfl rfl rfl h) (by decide)
  | auth m => exact Nat.le_trans (length_alone 10 rfl rfl rfl h) (by decide)
  | reboot m => exact Nat.le_trans (length_alone 11 rfl rfl rfl h) (by decide)
  | factoryReset m => exact Nat.le_trans (length_alone 12 rfl rfl rfl h) (by decide)
  | bootloader m => exact Nat.le_trans (length_alone 13 rfl rfl rfl h) (by decide)

theorem radioToClient_length {m : RadioToClientMessage} {rs : List Records.Record}
    (h : (TableSpec.schema radioToClientFields).records m = some rs) :
    (Records.putAll rs).length ≤ kMaxFramePayload := by
  obtain ⟨id, body⟩ := m
  refine Nat.le_trans (length_envelope h fun rs h => ?_) (by decide : 6 + 506 ≤ kMaxFramePayload)
  cases body with
  | none =>
    obtain rfl := Option.some.inj ((records_silent rfl).symm.trans h)
    exact Nat.zero_le _
  | pong m => exact length_alone 0 rfl rfl rfl h
  | deviceInfo m => exact Nat.le_trans (length_alone 1 rfl rfl rfl h) (by decide)
  | radioSettings m => exact Nat.le_trans (length_alone 2 rfl rfl rfl h) (by decide)
  | packetAccepted m => exact Nat.le_trans (length_alone 3 rfl rfl rfl h) (by decide)
  | packetEntry m => exact Nat.le_trans (length_alone 4 rfl rfl rfl h) (by decide)
  | fetchEnd m => exact Nat.le_trans (length_alone 5 rfl rfl rfl h) (by decide)
  | txResult m => exact Nat.le_trans (length_alone 6 rfl rfl rfl h) (by decide)
  | deviceSettings m => exact Nat.le_trans (length_alone 7 rfl rfl rfl h) (by decide)
  | status m => exact Nat.le_trans (length_alone 8 rfl rfl rfl h) (by decide)
  | ok m => exact Nat.le_trans (length_alone 9 rfl rfl rfl h) (by decide)
  | error m => exact Nat.le_trans (length_alone 10 rfl rfl rfl h) (by decide)

end MeshPigeon
