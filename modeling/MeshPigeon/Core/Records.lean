import Mathlib.Data.List.GetD
import MeshPigeon.Core.Settings
import MeshPigeon.Framing.Framing
import MeshPigeon.Lib.LittleEndian

/-!
# The records on flash

`settings.cpp` and the two settings stores of `main.cpp`: each record is a
version byte, the fields and a check sum, and is replaced as a whole.
-/
namespace MeshPigeon

open LittleEndian

/-- What `append_crc` leaves in the buffer. -/
def appendCrc (body : List UInt8) : List UInt8 := body ++ crcBytes (crc16Ccitt body 0xFFFF)

def checkCrc (bytes : List UInt8) : Bool :=
  if bytes.length < 2 then false
  else
    let len := bytes.length
    crc16Ccitt (bytes.take (len - 2)) 0xFFFF =
      (bytes.getD (len - 2) 0).toUInt16 ||| (bytes.getD (len - 1) 0).toUInt16 <<< 8

def kSerializedVersion : UInt8 := 1

namespace RadioSettings

def kSerializedSize : Nat := 17

def serialize (s : RadioSettings) : List UInt8 :=
  appendCrc ([s.version, s.region] ++ put 4 s.freqHz.toNat ++ put 2 s.bwX100khz.toNat ++
    [s.sf, s.cr, s.powerDbm] ++ put 4 s.configEpoch.toNat)

/-- A rejected record answers `none`; the object then holds `unset`. -/
def deserialize (bytes : List UInt8) : Option RadioSettings :=
  if bytes.length ≠ kSerializedSize then none
  else if !checkCrc bytes then none
  else if bytes.getD 0 0 ≠ kSerializedVersion then none
  else some {
    version := bytes.getD 0 0
    region := bytes.getD 1 0
    freqHz := UInt32.ofNat (get ((bytes.drop 2).take 4))
    bwX100khz := UInt16.ofNat (get ((bytes.drop 6).take 2))
    sf := bytes.getD 8 0
    cr := bytes.getD 9 0
    powerDbm := bytes.getD 10 0
    configEpoch := UInt32.ofNat (get ((bytes.drop 11).take 4)) }

end RadioSettings

/-- A field of `cap + 1` bytes as it is read back: its last byte is overwritten
with the terminator. -/
def readField (cap : Nat) (bytes : List UInt8) : CharArray (cap + 1) :=
  CharArray.padded (cap + 1) (bytes.take cap) (Nat.lt_succ_of_le (List.length_take_le ..))

namespace DeviceSettings

def kSerializedSize : Nat :=
  1 + (kNameMax + 1) + (kPinMax + 1) + 1 + (kSsidMax + 1) + (kPassMax + 1) + 2 + 2

def serialize (d : DeviceSettings) : List UInt8 :=
  appendCrc ([kSerializedVersion] ++ d.name.1 ++ d.pin.1 ++ [if d.wifiEnabled then 1 else 0] ++
    d.wifiSsid.1 ++ d.wifiPassword.1 ++ put 2 d.wifiPort.toNat)

/-- A rejected record answers `none`; the object then holds `defaults`. -/
def deserialize (bytes : List UInt8) : Option DeviceSettings :=
  if bytes.length ≠ kSerializedSize then none
  else if !checkCrc bytes then none
  else if bytes.getD 0 0 ≠ kSerializedVersion then none
  else
    let name := 1
    let pin := name + (kNameMax + 1)
    let wifiEnabled := pin + (kPinMax + 1)
    let wifiSsid := wifiEnabled + 1
    let wifiPassword := wifiSsid + (kSsidMax + 1)
    let wifiPort := wifiPassword + (kPassMax + 1)
    some {
      name := readField kNameMax (bytes.drop name)
      pin := readField kPinMax (bytes.drop pin)
      wifiEnabled := bytes.getD wifiEnabled 0 ≠ 0
      wifiSsid := readField kSsidMax (bytes.drop wifiSsid)
      wifiPassword := readField kPassMax (bytes.drop wifiPassword)
      wifiPort := UInt16.ofNat (get ((bytes.drop wifiPort).take 2)) }

end DeviceSettings

/-! ## The boards' stores -/

/-- How a board reads a record of a known size back. -/
abbrev RecordReader := Nat → List UInt8 → Option (List UInt8)

/-- NVS knows how long the value is. -/
def nvsRead : RecordReader := fun size record =>
  if record.length ≠ size then none else some record

/-- A file is read into a buffer of the record's size. -/
def fileRead : RecordReader := fun size record =>
  if (record.take size).length ≠ size then none else some (record.take size)

/-- `BoardSettingsStore`: the records under "radio" and "dev", where they were written. -/
structure BoardSettingsStore (read : RecordReader) where
  radio : Option (List UInt8) := none
  dev : Option (List UInt8) := none
  deriving DecidableEq, Repr

instance (read : RecordReader) : SettingsStore (BoardSettingsStore read) where
  save s r := { s with radio := some r.serialize }
  load s := do
    let record ← s.radio
    let bytes ← read RadioSettings.kSerializedSize record
    RadioSettings.deserialize bytes
  saveDevice s d := { s with dev := some d.serialize }
  loadDevice s :=
    (do
      let record ← s.dev
      let bytes ← read DeviceSettings.kSerializedSize record
      DeviceSettings.deserialize bytes : Option DeviceSettings).getD DeviceSettings.defaults
  clearDevice s := { s with dev := none }

/-! ## Records are read back as they were written -/

@[simp] theorem length_crcBytes (crc : UInt16) : (crcBytes crc).length = 2 := rfl

theorem length_appendCrc (body : List UInt8) : (appendCrc body).length = body.length + 2 := by
  simp [appendCrc]

theorem crc_rejoined (crc : UInt16) :
    (crc &&& 0xFF).toUInt8.toUInt16 ||| (crc >>> 8).toUInt8.toUInt16 <<< 8 = crc := by
  have bound := crc.toNat_lt
  have low : (crc &&& 0xFF).toUInt8.toUInt16.toNat = crc.toNat % 256 := by
    simp only [UInt8.toNat_toUInt16, UInt16.toNat_toUInt8, UInt16.toNat_and]
    change (crc.toNat &&& (2 ^ 8 - 1)) % 2 ^ 8 = _
    rw [Nat.and_two_pow_sub_one_eq_mod, Nat.mod_mod]
  have high : (crc >>> 8).toUInt8.toUInt16.toNat = crc.toNat / 256 := by
    simp only [UInt8.toNat_toUInt16, UInt16.toNat_toUInt8, UInt16.toNat_shiftRight]
    change (crc.toNat >>> 8) % 2 ^ 8 = _
    rw [Nat.shiftRight_eq_div_pow]
    omega
  apply UInt16.toNat_inj.mp
  rw [UInt16.toNat_or, UInt16.toNat_shiftLeft, low, high]
  change crc.toNat % 256 ||| (crc.toNat / 256) <<< 8 % 2 ^ 16 = _
  rw [Nat.or_comm, Nat.shiftLeft_eq, Nat.mod_eq_of_lt (by omega), Nat.mul_comm,
    ← Nat.two_pow_add_eq_or_of_lt (by omega)]
  omega

theorem checkCrc_appendCrc (body : List UInt8) : checkCrc (appendCrc body) = true := by
  rw [checkCrc, length_appendCrc, if_neg (by omega)]
  have front : (appendCrc body).take (body.length + 2 - 2) = body := by
    rw [Nat.add_sub_cancel, appendCrc, List.take_left]
  have low : (appendCrc body).getD (body.length + 2 - 2) 0 =
      (crc16Ccitt body 0xFFFF &&& 0xFF).toUInt8 := by
    rw [Nat.add_sub_cancel, appendCrc, List.getD_append_right _ _ _ _ (Nat.le_refl _),
      Nat.sub_self]
    rfl
  have high : (appendCrc body).getD (body.length + 2 - 1) 0 =
      (crc16Ccitt body 0xFFFF >>> 8).toUInt8 := by
    rw [show body.length + 2 - 1 = body.length + 1 by omega, appendCrc,
      List.getD_append_right _ _ _ _ (Nat.le_add_right _ _), Nat.add_sub_cancel_left]
    rfl
  simp only [front, low, high, crc_rejoined, decide_true]

theorem RadioSettings.length_serialize (s : RadioSettings) :
    s.serialize.length = kSerializedSize := by
  simp [serialize, length_appendCrc, kSerializedSize]

theorem RadioSettings.deserialize_serialize {s : RadioSettings}
    (version : s.version = kSerializedVersion) : deserialize s.serialize = some s := by
  have checked : checkCrc s.serialize = true := checkCrc_appendCrc _
  rw [deserialize, if_neg (by simp [s.length_serialize]), checked, if_neg (by simp)]
  have first : s.serialize.getD 0 0 = s.version := rfl
  rw [first, version, if_neg (by simp)]
  have freqHz : (s.serialize.drop 2).take 4 = put 4 s.freqHz.toNat := rfl
  have bwX100khz : (s.serialize.drop 6).take 2 = put 2 s.bwX100khz.toNat := rfl
  have configEpoch : (s.serialize.drop 11).take 4 = put 4 s.configEpoch.toNat := rfl
  rw [freqHz, bwX100khz, configEpoch, uint32_roundtrip, uint16_roundtrip, uint32_roundtrip,
    ← version]
  rfl

/-- A field read back keeps its bytes up to the last, which is the terminator. -/
theorem readField_append {cap : Nat} (a : CharArray (cap + 1)) (rest : List UInt8) :
    readField cap (a.1 ++ rest) = readField cap a.1 ∧ (readField cap a.1).1 = a.1.take cap ++ [0] := by
  have inside : cap ≤ a.1.length := by rw [a.2.1]; omega
  have taken : (a.1 ++ rest).take cap = a.1.take cap := List.take_append_of_le_length inside
  constructor
  · simp only [readField, taken]
  · show a.1.take cap ++ List.replicate (cap + 1 - (a.1.take cap).length) 0 = _
    rw [List.length_take, Nat.min_eq_left inside, Nat.add_sub_cancel_left]
    rfl

/-- A field comes back as it was exactly when it is closed at its last byte. -/
theorem readField_self_iff {cap : Nat} (a : CharArray (cap + 1)) :
    readField cap a.1 = a ↔ a.1.getD cap 0 = 0 := by
  have inside : cap < a.1.length := by rw [a.2.1]; omega
  have split : a.1.take cap ++ [a.1.getD cap 0] = a.1 := by
    rw [List.getD_eq_getElem _ _ inside, List.take_append_getElem inside,
      List.take_of_length_le (Nat.le_of_eq a.2.1)]
  rw [Subtype.ext_iff, (readField_append a []).2]
  constructor
  · intro same
    rw [← same]
    have left : (a.1.take cap).length = cap := by
      rw [List.length_take, Nat.min_eq_left (Nat.le_of_lt inside)]
    rw [List.getD_append_right _ _ _ _ (Nat.le_of_eq left), left, Nat.sub_self]
    rfl
  · intro closed
    rw [closed] at split
    exact split

namespace DeviceSettings

/-- Every string field is closed at its last byte. -/
structure Closed (d : DeviceSettings) : Prop where
  name : d.name.1.getD kNameMax 0 = 0
  pin : d.pin.1.getD kPinMax 0 = 0
  wifiSsid : d.wifiSsid.1.getD kSsidMax 0 = 0
  wifiPassword : d.wifiPassword.1.getD kPassMax 0 = 0

theorem serialize_layout (d : DeviceSettings) :
    ∃ crc, d.serialize = [kSerializedVersion] ++ (d.name.1 ++ (d.pin.1 ++
      ([if d.wifiEnabled then 1 else 0] ++ (d.wifiSsid.1 ++ (d.wifiPassword.1 ++
        (put 2 d.wifiPort.toNat ++ crc)))))) := by
  unfold serialize appendCrc
  generalize crcBytes _ = crc
  exact ⟨crc, by simp only [List.append_assoc]⟩

theorem length_serialize (d : DeviceSettings) : d.serialize.length = kSerializedSize := by
  rw [serialize, length_appendCrc]
  simp only [List.length_append, List.length_singleton, length_put, d.name.2.1, d.pin.2.1,
    d.wifiSsid.2.1, d.wifiPassword.2.1]
  rfl

/-- What is left of a record after its next field. -/
theorem next_field {bytes field rest : List UInt8} {k n : Nat}
    (here : bytes.drop k = field ++ rest) (size : field.length = n) :
    bytes.drop (k + n) = rest := by
  rw [← List.drop_drop, here, List.drop_left' size]

theorem getD_field {bytes rest : List UInt8} {k : Nat} {b : UInt8}
    (here : bytes.drop k = [b] ++ rest) : bytes.getD k 0 = b := by
  have index : (bytes.drop k)[0]? = bytes[k]? := by rw [List.getElem?_drop, Nat.add_zero]
  rw [List.getD_eq_getElem?_getD, ← index, here]
  rfl

/-- The settings as a record of them is read back. -/
def reread (d : DeviceSettings) : DeviceSettings :=
  { d with
    name := readField kNameMax d.name.1
    pin := readField kPinMax d.pin.1
    wifiSsid := readField kSsidMax d.wifiSsid.1
    wifiPassword := readField kPassMax d.wifiPassword.1 }

theorem reread_eq_iff (d : DeviceSettings) : d.reread = d ↔ d.Closed := by
  constructor
  · intro same
    have name : readField kNameMax d.name.1 = d.name := congrArg DeviceSettings.name same
    have pin : readField kPinMax d.pin.1 = d.pin := congrArg DeviceSettings.pin same
    have ssid : readField kSsidMax d.wifiSsid.1 = d.wifiSsid := congrArg DeviceSettings.wifiSsid same
    have password : readField kPassMax d.wifiPassword.1 = d.wifiPassword :=
      congrArg DeviceSettings.wifiPassword same
    exact ⟨(readField_self_iff _).mp name, (readField_self_iff _).mp pin,
      (readField_self_iff _).mp ssid, (readField_self_iff _).mp password⟩
  · intro closed
    rw [reread, (readField_self_iff _).mpr closed.name, (readField_self_iff _).mpr closed.pin,
      (readField_self_iff _).mpr closed.wifiSsid, (readField_self_iff _).mpr closed.wifiPassword]

theorem deserialize_serialize_reread (d : DeviceSettings) :
    deserialize d.serialize = some d.reread := by
  have checked : checkCrc d.serialize = true := checkCrc_appendCrc _
  have size := d.length_serialize
  obtain ⟨crc, layout⟩ := d.serialize_layout
  rw [deserialize, if_neg (by simp [size]), checked, if_neg (by simp)]
  generalize d.serialize = bytes at layout
  have version : bytes.drop 0 = _ := layout
  have name : bytes.drop 1 = _ := next_field version rfl
  have pin := next_field name d.name.2.1
  have enabled := next_field pin d.pin.2.1
  have ssid : bytes.drop (1 + (kNameMax + 1) + (kPinMax + 1) + 1) = _ := next_field enabled rfl
  have password := next_field ssid d.wifiSsid.2.1
  have port := next_field password d.wifiPassword.2.1
  have flag : ((if d.wifiEnabled then (1 : UInt8) else 0) ≠ 0) = (d.wifiEnabled = true) := by
    cases d.wifiEnabled <;> simp
  simp only [getD_field version, getD_field enabled, ne_eq, not_true_eq_false, if_false, name, pin,
    ssid, password, port, (readField_append _ _).1, List.take_left' (length_put 2 _),
    uint16_roundtrip]
  simp only [ne_eq] at flag
  simp only [flag, Bool.decide_eq_true]
  rfl

theorem deserialize_serialize {d : DeviceSettings} (closed : d.Closed) :
    deserialize d.serialize = some d := by
  rw [deserialize_serialize_reread, d.reread_eq_iff.mpr closed]

end DeviceSettings

end MeshPigeon
