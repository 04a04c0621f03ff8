import MeshPigeon.Core.Records
import MeshPigeon.Framing.Damage

/-!
# Records byte for byte

What a rejected record leaves behind, which records are written back as they
were read, and which damage to one is seen.
-/
namespace MeshPigeon

open LittleEndian

/-! ## The object a record is read into -/

/-- The verdict and the object afterwards. The version is assigned before it is looked at. -/
def RadioSettings.deserializeInto (_prior : RadioSettings) (bytes : List UInt8) :
    Bool × RadioSettings :=
  let s := unset
  if bytes.length ≠ kSerializedSize then (false, s)
  else if !checkCrc bytes then (false, s)
  else
    let s := { s with version := bytes.getD 0 0 }
    if s.version ≠ kSerializedVersion then (false, s)
    else (true, { s with
      region := bytes.getD 1 0
      freqHz := UInt32.ofNat (get ((bytes.drop 2).take 4))
      bwX100khz := UInt16.ofNat (get ((bytes.drop 6).take 2))
      sf := bytes.getD 8 0
      cr := bytes.getD 9 0
      powerDbm := bytes.getD 10 0
      configEpoch := UInt32.ofNat (get ((bytes.drop 11).take 4)) })

/-- The verdict and the object afterwards. Whatever bytes the object held, with
or without their terminators, the defaults are assigned first. -/
def DeviceSettings.deserializeInto (_prior : List UInt8) (bytes : List UInt8) :
    Bool × DeviceSettings :=
  let d := defaults
  if bytes.length ≠ kSerializedSize then (false, d)
  else if !checkCrc bytes then (false, d)
  else if bytes.getD 0 0 ≠ kSerializedVersion then (false, d)
  else
    let name := 1
    let pin := name + (kNameMax + 1)
    let wifiEnabled := pin + (kPinMax + 1)
    let wifiSsid := wifiEnabled + 1
    let wifiPassword := wifiSsid + (kSsidMax + 1)
    let wifiPort := wifiPassword + (kPassMax + 1)
    (true, {
      name := readField kNameMax (bytes.drop name)
      pin := readField kPinMax (bytes.drop pin)
      wifiEnabled := bytes.getD wifiEnabled 0 ≠ 0
      wifiSsid := readField kSsidMax (bytes.drop wifiSsid)
      wifiPassword := readField kPassMax (bytes.drop wifiPassword)
      wifiPort := UInt16.ofNat (get ((bytes.drop wifiPort).take 2)) })

/-- A whole record of another version. -/
def RadioSettings.OtherVersion (bytes : List UInt8) : Prop :=
  bytes.length = kSerializedSize ∧ checkCrc bytes = true ∧ bytes.getD 0 0 ≠ kSerializedVersion

theorem RadioSettings.deserializeInto_eq (prior : RadioSettings) (bytes : List UInt8) :
    (deserialize bytes = none ∧ ¬OtherVersion bytes ∧ deserializeInto prior bytes = (false, unset)) ∨
    (deserialize bytes = none ∧ OtherVersion bytes ∧
      deserializeInto prior bytes = (false, { unset with version := bytes.getD 0 0 })) ∨
    ∃ s, deserialize bytes = some s ∧ ¬OtherVersion bytes ∧ deserializeInto prior bytes = (true, s) := by
  unfold deserialize deserializeInto OtherVersion
  dsimp only
  by_cases size : bytes.length = kSerializedSize
  · cases crc : checkCrc bytes with
    | false => simp [size]
    | true =>
      by_cases version : bytes.getD 0 0 = kSerializedVersion
      · right; right
        simp only [size, version, ne_eq, not_true_eq_false, if_false, Bool.not_true,
          Bool.false_eq_true]
        exact ⟨_, rfl, fun h => h.2.2, rfl⟩
      · right; left
        simp only [size, version, ne_eq, not_true_eq_false, not_false_eq_true, if_false, if_true,
          Bool.not_true, Bool.false_eq_true, and_self]
  · simp [size]

theorem DeviceSettings.deserializeInto_eq (prior bytes : List UInt8) :
    deserializeInto prior bytes =
      match deserialize bytes with
      | none => (false, defaults)
      | some d => (true, d) := by
  unfold deserialize deserializeInto
  dsimp only
  split
  · rfl
  split
  · rfl
  split <;> rfl

/-- A rejected device record leaves the defaults. A rejected radio record leaves
the defaults unless it is a whole one of another version, whose version stays. -/
theorem rejected_record_leaves_defaults (device : List UInt8) (radio : RadioSettings)
    (bytes : List UInt8) :
    (((DeviceSettings.deserializeInto device bytes).1 = false →
        (DeviceSettings.deserializeInto device bytes).2 = DeviceSettings.defaults) ∧
      ((RadioSettings.deserializeInto radio bytes).1 = false →
        (RadioSettings.deserializeInto radio bytes).2 = RadioSettings.unset) ↔
      ¬RadioSettings.OtherVersion bytes) ∧
    ((DeviceSettings.deserializeInto device bytes).1 = false →
      (DeviceSettings.deserializeInto device bytes).2 = DeviceSettings.defaults) ∧
    (RadioSettings.OtherVersion bytes → RadioSettings.deserializeInto radio bytes =
      (false, { RadioSettings.unset with version := bytes.getD 0 0 })) := by
  have deviceLeft : (DeviceSettings.deserializeInto device bytes).1 = false →
      (DeviceSettings.deserializeInto device bytes).2 = DeviceSettings.defaults := by
    rw [DeviceSettings.deserializeInto_eq]
    split
    · exact fun _ => rfl
    · intro no
      cases no
  obtain ⟨_, same, eq⟩ | ⟨_, other, eq⟩ | ⟨s, _, same, eq⟩ :=
    RadioSettings.deserializeInto_eq radio bytes
  · exact ⟨⟨fun _ => same, fun _ => ⟨deviceLeft, fun _ => by rw [eq]⟩⟩, deviceLeft,
      fun other => absurd other same⟩
  · refine ⟨⟨fun ⟨_, left⟩ => ?_, fun same => absurd other same⟩, deviceLeft, fun _ => eq⟩
    rw [eq] at left
    exact absurd (congrArg RadioSettings.version (left rfl)) other.2.2
  · exact ⟨⟨fun _ => same, fun _ => ⟨deviceLeft, fun no => by rw [eq] at no; cases no⟩⟩,
      deviceLeft, fun other => absurd other same⟩

/-- A record a later version of the firmware might have written. -/
theorem rejected_record_of_version_two :
    ¬∀ (device : List UInt8) (radio : RadioSettings) (bytes : List UInt8),
      ((DeviceSettings.deserializeInto device bytes).1 = false →
        (DeviceSettings.deserializeInto device bytes).2 = DeviceSettings.defaults) ∧
      ((RadioSettings.deserializeInto radio bytes).1 = false →
        (RadioSettings.deserializeInto radio bytes).2 = RadioSettings.unset) := by
  intro claim
  let newer : RadioSettings := { RadioSettings.unset with version := 2 }
  have other : RadioSettings.OtherVersion newer.serialize :=
    ⟨newer.length_serialize, checkCrc_appendCrc _, by decide⟩
  obtain ⟨_, same, _⟩ | ⟨_, _, eq⟩ | ⟨_, _, same, _⟩ :=
    RadioSettings.deserializeInto_eq RadioSettings.unset newer.serialize
  · exact same other
  · have left := (claim [] RadioSettings.unset newer.serialize).2
    rw [eq] at left
    exact other.2.2 (congrArg RadioSettings.version (left rfl))
  · exact same other

/-! ## Records written back -/

theorem appendCrc_eq (body : List UInt8) : appendCrc body = body ++ trailer body := frameBuild_eq body

theorem checkCrc_iff {bytes : List UInt8} : checkCrc bytes = true ↔ CrcClean bytes := by
  unfold checkCrc
  by_cases short : bytes.length < 2
  · rw [if_pos short]
    simp only [Bool.false_eq_true, false_iff]
    rintro ⟨body, rfl⟩
    rw [List.length_append, length_trailer] at short
    omega
  · rw [if_neg short, decide_eq_true_iff, ← crcClean_iff (Nat.le_of_not_lt short), frameCrc,
      if_neg short, frameCrc16]

/-- A checked record whose last two bytes follow its body. -/
theorem appendCrc_of_checkCrc {bytes body rest : List UInt8} (checked : checkCrc bytes = true)
    (layout : bytes = body ++ rest) (two : rest.length = 2) : appendCrc body = bytes := by
  rw [checkCrc_iff, layout, crcClean_append two] at checked
  rw [layout, appendCrc_eq, checked]

theorem byte_field {bytes : List UInt8} {k : Nat} (inside : k < bytes.length) :
    bytes.drop k = [bytes.getD k 0] ++ bytes.drop (k + 1) := by
  rw [List.getD_eq_getElem _ _ inside]
  exact List.drop_eq_getElem_cons inside

theorem take_field (bytes : List UInt8) (k n : Nat) :
    bytes.drop k = (bytes.drop k).take n ++ bytes.drop (k + n) := by
  rw [← List.drop_drop, List.take_append_drop]

theorem uint16_field {bytes : List UInt8} {k : Nat} (inside : k + 2 ≤ bytes.length) :
    bytes.drop k = put 2 (UInt16.ofNat (get ((bytes.drop k).take 2))).toNat ++ bytes.drop (k + 2) := by
  rw [put_uint16 (by simp; omega)]
  exact take_field bytes k 2

theorem uint32_field {bytes : List UInt8} {k : Nat} (inside : k + 4 ≤ bytes.length) :
    bytes.drop k = put 4 (UInt32.ofNat (get ((bytes.drop k).take 4))).toNat ++ bytes.drop (k + 4) := by
  rw [put_uint32 (by simp; omega)]
  exact take_field bytes k 4

/-- A field that ends in its terminator is read as it stands. -/
theorem string_field {cap k : Nat} {bytes : List UInt8} (inside : k + cap < bytes.length)
    (closed : bytes.getD (k + cap) 0 = 0) :
    bytes.drop k = (readField cap (bytes.drop k)).1 ++ bytes.drop (k + (cap + 1)) := by
  have size : ((bytes.drop k).take cap).length = cap := by simp; omega
  have last := byte_field inside
  rw [closed] at last
  show _ = (bytes.drop k).take cap ++ List.replicate (cap + 1 - ((bytes.drop k).take cap).length) 0 ++ _
  rw [size, Nat.add_sub_cancel_left, List.append_assoc]
  calc bytes.drop k = (bytes.drop k).take cap ++ bytes.drop (k + cap) := take_field bytes k cap
    _ = _ := by rw [last]; rfl

/-- An accepted radio record is the one its settings are written as. -/
theorem RadioSettings.serialize_deserialize {bytes : List UInt8} {s : RadioSettings}
    (h : deserialize bytes = some s) : s.serialize = bytes := by
  unfold deserialize at h
  split at h
  · cases h
  rename_i size
  split at h
  · cases h
  rename_i checked
  split at h
  · cases h
  obtain rfl := Option.some.inj h
  rw [ne_eq, not_not, kSerializedSize] at size
  rw [Bool.not_eq_true', Bool.not_eq_false] at checked
  have version : bytes.drop 0 = _ := byte_field (by omega)
  have region : bytes.drop 1 = _ := byte_field (by omega)
  have freqHz : bytes.drop 2 = _ := uint32_field (by omega)
  have bwX100khz : bytes.drop 6 = _ := uint16_field (by omega)
  have sf : bytes.drop 8 = _ := byte_field (by omega)
  have cr : bytes.drop 9 = _ := byte_field (by omega)
  have powerDbm : bytes.drop 10 = _ := byte_field (by omega)
  have configEpoch : bytes.drop 11 = _ := uint32_field (by omega)
  have two : (bytes.drop 15).length = 2 := by rw [List.length_drop, size]
  refine appendCrc_of_checkCrc checked ?_ two
  calc bytes = bytes.drop 0 := rfl
    _ = _ := by
      conv_lhs => rw [version, region, freqHz, bwX100khz, sf, cr, powerDbm, configEpoch]
      simp only [List.append_assoc]
      rfl

namespace DeviceSettings

/-- The bytes that reading brings into form already have it: the flag is 0 or 1
and the last byte of each string 0. -/
structure InForm (bytes : List UInt8) : Prop where
  name : bytes.getD (1 + kNameMax) 0 = 0
  pin : bytes.getD (22 + kPinMax) 0 = 0
  wifiEnabled : bytes.getD 31 0 = 0 ∨ bytes.getD 31 0 = 1
  wifiSsid : bytes.getD (32 + kSsidMax) 0 = 0
  wifiPassword : bytes.getD (65 + kPassMax) 0 = 0

/-- An accepted device record in that form is the one its settings are written as. -/
theorem serialize_deserialize {bytes : List UInt8} {d : DeviceSettings}
    (h : deserialize bytes = some d) (form : InForm bytes) : d.serialize = bytes := by
  unfold deserialize at h
  split at h
  · cases h
  rename_i size
  split at h
  · cases h
  rename_i checked
  split at h
  · cases h
  rename_i version
  obtain rfl := Option.some.inj h
  rw [ne_eq, not_not] at size version
  replace size : bytes.length = 133 := size
  rw [Bool.not_eq_true', Bool.not_eq_false] at checked
  have first : bytes.drop 0 = _ := byte_field (by omega)
  have name : bytes.drop 1 = (readField kNameMax (bytes.drop 1)).1 ++ bytes.drop 22 :=
    string_field (by rw [size]; decide) form.name
  have pin : bytes.drop 22 = (readField kPinMax (bytes.drop 22)).1 ++ bytes.drop 31 :=
    string_field (by rw [size]; decide) form.pin
  have enabled : bytes.drop 31 = _ := byte_field (by omega)
  have ssid : bytes.drop 32 = (readField kSsidMax (bytes.drop 32)).1 ++ bytes.drop 65 :=
    string_field (by rw [size]; decide) form.wifiSsid
  have password : bytes.drop 65 = (readField kPassMax (bytes.drop 65)).1 ++ bytes.drop 129 :=
    string_field (by rw [size]; decide) form.wifiPassword
  have port : bytes.drop 129 = _ := uint16_field (by omega)
  have flag : (if bytes.getD 31 0 ≠ 0 then (1 : UInt8) else 0) = bytes.getD 31 0 := by
    rcases form.wifiEnabled with off | on
    · rw [off]; rfl
    · rw [on]; rfl
  have two : (bytes.drop 131).length = 2 := by rw [List.length_drop, size]
  refine appendCrc_of_checkCrc checked ?_ two
  simp only [decide_eq_true_eq]
  calc bytes = bytes.drop 0 := rfl
    _ = _ := by
      conv_lhs => rw [first, name, pin, enabled, ssid, password, port, version, ← flag]
      simp only [List.append_assoc]
      rfl

theorem str_readField {cap : Nat} (a : CharArray (cap + 1)) : (readField cap a.1).str = a.str := by
  have clean : 0 ∉ a.str := zero_not_mem_cstr a.1
  have short : a.str.length < cap + 1 := a.strlen_lt
  have inside : cap ≤ a.1.length := by rw [a.2.1]; omega
  have left : (a.1.take cap).length = cap := by rw [List.length_take, Nat.min_eq_left inside]
  obtain ⟨taken, ended⟩ := (a.str_eq_iff clean short).mp rfl
  rw [(readField cap a.1).str_eq_iff clean short, (readField_append a []).2]
  constructor
  · rw [List.take_append_of_le_length (by omega), List.take_take, Nat.min_eq_left (by omega)]
    exact taken
  · by_cases last : a.str.length = cap
    · rw [List.getD_append_right _ _ _ _ (by omega), left, last, Nat.sub_self]
      rfl
    · have before : a.str.length < cap := by omega
      rw [List.getD_append _ _ _ _ (by omega), List.getD_eq_getElem?_getD,
        List.getElem?_take_of_lt before, ← List.getD_eq_getElem?_getD]
      exact ended

/-- What is read back is the same to every comparison of the settings. -/
theorem reread_same (d : DeviceSettings) : d.reread.same d = true := by
  simp [same, reread, CharArray.strEq, str_readField]

end DeviceSettings

/-- The records written are read back, the strings of the device settings with
their last byte set to the terminator; what is read is written back as it was. -/
theorem records_round_trip :
    (∀ s : RadioSettings, s.version = kSerializedVersion →
      RadioSettings.deserialize s.serialize = some s) ∧
    (∀ (bytes : List UInt8) (s : RadioSettings), RadioSettings.deserialize bytes = some s →
      s.serialize = bytes) ∧
    (∀ d : DeviceSettings, ∃ d', DeviceSettings.deserialize d.serialize = some d' ∧
      d'.same d = true ∧ d'.wifiEnabled = d.wifiEnabled ∧ d'.wifiPort = d.wifiPort ∧
      d'.name.1 = d.name.1.take kNameMax ++ [0] ∧ d'.pin.1 = d.pin.1.take kPinMax ++ [0] ∧
      d'.wifiSsid.1 = d.wifiSsid.1.take kSsidMax ++ [0] ∧
      d'.wifiPassword.1 = d.wifiPassword.1.take kPassMax ++ [0] ∧
      (d' = d ↔ d.Closed)) ∧
    ∀ (bytes : List UInt8) (d : DeviceSettings), DeviceSettings.deserialize bytes = some d →
      DeviceSettings.InForm bytes → d.serialize = bytes := by
  refine ⟨fun s => RadioSettings.deserialize_serialize,
    fun bytes s => RadioSettings.serialize_deserialize, fun d => ?_,
    fun bytes d => DeviceSettings.serialize_deserialize⟩
  exact ⟨d.reread, d.deserialize_serialize_reread, d.reread_same, rfl, rfl,
    (readField_append _ []).2, (readField_append _ []).2, (readField_append _ []).2,
    (readField_append _ []).2, d.reread_eq_iff⟩

/-- A tuning of 869.525 MHz, after six others. -/
def tunedRecord : RadioSettings :=
  { RadioSettings.unset with freqHz := 869525000, sf := 9, cr := 5, powerDbm := 14, configEpoch := 7 }

/-- A device "A" with a PIN of its own. -/
def namedRecord : DeviceSettings :=
  { DeviceSettings.defaults with
    name := copyStr kNameMax [0x41], pin := copyStr kPinMax [0x31, 0x32, 0x33, 0x34] }

/-- Each is read back, and has no other bytes. -/
theorem records_round_trip_customised :
    RadioSettings.deserialize tunedRecord.serialize = some tunedRecord ∧
    (∀ bytes, RadioSettings.deserialize bytes = some tunedRecord → tunedRecord.serialize = bytes) ∧
    DeviceSettings.deserialize namedRecord.serialize = some namedRecord ∧
    ∀ bytes, DeviceSettings.deserialize bytes = some namedRecord → DeviceSettings.InForm bytes →
      namedRecord.serialize = bytes := by
  obtain ⟨d', read, _, _, _, _, _, _, _, same⟩ := records_round_trip.2.2.1 namedRecord
  have closed : namedRecord.Closed := ⟨by decide, by decide, by decide, by decide⟩
  refine ⟨records_round_trip.1 tunedRecord rfl, fun bytes => records_round_trip.2.1 bytes _, ?_,
    fun bytes => records_round_trip.2.2.2 bytes _⟩
  rw [read, same.mpr closed]

/-- An empty name whose field ends in another byte: it is read back closed. -/
theorem records_round_trip_open_name :
    ¬∀ d : DeviceSettings, DeviceSettings.deserialize d.serialize = some d := by
  intro claim
  let d : DeviceSettings :=
    { DeviceSettings.defaults with name := ⟨List.replicate 20 0 ++ [1], by decide, by decide⟩ }
  have same := claim d
  rw [d.deserialize_serialize_reread, Option.some.injEq, d.reread_eq_iff] at same
  exact absurd same.name (by decide)

/-! ## Damaged records -/

theorem Damage.checkCrc {body bytes : List UInt8} (h : Damage body.length (appendCrc body) bytes)
    (changed : bytes ≠ appendCrc body) : checkCrc bytes = false := by
  rw [appendCrc_eq] at h changed
  cases checked : MeshPigeon.checkCrc bytes with
  | false => rfl
  | true => exact absurd (checkCrc_iff.mp checked) (h.not_crcClean changed)

theorem RadioSettings.deserializeInto_unchecked (prior : RadioSettings) {bytes : List UInt8}
    (unchecked : checkCrc bytes = false) : (deserializeInto prior bytes).1 = false := by
  unfold deserializeInto
  rw [unchecked]
  split <;> rfl

theorem DeviceSettings.deserializeInto_unchecked (prior : List UInt8) {bytes : List UInt8}
    (unchecked : checkCrc bytes = false) : (deserializeInto prior bytes).1 = false := by
  unfold deserializeInto
  rw [unchecked]
  split <;> rfl

/-- A change of one byte, of two neighbours before the check sum or of the check
sum is seen, in a frame of any length and in both records. -/
theorem crc_detects_damage :
    (∀ e frame past : List UInt8, e.length ≤ 512 → Damage e.length (frameBuild e) frame →
      frame ≠ frameBuild e → FrameReader.Delimits past →
      ∃ body, frameEncodeWire frame = body ++ [0] ∧
        (∀ before b after, body = before ++ b :: after →
          ((FrameReader.feedAll .new (past ++ before)).feed b).2 = .none) ∧
        ((FrameReader.feedAll .new (past ++ body)).feed 0).2 = .unusable) ∧
    (∀ (s prior : RadioSettings) (bytes : List UInt8),
      Damage (RadioSettings.kSerializedSize - 2) s.serialize bytes → bytes ≠ s.serialize →
      (RadioSettings.deserializeInto prior bytes).1 = false) ∧
    ∀ (d : DeviceSettings) (prior bytes : List UInt8),
      Damage (DeviceSettings.kSerializedSize - 2) d.serialize bytes → bytes ≠ d.serialize →
      (DeviceSettings.deserializeInto prior bytes).1 = false := by
  refine ⟨fun e frame past => FrameReader.damaged_frame_unusable, ?_, ?_⟩
  · intro s prior bytes damage changed
    rw [← s.length_serialize, RadioSettings.serialize, length_appendCrc, Nat.add_sub_cancel] at damage
    exact RadioSettings.deserializeInto_unchecked prior (damage.checkCrc changed)
  · intro d prior bytes damage changed
    rw [← d.length_serialize, DeviceSettings.serialize, length_appendCrc, Nat.add_sub_cancel] at damage
    exact DeviceSettings.deserializeInto_unchecked prior (damage.checkCrc changed)

/-- The first byte of a frame changed, and the version of a record. -/
theorem crc_detects_damage_first :
    (∃ body, frameEncodeWire ((frameBuild [1]).set 0 0xFE) = body ++ [0] ∧
      ((FrameReader.feedAll .new body).feed 0).2 = .unusable) ∧
    (RadioSettings.deserializeInto RadioSettings.unset
      (RadioSettings.unset.serialize.set 0 2)).1 = false := by
  have differ {x y : List UInt8} (firsts : x.getD 0 0 ≠ y.getD 0 0) : x ≠ y :=
    fun same => firsts (by rw [same])
  have framed := crc_detects_damage.1 [1] _ [] (by decide) (.byte 0 0xFE) (differ (by decide)) (.inl rfl)
  have recorded := crc_detects_damage.2.1 RadioSettings.unset RadioSettings.unset _ (.byte 0 2)
    (differ (by decide))
  obtain ⟨body, wire, _, verdict⟩ := framed
  exact ⟨⟨body, wire, verdict⟩, recorded⟩

end MeshPigeon
