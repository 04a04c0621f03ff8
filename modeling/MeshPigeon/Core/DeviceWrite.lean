import MeshPigeon.Core.Handled

/-!
# Writing the device settings

A `SetDeviceSettings` against the old record: refused as a whole, silent when it
changes nothing, otherwise exactly the fields it names are replaced.
-/
namespace MeshPigeon

open DeviceSettings

/-- What each field that is present must be. An SSID and a password are bounded
by the wire alone, a name and a PIN are bounded there from above. -/
structure ValidFields (m : SetDeviceSettingsMessage) : Prop where
  name : ∀ a, m.name = some a → ∀ c ∈ a.str, 0x20 ≤ c ∧ c ≠ 0x7F
  pin : ∀ a, m.pin = some a → a.str = [] ∨ 4 ≤ a.str.length ∧ ∀ c ∈ a.str, 0x30 ≤ c ∧ c ≤ 0x39
  wifiPort : ∀ p, m.wifiPort = some p → p ≠ 0 ∧ p.toNat ≤ 65535

/-- The PIN a write asks for: the empty one stands for the default. -/
def askedPin (pin : CharArray (kPinMax + 1)) : List UInt8 :=
  if pin.str = [] then kDefaultPin else pin.str

/-- Every field that is present carries the value already in force. -/
structure NoChange (d : DeviceSettings) (m : SetDeviceSettingsMessage) : Prop where
  name : ∀ a, m.name = some a → a.str = d.name.str
  pin : ∀ a, m.pin = some a → askedPin a = d.pin.str
  wifiEnabled : ∀ b, m.wifiEnabled = some b → b = d.wifiEnabled
  wifiSsid : ∀ a, m.wifiSsid = some a → a.str = d.wifiSsid.str
  wifiPassword : ∀ a, m.wifiPassword = some a → a.str = d.wifiPassword.str
  wifiPort : ∀ p, m.wifiPort = some p → p.toNat = d.wifiPort.toNat

/-- A field of `n` bytes that holds the string and nothing after it. -/
def zeroed (n : Nat) (s : List UInt8) : List UInt8 := s ++ List.replicate (n - s.length) 0

/-- `d'` is `d` with exactly the fields that are present replaced, byte by byte. -/
structure Replaced (d d' : DeviceSettings) (m : SetDeviceSettingsMessage) : Prop where
  name : d'.name.1 = m.name.elim d.name.1 fun a => zeroed 21 a.str
  pin : d'.pin.1 = m.pin.elim d.pin.1 fun a => zeroed 9 (askedPin a)
  wifiEnabled : d'.wifiEnabled = m.wifiEnabled.getD d.wifiEnabled
  wifiSsid : d'.wifiSsid.1 = m.wifiSsid.elim d.wifiSsid.1 fun a => zeroed 33 a.str
  wifiPassword : d'.wifiPassword.1 = m.wifiPassword.elim d.wifiPassword.1 fun a => zeroed 64 a.str
  wifiPort : d'.wifiPort.toNat = m.wifiPort.elim d.wifiPort.toNat UInt32.toNat

/-! ## Field by field -/

/-- A string moves into a field of its own size whole. -/
theorem str_copyStr_self {cap : Nat} (a : CharArray (cap + 1)) :
    (copyStr cap a.str).1 = zeroed (cap + 1) a.str ∧ (copyStr cap a.str).str = a.str := by
  have whole : (cstr a.str).take cap = a.str := by
    rw [CharArray.str, cstr_cstr]
    exact List.take_of_length_le (Nat.le_of_lt_succ a.strlen_lt)
  refine ⟨?_, by rw [str_copyStr, whole]⟩
  show (cstr a.str).take cap ++ List.replicate (cap + 1 - ((cstr a.str).take cap).length) 0 = _
  rw [whole]
  rfl

/-- A validated PIN fills its field. -/
theorem setPin_zeroed {pin : CharArray (kPinMax + 1)} (valid : validPinSet pin.str = true) :
    (setPin pin.str).1 = zeroed 9 (askedPin pin) ∧ (setPin pin.str).str = askedPin pin := by
  refine ⟨?_, str_setPin valid⟩
  unfold setPin askedPin
  split
  · rfl
  · exact (str_copyStr_self pin).1

theorem validName_iff (a : CharArray (kNameMax + 1)) :
    validName a.str = true ↔ ∀ c ∈ a.str, 0x20 ≤ c ∧ c ≠ 0x7F := by
  have short : a.str.length ≤ kNameMax := Nat.le_of_lt_succ a.strlen_lt
  simp only [validName, Bool.and_eq_true, decide_eq_true_eq, List.all_eq_true, not_or, UInt8.not_lt,
    short, true_and]

theorem validPinSet_iff (a : CharArray (kPinMax + 1)) :
    validPinSet a.str = true ↔
      a.str = [] ∨ 4 ≤ a.str.length ∧ ∀ c ∈ a.str, 0x30 ≤ c ∧ c ≤ 0x39 := by
  have short : a.str.length ≤ kPinMax := Nat.le_of_lt_succ a.strlen_lt
  simp only [validPinSet, validPin, Bool.or_eq_true, Bool.and_eq_true, decide_eq_true_eq,
    List.all_eq_true, not_or, UInt8.not_lt, gt_iff_lt, short, and_true, List.length_eq_zero_iff]

theorem validPort_iff (p : UInt32) : validPort p = true ↔ p ≠ 0 ∧ p.toNat ≤ 65535 := by
  simp only [validPort, Bool.and_eq_true, decide_eq_true_eq, UInt32.le_iff_toNat_le]
  exact Iff.rfl

theorem validFields_iff (m : SetDeviceSettingsMessage) :
    CommandProcessor.validDevice m = true ↔ ValidFields m := by
  have ssid : m.wifiSsid.all (fun a => validSsid a.str) = true := by
    rw [Option.all_eq_true]
    exact fun a _ => decide_eq_true (Nat.le_of_lt_succ a.strlen_lt)
  have password : m.wifiPassword.all (fun a => validPassword a.str) = true := by
    rw [Option.all_eq_true]
    exact fun a _ => decide_eq_true (Nat.le_of_lt_succ a.strlen_lt)
  simp only [CommandProcessor.validDevice, ssid, password, Bool.and_eq_true, and_true,
    Option.all_eq_true, validName_iff, validPinSet_iff, validPort_iff]
  constructor
  · rintro ⟨⟨name, pin⟩, port⟩
    exact ⟨name, pin, port⟩
  · rintro ⟨name, pin, port⟩
    exact ⟨⟨name, pin⟩, port⟩

open CommandProcessor (candidate validDevice)

variable {m : SetDeviceSettingsMessage}

theorem ValidFields.pin_set (h : ValidFields m) {a : CharArray (kPinMax + 1)}
    (present : m.pin = some a) : validPinSet a.str = true :=
  (validPinSet_iff a).mpr (h.pin a present)

/-- The candidate is the old record with the fields that are present replaced. -/
theorem ValidFields.replaced (h : ValidFields m) (d : DeviceSettings) :
    Replaced d (candidate d m) m := by
  constructor
  · unfold candidate
    cases m.name with
    | none => rfl
    | some a => exact (str_copyStr_self a).1
  · unfold candidate
    cases present : m.pin with
    | none => rfl
    | some a => exact (setPin_zeroed (h.pin_set present)).1
  · rfl
  · unfold candidate
    cases m.wifiSsid with
    | none => rfl
    | some a => exact (str_copyStr_self a).1
  · unfold candidate
    cases m.wifiPassword with
    | none => rfl
    | some a => exact (str_copyStr_self a).1
  · unfold candidate
    cases present : m.wifiPort with
    | none => rfl
    | some p =>
      show p.toUInt16.toNat = p.toNat
      have small := (h.wifiPort p present).2
      rw [UInt32.toNat_toUInt16, Nat.mod_eq_of_lt (by omega)]

/-- A field that may be absent compares equal when it is, or holds the old value. -/
theorem elim_strEq {n : Nat} (field : Option (CharArray n)) (old : CharArray n)
    (write : CharArray n → CharArray n) :
    (field.elim old write).strEq old = true ↔ ∀ a, field = some a → (write a).str = old.str := by
  cases field with
  | none => simp [CharArray.strEq]
  | some a =>
    simp only [Option.elim_some, Option.some.injEq, forall_eq']
    exact decide_eq_true_iff

/-- The comparison with the old record sees exactly whether a field changes. -/
theorem ValidFields.same_iff (h : ValidFields m) (d : DeviceSettings) :
    (candidate d m).same d = true ↔ NoChange d m := by
  have enabled : m.wifiEnabled.getD d.wifiEnabled = d.wifiEnabled ↔
      ∀ b, m.wifiEnabled = some b → b = d.wifiEnabled := by
    cases m.wifiEnabled <;> simp
  have port : m.wifiPort.elim d.wifiPort UInt32.toUInt16 = d.wifiPort ↔
      ∀ p, m.wifiPort = some p → p.toNat = d.wifiPort.toNat := by
    rw [← UInt16.toNat_inj]
    have stored := (h.replaced d).wifiPort
    unfold candidate at stored
    rw [stored]
    cases m.wifiPort <;> simp
  have pin : (∀ a, m.pin = some a → (setPin a.str).str = d.pin.str) ↔
      ∀ a, m.pin = some a → askedPin a = d.pin.str := by
    apply forall_congr'
    intro a
    apply forall_congr'
    intro present
    rw [(setPin_zeroed (h.pin_set present)).2]
  simp only [same, candidate, Bool.and_eq_true, elim_strEq, (str_copyStr_self _).2, beq_iff_eq,
    enabled, port, pin]
  constructor
  · rintro ⟨⟨⟨⟨⟨name, pin⟩, enabled⟩, ssid⟩, password⟩, port⟩
    exact ⟨name, pin, enabled, ssid, password, port⟩
  · rintro ⟨name, pin, enabled, ssid, password, port⟩
    exact ⟨⟨⟨⟨⟨name, pin⟩, enabled⟩, ssid⟩, password⟩, port⟩

namespace CommandProcessor

variable {σ : Type} [SettingsStore σ]

/-- A field about the link is present and the board has no Wi-Fi. -/
def Unsupported (env : Env) (m : SetDeviceSettingsMessage) : Prop :=
  wifiTouched m = true ∧ ∃ h, env.hooks = some h ∧ h.wifiSupported = false

theorem unsupported_iff (env : Env) (m : SetDeviceSettingsMessage) :
    (wifiTouched m && env.hooks.any fun h => !h.wifiSupported) = true ↔ Unsupported env m := by
  rw [Bool.and_eq_true, Option.any_eq_true, Unsupported]
  simp only [Bool.not_eq_true']

omit [SettingsStore σ] in
theorem acceptsDevice_of {s : CommandProcessor σ} {env : Env} {sink : Sink}
    (authorized : s.isAuthorized sink = true) (valid : ValidFields m)
    (supported : ¬Unsupported env m) : AcceptsDevice s env m sink :=
  ⟨authorized, (validFields_iff m).mpr valid,
    Bool.eq_false_iff.mpr (mt (unsupported_iff env m).mp supported)⟩

/-- **A write of the device settings is all or nothing.** A stranger, an invalid
field and a Wi-Fi field on a board without Wi-Fi are refused in this order, and
the refusal is all that happens. A write that changes no value is answered and
nothing else. Any other replaces exactly the fields that are present, saves the
record and is answered with it; only a write of the PIN touches the sessions. -/
theorem setDeviceSettings_atomic (s : CommandProcessor σ) (env : Env) (id : UInt32)
    (m : SetDeviceSettingsMessage) (sink : Sink) :
    let o := s.handleRequest env ⟨id, .setDeviceSettings m⟩ sink
    (s.isAuthorized sink = false → o = s.answer ⟨id, .error .authRequired []⟩ sink) ∧
    (s.isAuthorized sink = true → ¬ValidFields m →
      o = s.answer ⟨id, .error .badPayload []⟩ sink) ∧
    (s.isAuthorized sink = true → ValidFields m → Unsupported env m →
      o = s.answer ⟨id, .error .notSupported []⟩ sink) ∧
    (s.isAuthorized sink = true → ValidFields m → ¬Unsupported env m →
      (NoChange s.device m →
        o = s.answer ⟨id, .deviceSettings (s.deviceSettingsMessage env.hooks)⟩ sink) ∧
      (¬NoChange s.device m →
        Replaced s.device o.state.device m ∧
        o.state.settingsStore = SettingsStore.saveDevice s.settingsStore o.state.device ∧
        (m.pin = none → o.state.authenticated = s.authenticated ∧
          o.state.authFails = s.authFails ∧ o.state.authBackoffUntil = s.authBackoffUntil) ∧
        ∃ hooked others, o.acts = .saveDevice o.state.device :: hooked ++
          [.frame others ⟨0, .deviceSettings (o.state.deviceSettingsMessage env.hooks)⟩,
            .frame [sink] ⟨id, .deviceSettings (o.state.deviceSettingsMessage env.hooks)⟩])) := by
  have handled : s.handleRequest env ⟨id, .setDeviceSettings m⟩ sink =
    s.handleSetDeviceSettings env id m sink := rfl
  rw [handled]
  refine ⟨fun stranger => ?_, fun authorized invalid => ?_, fun authorized valid unsupported => ?_,
    fun authorized valid supported => ⟨fun unchanged => ?_, fun changes => ?_⟩⟩
  · exact requireAuth_stranger s id stranger _
  · rw [handleSetDeviceSettings, requireAuth_authorized _ _ authorized, if_pos]
    · rfl
    · rw [Bool.not_eq_true', Bool.eq_false_iff]
      exact mt (validFields_iff m).mp invalid
  · rw [handleSetDeviceSettings, requireAuth_authorized _ _ authorized, if_neg, if_pos]
    · rfl
    · exact (unsupported_iff env m).mpr unsupported
    · rw [(validFields_iff m).mpr valid]
      decide
  · rw [setDeviceSettings_same id (acceptsDevice_of authorized valid supported)
      ((valid.same_iff s.device).mpr unchanged), sendDeviceSettings_eq]
  · have change : (candidate s.device m).same s.device = false :=
      Bool.eq_false_iff.mpr (mt (valid.same_iff s.device).mp changes)
    obtain ⟨state, acts⟩ :=
      setDeviceSettings_applied id (acceptsDevice_of authorized valid supported) change
    have device := s.deviceWritten_device m sink
    have stored : (s.deviceWritten m sink).settingsStore =
        SettingsStore.saveDevice s.settingsStore (candidate s.device m) := by
      obtain ⟨_, _, _, written⟩ := s.deviceWritten_eq m sink
      rw [written]
    rw [state, acts]
    refine ⟨?_, ?_, fun pinless => ?_, ((s.deviceWritten m sink).announceName env m).acts ++
      ((s.deviceWritten m sink).applyWifi env m).acts, _, rfl⟩
    · show Replaced s.device (s.deviceWritten m sink).device m
      rw [device]
      exact valid.replaced s.device
    · show (s.deviceWritten m sink).settingsStore =
        SettingsStore.saveDevice s.settingsStore (s.deviceWritten m sink).device
      rw [stored, device]
    · simp [deviceWritten, pinless]

end CommandProcessor

end MeshPigeon
