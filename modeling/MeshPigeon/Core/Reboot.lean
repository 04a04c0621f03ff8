import MeshPigeon.Core.Handled
import MeshPigeon.Core.Records

/-! A reboot is transparent to the configuration. -/
namespace MeshPigeon

/-- What the processor relies on in a store whose writes succeed. -/
class LawfulSettingsStore (σ : Type) [SettingsStore σ] where
  /-- what a load answers and a save keeps -/
  Keeps : DeviceSettings → Prop
  keeps_loaded : ∀ s : σ, Keeps (SettingsStore.loadDevice s)
  keeps_port : ∀ {d : DeviceSettings} (port : UInt16), Keeps d → Keeps { d with wifiPort := port }
  keeps_defaults : Keeps DeviceSettings.defaults
  keeps_candidate : ∀ {d : DeviceSettings} (m : SetDeviceSettingsMessage), Keeps d →
    Keeps (CommandProcessor.candidate d m)
  load_save : ∀ (s : σ) {r : RadioSettings}, r.version = kSerializedVersion →
    SettingsStore.load (SettingsStore.save s r) = some r
  load_saveDevice : ∀ (s : σ) (d : DeviceSettings),
    SettingsStore.load (SettingsStore.saveDevice s d) = SettingsStore.load s
  load_clearDevice : ∀ s : σ, SettingsStore.load (SettingsStore.clearDevice s) = SettingsStore.load s
  loadDevice_save : ∀ (s : σ) (r : RadioSettings),
    SettingsStore.loadDevice (SettingsStore.save s r) = SettingsStore.loadDevice s
  loadDevice_saveDevice : ∀ (s : σ) {d : DeviceSettings}, Keeps d →
    SettingsStore.loadDevice (SettingsStore.saveDevice s d) = d
  loadDevice_clearDevice : ∀ s : σ,
    SettingsStore.loadDevice (SettingsStore.clearDevice s) = DeviceSettings.defaults

instance : LawfulSettingsStore MemorySettingsStore where
  Keeps _ := True
  keeps_loaded _ := trivial
  keeps_port _ _ := trivial
  keeps_defaults := trivial
  keeps_candidate _ _ := trivial
  load_save _ _ _ := rfl
  load_saveDevice _ _ := rfl
  load_clearDevice _ := rfl
  loadDevice_save _ _ := rfl
  loadDevice_saveDevice _ _ _ := rfl
  loadDevice_clearDevice _ := rfl

/-! ## The boards' stores -/

theorem padded_closed {cap : Nat} {s : List UInt8} (fits : s.length < cap + 1) :
    (CharArray.padded (cap + 1) s fits).1.getD cap 0 = 0 := by
  show (s ++ List.replicate (cap + 1 - s.length) 0).getD cap 0 = 0
  rw [List.getD_append_right _ _ _ _ (Nat.le_of_lt_succ fits), List.getD_replicate _ (by omega)]

theorem copyStr_closed (cap : Nat) (src : List UInt8) : (copyStr cap src).1.getD cap 0 = 0 :=
  padded_closed _

theorem readField_closed (cap : Nat) (bytes : List UInt8) :
    (readField cap bytes).1.getD cap 0 = 0 :=
  padded_closed _

namespace DeviceSettings

theorem closed_defaults : defaults.Closed :=
  ⟨copyStr_closed _ _, copyStr_closed _ _, copyStr_closed _ _, copyStr_closed _ _⟩

theorem closed_deserialize {bytes : List UInt8} {d : DeviceSettings}
    (h : deserialize bytes = some d) : d.Closed := by
  unfold deserialize at h
  split at h
  · cases h
  split at h
  · cases h
  split at h
  · cases h
  · obtain rfl := Option.some.inj h
    exact ⟨readField_closed _ _, readField_closed _ _, readField_closed _ _, readField_closed _ _⟩

theorem Closed.candidate {d : DeviceSettings} (h : d.Closed) (m : SetDeviceSettingsMessage) :
    (CommandProcessor.candidate d m).Closed := by
  unfold CommandProcessor.candidate
  constructor
  · cases m.name with
    | none => exact h.name
    | some name => exact copyStr_closed _ _
  · cases m.pin with
    | none => exact h.pin
    | some pin => exact copyStr_closed _ _
  · cases m.wifiSsid with
    | none => exact h.wifiSsid
    | some ssid => exact copyStr_closed _ _
  · cases m.wifiPassword with
    | none => exact h.wifiPassword
    | some password => exact copyStr_closed _ _

end DeviceSettings

/-- The reader returns a record of the right size whole. -/
def RecordReader.Whole (read : RecordReader) : Prop :=
  ∀ size record, record.length = size → read size record = some record

theorem nvsRead_whole : nvsRead.Whole := by
  intro size record fits
  simp [nvsRead, fits]

theorem fileRead_whole : fileRead.Whole := by
  rintro size record rfl
  simp [fileRead]

/-- The store of a board, whatever the size check of its reader. -/
abbrev lawful_of_whole (read : RecordReader) (whole : read.Whole) :
    LawfulSettingsStore (BoardSettingsStore read) where
  Keeps := DeviceSettings.Closed
  keeps_loaded s := by
    change ((s.dev.bind fun record =>
      (read DeviceSettings.kSerializedSize record).bind DeviceSettings.deserialize).getD
        DeviceSettings.defaults).Closed
    generalize loaded : (s.dev.bind fun record =>
      (read DeviceSettings.kSerializedSize record).bind DeviceSettings.deserialize) = record
    cases record with
    | none => exact DeviceSettings.closed_defaults
    | some d =>
      obtain ⟨record, _, rest⟩ := Option.bind_eq_some_iff.mp loaded
      obtain ⟨bytes, _, parsed⟩ := Option.bind_eq_some_iff.mp rest
      exact DeviceSettings.closed_deserialize parsed
  keeps_port _ h := ⟨h.name, h.pin, h.wifiSsid, h.wifiPassword⟩
  keeps_defaults := DeviceSettings.closed_defaults
  keeps_candidate m h := h.candidate m
  load_save s r version := by
    show (some r.serialize).bind (fun record =>
      (read RadioSettings.kSerializedSize record).bind RadioSettings.deserialize) = some r
    rw [Option.bind_some, whole _ _ r.length_serialize, Option.bind_some,
      RadioSettings.deserialize_serialize version]
  load_saveDevice _ _ := rfl
  load_clearDevice _ := rfl
  loadDevice_save _ _ := rfl
  loadDevice_saveDevice s d closed := by
    show ((some d.serialize).bind fun record =>
      (read DeviceSettings.kSerializedSize record).bind DeviceSettings.deserialize).getD _ = d
    rw [Option.bind_some, whole _ _ d.length_serialize, Option.bind_some,
      DeviceSettings.deserialize_serialize closed]
    rfl
  loadDevice_clearDevice _ := rfl

/-- The ESP32's store. -/
instance : LawfulSettingsStore (BoardSettingsStore nvsRead) := lawful_of_whole _ nvsRead_whole

/-- The nRF52's store. -/
instance : LawfulSettingsStore (BoardSettingsStore fileRead) := lawful_of_whole _ fileRead_whole

namespace CommandProcessor

variable {σ : Type} [SettingsStore σ]

/-- The port that `boot` gives a record without one. -/
def portDefaulted (d : DeviceSettings) : DeviceSettings :=
  if d.wifiPort = 0 then { d with wifiPort := kWifiPortDefault } else d

/-- What RAM and flash agree on. -/
structure Persisted [LawfulSettingsStore σ] (s : CommandProcessor σ) : Prop where
  settings : (SettingsStore.load s.settingsStore).getD RadioSettings.unset = s.settings
  device : portDefaulted (SettingsStore.loadDevice s.settingsStore) = s.device
  kept : LawfulSettingsStore.Keeps σ s.device
  port : s.device.wifiPort ≠ 0

/-- Every field of the configuration, in RAM and on flash, is as it was. -/
structure Unconfigured (s t : CommandProcessor σ) : Prop where
  settings : t.settings = s.settings
  device : t.device = s.device
  settingsStore : t.settingsStore = s.settingsStore

variable [LawfulSettingsStore σ] {s t : CommandProcessor σ}

theorem Persisted.unconfigured (h : Persisted s) (same : Unconfigured s t) : Persisted t := by
  obtain ⟨settings, device, settingsStore⟩ := same
  constructor
  · rw [settingsStore, settings]
    exact h.settings
  · rw [settingsStore, device]
    exact h.device
  · rw [device]
    exact h.kept
  · rw [device]
    exact h.port

theorem Persisted.tuned (h : Persisted s) {m : RadioSettingsMessage}
    (settings : t.settings = s.nextTuning m) (device : t.device = s.device)
    (saved : t.settingsStore = SettingsStore.save s.settingsStore (s.nextTuning m)) :
    Persisted t := by
  constructor
  · rw [saved, settings, LawfulSettingsStore.load_save _ rfl]
    rfl
  · rw [saved, device, LawfulSettingsStore.loadDevice_save]
    exact h.device
  · rw [device]
    exact h.kept
  · rw [device]
    exact h.port

theorem candidate_port {d : DeviceSettings} (port : d.wifiPort ≠ 0)
    {m : SetDeviceSettingsMessage} (valid : validDevice m = true) :
    (candidate d m).wifiPort ≠ 0 := by
  unfold candidate
  cases hport : m.wifiPort with
  | none => exact port
  | some p =>
    simp only [validDevice, hport, Bool.and_eq_true, Option.all_some, DeviceSettings.validPort,
      decide_eq_true_eq] at valid
    obtain ⟨_, set, small⟩ := valid
    intro zero
    apply set
    apply UInt32.toNat_inj.mp
    have word := congrArg UInt16.toNat zero
    have small := UInt32.le_iff_toNat_le.mp small
    simp only [Option.elim_some, UInt32.toNat_toUInt16, UInt16.toNat_zero] at word
    simp only [UInt32.toNat_zero]
    change p.toNat ≤ 65535 at small
    omega

theorem Persisted.written (h : Persisted s) {m : SetDeviceSettingsMessage}
    (valid : validDevice m = true) (settings : t.settings = s.settings)
    (device : t.device = candidate s.device m)
    (saved : t.settingsStore = SettingsStore.saveDevice s.settingsStore (candidate s.device m)) :
    Persisted t := by
  have kept := LawfulSettingsStore.keeps_candidate m h.kept
  have port := candidate_port h.port valid
  constructor
  · rw [saved, settings, LawfulSettingsStore.load_saveDevice]
    exact h.settings
  · rw [saved, device, LawfulSettingsStore.loadDevice_saveDevice _ kept]
    exact if_neg port
  · rw [device]
    exact kept
  · rw [device]
    exact port

theorem Persisted.reset (h : Persisted s) (settings : t.settings = s.settings)
    (device : t.device = DeviceSettings.defaults)
    (cleared : t.settingsStore = SettingsStore.clearDevice s.settingsStore) : Persisted t := by
  constructor
  · rw [cleared, settings, LawfulSettingsStore.load_clearDevice]
    exact h.settings
  · rw [cleared, device, LawfulSettingsStore.loadDevice_clearDevice]
    rfl
  · rw [device]
    exact LawfulSettingsStore.keeps_defaults
  · rw [device]
    decide

theorem Handled.persisted {env : Env} {req : ClientToRadio} {sink : Sink} {o : Outcome σ}
    (h : Persisted s) (handled : Handled s env req sink o) : Persisted o.state := by
  have same {u : CommandProcessor σ} (state : o.state = u) (settings : u.settings = s.settings)
      (device : u.device = s.device) (saved : u.settingsStore = s.settingsStore) :
      Persisted o.state := state ▸ h.unconfigured ⟨settings, device, saved⟩
  cases handled with
  | answered _ _ answer => exact same (congrArg Outcome.state answer) rfl rfl rfl
  | @auth pin _ answer =>
    obtain ⟨_, _, _, _, _, _, answers⟩ := handleAuth_answers s req.id pin sink
    exact same (congrArg Outcome.state (answer.trans answers)) rfl rfl rfl
  | retuned _ _ _ _ _ state _ =>
    rw [state]
    exact h.tuned rfl rfl rfl
  | retuneFailed _ _ _ state _ | storeRefused _ _ state _ | sent _ _ _ _ state _
  | sendFailed _ _ _ _ state _ | fetched _ _ _ state _ | purged _ state _ | restarted _ state _ =>
    exact same state rfl rfl rfl
  | reset _ state _ =>
    rw [state]
    exact h.reset rfl rfl rfl
  | @written m _ _ _ accepts _ written _ state _ =>
    rw [state, written]
    obtain ⟨_, _, _, same⟩ := s.deviceWritten_eq m sink
    rw [same]
    exact h.written accepts.valid rfl rfl rfl

theorem step_persisted {pbDecode : List UInt8 → Option ClientToRadio} (h : Persisted s)
    (e : Event) : Persisted (s.step pbDecode e).state := by
  cases step_stepped pbDecode s e with
  | @connected sink _ same =>
    obtain ⟨_, added, _⟩ := (s.setAuthenticated sink false).addSink_eq sink
    rw [same, added]
    exact h.unconfigured ⟨rfl, rfl, rfl⟩
  | requested _ _ _ handled => exact handled.persisted h
  | relinked _ same | disconnected _ same | dropped _ _ same | unheard _ _ same | heard _ _ _ _ same
  | ticked _ _ same | finished _ _ same | stale _ same | reported _ _ same | linkChanged _ same =>
    rw [same]
    exact h.unconfigured ⟨rfl, rfl, rfl⟩

theorem booted_persisted (boot : Booted s) : Persisted s := by
  obtain ⟨capacity, clock, settingsStore, boardName, fwVersion, response, beginOk, applyOk, rfl⟩ :=
    boot
  have kept := LawfulSettingsStore.keeps_loaded settingsStore
  constructor
  · rfl
  · rfl
  · show LawfulSettingsStore.Keeps σ (portDefaulted (SettingsStore.loadDevice settingsStore))
    unfold portDefaulted
    split
    · exact LawfulSettingsStore.keeps_port _ kept
    · exact kept
  · show (portDefaulted (SettingsStore.loadDevice settingsStore)).wifiPort ≠ 0
    unfold portDefaulted
    split
    · show kWifiPortDefault ≠ 0
      decide
    · assumption

theorem run_persisted {pbDecode : List UInt8 → Option ClientToRadio} {s₀ : CommandProcessor σ}
    (boot : Booted s₀) (events : List Event) : Persisted (s₀.run pbDecode events).state :=
  run_invariant (fun s _ _ => Persisted s) (booted_persisted boot)
    (fun _ _ _ e h => step_persisted h e) events

omit [LawfulSettingsStore σ] in
/-- A processor that boots over the same store comes up with the same configuration. -/
def RebootsAlike (s : CommandProcessor σ) : Prop :=
  ∀ (store : Store) (clock : UptimeClock) (boardName fwVersion : List UInt8)
    (response : RadioToClient) (beginOk applyOk : Bool),
    let fresh :=
      ((new store clock s.settingsStore boardName fwVersion response).boot beginOk applyOk).state
    fresh.settings = s.settings ∧ fresh.device = s.device

theorem Persisted.rebootsAlike (h : Persisted s) : RebootsAlike s := by
  intro store clock boardName fwVersion response beginOk applyOk
  exact ⟨h.settings, h.device⟩

/-- **A reboot is transparent to the configuration.** In every state reached from
boot, over either board's store of serialized records or the in-memory store and
whatever they held at first, a processor booted over the same store has the
tuning, its epoch and the device settings in force. -/
theorem reboot_transparent (pbDecode : List UInt8 → Option ClientToRadio) :
    (∀ s : CommandProcessor (BoardSettingsStore nvsRead), Reachable pbDecode s → RebootsAlike s) ∧
    (∀ s : CommandProcessor (BoardSettingsStore fileRead), Reachable pbDecode s → RebootsAlike s) ∧
    ∀ s : CommandProcessor MemorySettingsStore, Reachable pbDecode s → RebootsAlike s := by
  refine ⟨?_, ?_, ?_⟩
  all_goals
    rintro _ ⟨s₀, events, boot, rfl⟩
    exact (run_persisted boot events).rebootsAlike

/-- After a write that names the device and sets the PIN again. -/
theorem reboot_transparent_named : RebootsAlike
    (sampleBoot.run sampleDecode [.connect 1, sampleEvent 0 1, sampleEvent 2 1]).state :=
  (reboot_transparent sampleDecode).2.2 _
    ⟨sampleBoot, [.connect 1, sampleEvent 0 1, sampleEvent 2 1], sampleBoot_booted, rfl⟩

end CommandProcessor

end MeshPigeon
