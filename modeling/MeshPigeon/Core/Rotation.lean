import MeshPigeon.Core.Gate

/-! What a write of the device settings does, and what becomes of the sessions. -/
namespace MeshPigeon.CommandProcessor

variable {σ : Type}

theorem announceName_state (s : CommandProcessor σ) (env : Env) (m : SetDeviceSettingsMessage) :
    (s.announceName env m).state = s := by
  unfold announceName
  split <;> rfl

/-- The registry once the link has reacted to new settings. -/
def removing (sinks : List Sink) (calls : List HookCall) : List Sink :=
  calls.foldl (fun sinks call => match call with
    | .wifiStateChanged _ => sinks
    | .removeSink c => sinks.erase c) sinks

theorem removing_sublist (sinks : List Sink) (calls : List HookCall) :
    (removing sinks calls).Sublist sinks := by
  induction calls generalizing sinks with
  | nil => exact List.Sublist.refl _
  | cons call calls ih =>
    cases call with
    | wifiStateChanged link => exact ih sinks
    | removeSink c => exact (ih _).trans List.erase_sublist

theorem hookCalls_sinks (calls : List HookCall) (s : CommandProcessor σ) :
    ∃ response, (s.hookCalls calls).state =
      { s with response := response, sinks := removing s.sinks calls } := by
  induction calls generalizing s with
  | nil => exact ⟨s.response, rfl⟩
  | cons call calls ih =>
    obtain ⟨response, rest⟩ := ih (s.hookCall call).state
    refine ⟨response, ?_⟩
    rw [hookCalls, andThen_state, rest]
    cases call with
    | wifiStateChanged link =>
      rw [hookCall, onWifiStateChanged_eq]
      rfl
    | removeSink c => rfl

/-- What `apply_wifi` answers to a write, if it is called. -/
def linkCalls (s : CommandProcessor σ) (env : Env) (m : SetDeviceSettingsMessage) :
    List HookCall :=
  if wifiTouched m then env.hooks.elim [] fun h => h.applyWifi s.device else []

theorem applyWifi_sinks (s : CommandProcessor σ) (env : Env) (m : SetDeviceSettingsMessage) :
    ∃ response, (s.applyWifi env m).state =
      { s with response := response, sinks := removing s.sinks (s.linkCalls env m) } := by
  unfold applyWifi linkCalls
  cases hooks : env.hooks with
  | none =>
    refine ⟨s.response, ?_⟩
    cases wifiTouched m <;> rfl
  | some h =>
    dsimp only
    split
    · exact hookCalls_sinks _ s
    · exact ⟨s.response, rfl⟩

/-- The write carries the PIN already in force. -/
def CarriesSamePin (s : CommandProcessor σ) (m : SetDeviceSettingsMessage) : Prop :=
  ∃ pin, m.pin = some pin ∧ (DeviceSettings.setPin pin.str).str = s.device.pin.str

/-- A write moves the sessions exactly when it is a rotation. -/
structure RotationLaw (s t : CommandProcessor σ) (m : SetDeviceSettingsMessage) (sink : Sink) :
    Prop where
  kept : t.device.pin.str = s.device.pin.str →
    (∀ c ∈ s.sinks, c ≠ sink → t.authenticated c = s.authenticated c) ∧
      t.authFails = s.authFails ∧ t.authBackoffUntil = s.authBackoffUntil
  nobody : CarriesSamePin s m → ∀ c ∈ s.sinks, s.authenticated c = true → t.authenticated c = true
  moved : t.device.pin.str ≠ s.device.pin.str →
    (∀ c ∈ s.sinks, c ≠ sink → t.authenticated c = false) ∧ t.authenticated sink = true ∧
      t.authFails = 0 ∧ t.authBackoffUntil = 0

/-- The write names the PIN in force next to a field that is a change, while
there is a session or a failed attempt to lose. -/
def Disturbs (s : CommandProcessor σ) (m : SetDeviceSettingsMessage) (sink : Sink) : Prop :=
  CarriesSamePin s m ∧ (candidate s.device m).same s.device = false ∧
    ((∃ c ∈ s.sinks, c ≠ sink ∧ s.authenticated c = true) ∨ s.authFails ≠ 0 ∨
      s.authBackoffUntil ≠ 0)

theorem rotationLaw_unmoved {s t : CommandProcessor σ} (m : SetDeviceSettingsMessage) (sink : Sink)
    (pin : t.device.pin = s.device.pin) (flags : t.authenticated = s.authenticated)
    (fails : t.authFails = s.authFails) (penalty : t.authBackoffUntil = s.authBackoffUntil) :
    RotationLaw s t m sink := by
  constructor
  · intro _
    exact ⟨fun c _ _ => by rw [flags], fails, penalty⟩
  · intro _ c _ session
    rw [flags]
    exact session
  · intro rotated
    exact absurd (by rw [pin]) rotated

/-- A write of a PIN moves the sessions, whatever that PIN is. -/
theorem rotationLaw_moved {s t : CommandProcessor σ} {m : SetDeviceSettingsMessage} {sink : Sink}
    {pin : CharArray (kPinMax + 1)} (hpin : m.pin = some pin)
    (device : t.device.pin = DeviceSettings.setPin pin.str)
    (flags : t.authenticated =
      fun c => if c = sink then true else if c ∈ s.sinks then false else s.authenticated c)
    (fails : t.authFails = 0) (penalty : t.authBackoffUntil = 0) :
    RotationLaw s t m sink ↔ ¬(CarriesSamePin s m ∧
      ((∃ c ∈ s.sinks, c ≠ sink ∧ s.authenticated c = true) ∨ s.authFails ≠ 0 ∨
        s.authBackoffUntil ≠ 0)) := by
  have carries : CarriesSamePin s m ↔ t.device.pin.str = s.device.pin.str := by
    rw [device]
    constructor
    · rintro ⟨pin', hpin', same⟩
      obtain rfl := Option.some.inj (hpin.symm.trans hpin')
      exact same
    · intro same
      exact ⟨pin, hpin, same⟩
  have lost : ∀ c ∈ s.sinks, c ≠ sink → t.authenticated c = false := by
    intro c registered other
    rw [flags]
    simp [registered, other]
  constructor
  · rintro law ⟨same, ⟨c, registered, other, session⟩ | failed | penalized⟩
    · have after := (law.kept (carries.mp same)).1 c registered other
      rw [lost c registered other, session] at after
      cases after
    · exact failed ((law.kept (carries.mp same)).2.1.symm.trans fails)
    · exact penalized ((law.kept (carries.mp same)).2.2.symm.trans penalty)
  · intro calm
    have rest (same : CarriesSamePin s m) : (∀ c ∈ s.sinks, c ≠ sink → s.authenticated c = false) ∧
        s.authFails = 0 ∧ s.authBackoffUntil = 0 := by
      refine ⟨fun c registered other => ?_, ?_, ?_⟩
      · exact Bool.eq_false_iff.mpr fun session =>
          calm ⟨same, .inl ⟨c, registered, other, session⟩⟩
      · exact Classical.byContradiction fun failed => calm ⟨same, .inr (.inl failed)⟩
      · exact Classical.byContradiction fun penalized => calm ⟨same, .inr (.inr penalized)⟩
    constructor
    · intro unchanged
      obtain ⟨closed, noFails, noPenalty⟩ := rest (carries.mpr unchanged)
      refine ⟨fun c registered other => ?_, fails.trans noFails.symm, penalty.trans noPenalty.symm⟩
      rw [lost c registered other, closed c registered other]
    · intro same c registered session
      by_cases self : c = sink
      · rw [flags]
        simp [self]
      · rw [(rest same).1 c registered self] at session
        cases session
    · intro _
      refine ⟨lost, ?_, fails, penalty⟩
      rw [flags]
      simp

variable [SettingsStore σ]

/-- The request passes every check of `handle_set_device_settings`. -/
structure AcceptsDevice (s : CommandProcessor σ) (env : Env) (m : SetDeviceSettingsMessage)
    (sink : Sink) : Prop where
  authorized : s.isAuthorized sink = true
  valid : validDevice m = true
  supported : (wifiTouched m && env.hooks.any fun h => !h.wifiSupported) = false

/-- The processor once a change is in force, in RAM and on flash. -/
def deviceWritten (s : CommandProcessor σ) (m : SetDeviceSettingsMessage) (sink : Sink) :
    CommandProcessor σ :=
  let s := { s with device := candidate s.device m }
  let s := if m.pin.isSome then s.moveSessions sink else s
  { s with settingsStore := SettingsStore.saveDevice s.settingsStore s.device }

theorem deviceWritten_eq (s : CommandProcessor σ) (m : SetDeviceSettingsMessage) (sink : Sink) :
    ∃ flags fails until', s.deviceWritten m sink = { s with
      device := candidate s.device m
      settingsStore := SettingsStore.saveDevice s.settingsStore (candidate s.device m)
      authenticated := flags
      authFails := fails
      authBackoffUntil := until' } := by
  unfold deviceWritten
  cases m.pin with
  | none => exact ⟨s.authenticated, s.authFails, s.authBackoffUntil, rfl⟩
  | some pin => exact ⟨_, 0, 0, rfl⟩

theorem deviceWritten_device (s : CommandProcessor σ) (m : SetDeviceSettingsMessage)
    (sink : Sink) : (s.deviceWritten m sink).device = candidate s.device m := by
  obtain ⟨_, _, _, same⟩ := s.deviceWritten_eq m sink
  rw [same]

theorem deviceWritten_sinks (s : CommandProcessor σ) (m : SetDeviceSettingsMessage)
    (sink : Sink) : (s.deviceWritten m sink).sinks = s.sinks := by
  obtain ⟨_, _, _, same⟩ := s.deviceWritten_eq m sink
  rw [same]

theorem setDeviceSettings_refused {s : CommandProcessor σ} {env : Env}
    {m : SetDeviceSettingsMessage} {sink : Sink} (id : UInt32)
    (refuses : ¬AcceptsDevice s env m sink) :
    ∃ code, s.handleSetDeviceSettings env id m sink = s.answer ⟨id, .error code []⟩ sink := by
  unfold handleSetDeviceSettings requireAuth
  split
  · rename_i authorized
    split
    · exact ⟨_, sendError_eq ..⟩
    · rename_i valid
      split
      · exact ⟨_, sendError_eq ..⟩
      · rename_i supported
        exact absurd ⟨authorized, by simpa using valid, Bool.eq_false_iff.mpr supported⟩ refuses
  · exact ⟨_, sendError_eq ..⟩

theorem setDeviceSettings_same {s : CommandProcessor σ} {env : Env} {m : SetDeviceSettingsMessage}
    {sink : Sink} (id : UInt32) (accepts : AcceptsDevice s env m sink)
    (same : (candidate s.device m).same s.device = true) :
    s.handleSetDeviceSettings env id m sink = s.sendDeviceSettings env.hooks id sink := by
  rw [handleSetDeviceSettings, requireAuth_authorized _ _ accepts.authorized]
  simp [accepts.valid, accepts.supported, same]

variable {s : CommandProcessor σ} {env : Env} {sink : Sink}

/-- A write that changes the settings: saved, announced, told to the link, pushed to the
others, answered. -/
theorem setDeviceSettings_applied (id : UInt32) {m : SetDeviceSettingsMessage}
    (accepts : AcceptsDevice s env m sink) (change : (candidate s.device m).same s.device = false) :
    let t := s.deviceWritten m sink
    let response : RadioToClient := ⟨id, .deviceSettings (t.deviceSettingsMessage env.hooks)⟩
    (s.handleSetDeviceSettings env id m sink).state =
        { t with response := response, sinks := removing t.sinks (t.linkCalls env m) } ∧
      (s.handleSetDeviceSettings env id m sink).acts =
        .saveDevice t.device :: (t.announceName env m).acts ++ (t.applyWifi env m).acts ++
          [.frame (({ t with sinks := removing t.sinks (t.linkCalls env m) }).recipients
              (some sink) true) { response with id := 0 },
            .frame [sink] response] := by
  obtain ⟨response, linked⟩ := applyWifi_sinks (s.deviceWritten m sink) env m
  have handled : s.handleSetDeviceSettings env id m sink =
      ((s.deviceWritten m sink).act (.saveDevice (s.deviceWritten m sink).device)).andThen
        fun s => (s.announceName env m).andThen fun s => (s.applyWifi env m).andThen fun s =>
          (s.notifyDeviceSettingsChanged env.hooks sink).andThen fun s =>
            s.sendDeviceSettings env.hooks id sink := by
    rw [handleSetDeviceSettings, requireAuth_authorized _ _ accepts.authorized]
    simp only [accepts.valid, accepts.supported, change, Bool.not_true, Bool.false_eq_true,
      if_false]
    rfl
  rw [handled]
  constructor
  · simp only [andThen_state, act_state]
    rw [announceName_state, linked]
    rfl
  · simp only [andThen_acts, act_acts, act_state]
    rw [announceName_state, linked]
    simp only [List.append_assoc, List.singleton_append]
    rfl

/-- **When a write keeps the rotation law.** An accepted write of the device
settings moves the sessions exactly when it rotates the PIN, unless it repeats
the PIN in force next to a change while a session or a failure is on record. -/
theorem rotation_iff (s : CommandProcessor σ) (env : Env) (id : UInt32)
    (m : SetDeviceSettingsMessage) (sink : Sink) (accepts : AcceptsDevice s env m sink) :
    RotationLaw s (s.handleRequest env ⟨id, .setDeviceSettings m⟩ sink).state m sink ↔
      ¬Disturbs s m sink := by
  have handled : s.handleRequest env ⟨id, .setDeviceSettings m⟩ sink =
      s.handleSetDeviceSettings env id m sink := rfl
  rw [handled]
  cases change : (candidate s.device m).same s.device with
  | true =>
    rw [setDeviceSettings_same id accepts change]
    refine iff_of_true (rotationLaw_unmoved m sink rfl rfl rfl rfl) ?_
    rintro ⟨_, changed, _⟩
    rw [change] at changed
    cases changed
  | false =>
    rw [(setDeviceSettings_applied id accepts change).1]
    cases hpin : m.pin with
    | none =>
      refine iff_of_true ?_ ?_
      · apply rotationLaw_unmoved <;> simp [deviceWritten, candidate, hpin]
      · rintro ⟨⟨pin, carried, _⟩, _⟩
        rw [hpin] at carried
        cases carried
    | some pin =>
      rw [rotationLaw_moved hpin (by simp [deviceWritten, candidate, moveSessions, hpin])
        (by simp [deviceWritten, moveSessions, hpin]) (by simp [deviceWritten, moveSessions, hpin])
        (by simp [deviceWritten, moveSessions, hpin])]
      simp only [Disturbs, change, true_and]

/-- Two connections that both proved the PIN. -/
def twoSessions : CommandProcessor MemorySettingsStore :=
  (sampleBoot.run sampleDecode
    [.connect 1, .connect 2, sampleEvent 0 1, sampleEvent 0 2]).state

/-- A new name and the PIN in force. -/
def renameWithPin : SetDeviceSettingsMessage :=
  { name := some (copyStr kNameMax [0x41]), pin := some samplePin }

/-- The rename logs the other connection out. -/
theorem rename_with_pin_moves_sessions :
    Reachable sampleDecode twoSessions ∧
      AcceptsDevice twoSessions ⟨none, true, true⟩ renameWithPin 1 ∧
      ¬RotationLaw twoSessions (twoSessions.handleRequest ⟨none, true, true⟩
        ⟨3, .setDeviceSettings renameWithPin⟩ 1).state renameWithPin 1 := by
  refine ⟨⟨sampleBoot, _, sampleBoot_booted, rfl⟩, ⟨by decide, by decide, by decide⟩, ?_⟩
  intro law
  have kept := law.nobody ⟨samplePin, rfl, by decide⟩ 2 (by decide) (by decide)
  exact absurd kept (by decide)

/-- A rename alone keeps the law. -/
theorem rotation_iff_rename :
    RotationLaw twoSessions (twoSessions.handleRequest ⟨none, true, true⟩
        ⟨3, .setDeviceSettings { name := some (copyStr kNameMax [0x41]) }⟩ 1).state
        { name := some (copyStr kNameMax [0x41]) } 1 ↔
      ¬Disturbs twoSessions { name := some (copyStr kNameMax [0x41]) } 1 :=
  rotation_iff twoSessions ⟨none, true, true⟩ 3 { name := some (copyStr kNameMax [0x41]) } 1
    ⟨by decide, by decide, by decide⟩

end MeshPigeon.CommandProcessor
