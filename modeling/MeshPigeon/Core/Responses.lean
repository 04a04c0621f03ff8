import MeshPigeon.Core.CommandProcessor

/-! What the builders leave in the response, and whom it is sent to. -/
namespace MeshPigeon.CommandProcessor

variable {σ : Type}

@[simp] theorem andThen_state (o : Outcome σ) (f : CommandProcessor σ → Outcome σ) :
    (o.andThen f).state = (f o.state).state := rfl

@[simp] theorem andThen_acts (o : Outcome σ) (f : CommandProcessor σ → Outcome σ) :
    (o.andThen f).acts = o.acts ++ (f o.state).acts := rfl

@[simp] theorem quiet_state (s : CommandProcessor σ) : s.quiet.state = s := rfl
@[simp] theorem quiet_acts (s : CommandProcessor σ) : s.quiet.acts = [] := rfl
@[simp] theorem act_state (s : CommandProcessor σ) (a : Act) : (s.act a).state = s := rfl
@[simp] theorem act_acts (s : CommandProcessor σ) (a : Act) : (s.act a).acts = [a] := rfl

/-- A response sent to the one connection that asked. -/
def answer (s : CommandProcessor σ) (response : RadioToClient) (sink : Sink) : Outcome σ :=
  { state := { s with response }, acts := [.frame [sink] response] }

/-- A push to the registered connections. -/
def push (s : CommandProcessor σ) (response : RadioToClient) (except : Option Sink)
    (authorizedOnly : Bool) : Outcome σ :=
  { state := { s with response }, acts := [.frame (s.recipients except authorizedOnly) response] }

def deviceSettingsMessage (s : CommandProcessor σ) (hooks : Option Hooks) : DeviceSettingsMessage where
  name := s.effectiveName hooks
  wifiEnabled := s.device.wifiEnabled
  wifiSsid := copyStr kSsidMax s.device.wifiSsid.str
  wifiPassword := copyStr kPassMax s.device.wifiPassword.str
  wifiPort := s.device.wifiPort.toUInt32

def statusMessage : Option LinkReport → Status
  | none => {}
  | some l => { l.fillStatus {} with
      bleClients := l.bleClients.toUInt32
      usbCdcClients := l.usbCdcClients.toUInt32
      wifiTcpClients := l.wifiTcpClients.toUInt32 }

def deviceInfoMessage (s : CommandProcessor σ) (hooks : Option Hooks) (sink : Sink) : DeviceInfo :=
  let fresh := List.replicate kMaxCapabilities (0 : UInt32)
  let capabilities := hooks.elim (fresh, 0) fun h => h.fillCapabilities fresh
  { specVersion := kSpecVersion
    fwVersion := copyStr 15 s.fwVersion.str
    boardName := copyStr 16 s.boardName.str
    capabilities := capabilities.1
    capabilitiesCount := min capabilities.2 kMaxCapabilities
    uptimeMs := s.clock.uptimeMs64
    bootCount := s.clock.bootCount
    store := some ⟨s.store.1.count, s.store.1.capacity, s.store.1.dropped, s.store.1.oldestSeq⟩
    radioConfigEpoch := s.settings.configEpoch
    batteryMv := (hooks.elim 0xFFFF Hooks.batteryMv).toUInt32
    radioOk := s.radioOk
    noiseFloorDbm := s.noiseFloorDbm
    authRequired := !s.isAuthorized sink }

/-- The processor once it has read the clock. -/
def ticked (s : CommandProcessor σ) (now : UInt32) : CommandProcessor σ :=
  { s with clock := s.clock.poll now }

theorem poll_eq (s : CommandProcessor σ) (now : UInt32) (txDone : Bool) :
    s.poll now txDone =
      if (s.ticked now).txPending && txDone then
        (s.ticked now).onTxResult (s.ticked now).txPendingSeq true
      else (s.ticked now).quiet := rfl

/-- A connection joins the registered ones, or there is no room for it. -/
theorem addSink_eq (s : CommandProcessor σ) (sink : Sink) :
    ∃ sinks, s.addSink sink = { s with sinks := sinks } ∧ ∀ c ∈ sinks, c ≠ sink → c ∈ s.sinks := by
  unfold addSink
  split
  · exact ⟨s.sinks, rfl, fun _ registered _ => registered⟩
  · refine ⟨s.sinks ++ [sink], rfl, fun c registered other => ?_⟩
    simpa [other] using registered

variable (s : CommandProcessor σ) (hooks : Option Hooks) (id : UInt32) (sink : Sink)

theorem sendError_eq (code : ErrorCode) :
    s.sendError id code sink = s.answer ⟨id, .error code []⟩ sink := rfl

theorem sendOk_eq : s.sendOk id sink = s.answer ⟨id, .ok⟩ sink := rfl

theorem sendPong_eq (payload : List UInt8) :
    s.sendPong id payload sink = s.answer ⟨id, .pong (payload.take 500)⟩ sink := rfl

theorem sendRadioSettings_eq : s.sendRadioSettings id sink =
    s.answer ⟨id, .radioSettings (radioSettingsMessage s.settings)⟩ sink := rfl

theorem sendDeviceSettings_eq : s.sendDeviceSettings hooks id sink =
    s.answer ⟨id, .deviceSettings (s.deviceSettingsMessage hooks)⟩ sink := rfl

theorem sendStatus_eq : s.sendStatus hooks id sink =
    s.answer ⟨id, .status (statusMessage (hooks.map Hooks.link))⟩ sink := by
  cases hooks <;> rfl

theorem sendDeviceInfo_eq : s.sendDeviceInfo hooks id sink =
    s.answer ⟨id, .deviceInfo (s.deviceInfoMessage hooks sink)⟩ sink := by
  cases hooks <;> rfl

theorem emitTxResult_eq (seq : UInt32) (ok : Bool) :
    s.emitTxResult seq ok = s.push ⟨0, .txResult seq ok⟩ none false := rfl

theorem onWifiStateChanged_eq (link : Option LinkReport) :
    s.onWifiStateChanged link = s.push ⟨0, .status (statusMessage link)⟩ none false := by
  cases link <;> rfl

theorem requireAuth_authorized {sink : Sink} (h : s.isAuthorized sink = true) (o : Outcome σ) :
    s.requireAuth id sink o = o := by simp [requireAuth, h]

theorem requireAuth_stranger {sink : Sink} (h : s.isAuthorized sink = false) (o : Outcome σ) :
    s.requireAuth id sink o = s.answer ⟨id, .error .authRequired []⟩ sink := by
  simp [requireAuth, h, sendError_eq]

end MeshPigeon.CommandProcessor
