import MeshPigeon.Core.Handled

/-!
# The response is scratch

Two processors that differ in what the last response left behind cannot be told
apart: every builder starts from the reset of `begin_response`.
-/
namespace MeshPigeon

variable {σ : Type}

/-- Two calls made the same calls in turn and left states that differ at most in the response. -/
structure Outcome.Unseen (o o' : Outcome σ) : Prop where
  acts : o'.acts = o.acts
  state : ∃ response, o'.state = { o.state with response }

namespace Outcome.Unseen

theorem of_eq {o o' : Outcome σ} (same : o' = o) : Unseen o o' := by
  subst same
  exact ⟨rfl, o'.state.response, rfl⟩

theorem andThen {o o' : Outcome σ} {f g : CommandProcessor σ → Outcome σ} (h : Unseen o o')
    (each : ∀ s response, Unseen (f s) (g { s with response })) :
    Unseen (o.andThen f) (o'.andThen g) := by
  obtain ⟨response, left⟩ := h.state
  have next := each o.state response
  refine ⟨?_, ?_⟩
  · rw [CommandProcessor.andThen_acts, CommandProcessor.andThen_acts, h.acts, left, next.acts]
  · rw [CommandProcessor.andThen_state, CommandProcessor.andThen_state, left]
    exact next.state

end Outcome.Unseen

namespace CommandProcessor

open Outcome (Unseen)

variable (s : CommandProcessor σ) (response : RadioToClient)

theorem quiet_unseen : Unseen s.quiet { s with response }.quiet := ⟨rfl, response, rfl⟩

theorem act_unseen (a : Act) : Unseen (s.act a) ({ s with response }.act a) := ⟨rfl, response, rfl⟩

theorem ite_unseen {c : Prop} [Decidable c] {o₁ o₂ o₁' o₂' : Outcome σ} (yes : Unseen o₁ o₁')
    (no : Unseen o₂ o₂') : Unseen (if c then o₁ else o₂) (if c then o₁' else o₂') := by
  split
  · exact yes
  · exact no

theorem addSink_unseen (sink : Sink) :
    Unseen (s.addSink sink).quiet ({ s with response }.addSink sink).quiet := by
  unfold addSink
  by_cases full : s.sinks.length ≥ kMaxSinks
  · rw [if_pos full, if_pos full]
    exact s.quiet_unseen response
  · rw [if_neg full, if_neg full]
    exact ⟨rfl, response, rfl⟩

/-! ## Whatever is sent is built anew -/

theorem sendError_unseen (id : UInt32) (code : ErrorCode) (sink : Sink) :
    Unseen (s.sendError id code sink) ({ s with response }.sendError id code sink) := .of_eq rfl

theorem sendRadioSettings_unseen (id : UInt32) (sink : Sink) :
    Unseen (s.sendRadioSettings id sink) ({ s with response }.sendRadioSettings id sink) :=
  .of_eq rfl

theorem sendDeviceSettings_unseen (hooks : Option Hooks) (id : UInt32) (sink : Sink) :
    Unseen (s.sendDeviceSettings hooks id sink)
      ({ s with response }.sendDeviceSettings hooks id sink) := .of_eq rfl

theorem emitTxResult_unseen (seq : UInt32) (ok : Bool) :
    Unseen (s.emitTxResult seq ok) ({ s with response }.emitTxResult seq ok) := .of_eq rfl

theorem onWifiStateChanged_unseen (link : Option LinkReport) :
    Unseen (s.onWifiStateChanged link) ({ s with response }.onWifiStateChanged link) := by
  rw [onWifiStateChanged_eq, onWifiStateChanged_eq]
  exact .of_eq rfl

theorem requireAuth_unseen (id : UInt32) (sink : Sink) {o o' : Outcome σ} (h : Unseen o o') :
    Unseen (s.requireAuth id sink o) ({ s with response }.requireAuth id sink o') :=
  ite_unseen h (s.sendError_unseen response id .authRequired sink)

theorem boardAct_unseen (env : Env) (a : Act) :
    Unseen (s.boardAct env a) ({ s with response }.boardAct env a) :=
  ite_unseen (s.act_unseen response a) (s.quiet_unseen response)

/-! ## The handlers -/

theorem hookCall_unseen (call : HookCall) :
    Unseen (s.hookCall call) ({ s with response }.hookCall call) := by
  cases call with
  | wifiStateChanged link => exact s.onWifiStateChanged_unseen response (some link)
  | removeSink c => exact (s.removeSink c).quiet_unseen response

/-- However often the hook calls back. -/
theorem hookCalls_unseen (calls : List HookCall) :
    Unseen (s.hookCalls calls) ({ s with response }.hookCalls calls) := by
  induction calls generalizing s response with
  | nil => exact s.quiet_unseen response
  | cons call calls ih => exact (s.hookCall_unseen response call).andThen ih

theorem announceName_unseen (env : Env) (m : SetDeviceSettingsMessage) :
    Unseen (s.announceName env m) ({ s with response }.announceName env m) :=
  ite_unseen (s.act_unseen response _) (s.quiet_unseen response)

theorem applyWifi_unseen (env : Env) (m : SetDeviceSettingsMessage) :
    Unseen (s.applyWifi env m) ({ s with response }.applyWifi env m) := by
  unfold applyWifi
  cases env.hooks with
  | none => exact s.quiet_unseen response
  | some h =>
    exact ite_unseen
      ((s.act_unseen response _).andThen fun t r => t.hookCalls_unseen r (h.applyWifi t.device))
      (s.quiet_unseen response)

theorem handleFetchPackets_unseen (id sinceSeq maxCount : UInt32) (sink : Sink) :
    Unseen (s.handleFetchPackets id sinceSeq maxCount sink)
      ({ s with response }.handleFetchPackets id sinceSeq maxCount sink) := by
  by_cases authorized : s.isAuthorized sink = true
  · rw [fetchPackets_page authorized, fetchPackets_page (s := { s with response }) authorized]
    exact .of_eq rfl
  · have stranger : s.isAuthorized sink = false := Bool.eq_false_iff.mpr authorized
    rw [handleFetchPackets, handleFetchPackets, requireAuth_stranger s id stranger,
      requireAuth_stranger { s with response } id stranger]
    exact .of_eq rfl

theorem handleAuth_unseen (id : UInt32) (pin : CharArray (kPinMax + 1)) (sink : Sink) :
    Unseen (s.handleAuth id pin sink) ({ s with response }.handleAuth id pin sink) :=
  ite_unseen (s.sendError_unseen response id .authRequired sink)
    (ite_unseen (.of_eq rfl) (.of_eq rfl))

theorem acceptPacket_unseen (env : Env) (id : UInt32) (raw : Payload) (seq : UInt32) (sink : Sink) :
    Unseen (s.acceptPacket env id raw seq sink)
      ({ s with response }.acceptPacket env id raw seq sink) := by
  refine .andThen (.of_eq rfl) fun t r => ?_
  refine (t.act_unseen r (.radioTransmit raw)).andThen fun t r => ?_
  exact ite_unseen (t.emitTxResult_unseen r seq false) ⟨rfl, r, rfl⟩

theorem handleSendPacket_unseen (env : Env) (id : UInt32) (raw : Payload) (sink : Sink) :
    Unseen (s.handleSendPacket env id raw sink)
      ({ s with response }.handleSendPacket env id raw sink) := by
  refine s.requireAuth_unseen response id sink (ite_unseen (.of_eq rfl) (ite_unseen (.of_eq rfl)
    (ite_unseen (.of_eq rfl) ?_)))
  have stored : Unseen (s.storeAppend (s.outgoing raw))
    ({ s with response }.storeAppend (s.outgoing raw)) := ⟨rfl, response, rfl⟩
  refine stored.andThen fun t r => ?_
  exact ite_unseen (t.sendError_unseen r id .busy sink)
    (t.acceptPacket_unseen r env id raw _ sink)

theorem onTxResult_unseen (seq : UInt32) (ok : Bool) :
    Unseen (s.onTxResult seq ok) ({ s with response }.onTxResult seq ok) :=
  ite_unseen (s.quiet_unseen response) (.of_eq rfl)

theorem poll_unseen (now : UInt32) (txDone : Bool) :
    Unseen (s.poll now txDone) ({ s with response }.poll now txDone) :=
  ite_unseen ((s.ticked now).onTxResult_unseen response s.txPendingSeq true)
    ((s.ticked now).quiet_unseen response)

theorem onPacketReceived_unseen (rssi snr : Int8) (raw : Payload) :
    Unseen (s.onPacketReceived rssi snr raw) ({ s with response }.onPacketReceived rssi snr raw) := by
  have stored : Unseen
    ({ s with noiseFloorDbm := rssi.toInt32 - snr.toInt32 }.storeAppend (s.store.append
      s.clock.uptimeMs64 rssi snr kFlagReceived raw))
    ({ s with noiseFloorDbm := rssi.toInt32 - snr.toInt32, response }.storeAppend (s.store.append
      s.clock.uptimeMs64 rssi snr kFlagReceived raw)) := ⟨rfl, response, rfl⟩
  unfold onPacketReceived
  refine stored.andThen fun t r => ?_
  refine ite_unseen (t.quiet_unseen r) ?_
  cases (s.store.append s.clock.uptimeMs64 rssi snr kFlagReceived raw).stored with
  | none => exact t.quiet_unseen r
  | some e => exact .of_eq rfl

variable [SettingsStore σ]

theorem handleSetRadioSettings_unseen (env : Env) (id : UInt32)
    (settings : Option RadioSettingsMessage) (sink : Sink) :
    Unseen (s.handleSetRadioSettings env id settings sink)
      ({ s with response }.handleSetRadioSettings env id settings sink) := by
  refine s.requireAuth_unseen response id sink ?_
  cases settings with
  | none => exact .of_eq rfl
  | some m =>
    refine ite_unseen (.of_eq rfl) (ite_unseen (.of_eq rfl) ?_)
    refine (s.act_unseen response _).andThen fun t r => ite_unseen (.of_eq rfl) ?_
    refine .andThen ⟨rfl, r, rfl⟩ fun t r => ?_
    exact .andThen (.of_eq rfl) fun t r => t.sendRadioSettings_unseen r id sink

theorem handleSetDeviceSettings_unseen (env : Env) (id : UInt32) (m : SetDeviceSettingsMessage)
    (sink : Sink) :
    Unseen (s.handleSetDeviceSettings env id m sink)
      ({ s with response }.handleSetDeviceSettings env id m sink) := by
  refine s.requireAuth_unseen response id sink (ite_unseen (.of_eq rfl) (ite_unseen (.of_eq rfl)
    (ite_unseen (.of_eq rfl) ?_)))
  have saved : Unseen ((s.deviceWritten m sink).act (.saveDevice (s.deviceWritten m sink).device))
    (({ s with response }.deviceWritten m sink).act
      (.saveDevice ({ s with response }.deviceWritten m sink).device)) := by
    unfold deviceWritten
    cases m.pin.isSome <;> exact ⟨rfl, response, rfl⟩
  refine saved.andThen fun t r => (t.announceName_unseen r env m).andThen fun t r => ?_
  refine (t.applyWifi_unseen r env m).andThen fun t r => ?_
  exact .andThen (.of_eq rfl) fun t r => t.sendDeviceSettings_unseen r env.hooks id sink

theorem handleRequest_unseen (env : Env) (req : ClientToRadio) (sink : Sink) :
    Unseen (s.handleRequest env req sink) ({ s with response }.handleRequest env req sink) := by
  unfold handleRequest
  cases req.body with
  | ping payload => exact .of_eq rfl
  | getDeviceInfo =>
    show Unseen (s.sendDeviceInfo env.hooks req.id sink) _
    rw [sendDeviceInfo_eq]
    exact .of_eq (sendDeviceInfo_eq ..)
  | getRadioSettings =>
    exact s.requireAuth_unseen response req.id sink
      (s.sendRadioSettings_unseen response req.id sink)
  | setRadioSettings settings => exact s.handleSetRadioSettings_unseen response env _ settings sink
  | sendPacket raw => exact s.handleSendPacket_unseen response env _ raw sink
  | fetchPackets sinceSeq maxCount => exact s.handleFetchPackets_unseen response _ _ _ sink
  | purgeStore => exact s.requireAuth_unseen response req.id sink (.of_eq rfl)
  | bootloader =>
    exact s.requireAuth_unseen response req.id sink
      (.andThen (.of_eq rfl) fun t r => t.boardAct_unseen r env .rebootToBootloader)
  | getDeviceSettings =>
    exact s.requireAuth_unseen response req.id sink
      (s.sendDeviceSettings_unseen response env.hooks req.id sink)
  | setDeviceSettings m => exact s.handleSetDeviceSettings_unseen response env _ m sink
  | getStatus =>
    show Unseen (s.sendStatus env.hooks req.id sink) _
    rw [sendStatus_eq]
    exact .of_eq (sendStatus_eq ..)
  | auth pin => exact s.handleAuth_unseen response _ pin sink
  | reboot =>
    exact s.requireAuth_unseen response req.id sink
      (.andThen (.of_eq rfl) fun t r => t.boardAct_unseen r env .reboot)
  | factoryReset =>
    refine s.requireAuth_unseen response req.id sink ?_
    refine .andThen ⟨rfl, response, rfl⟩ fun t r => ?_
    exact .andThen (.of_eq rfl) fun t r => t.boardAct_unseen r env .factoryReset
  | unknown => exact .of_eq rfl

variable (pbDecode : List UInt8 → Option ClientToRadio)

theorem step_unseen (e : Event) : Unseen (s.step pbDecode e) ({ s with response }.step pbDecode e) := by
  cases e with
  | connect sink => exact (s.setAuthenticated sink false).addSink_unseen response sink
  | relink sink => exact ⟨rfl, response, rfl⟩
  | disconnect sink => exact ⟨rfl, response, rfl⟩
  | envelope env data sink =>
    show Unseen (s.onEnvelope pbDecode env data sink) (onEnvelope pbDecode _ env data sink)
    unfold onEnvelope
    cases decodeEnvelope pbDecode data with
    | none => exact s.quiet_unseen response
    | some req => exact s.handleRequest_unseen response env req sink
  | packetReceived rssi snr raw => exact s.onPacketReceived_unseen response rssi snr raw
  | poll now txDone => exact s.poll_unseen response now txDone
  | txResult seq ok => exact s.onTxResult_unseen response seq ok
  | wifiStateChanged link => exact s.onWifiStateChanged_unseen response link

/-- **The response is never observable.** Whatever the last response left behind,
every operation and every run of them, with every hook, makes the same calls (the
frames included, in order and with the same recipients) and leaves the same state
but for the response. -/
theorem response_unobservable (events : List Event) :
    ({ s with response }.run pbDecode events).acts = (s.run pbDecode events).acts ∧
      ∃ left, ({ s with response }.run pbDecode events).state =
        { (s.run pbDecode events).state with response := left } := by
  suffices same : Unseen (s.run pbDecode events) ({ s with response }.run pbDecode events) from
    ⟨same.acts, same.state⟩
  induction events generalizing s response with
  | nil => exact s.quiet_unseen response
  | cons e events ih => exact (s.step_unseen response pbDecode e).andThen ih

end CommandProcessor

end MeshPigeon
