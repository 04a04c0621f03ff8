import MeshPigeon.Core.Handled
import MeshPigeon.Core.Run
import MeshPigeon.Nanopb.Envelope

/-!
# Every response can be sent

The strings and arrays a handler fills stay within the caps of the schema, so
no answer is lost to `encode_response` returning 0.
-/
namespace MeshPigeon

variable {σ : Type}

/-! ## What a board may fill in -/

/-- The address has room for four bytes. -/
def LinkReport.Sane (l : LinkReport) : Prop :=
  ∀ m, m.wifiIpv4.length ≤ 4 → (l.fillStatus m).wifiIpv4.length ≤ 4

def HookCall.Sane : HookCall → Prop
  | .wifiStateChanged link => link.Sane
  | .removeSink _ => True

/-- The array of capabilities keeps its size. -/
structure Hooks.Sane (h : Hooks) : Prop where
  link : h.link.Sane
  capabilities : ∀ out, out.length = kMaxCapabilities →
    (h.fillCapabilities out).1.length = kMaxCapabilities
  calls : ∀ d, ∀ call ∈ h.applyWifi d, call.Sane

def Env.Sane (env : Env) : Prop := ∀ h, env.hooks = some h → h.Sane

def Event.Sane : Event → Prop
  | .envelope env _ _ => env.Sane
  | .wifiStateChanged link => ∀ l, link = some l → l.Sane
  | _ => True

/-- Every frame among the calls can be encoded. -/
def Encodable (acts : List Act) : Prop := ∀ dest msg, .frame dest msg ∈ acts → msg.body.Sendable

theorem Encodable.append {as bs : List Act} (h : Encodable as) (h' : Encodable bs) :
    Encodable (as ++ bs) := by
  intro dest msg sent
  rcases List.mem_append.mp sent with first | second
  · exact h dest msg first
  · exact h' dest msg second

theorem Encodable.of_frameless {acts : List Act} (h : ∀ dest msg, .frame dest msg ∉ acts) :
    Encodable acts := fun dest msg sent => absurd sent (h dest msg)

theorem encodable_nil : Encodable [] := .of_frameless fun _ _ => List.not_mem_nil

theorem encodable_frame {msg : RadioToClient} (h : msg.body.Sendable) (dest : List Sink) :
    Encodable [.frame dest msg] := by
  intro dest' msg' sent
  cases List.mem_singleton.mp sent
  exact h

/-! ## The bodies -/

theorem sendable_error (code : ErrorCode) (message : List UInt8) :
    (Body.error code message).Sendable := ⟨by simp, trivial⟩

theorem sendable_radioSettings (m : RadioSettingsMessage) : (Body.radioSettings m).Sendable :=
  ⟨by simp, trivial⟩

theorem sendable_deviceSettings (m : DeviceSettingsMessage) : (Body.deviceSettings m).Sendable :=
  ⟨by simp, trivial⟩

theorem sendable_accepted (seq : UInt32) : (Body.packetAccepted seq).Sendable := ⟨by simp, trivial⟩

theorem sendable_txResult (seq : UInt32) (ok : Bool) : (Body.txResult seq ok).Sendable :=
  ⟨by simp, trivial⟩

theorem sendable_ok : Body.ok.Sendable := ⟨by simp, trivial⟩

theorem sendable_pong (payload : List UInt8) : (Body.pong (payload.take 500)).Sendable :=
  ⟨by simp, List.length_take_le ..⟩

theorem sendable_entry (e : PacketEntry) : (Body.packetEntry e).Sendable :=
  ⟨by simp, Nat.le_trans e.raw.2 (by decide)⟩

theorem sendable_deviceInfo (s : CommandProcessor σ) {hooks : Option Hooks}
    (sane : ∀ h, hooks = some h → h.Sane) (sink : Sink) :
    (Body.deviceInfo (s.deviceInfoMessage hooks sink)).Sendable := by
  refine ⟨by simp, ?_, Nat.min_le_right ..⟩
  cases hooks with
  | none => exact List.length_replicate
  | some h => exact (sane h rfl).capabilities _ List.length_replicate

theorem sendable_status {link : Option LinkReport} (sane : ∀ l, link = some l → l.Sane) :
    (Body.status (CommandProcessor.statusMessage link)).Sendable := by
  refine ⟨by simp, ?_⟩
  cases link with
  | none => exact Nat.zero_le _
  | some l => exact sane l rfl {} (Nat.zero_le _)

namespace CommandProcessor

/-! ## The handlers -/

variable (s : CommandProcessor σ)

theorem encodable_andThen {o : Outcome σ} {f : CommandProcessor σ → Outcome σ} (h : Encodable o.acts)
    (next : ∀ t, Encodable (f t).acts) : Encodable (o.andThen f).acts := h.append (next o.state)

theorem encodable_act {a : Act} (call : ∀ dest msg, a ≠ .frame dest msg) : Encodable (s.act a).acts :=
  .of_frameless fun dest msg sent => call dest msg (List.mem_singleton.mp sent).symm

theorem encodable_answer {r : RadioToClient} (h : r.body.Sendable) (sink : Sink) :
    Encodable (s.answer r sink).acts := encodable_frame h [sink]

theorem encodable_push {r : RadioToClient} (h : r.body.Sendable) (except : Option Sink)
    (authorizedOnly : Bool) : Encodable (s.push r except authorizedOnly).acts := encodable_frame h _

theorem encodable_error (id : UInt32) (code : ErrorCode) (sink : Sink) :
    Encodable (s.sendError id code sink).acts := s.encodable_answer (sendable_error code []) sink

theorem encodable_ok (id : UInt32) (sink : Sink) : Encodable (s.sendOk id sink).acts :=
  s.encodable_answer sendable_ok sink

theorem encodable_requireAuth {id : UInt32} {sink : Sink} {o : Outcome σ} (h : Encodable o.acts) :
    Encodable (s.requireAuth id sink o).acts := by
  unfold requireAuth
  split
  · exact h
  · exact s.encodable_error id .authRequired sink

theorem encodable_deviceSettings (hooks : Option Hooks) (id : UInt32) (sink : Sink) :
    Encodable (s.sendDeviceSettings hooks id sink).acts := by
  rw [sendDeviceSettings_eq]
  exact s.encodable_answer (sendable_deviceSettings _) sink

theorem encodable_radioSettings (id : UInt32) (sink : Sink) :
    Encodable (s.sendRadioSettings id sink).acts := by
  rw [sendRadioSettings_eq]
  exact s.encodable_answer (sendable_radioSettings _) sink

theorem encodable_txResult (seq : UInt32) (ok : Bool) : Encodable (s.emitTxResult seq ok).acts := by
  rw [emitTxResult_eq]
  exact s.encodable_push (sendable_txResult seq ok) none false

theorem encodable_wifiStateChanged {link : Option LinkReport} (sane : ∀ l, link = some l → l.Sane) :
    Encodable (s.onWifiStateChanged link).acts := by
  rw [onWifiStateChanged_eq]
  exact s.encodable_push (sendable_status sane) none false

theorem encodable_hookCalls (calls : List HookCall) (sane : ∀ call ∈ calls, call.Sane) :
    Encodable (s.hookCalls calls).acts := by
  induction calls generalizing s with
  | nil => exact encodable_nil
  | cons call calls ih =>
    have rest := fun t => ih t fun c hc => sane c (List.mem_cons_of_mem call hc)
    refine encodable_andThen ?_ rest
    cases call with
    | wifiStateChanged link =>
      have fits : link.Sane := sane _ List.mem_cons_self
      exact s.encodable_wifiStateChanged fun l same => Option.some.inj same ▸ fits
    | removeSink c => exact encodable_nil

theorem encodable_boardAct (env : Env) {a : Act} (call : ∀ dest msg, a ≠ .frame dest msg) :
    Encodable (s.boardAct env a).acts := by
  unfold boardAct
  split
  · exact s.encodable_act call
  · exact encodable_nil

theorem encodable_storeAppend (a : Store.Appended) : Encodable (s.storeAppend a).acts := by
  refine .of_frameless fun dest msg sent => ?_
  obtain ⟨e, _, same⟩ := List.mem_map.mp sent
  cases same

theorem encodable_fetchPackets (id sinceSeq maxCount : UInt32) (sink : Sink) :
    Encodable (s.handleFetchPackets id sinceSeq maxCount sink).acts := by
  by_cases authorized : s.isAuthorized sink = true
  · rw [fetchPackets_page authorized]
    intro dest msg sent
    rcases List.mem_append.mp sent with entry | fin
    · obtain ⟨e, _, same⟩ := List.mem_map.mp entry
      cases same
      exact sendable_entry _
    · cases List.mem_singleton.mp fin
      exact ⟨by simp, trivial⟩
  · rw [handleFetchPackets, requireAuth_stranger _ _ (Bool.eq_false_iff.mpr authorized)]
    exact s.encodable_error id .authRequired sink

theorem encodable_acceptPacket (env : Env) (id : UInt32) (raw : Payload) (seq : UInt32) (sink : Sink) :
    Encodable (s.acceptPacket env id raw seq sink).acts := by
  refine encodable_andThen (encodable_frame (sendable_accepted seq) _) fun t => ?_
  refine encodable_andThen (t.encodable_act (by simp)) fun t => ?_
  split
  · exact t.encodable_txResult seq false
  · exact encodable_nil

theorem encodable_sendPacket (env : Env) (id : UInt32) (raw : Payload) (sink : Sink) :
    Encodable (s.handleSendPacket env id raw sink).acts := by
  refine s.encodable_requireAuth ?_
  split
  · exact s.encodable_error id .badPayload sink
  split
  · exact s.encodable_error id .noRadio sink
  split
  · exact s.encodable_error id .busy sink
  refine encodable_andThen (s.encodable_storeAppend _) fun t => ?_
  split
  · exact t.encodable_error id .busy sink
  · exact t.encodable_acceptPacket env id raw _ sink

theorem encodable_auth (id : UInt32) (pin : CharArray (kPinMax + 1)) (sink : Sink) :
    Encodable (s.handleAuth id pin sink).acts := by
  unfold handleAuth
  split
  · exact s.encodable_error id .authRequired sink
  split
  · exact encodable_ok _ id sink
  · exact encodable_error _ id .authRequired sink

variable [SettingsStore σ]

theorem encodable_setRadioSettings (env : Env) (id : UInt32) (settings : Option RadioSettingsMessage)
    (sink : Sink) : Encodable (s.handleSetRadioSettings env id settings sink).acts := by
  refine s.encodable_requireAuth ?_
  cases settings with
  | none => exact s.encodable_error id .badPayload sink
  | some m =>
    dsimp only
    split
    · exact s.encodable_error id .badPayload sink
    split
    · exact s.encodable_error id .busy sink
    refine encodable_andThen (s.encodable_act (by simp)) fun t => ?_
    split
    · exact t.encodable_error id .txFailed sink
    refine encodable_andThen (encodable_act _ (by simp)) fun t => ?_
    refine encodable_andThen (encodable_frame (sendable_radioSettings _) _) fun t => ?_
    exact t.encodable_radioSettings id sink

theorem encodable_setDeviceSettings {env : Env} (sane : env.Sane) (id : UInt32)
    (m : SetDeviceSettingsMessage) (sink : Sink) :
    Encodable (s.handleSetDeviceSettings env id m sink).acts := by
  refine s.encodable_requireAuth ?_
  split
  · exact s.encodable_error id .badPayload sink
  split
  · exact s.encodable_error id .notSupported sink
  dsimp only
  split
  · exact s.encodable_deviceSettings env.hooks id sink
  refine encodable_andThen (encodable_act _ (by simp)) fun t => ?_
  refine encodable_andThen ?_ fun t => ?_
  · unfold announceName
    split
    · exact t.encodable_act (by simp)
    · exact encodable_nil
  refine encodable_andThen ?_ fun t => ?_
  · unfold applyWifi
    split
    · exact encodable_nil
    · rename_i h hooks
      split
      · exact encodable_andThen (t.encodable_act (by simp)) fun t =>
          t.encodable_hookCalls _ ((sane h hooks).calls t.device)
      · exact encodable_nil
  refine encodable_andThen (encodable_frame (sendable_deviceSettings _) _) fun t => ?_
  exact t.encodable_deviceSettings env.hooks id sink

theorem encodable_handleRequest {env : Env} (sane : env.Sane) (req : ClientToRadio) (sink : Sink) :
    Encodable (s.handleRequest env req sink).acts := by
  unfold handleRequest
  cases req.body with
  | ping payload => exact encodable_frame (sendable_pong payload) [sink]
  | getDeviceInfo =>
    show Encodable (s.sendDeviceInfo env.hooks req.id sink).acts
    rw [sendDeviceInfo_eq]
    exact s.encodable_answer (sendable_deviceInfo s sane sink) sink
  | getRadioSettings => exact s.encodable_requireAuth (s.encodable_radioSettings req.id sink)
  | setRadioSettings settings => exact s.encodable_setRadioSettings env req.id settings sink
  | sendPacket raw => exact s.encodable_sendPacket env req.id raw sink
  | fetchPackets sinceSeq maxCount => exact s.encodable_fetchPackets req.id sinceSeq maxCount sink
  | purgeStore =>
    exact s.encodable_requireAuth (encodable_andThen (encodable_act _ (by simp)) fun t => t.encodable_ok req.id sink)
  | getDeviceSettings => exact s.encodable_requireAuth (s.encodable_deviceSettings env.hooks req.id sink)
  | setDeviceSettings m => exact s.encodable_setDeviceSettings sane req.id m sink
  | getStatus =>
    show Encodable (s.sendStatus env.hooks req.id sink).acts
    rw [sendStatus_eq]
    refine s.encodable_answer (sendable_status fun l same => ?_) sink
    obtain ⟨h, hooks, rfl⟩ := Option.map_eq_some_iff.mp same
    exact (sane h hooks).link
  | auth pin => exact s.encodable_auth req.id pin sink
  | bootloader =>
    exact s.encodable_requireAuth <|
      encodable_andThen (s.encodable_ok req.id sink) fun t => t.encodable_boardAct env (by simp)
  | reboot =>
    exact s.encodable_requireAuth <|
      encodable_andThen (s.encodable_ok req.id sink) fun t => t.encodable_boardAct env (by simp)
  | factoryReset =>
    refine s.encodable_requireAuth (encodable_andThen ?_ fun t => ?_)
    · exact encodable_andThen (encodable_act _ (by simp)) fun t => t.encodable_act (by simp)
    · exact encodable_andThen (t.encodable_ok req.id sink) fun t => t.encodable_boardAct env (by simp)
  | unknown => exact s.encodable_error req.id .badCommand sink

/-! ## Runs -/

theorem encodable_step (pbDecode : List UInt8 → Option ClientToRadio) {e : Event} (sane : e.Sane) :
    Encodable (s.step pbDecode e).acts := by
  cases e with
  | connect sink => exact encodable_nil
  | relink sink => exact encodable_nil
  | disconnect sink => exact encodable_nil
  | envelope env data sink =>
    rw [step, onEnvelope]
    split
    · exact encodable_nil
    · exact s.encodable_handleRequest sane _ sink
  | packetReceived rssi snr raw =>
    refine encodable_andThen (encodable_storeAppend _ _) fun t => ?_
    split
    · exact encodable_nil
    split
    · exact encodable_nil
    · exact encodable_frame (sendable_entry _) _
  | poll now txDone =>
    rw [step, poll_eq]
    split
    · unfold onTxResult
      split
      · exact encodable_nil
      · exact encodable_txResult _ _ true
    · exact encodable_nil
  | txResult seq ok =>
    rw [step, onTxResult]
    split
    · exact encodable_nil
    · exact encodable_txResult _ seq ok
  | wifiStateChanged link => exact s.encodable_wifiStateChanged sane

/-- Whatever happens, every frame handed to a connection can be encoded. -/
theorem encodable_run (pbDecode : List UInt8 → Option ClientToRadio) {events : List Event}
    (sane : ∀ e ∈ events, e.Sane) : Encodable (s.run pbDecode events).acts := by
  induction events generalizing s with
  | nil => exact encodable_nil
  | cons e events ih =>
    exact encodable_andThen (s.encodable_step pbDecode (sane e List.mem_cons_self)) fun t =>
      ih t fun x hx => sane x (List.mem_cons_of_mem e hx)

end CommandProcessor

end MeshPigeon
