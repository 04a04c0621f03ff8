import MeshPigeon.Core.Rotation

/-! Every way a request or a packet off the air can be handled, with the calls
made and the state left. -/
namespace MeshPigeon

/-- A body that ends the answer to a request: anything but an entry of a fetch. -/
def Body.terminal : Body → Bool
  | .none => false
  | .packetEntry _ => false
  | _ => true

namespace CommandProcessor

variable {σ : Type}

/-- A frame about anything but accepted packets and their results. -/
def Plain (body : Body) : Prop :=
  (∀ seq, body ≠ .packetAccepted seq) ∧ ∀ seq ok, body ≠ .txResult seq ok

variable [SettingsStore σ]

/-- The entry of a packet a client sends. -/
def outgoing (s : CommandProcessor σ) (raw : Payload) : Store.Appended :=
  s.store.append s.clock.uptimeMs64 0 0 kFlagSent raw

/-- The page of a fetch, clamped. -/
def requestedPage (s : CommandProcessor σ) (sinceSeq maxCount : UInt32) : List StoredPacket :=
  s.store.page sinceSeq
    (if maxCount = 0 ∨ maxCount > kMaxFetchPerRequest then kMaxFetchPerRequest else maxCount)

/-- The processor once a tuning is in force. -/
def tuned (s : CommandProcessor σ) (tuning : RadioSettings) : CommandProcessor σ :=
  { s with
    radioOk := true
    settings := tuning
    settingsStore := SettingsStore.save s.settingsStore tuning
    setCountSinceBoot := s.setCountSinceBoot + 1 }

/-- The tuning a request puts in force. -/
def nextTuning (s : CommandProcessor σ) (m : RadioSettingsMessage) : RadioSettings :=
  { requestedTuning m with configEpoch := s.settings.configEpoch + 1 }

/-- The processor after a factory reset. -/
def resetDevice (s : CommandProcessor σ) : CommandProcessor σ :=
  { s with
    device := DeviceSettings.defaults
    settingsStore := SettingsStore.clearDevice s.settingsStore
    store := s.store.clear }

inductive Handled (s : CommandProcessor σ) (env : Env) (req : ClientToRadio) (sink : Sink)
    (o : Outcome σ) : Prop where
  /-- a read, a refusal or a write that changes nothing -/
  | answered {b : Body} : b.terminal = true → Plain b → o = s.answer ⟨req.id, b⟩ sink →
      Handled s env req sink o
  | auth {pin : CharArray (kPinMax + 1)} : req.body = .auth pin →
      o = s.handleAuth req.id pin sink → Handled s env req sink o
  | retuneFailed {m : RadioSettingsMessage} : req.body = .setRadioSettings (some m) →
      s.txPending = false → env.applyOk = false →
      o.state = { s with response := ⟨req.id, .error .txFailed []⟩ } →
      o.acts = [.radioApply (requestedTuning m), .frame [sink] ⟨req.id, .error .txFailed []⟩] →
      Handled s env req sink o
  | retuned {m : RadioSettingsMessage} {response : RadioToClient} :
      req.body = .setRadioSettings (some m) → s.isAuthorized sink = true → s.txPending = false →
      env.applyOk = true →
      response = ⟨req.id, .radioSettings (radioSettingsMessage (s.nextTuning m))⟩ →
      o.state = { s.tuned (s.nextTuning m) with response := response } →
      o.acts = [.radioApply (requestedTuning m), .save (s.nextTuning m),
        .frame ((s.tuned (s.nextTuning m)).recipients (some sink) true) { response with id := 0 },
        .frame [sink] response] → Handled s env req sink o
  | storeRefused {raw : Payload} : req.body = .sendPacket raw → (s.outgoing raw).seq = 0 →
      o.state = { s with
        store := (s.outgoing raw).store, response := ⟨req.id, .error .busy []⟩ } →
      o.acts = (s.outgoing raw).stored.toList.map .storeAppend ++
        [.frame [sink] ⟨req.id, .error .busy []⟩] → Handled s env req sink o
  | sent {raw : Payload} : req.body = .sendPacket raw → s.txPending = false →
      (s.outgoing raw).seq ≠ 0 → env.transmitOk = true →
      o.state = { s with
        store := (s.outgoing raw).store
        response := ⟨req.id, .packetAccepted (s.outgoing raw).seq⟩
        txPending := true
        txPendingSeq := (s.outgoing raw).seq } →
      o.acts = (s.outgoing raw).stored.toList.map .storeAppend ++
        [.frame [sink] ⟨req.id, .packetAccepted (s.outgoing raw).seq⟩, .radioTransmit raw] →
      Handled s env req sink o
  | sendFailed {raw : Payload} : req.body = .sendPacket raw → s.txPending = false →
      (s.outgoing raw).seq ≠ 0 → env.transmitOk = false →
      o.state = { s with
        store := (s.outgoing raw).store, response := ⟨0, .txResult (s.outgoing raw).seq false⟩ } →
      o.acts = (s.outgoing raw).stored.toList.map .storeAppend ++
        [.frame [sink] ⟨req.id, .packetAccepted (s.outgoing raw).seq⟩, .radioTransmit raw,
          .frame s.sinks ⟨0, .txResult (s.outgoing raw).seq false⟩] → Handled s env req sink o
  | fetched {sinceSeq maxCount : UInt32} {response : RadioToClient} :
      req.body = .fetchPackets sinceSeq maxCount → s.isAuthorized sink = true →
      response = ⟨req.id, .fetchEnd (UInt32.ofNat (s.requestedPage sinceSeq maxCount).length)⟩ →
      o.state = { s with response := response } →
      o.acts = (s.requestedPage sinceSeq maxCount).map
        (fun e => .frame [sink] ⟨req.id, .packetEntry (packetEntry e)⟩) ++ [.frame [sink] response] →
      Handled s env req sink o
  | purged : req.body = .purgeStore →
      o.state = { s with store := s.store.clear, response := ⟨req.id, .ok⟩ } →
      o.acts = [.storeClear, .frame [sink] ⟨req.id, .ok⟩] → Handled s env req sink o
  | restarted {a : Act} :
      req.body = .bootloader ∧ a = .rebootToBootloader ∨ req.body = .reboot ∧ a = .reboot →
      o.state = { s with response := ⟨req.id, .ok⟩ } →
      o.acts = .frame [sink] ⟨req.id, .ok⟩ :: (if env.hooks.isSome then [a] else []) →
      Handled s env req sink o
  | reset : req.body = .factoryReset →
      o.state = { s.resetDevice with response := ⟨req.id, .ok⟩ } →
      o.acts = [.clearDevice, .storeClear, .frame [sink] ⟨req.id, .ok⟩] ++
        (if env.hooks.isSome then [.factoryReset] else []) → Handled s env req sink o
  | written {m : SetDeviceSettingsMessage} {t : CommandProcessor σ} {response : RadioToClient} :
      req.body = .setDeviceSettings m → AcceptsDevice s env m sink →
      (candidate s.device m).same s.device = false → t = s.deviceWritten m sink →
      response = ⟨req.id, .deviceSettings (t.deviceSettingsMessage env.hooks)⟩ →
      o.state = { t with
        response := response, sinks := removing t.sinks (t.linkCalls env m) } →
      o.acts = .saveDevice t.device :: (t.announceName env m).acts ++ (t.applyWifi env m).acts ++
        [.frame (({ t with sinks := removing t.sinks (t.linkCalls env m) }).recipients
            (some sink) true) { response with id := 0 },
          .frame [sink] response] → Handled s env req sink o

variable {s : CommandProcessor σ} {env : Env} {req : ClientToRadio} {sink : Sink}

theorem handled_error (code : ErrorCode) : Handled s env req sink (s.sendError req.id code sink) :=
  .answered (b := .error code []) rfl ⟨by simp, by simp⟩ (sendError_eq ..)

theorem Handled.requireAuth {o : Outcome σ}
    (h : s.isAuthorized sink = true → Handled s env req sink o) :
    Handled s env req sink (s.requireAuth req.id sink o) := by
  unfold CommandProcessor.requireAuth
  split
  · rename_i authorized
    exact h authorized
  · exact handled_error _

theorem handled_setRadioSettings {settings : Option RadioSettingsMessage}
    (body : req.body = .setRadioSettings settings) :
    Handled s env req sink (s.handleSetRadioSettings env req.id settings sink) := by
  apply Handled.requireAuth
  intro authorized
  cases settings with
  | none => exact handled_error _
  | some m =>
    dsimp only
    split
    · exact handled_error _
    split
    · exact handled_error _
    rename_i free
    have idle : s.txPending = false := by
      simp only [Bool.or_eq_true, not_or, Bool.not_eq_true] at free
      exact free.2
    cases ok : env.applyOk with
    | false => exact .retuneFailed body idle ok rfl rfl
    | true => exact .retuned body authorized idle ok rfl rfl rfl

omit [SettingsStore σ] in
theorem acceptPacket_started {env : Env} (ok : env.transmitOk = true) (t : CommandProcessor σ)
    (id : UInt32) (raw : Payload) (seq : UInt32) (sink : Sink) :
    t.acceptPacket env id raw seq sink =
      { state := { t with
          response := ⟨id, .packetAccepted seq⟩, txPending := true, txPendingSeq := seq }
        acts := [.frame [sink] ⟨id, .packetAccepted seq⟩, .radioTransmit raw] } := by
  simp only [acceptPacket, ok]
  rfl

omit [SettingsStore σ] in
theorem acceptPacket_refused {env : Env} (ok : env.transmitOk = false) (t : CommandProcessor σ)
    (id : UInt32) (raw : Payload) (seq : UInt32) (sink : Sink) :
    t.acceptPacket env id raw seq sink =
      { state := { t with response := ⟨0, .txResult seq false⟩ }
        acts := [.frame [sink] ⟨id, .packetAccepted seq⟩, .radioTransmit raw,
          .frame t.sinks ⟨0, .txResult seq false⟩] } := by
  simp [acceptPacket, ok, emitTxResult_eq, push, recipients, deliver, setBody, beginResponse,
    Outcome.andThen, act]

theorem handled_sendPacket {raw : Payload} (body : req.body = .sendPacket raw) :
    Handled s env req sink (s.handleSendPacket env req.id raw sink) := by
  apply Handled.requireAuth
  intro _
  split
  · exact handled_error _
  split
  · exact handled_error _
  split
  · exact handled_error _
  rename_i free
  have idle : s.txPending = false := Bool.eq_false_iff.mpr free
  change Handled s env req sink ((s.storeAppend (s.outgoing raw)).andThen fun t =>
    if (s.outgoing raw).seq = 0 then t.sendError req.id .busy sink
    else t.acceptPacket env req.id raw (s.outgoing raw).seq sink)
  by_cases refused : (s.outgoing raw).seq = 0
  · refine .storeRefused body refused ?_ ?_
    · rw [andThen_state, if_pos refused]
      rfl
    · rw [andThen_acts, if_pos refused]
      rfl
  · cases ok : env.transmitOk with
    | true =>
      refine .sent body idle refused ok ?_ ?_
      · rw [andThen_state, if_neg refused, acceptPacket_started ok]
        rfl
      · rw [andThen_acts, if_neg refused, acceptPacket_started ok]
        rfl
    | false =>
      refine .sendFailed body idle refused ok ?_ ?_
      · rw [andThen_state, if_neg refused, acceptPacket_refused ok]
        rfl
      · rw [andThen_acts, if_neg refused, acceptPacket_refused ok]
        rfl

omit [SettingsStore σ] in
theorem fetch_fold (id : UInt32) (sink : Sink) (es : List StoredPacket) (o : Outcome σ)
    (n : UInt32) :
    (es.foldl (fun st e => (fetchEntry id sink st e).2) (o, n)).2 = n + UInt32.ofNat es.length ∧
    (es.foldl (fun st e => (fetchEntry id sink st e).2) (o, n)).1.acts = o.acts ++
      es.map (fun e => .frame [sink] ⟨id, .packetEntry (packetEntry e)⟩) ∧
    ∃ response, (es.foldl (fun st e => (fetchEntry id sink st e).2) (o, n)).1.state =
      { o.state with response := response } := by
  induction es generalizing o n with
  | nil => exact ⟨by simp, by simp, o.state.response, rfl⟩
  | cons e es ih =>
    obtain ⟨count, acts, response, state⟩ := ih (fetchEntry id sink (o, n) e).2.1 (n + 1)
    refine ⟨?_, ?_, response, state⟩
    · rw [List.foldl_cons, List.length_cons, Nat.add_comm, UInt32.ofNat_add, ← UInt32.add_assoc]
      exact count
    · rw [List.foldl_cons, List.map_cons, ← List.singleton_append, ← List.append_assoc]
      exact acts

omit [SettingsStore σ] in
/-- A fetch answers with its page. -/
theorem fetchPackets_page (authorized : s.isAuthorized sink = true)
    (id sinceSeq maxCount : UInt32) :
    s.handleFetchPackets id sinceSeq maxCount sink =
      let response : RadioToClient :=
        ⟨id, .fetchEnd (UInt32.ofNat (s.requestedPage sinceSeq maxCount).length)⟩
      { state := { s with response := response }
        acts := (s.requestedPage sinceSeq maxCount).map
          (fun e => .frame [sink] ⟨id, .packetEntry (packetEntry e)⟩) ++
            [.frame [sink] response] } := by
  have page : (s.store.fetchSince sinceSeq
      (if maxCount = 0 ∨ maxCount > kMaxFetchPerRequest then kMaxFetchPerRequest else maxCount)
      (fetchEntry id sink) (s.quiet, 0)).2 = (s.requestedPage sinceSeq maxCount).foldl
      (fun st e => (fetchEntry id sink st e).2) (s.quiet, 0) :=
    s.store.fetchSince_page sinceSeq _ (fun st e => (fetchEntry id sink st e).2) (s.quiet, 0)
  obtain ⟨count, acts, response, state⟩ :=
    fetch_fold id sink (s.requestedPage sinceSeq maxCount) s.quiet 0
  rw [UInt32.zero_add] at count
  rw [← page] at count acts state
  dsimp only
  rw [handleFetchPackets, requireAuth_authorized _ _ authorized, ← count, Outcome.andThen, state,
    acts]
  rfl

theorem handled_fetchPackets {sinceSeq maxCount : UInt32}
    (body : req.body = .fetchPackets sinceSeq maxCount) :
    Handled s env req sink (s.handleFetchPackets req.id sinceSeq maxCount sink) := by
  by_cases authorized : s.isAuthorized sink = true
  · rw [fetchPackets_page authorized]
    exact .fetched body authorized rfl rfl rfl
  · rw [handleFetchPackets, requireAuth_stranger _ _ (Bool.eq_false_iff.mpr authorized)]
    exact .answered (b := .error .authRequired []) rfl ⟨by simp, by simp⟩ rfl

theorem handled_setDeviceSettings {m : SetDeviceSettingsMessage}
    (body : req.body = .setDeviceSettings m) :
    Handled s env req sink (s.handleSetDeviceSettings env req.id m sink) := by
  by_cases accepts : AcceptsDevice s env m sink
  · cases change : (candidate s.device m).same s.device with
    | true =>
      rw [setDeviceSettings_same req.id accepts change]
      exact .answered (b := .deviceSettings (s.deviceSettingsMessage env.hooks)) rfl
        ⟨by simp, by simp⟩ (sendDeviceSettings_eq ..)
    | false =>
      obtain ⟨state, acts⟩ := setDeviceSettings_applied req.id accepts change
      exact .written body accepts change rfl rfl state acts
  · obtain ⟨code, refused⟩ := setDeviceSettings_refused req.id accepts
    rw [refused]
    exact .answered (b := .error code []) rfl ⟨by simp, by simp⟩ rfl

/-- **Every way a request is handled.** -/
theorem handleRequest_handled (s : CommandProcessor σ) (env : Env) (req : ClientToRadio)
    (sink : Sink) : Handled s env req sink (s.handleRequest env req sink) := by
  unfold handleRequest
  cases hbody : req.body with
  | ping payload =>
    exact .answered (b := .pong (payload.take 500)) rfl ⟨by simp, by simp⟩ (sendPong_eq ..)
  | getDeviceInfo =>
    exact .answered (b := .deviceInfo (s.deviceInfoMessage env.hooks sink)) rfl
      ⟨by simp, by simp⟩ (sendDeviceInfo_eq ..)
  | getRadioSettings =>
    apply Handled.requireAuth
    intro _
    exact .answered (b := .radioSettings (radioSettingsMessage s.settings)) rfl ⟨by simp, by simp⟩
      (sendRadioSettings_eq ..)
  | setRadioSettings settings => exact handled_setRadioSettings hbody
  | sendPacket raw => exact handled_sendPacket hbody
  | fetchPackets sinceSeq maxCount => exact handled_fetchPackets hbody
  | purgeStore =>
    apply Handled.requireAuth
    intro _
    exact .purged hbody rfl rfl
  | getDeviceSettings =>
    apply Handled.requireAuth
    intro _
    exact .answered (b := .deviceSettings (s.deviceSettingsMessage env.hooks)) rfl
      ⟨by simp, by simp⟩ (sendDeviceSettings_eq ..)
  | setDeviceSettings m => exact handled_setDeviceSettings hbody
  | getStatus =>
    exact .answered (b := .status (statusMessage (env.hooks.map Hooks.link))) rfl
      ⟨by simp, by simp⟩ (sendStatus_eq ..)
  | auth pin => exact .auth hbody rfl
  | bootloader =>
    apply Handled.requireAuth
    intro _
    refine .restarted (.inl ⟨hbody, rfl⟩) ?_ ?_
    · rw [andThen_state, boardAct]
      split <;> rfl
    · rw [andThen_acts, boardAct]
      split <;> rfl
  | reboot =>
    apply Handled.requireAuth
    intro _
    refine .restarted (.inr ⟨hbody, rfl⟩) ?_ ?_
    · rw [andThen_state, boardAct]
      split <;> rfl
    · rw [andThen_acts, boardAct]
      split <;> rfl
  | factoryReset =>
    apply Handled.requireAuth
    intro _
    refine .reset hbody ?_ ?_
    · simp only [andThen_state, boardAct]
      split <;> rfl
    · simp only [andThen_acts, boardAct]
      split <;> rfl
  | unknown => exact handled_error _

/-! ## What the cases leave -/

theorem decodeEnvelope_id {pbDecode : List UInt8 → Option ClientToRadio} {data : List UInt8}
    (decoded : decodeEnvelope pbDecode data = some req) : req.id ≠ 0 := by
  have carried := Option.mem_filter_iff.mp (show req ∈ decodeEnvelope pbDecode data from decoded)
  exact of_decide_eq_true carried.2

omit [SettingsStore σ] in
/-- An Auth moves a session and the count of failures, and is answered. -/
theorem handleAuth_answers (s : CommandProcessor σ) (id : UInt32) (pin : CharArray (kPinMax + 1))
    (sink : Sink) :
    ∃ flags fails until' verdict, Body.terminal verdict = true ∧ Plain verdict ∧
      s.handleAuth id pin sink = { s with
        authenticated := flags
        authFails := fails
        authBackoffUntil := until' : CommandProcessor σ }.answer ⟨id, verdict⟩ sink := by
  unfold handleAuth
  split
  · exact ⟨s.authenticated, s.authFails, s.authBackoffUntil, .error .authRequired [],
      rfl, ⟨by simp, by simp⟩, rfl⟩
  split
  · exact ⟨(s.setAuthenticated sink true).authenticated, 0, s.authBackoffUntil, .ok,
      rfl, ⟨by simp, by simp⟩, rfl⟩
  · exact ⟨s.authenticated, s.noteAuthFailure.authFails, s.noteAuthFailure.authBackoffUntil,
      .error .authRequired [], rfl, ⟨by simp, by simp⟩, rfl⟩

/-- The entry of a packet off the air. -/
def incoming (s : CommandProcessor σ) (rssi snr : Int8) (raw : Payload) : Store.Appended :=
  s.store.append s.clock.uptimeMs64 rssi snr kFlagReceived raw

omit [SettingsStore σ] in
theorem packetReceived_eq (s : CommandProcessor σ) (rssi snr : Int8) (raw : Payload) :
    s.onPacketReceived rssi snr raw =
      ({ s with noiseFloorDbm := rssi.toInt32 - snr.toInt32 }.storeAppend
        (s.incoming rssi snr raw)).andThen fun t =>
          if (s.incoming rssi snr raw).seq = 0 then t.quiet
          else match (s.incoming rssi snr raw).stored with
            | none => t.quiet
            | some e => (t.buildPacketEntry 0 e).broadcastResponse none true := rfl

omit [SettingsStore σ] in
theorem packetReceived_quiet {rssi snr : Int8} {raw : Payload}
    (unnumbered : (s.incoming rssi snr raw).seq = 0) :
    s.onPacketReceived rssi snr raw =
      { state := { s with
          noiseFloorDbm := rssi.toInt32 - snr.toInt32, store := (s.incoming rssi snr raw).store }
        acts := (s.incoming rssi snr raw).stored.toList.map .storeAppend } := by
  rw [packetReceived_eq, Outcome.andThen]
  simp only [unnumbered, if_true, quiet_acts, List.append_nil]
  rfl

omit [SettingsStore σ] in
theorem packetReceived_live {rssi snr : Int8} {raw : Payload} {entry : StoredPacket}
    (numbered : (s.incoming rssi snr raw).seq ≠ 0)
    (stored : (s.incoming rssi snr raw).stored = some entry) :
    s.onPacketReceived rssi snr raw =
      { state := { s with
          noiseFloorDbm := rssi.toInt32 - snr.toInt32
          store := (s.incoming rssi snr raw).store
          response := ⟨0, .packetEntry (packetEntry entry)⟩ }
        acts := [.storeAppend entry,
          .frame (s.recipients none true) ⟨0, .packetEntry (packetEntry entry)⟩] } := by
  rw [packetReceived_eq, Outcome.andThen, storeAppend, stored]
  simp only [if_neg numbered]
  rfl

/-! ## One event -/

/-- Everything one event can do. -/
inductive Stepped (pbDecode : List UInt8 → Option ClientToRadio) (s : CommandProcessor σ) (e : Event)
    (o : Outcome σ) : Prop where
  | connected {sink : Sink} : e = .connect sink →
      o = quiet ((s.setAuthenticated sink false).addSink sink) → Stepped pbDecode s e o
  | relinked {sink : Sink} : e = .relink sink → o = quiet (s.setAuthenticated sink false) →
      Stepped pbDecode s e o
  | disconnected {sink : Sink} : e = .disconnect sink → o = quiet (s.removeSink sink) →
      Stepped pbDecode s e o
  | dropped {env : Env} {data : List UInt8} {sink : Sink} : e = .envelope env data sink →
      decodeEnvelope pbDecode data = none → o = s.quiet → Stepped pbDecode s e o
  | requested {env : Env} {data : List UInt8} {sink : Sink} {req : ClientToRadio} :
      e = .envelope env data sink → decodeEnvelope pbDecode data = some req →
      o = s.handleRequest env req sink → Handled s env req sink o → Stepped pbDecode s e o
  | unheard {rssi snr : Int8} {raw : Payload} : e = .packetReceived rssi snr raw →
      (s.incoming rssi snr raw).seq = 0 →
      o = { state := { s with
              noiseFloorDbm := rssi.toInt32 - snr.toInt32
              store := (s.incoming rssi snr raw).store }
            acts := (s.incoming rssi snr raw).stored.toList.map .storeAppend } →
      Stepped pbDecode s e o
  | heard {rssi snr : Int8} {raw : Payload} {entry : StoredPacket} :
      e = .packetReceived rssi snr raw → (s.incoming rssi snr raw).seq ≠ 0 →
      (s.incoming rssi snr raw).stored = some entry → entry.seq = (s.incoming rssi snr raw).seq →
      o = { state := { s with
              noiseFloorDbm := rssi.toInt32 - snr.toInt32
              store := (s.incoming rssi snr raw).store
              response := ⟨0, .packetEntry (packetEntry entry)⟩ }
            acts := [.storeAppend entry,
              .frame (s.recipients none true) ⟨0, .packetEntry (packetEntry entry)⟩] } →
      Stepped pbDecode s e o
  | ticked {millis : UInt32} {txDone : Bool} : e = .poll millis txDone →
      (s.txPending && txDone) = false → o = (s.ticked millis).quiet → Stepped pbDecode s e o
  | finished {millis : UInt32} : e = .poll millis true → s.txPending = true →
      o = { s.ticked millis with txPending := false }.push ⟨0, .txResult s.txPendingSeq true⟩
        none false → Stepped pbDecode s e o
  | stale {seq : UInt32} {ok : Bool} : e = .txResult seq ok → o = s.quiet → Stepped pbDecode s e o
  | reported {ok : Bool} : e = .txResult s.txPendingSeq ok → s.txPending = true →
      o = { s with txPending := false }.push ⟨0, .txResult s.txPendingSeq ok⟩ none false →
      Stepped pbDecode s e o
  | linkChanged {link : Option LinkReport} : e = .wifiStateChanged link →
      o = s.push ⟨0, .status (statusMessage link)⟩ none false → Stepped pbDecode s e o

omit [SettingsStore σ] in
theorem onTxResult_mine (s : CommandProcessor σ) (flight : s.txPending = true) (ok : Bool) :
    s.onTxResult s.txPendingSeq ok =
      { s with txPending := false }.push ⟨0, .txResult s.txPendingSeq ok⟩ none false := by
  rw [onTxResult, flight, if_neg (by simp), emitTxResult_eq]

omit [SettingsStore σ] in
theorem onTxResult_stale (s : CommandProcessor σ) {seq : UInt32}
    (stale : ¬(s.txPending = true ∧ seq = s.txPendingSeq)) (ok : Bool) :
    s.onTxResult seq ok = s.quiet := by
  rw [onTxResult, if_pos]
  by_cases flight : s.txPending = true
  · have other : seq ≠ s.txPendingSeq := fun mine => stale ⟨flight, mine⟩
    simp [other]
  · simp [flight]

/-- **Everything one event can do.** -/
theorem step_stepped (pbDecode : List UInt8 → Option ClientToRadio) (s : CommandProcessor σ)
    (e : Event) : Stepped pbDecode s e (s.step pbDecode e) := by
  cases e with
  | connect sink => exact .connected rfl rfl
  | relink sink => exact .relinked rfl rfl
  | disconnect sink => exact .disconnected rfl rfl
  | envelope env data sink =>
    rw [step, onEnvelope]
    cases decoded : decodeEnvelope pbDecode data with
    | none => exact .dropped rfl decoded rfl
    | some req => exact .requested rfl decoded rfl (handleRequest_handled s env req sink)
  | packetReceived rssi snr raw =>
    by_cases unnumbered : (s.incoming rssi snr raw).seq = 0
    · exact .unheard rfl unnumbered (packetReceived_quiet unnumbered)
    · rcases s.store.append_spec s.clock.uptimeMs64 rssi snr kFlagReceived raw with
        ⟨zero, _⟩ | ⟨seq, stored, _⟩
      · exact absurd zero unnumbered
      · exact .heard rfl unnumbered stored seq.symm (packetReceived_live unnumbered stored)
  | poll millis txDone =>
    rw [step, poll_eq]
    by_cases done : ((s.ticked millis).txPending && txDone) = true
    · obtain ⟨flight, rfl⟩ := Bool.and_eq_true_iff.mp done
      rw [if_pos done]
      exact .finished rfl flight ((s.ticked millis).onTxResult_mine flight true)
    · rw [if_neg done]
      exact .ticked rfl (Bool.eq_false_iff.mpr done) rfl
  | txResult seq ok =>
    by_cases mine : s.txPending = true ∧ seq = s.txPendingSeq
    · obtain ⟨flight, rfl⟩ := mine
      exact .reported rfl flight (s.onTxResult_mine flight ok)
    · exact .stale rfl (s.onTxResult_stale mine ok)
  | wifiStateChanged link =>
    rw [step, onWifiStateChanged_eq]
    exact .linkChanged rfl rfl

end CommandProcessor

end MeshPigeon
