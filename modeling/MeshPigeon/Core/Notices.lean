import Mathlib.Data.List.Nodup
import MeshPigeon.Core.Correlation
import MeshPigeon.Core.Transmit

/-! Change notifications: who is told of a change, and how often. -/
namespace MeshPigeon

/-- A body about the link, which tells of no change in the processor. -/
def Body.ofLink : Body → Bool
  | .status _ => true
  | _ => false

namespace CommandProcessor

variable {σ : Type}

/-- The pushes a connection is handed. -/
def pushes (c : Sink) (acts : List Act) : List RadioToClient :=
  (framesTo c acts).filter fun msg => msg.id = 0

/-- The pushes that tell of a change in the processor. -/
def notices (c : Sink) (acts : List Act) : List RadioToClient :=
  (pushes c acts).filter fun msg => !msg.body.ofLink

/-- The registered connections a change is pushed to, the issuer left out. -/
def Concerns (s : CommandProcessor σ) (issuer c : Sink) : Prop :=
  c ∈ s.sinks ∧ s.isAuthorized c = true ∧ c ≠ issuer

instance (s : CommandProcessor σ) (issuer c : Sink) : Decidable (s.Concerns issuer c) :=
  inferInstanceAs (Decidable (_ ∧ _ ∧ _))

/-- The call handed the radio a packet, and the radio answered `ok`. -/
def Transmits (env : Env) (o : Outcome σ) (ok : Bool) : Prop :=
  env.transmitOk = ok ∧ ∃ raw, .radioTransmit raw ∈ o.acts

/-- The event ends the transmission in flight: `tx_done`, or the radio's result for it. -/
def Lands (s : CommandProcessor σ) (e : Event) (ok : Bool) : Prop :=
  s.txPending = true ∧ ((∃ now, e = .poll now true ∧ ok = true) ∨ e = .txResult s.txPendingSeq ok)

/-- What one step from `s` tells the connections. -/
structure Told (pbDecode : List UInt8 → Option ClientToRadio) (s : CommandProcessor σ) (e : Event)
    (o : Outcome σ) : Prop where
  retuned : o.state.settings ≠ s.settings → ∃ env data sink, e = .envelope env data sink ∧
    ∀ c, pushes c o.acts = if o.state.Concerns sink c then
      [⟨0, .radioSettings (radioSettingsMessage o.state.settings)⟩] else []
  rewritten : ∀ env data sink req m, e = .envelope env data sink →
    decodeEnvelope pbDecode data = some req → req.body = .setDeviceSettings m →
    o.state.device ≠ s.device → ∀ c, notices c o.acts = if o.state.Concerns sink c then
      [⟨0, .deviceSettings (o.state.deviceSettingsMessage env.hooks)⟩] else []
  received : ∀ rssi snr raw entry, e = .packetReceived rssi snr raw →
    .storeAppend entry ∈ o.acts → entry.seq ≠ 0 →
    ∀ c, pushes c o.acts = if c ∈ o.state.sinks ∧ o.state.isAuthorized c = true then
      [⟨0, .packetEntry (packetEntry entry)⟩] else []
  requested : ∀ raw, .radioTransmit raw ∈ o.acts → ∃ env data sink, e = .envelope env data sink
  started : ∀ env data sink, e = .envelope env data sink → Transmits env o true →
    o.state.txPending = true ∧ ∃ id, .frame [sink] ⟨id, .packetAccepted o.state.txPendingSeq⟩ ∈ o.acts
  refused : ∀ env data sink, e = .envelope env data sink → Transmits env o false →
    o.state.txPending = false ∧ ∃ seq id, .frame [sink] ⟨id, .packetAccepted seq⟩ ∈ o.acts ∧
      ∀ c, pushes c o.acts = if c ∈ o.state.sinks then [⟨0, .txResult seq false⟩] else []
  flying : s.txPending = true → (∀ ok, ¬s.Lands e ok) →
    o.state.txPending = true ∧ o.state.txPendingSeq = s.txPendingSeq
  finished : ∀ ok, s.Lands e ok → o.state.txPending = false ∧
    ∀ c, pushes c o.acts = if c ∈ o.state.sinks then [⟨0, .txResult s.txPendingSeq ok⟩] else []
  silent : ∀ env data sink, e = .envelope env data sink → o.state.settings = s.settings →
    (∀ req m, decodeEnvelope pbDecode data = some req → req.body = .setDeviceSettings m →
      o.state.device = s.device) →
    ¬Transmits env o false → ∀ c, pushes c o.acts = []
  uneventful : (∀ env data sink, e ≠ .envelope env data sink) →
    (∀ link, e ≠ .wifiStateChanged link) → (∀ ok, ¬s.Lands e ok) →
    (∀ entry, .storeAppend entry ∈ o.acts → entry.seq = 0) → ∀ c, pushes c o.acts = []

/-! ## One frame -/

theorem pushes_append (c : Sink) (acts acts' : List Act) :
    pushes c (acts ++ acts') = pushes c acts ++ pushes c acts' := by
  rw [pushes, framesTo_append, List.filter_append]
  rfl

theorem notices_append (c : Sink) (acts acts' : List Act) :
    notices c (acts ++ acts') = notices c acts ++ notices c acts' := by
  rw [notices, pushes_append, List.filter_append]
  rfl

/-- A connection that is registered once gets one copy. -/
theorem framesTo_frame {dest : List Sink} (once : dest.Nodup) (c : Sink) (msg : RadioToClient) :
    framesTo c [.frame dest msg] = if c ∈ dest then [msg] else [] := by
  have copies : framesTo c [.frame dest msg] = (dest.filter fun d => d = c).map fun _ => msg := by
    simp [framesTo]
  rw [copies, List.filter_eq, List.map_replicate]
  split
  · rename_i registered
    rw [List.count_eq_one_of_mem once registered]
    rfl
  · rename_i absent
    rw [List.count_eq_zero_of_not_mem absent]
    rfl

theorem mem_of_framesTo {c : Sink} {acts : List Act} {msg : RadioToClient}
    (h : msg ∈ framesTo c acts) : ∃ dest, .frame dest msg ∈ acts := by
  obtain ⟨a, ha, out⟩ := List.mem_flatMap.mp h
  cases a with
  | frame dest msg' =>
    obtain ⟨_, _, rfl⟩ := List.mem_map.mp out
    exact ⟨dest, ha⟩
  | _ => cases out

/-- Frames that carry an id push nothing. -/
theorem pushes_none {acts : List Act} (h : ∀ dest msg, .frame dest msg ∈ acts → msg.id ≠ 0)
    (c : Sink) : pushes c acts = [] := by
  rw [pushes, List.filter_eq_nil_iff]
  intro msg sent
  obtain ⟨dest, sent⟩ := mem_of_framesTo sent
  simp [h dest msg sent]

theorem notices_none {acts : List Act}
    (h : ∀ dest msg, .frame dest msg ∈ acts → msg.body.ofLink = true) (c : Sink) :
    notices c acts = [] := by
  rw [notices, List.filter_eq_nil_iff]
  intro msg sent
  obtain ⟨dest, sent⟩ := mem_of_framesTo (List.mem_of_mem_filter sent)
  simp [h dest msg sent]

/-- A call that is no frame. -/
theorem pushes_call {a : Act} (call : ∀ dest msg, a ≠ .frame dest msg) (c : Sink)
    (acts : List Act) : pushes c (a :: acts) = pushes c acts := by
  rw [← List.singleton_append, pushes_append, pushes_none, List.nil_append]
  intro dest msg sent
  exact absurd (List.mem_singleton.mp sent).symm (call dest msg)

theorem pushes_stored (stored : Option StoredPacket) (c : Sink) :
    pushes c (stored.toList.map .storeAppend) = [] := by
  cases stored <;> rfl

theorem pushes_answer {id : UInt32} (request : id ≠ 0) (c sink : Sink) (body : Body) :
    pushes c [.frame [sink] ⟨id, body⟩] = [] := by
  apply pushes_none
  intro dest msg sent
  rw [(Act.frame.inj (List.mem_singleton.mp sent)).2]
  exact request

theorem pushes_frame {dest : List Sink} (once : dest.Nodup) (c : Sink) (body : Body) :
    pushes c [.frame dest ⟨0, body⟩] = if c ∈ dest then [⟨0, body⟩] else [] := by
  rw [pushes, framesTo_frame once]
  split <;> rfl

theorem recipients_nodup {s : CommandProcessor σ} (once : s.sinks.Nodup) (except : Option Sink)
    (authorizedOnly : Bool) : (s.recipients except authorizedOnly).Nodup := once.filter _

theorem mem_recipients {s : CommandProcessor σ} {issuer c : Sink} :
    c ∈ s.recipients (some issuer) true ↔ s.Concerns issuer c := by
  simp [recipients, Concerns, and_comm]

theorem hookCalls_ofLink (calls : List HookCall) (s : CommandProcessor σ) (dest : List Sink)
    (msg : RadioToClient) (sent : .frame dest msg ∈ (s.hookCalls calls).acts) :
    msg.body.ofLink = true := by
  induction calls generalizing s with
  | nil => cases sent
  | cons call calls ih =>
    rcases List.mem_append.mp sent with sent | sent
    · cases call with
      | wifiStateChanged link =>
        rw [hookCall, onWifiStateChanged_eq] at sent
        rw [(Act.frame.inj (List.mem_singleton.mp sent)).2]
        rfl
      | removeSink c => cases sent
    · exact ih _ sent

theorem applyWifi_ofLink (s : CommandProcessor σ) (env : Env) (m : SetDeviceSettingsMessage)
    (dest : List Sink) (msg : RadioToClient) (sent : .frame dest msg ∈ (s.applyWifi env m).acts) :
    msg.body.ofLink = true := by
  unfold applyWifi at sent
  split at sent
  · cases sent
  · split at sent
    · rcases List.mem_append.mp sent with sent | sent
      · cases List.mem_singleton.mp sent
      · exact hookCalls_ofLink _ _ dest msg sent
    · cases sent

/-- Naming the device sends no frame. -/
theorem announceName_frameless (s : CommandProcessor σ) (env : Env) (m : SetDeviceSettingsMessage)
    (dest : List Sink) (msg : RadioToClient) : .frame dest msg ∉ (s.announceName env m).acts := by
  unfold announceName
  split <;> simp

variable [SettingsStore σ] {s : CommandProcessor σ} {sink : Sink}

omit [SettingsStore σ] in
theorem same_self (d : DeviceSettings) : d.same d = true := by
  simp [DeviceSettings.same, CharArray.strEq]

/-- A write with every field the same is a no-op, so an accepted change changes something. -/
theorem candidate_ne {m : SetDeviceSettingsMessage} {d : DeviceSettings}
    (change : (candidate d m).same d = false) : candidate d m ≠ d := by
  intro same
  rw [same, same_self] at change
  cases change

omit [SettingsStore σ] in
theorem tuned_ne (s : CommandProcessor σ) (m : RadioSettingsMessage) :
    s.nextTuning m ≠ s.settings := by
  intro same
  have epoch : s.settings.configEpoch + 1 = s.settings.configEpoch :=
    congrArg RadioSettings.configEpoch same
  rw [UInt32.add_eq_left] at epoch
  cases epoch

omit [SettingsStore σ] in
/-- A write of the device settings hands no packet to the radio. -/
theorem written_untransmitted (t : CommandProcessor σ) (env : Env) (m : SetDeviceSettingsMessage)
    (raw : Payload) {acts : List Act} (frames : .radioTransmit raw ∉ acts) :
    .radioTransmit raw ∉ .saveDevice t.device :: (t.announceName env m).acts ++
      (t.applyWifi env m).acts ++ acts := by
  intro sent
  rcases List.mem_append.mp sent with sent | sent
  · rcases List.mem_append.mp sent with sent | sent
    · rcases List.mem_cons.mp sent with saved | sent
      · cases saved
      · cases (inert_announceName t env m).acts _ sent |>.transmitted
    · cases (inert_applyWifi t env m).acts _ sent |>.transmitted
  · exact frames sent

/-- What an accepted write of the device settings pushes besides the link's own state. -/
theorem written_notices (once : s.sinks.Nodup) {env : Env} {m : SetDeviceSettingsMessage}
    {t : CommandProcessor σ} (written : t = s.deviceWritten m sink) {id : UInt32}
    (request : id ≠ 0) (body : Body) (reads : body.ofLink = false) (c : Sink) :
    notices c (.saveDevice t.device :: (t.announceName env m).acts ++ (t.applyWifi env m).acts ++
        [.frame (({ t with sinks := removing t.sinks (t.linkCalls env m) }).recipients
          (some sink) true) ⟨0, body⟩, .frame [sink] ⟨id, body⟩]) =
      if ({ t with sinks := removing t.sinks (t.linkCalls env m) } :
          CommandProcessor σ).Concerns sink c then [⟨0, body⟩] else [] := by
  have named : notices c (.saveDevice t.device :: (t.announceName env m).acts) = [] := by
    apply notices_none
    intro dest msg sent
    rcases List.mem_cons.mp sent with saved | sent
    · cases saved
    · exact absurd sent (announceName_frameless t env m dest msg)
  have linked : notices c (t.applyWifi env m).acts = [] := notices_none (applyWifi_ofLink t env m) c
  have registered : (removing t.sinks (t.linkCalls env m)).Nodup := by
    rw [written, s.deviceWritten_sinks m sink]
    exact once.sublist (removing_sublist ..)
  rw [notices_append, notices_append, named, linked, List.nil_append, List.nil_append,
    ← List.singleton_append, notices_append, notices, notices, pushes_answer request,
    pushes_frame (recipients_nodup registered _ _), List.filter_nil, List.append_nil]
  simp only [mem_recipients]
  split
  · simp [reads]
  · rfl

variable {pbDecode : List UInt8 → Option ClientToRadio} {env : Env} {data : List UInt8}
  {req : ClientToRadio} {o : Outcome σ}

omit [SettingsStore σ] in
/-- A request is no result, so what it owes is about the write or the packet it is. -/
theorem told_request (decoded : decodeEnvelope pbDecode data = some req)
    (retuned : o.state.settings ≠ s.settings → ∀ c, pushes c o.acts =
      if o.state.Concerns sink c then
        [⟨0, .radioSettings (radioSettingsMessage o.state.settings)⟩] else [])
    (rewritten : ∀ m, req.body = .setDeviceSettings m → o.state.device ≠ s.device →
      ∀ c, notices c o.acts = if o.state.Concerns sink c then
        [⟨0, .deviceSettings (o.state.deviceSettingsMessage env.hooks)⟩] else [])
    (started : Transmits env o true → o.state.txPending = true ∧
      ∃ id, .frame [sink] ⟨id, .packetAccepted o.state.txPendingSeq⟩ ∈ o.acts)
    (refused : Transmits env o false → o.state.txPending = false ∧
      ∃ seq id, .frame [sink] ⟨id, .packetAccepted seq⟩ ∈ o.acts ∧
        ∀ c, pushes c o.acts = if c ∈ o.state.sinks then [⟨0, .txResult seq false⟩] else [])
    (flying : s.txPending = true →
      o.state.txPending = true ∧ o.state.txPendingSeq = s.txPendingSeq)
    (silent : o.state.settings = s.settings →
      (∀ m, req.body = .setDeviceSettings m → o.state.device = s.device) →
      ¬Transmits env o false → ∀ c, pushes c o.acts = []) :
    Told pbDecode s (.envelope env data sink) o := by
  constructor
  · intro changed
    exact ⟨env, data, sink, rfl, retuned changed⟩
  · rintro _ _ _ req' m ⟨⟩ decoded' body changed
    obtain rfl := Option.some.inj (decoded.symm.trans decoded')
    exact rewritten m body changed
  · intro _ _ _ _ received
    cases received
  · intro _ _
    exact ⟨env, data, sink, rfl⟩
  · rintro _ _ _ ⟨⟩
    exact started
  · rintro _ _ _ ⟨⟩
    exact refused
  · intro flight _
    exact flying flight
  · rintro ok ⟨_, ⟨_, poll, _⟩ | result⟩
    · cases poll
    · cases result
  · rintro _ _ _ ⟨⟩ settings device calm
    exact silent settings (fun m body => device req m decoded body) calm
  · intro other
    exact absurd rfl (other env data sink)

omit [SettingsStore σ] in
theorem not_transmits {ok : Bool} (sends : ∀ raw, .radioTransmit raw ∉ o.acts) :
    ¬Transmits env o ok := by
  rintro ⟨_, raw, sent⟩
  exact sends raw sent

omit [SettingsStore σ] in
/-- A request that neither changes anything pushed nor hands the radio a packet. -/
theorem told_quietly (decoded : decodeEnvelope pbDecode data = some req)
    (settings : o.state.settings = s.settings)
    (device : o.state.device = s.device ∨ ∀ m, req.body ≠ .setDeviceSettings m)
    (flying : s.txPending = true →
      o.state.txPending = true ∧ o.state.txPendingSeq = s.txPendingSeq)
    (sends : ∀ raw, .radioTransmit raw ∉ o.acts)
    (none : ∀ c, pushes c o.acts = []) : Told pbDecode s (.envelope env data sink) o := by
  apply told_request decoded
  · intro changed
    exact absurd settings changed
  · intro m body changed
    rcases device with same | other
    · exact absurd same changed
    · exact absurd body (other m)
  · exact fun sent => absurd sent (not_transmits sends)
  · exact fun sent => absurd sent (not_transmits sends)
  · exact flying
  · intro _ _ _
    exact none

theorem retuned_told {m : RadioSettingsMessage} {response : RadioToClient}
    (once : s.sinks.Nodup) (decoded : decodeEnvelope pbDecode data = some req)
    (request : req.id ≠ 0) (body : req.body = .setRadioSettings (some m))
    (idle : s.txPending = false)
    (answered : response = ⟨req.id, .radioSettings (radioSettingsMessage (s.nextTuning m))⟩)
    (state : o.state = { s.tuned (s.nextTuning m) with response := response })
    (acts : o.acts = [.radioApply (requestedTuning m), .save (s.nextTuning m),
      .frame ((s.tuned (s.nextTuning m)).recipients (some sink) true) { response with id := 0 },
      .frame [sink] response]) : Told pbDecode s (.envelope env data sink) o := by
  have changed : o.state.settings ≠ s.settings := by
    rw [state]
    exact s.tuned_ne m
  have sends : ∀ raw, .radioTransmit raw ∉ o.acts := by
    intro raw
    simp [acts]
  subst answered
  apply told_request decoded
  · intro _ c
    rw [acts, pushes_call (by simp), pushes_call (by simp), ← List.singleton_append,
      pushes_append, pushes_answer request, List.append_nil,
      pushes_frame (recipients_nodup (s := s.tuned (s.nextTuning m)) once _ _)]
    simp only [mem_recipients, state]
    rfl
  · intro m' body'
    rw [body] at body'
    cases body'
  · exact fun sent => absurd sent (not_transmits sends)
  · exact fun sent => absurd sent (not_transmits sends)
  · intro flight
    rw [idle] at flight
    cases flight
  · intro same
    exact absurd same changed

omit [SettingsStore σ] in
/-- A packet the radio takes is announced to nobody before its result. -/
theorem sent_told {raw : Payload} (decoded : decodeEnvelope pbDecode data = some req)
    (request : req.id ≠ 0) (body : req.body = .sendPacket raw) (idle : s.txPending = false)
    (taken : env.transmitOk = true)
    (state : o.state = { s with
      store := (s.outgoing raw).store
      response := ⟨req.id, .packetAccepted (s.outgoing raw).seq⟩
      txPending := true
      txPendingSeq := (s.outgoing raw).seq })
    (acts : o.acts = (s.outgoing raw).stored.toList.map .storeAppend ++
      [.frame [sink] ⟨req.id, .packetAccepted (s.outgoing raw).seq⟩, .radioTransmit raw]) :
    Told pbDecode s (.envelope env data sink) o := by
  apply told_request decoded
  · intro changed
    exact absurd (by rw [state]) changed
  · intro m body'
    rw [body] at body'
    cases body'
  · intro _
    rw [state]
    exact ⟨rfl, req.id, by simp [acts]⟩
  · rintro ⟨refused, _⟩
    rw [taken] at refused
    cases refused
  · intro flight
    rw [idle] at flight
    cases flight
  · intro _ _ _ c
    rw [acts, pushes_append, pushes_stored, ← List.singleton_append, pushes_append,
      pushes_answer request, pushes_call (by simp)]
    rfl

omit [SettingsStore σ] in
theorem sendFailed_told {raw : Payload} (once : s.sinks.Nodup)
    (decoded : decodeEnvelope pbDecode data = some req) (request : req.id ≠ 0)
    (body : req.body = .sendPacket raw) (idle : s.txPending = false)
    (refused : env.transmitOk = false)
    (state : o.state = { s with
      store := (s.outgoing raw).store, response := ⟨0, .txResult (s.outgoing raw).seq false⟩ })
    (acts : o.acts = (s.outgoing raw).stored.toList.map .storeAppend ++
      [.frame [sink] ⟨req.id, .packetAccepted (s.outgoing raw).seq⟩, .radioTransmit raw,
        .frame s.sinks ⟨0, .txResult (s.outgoing raw).seq false⟩]) :
    Told pbDecode s (.envelope env data sink) o := by
  apply told_request decoded
  · intro changed
    exact absurd (by rw [state]) changed
  · intro m body'
    rw [body] at body'
    cases body'
  · rintro ⟨taken, _⟩
    rw [refused] at taken
    cases taken
  · intro _
    refine ⟨by rw [state]; exact idle, (s.outgoing raw).seq, req.id, by simp [acts], fun c => ?_⟩
    rw [acts, pushes_append, pushes_stored, List.nil_append, ← List.singleton_append,
      pushes_append, pushes_answer request, List.nil_append, pushes_call (by simp),
      pushes_frame once, state]
  · intro flight
    rw [idle] at flight
    cases flight
  · intro _ _ calm
    exact absurd ⟨refused, raw, by simp [acts]⟩ calm

theorem written_told {m : SetDeviceSettingsMessage} {t : CommandProcessor σ}
    {response : RadioToClient} (once : s.sinks.Nodup)
    (decoded : decodeEnvelope pbDecode data = some req) (request : req.id ≠ 0)
    (body : req.body = .setDeviceSettings m)
    (change : (candidate s.device m).same s.device = false) (written : t = s.deviceWritten m sink)
    (answered : response = ⟨req.id, .deviceSettings (t.deviceSettingsMessage env.hooks)⟩)
    (state : o.state = { t with
      response := response, sinks := removing t.sinks (t.linkCalls env m) })
    (acts : o.acts = .saveDevice t.device :: (t.announceName env m).acts ++
      (t.applyWifi env m).acts ++
      [.frame (({ t with sinks := removing t.sinks (t.linkCalls env m) }).recipients
          (some sink) true) { response with id := 0 },
        .frame [sink] response]) : Told pbDecode s (.envelope env data sink) o := by
  obtain ⟨_, _, _, same⟩ := s.deviceWritten_eq m sink
  have settings' : o.state.settings = s.settings := by rw [state, written, same]
  have changed : o.state.device ≠ s.device := by
    rw [state, written]
    exact (s.deviceWritten_device m sink).symm ▸ candidate_ne change
  have sends : ∀ raw, .radioTransmit raw ∉ o.acts := by
    intro raw
    rw [acts]
    exact written_untransmitted t env m raw (by simp)
  subst answered
  apply told_request decoded
  · intro retuned
    exact absurd settings' retuned
  · intro m' _ _ c
    rw [acts, written_notices once written request _ rfl c, state]
    rfl
  · exact fun sent => absurd sent (not_transmits sends)
  · exact fun sent => absurd sent (not_transmits sends)
  · intro flight
    rw [state, written, same]
    exact ⟨flight, rfl⟩
  · intro _ unchanged
    exact absurd (unchanged m body) changed

theorem Handled.told (h : Handled s env req sink o) (once : s.sinks.Nodup)
    (decoded : decodeEnvelope pbDecode data = some req) (request : req.id ≠ 0) :
    Told pbDecode s (.envelope env data sink) o := by
  have kept : s.txPending = true → s.txPending = true ∧ s.txPendingSeq = s.txPendingSeq :=
    fun flight => ⟨flight, rfl⟩
  cases h with
  | answered terminal _ same =>
    subst same
    refine told_quietly decoded rfl (.inl rfl) kept (by simp [answer]) fun c => ?_
    exact pushes_answer request c sink _
  | @auth pin body same =>
    obtain ⟨_, _, _, _, _, _, answers⟩ := handleAuth_answers s req.id pin sink
    rw [same, answers]
    refine told_quietly decoded rfl (.inl rfl) kept (by simp [answer]) fun c => ?_
    exact pushes_answer request c sink _
  | retuneFailed body _ _ state acts =>
    refine told_quietly decoded (by rw [state]) (.inl (by rw [state])) (by rw [state]; exact kept)
      (by simp [acts]) fun c => ?_
    rw [acts, pushes_call (by simp), pushes_answer request]
  | retuned body _ idle _ response state acts =>
    exact retuned_told once decoded request body idle response state acts
  | storeRefused body _ state acts =>
    refine told_quietly decoded (by rw [state]) (.inl (by rw [state])) (by rw [state]; exact kept)
      (by simp [acts]) fun c => ?_
    rw [acts, pushes_append, pushes_stored, pushes_answer request, List.nil_append]
  | sent body idle _ taken state acts =>
    exact sent_told decoded request body idle taken state acts
  | sendFailed body idle _ refused state acts =>
    exact sendFailed_told once decoded request body idle refused state acts
  | fetched body _ response state acts =>
    refine told_quietly decoded (by rw [state]) (.inl (by rw [state])) (by rw [state]; exact kept)
      (by simp [acts]) fun c => ?_
    rw [acts, pushes_append, response, pushes_answer request, List.append_nil]
    apply pushes_none
    intro dest msg sent
    obtain ⟨e, _, same⟩ := List.mem_map.mp sent
    rw [← (Act.frame.inj same).2]
    exact request
  | purged body state acts =>
    refine told_quietly decoded (by rw [state]) (.inl (by rw [state])) (by rw [state]; exact kept)
      (by simp [acts]) fun c => ?_
    rw [acts, pushes_call (by simp), pushes_answer request]
  | restarted call state acts =>
    refine told_quietly decoded (by rw [state]) (.inl (by rw [state])) (by rw [state]; exact kept)
      ?_ fun c => ?_
    · intro raw
      rw [acts]
      rcases call with ⟨_, rfl⟩ | ⟨_, rfl⟩ <;> split <;> simp
    · rw [acts, ← List.singleton_append, pushes_append, pushes_answer request, List.nil_append]
      rcases call with ⟨_, rfl⟩ | ⟨_, rfl⟩ <;> split <;> rfl
  | reset body state acts =>
    refine told_quietly decoded (by rw [state]; rfl) (.inr (by simp [body]))
      (by rw [state]; exact kept) ?_ fun c => ?_
    · intro raw
      rw [acts]
      split <;> simp
    · rw [acts, pushes_append, pushes_call (by simp), pushes_call (by simp), pushes_answer request]
      split <;> rfl
  | written body _ change written response state acts =>
    exact written_told once decoded request body change written response state acts

/-! ## The other events -/

end CommandProcessor

end MeshPigeon
