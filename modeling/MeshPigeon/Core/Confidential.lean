import MeshPigeon.Core.Gate
import MeshPigeon.Store.Twin

/-!
# Confidentiality of the PIN gate

Two runs that differ in gated material only look the same to a stranger.
-/
namespace MeshPigeon

/-- Stores that differ in what their packets say, not in how many there are or
how long they are. -/
def Store.Twin (s t : Store) : Prop :=
  ∃ b L M, t.1 = s.1.rebuf b ∧ PacketStore.Twin s.1 b L M

theorem Store.Twin.append {s t : Store} (h : s.Twin t) {raw raw' : Payload}
    (length : raw.1.length = raw'.1.length) (uptimeMs uptimeMs' : UInt64)
    (rssi snr rssi' snr' : Int8) (flags flags' : UInt8) :
    (s.append uptimeMs rssi snr flags raw).store.Twin
        (t.append uptimeMs' rssi' snr' flags' raw').store ∧
      (s.append uptimeMs rssi snr flags raw).seq = (t.append uptimeMs' rssi' snr' flags' raw').seq := by
  obtain ⟨b, L, M, other, twin⟩ := h
  obtain ⟨a, a', run, run', seq, b', K, N, store, twin'⟩ :=
    twin.append length uptimeMs uptimeMs' rssi snr rssi' snr' flags flags'
  rw [← other] at run'
  rw [append_eq run, append_eq run']
  exact ⟨⟨b', K, N, store, twin'⟩, seq⟩

namespace CommandProcessor

variable {σ : Type}

/-- The frames a connection receives, in order. -/
def framesTo (c : Sink) (acts : List Act) : List RadioToClient :=
  acts.flatMap fun
    | .frame dest msg => (dest.filter fun d => d = c).map fun _ => msg
    | _ => []

/-- The states agree on all but gated material: the tuning, the name and Wi-Fi
fields, and what the stored packets say. -/
structure LowEq (s t : CommandProcessor σ) : Prop where
  rest : t = { s with
    store := t.store, settingsStore := t.settingsStore, settings := t.settings, device := t.device,
    response := t.response }
  store : s.store.Twin t.store
  epoch : t.settings.configEpoch = s.settings.configEpoch
  pin : t.device.pin.str = s.device.pin.str

/-- A gated read. -/
def GatedRead (body : Request) : Prop :=
  body = .getRadioSettings ∨ body = .getDeviceSettings ∨ ∃ since max, body = .fetchPackets since max

/-- One step of either run: the stranger's requests and the polls are the same
in both, a received packet may say different things. -/
inductive Paired (pbDecode : List UInt8 → Option ClientToRadio) (u : Sink) (pin : List UInt8) :
    Event → Event → Prop
  | request (env : Env) (data : List UInt8) :
    (∀ req guess, decodeEnvelope pbDecode data = some req → req.body = .auth guess →
      guess.str ≠ pin) →
    Paired pbDecode u pin (.envelope env data u) (.envelope env data u)
  | read (env : Env) (data : List UInt8) (c : Sink) : c ≠ u →
    (∀ req, decodeEnvelope pbDecode data = some req → GatedRead req.body) →
    Paired pbDecode u pin (.envelope env data c) (.envelope env data c)
  | poll (now : UInt32) (txDone : Bool) : Paired pbDecode u pin (.poll now txDone) (.poll now txDone)
  | packet (rssi snr rssi' snr' : Int8) (raw raw' : Payload) :
    rssi.toInt32 - snr.toInt32 = rssi'.toInt32 - snr'.toInt32 →
    raw.1.length = raw'.1.length →
    Paired pbDecode u pin (.packetReceived rssi snr raw) (.packetReceived rssi' snr' raw')

/-- What the steps of both runs keep. -/
structure Shut (u : Sink) (pin : List UInt8) (s t : CommandProcessor σ) : Prop where
  low : LowEq s t
  stranger : s.authenticated u = false
  inForce : s.device.pin.str = pin
  own : pin ≠ DeviceSettings.kDefaultPin

/-- One step of either run showed `u` the same. -/
def Alike (u : Sink) (pin : List UInt8) (o o' : Outcome σ) : Prop :=
  framesTo u o.acts = framesTo u o'.acts ∧ Shut u pin o.state o'.state

variable {u : Sink} {pin : List UInt8} {s t : CommandProcessor σ}

theorem framesTo_append (c : Sink) (acts acts' : List Act) :
    framesTo c (acts ++ acts') = framesTo c acts ++ framesTo c acts' := List.flatMap_append

theorem Shut.locked (h : Shut u pin s t) : s.device.pinIsDefault = false := by
  apply Bool.eq_false_iff.mpr
  rw [ne_eq, DeviceSettings.pinIsDefault_iff, h.inForce]
  exact h.own

theorem Shut.locked' (h : Shut u pin s t) : t.device.pinIsDefault = false := by
  apply Bool.eq_false_iff.mpr
  rw [ne_eq, DeviceSettings.pinIsDefault_iff, h.low.pin, h.inForce]
  exact h.own

theorem Shut.stranger' (h : Shut u pin s t) : t.authenticated u = false := by
  rw [h.low.rest]
  exact h.stranger

/-- A push to the authorized passes `u` by. -/
theorem framesTo_gated (response : RadioToClient) (except : Option Sink)
    (refused : s.isAuthorized u = false) : framesTo u (s.push response except true).acts = [] := by
  have missing : u ∉ s.recipients except true := by
    intro h
    simp [recipients, refused] at h
  simp only [push, framesTo, List.flatMap_cons, List.flatMap_nil, List.append_nil]
  rw [List.filter_eq_nil_iff.mpr]
  · rfl
  · intro c hc
    simp only [decide_eq_true_eq]
    rintro rfl
    exact missing hc

/-! ## The stranger's own requests -/

theorem LowEq.answers (h : LowEq s t) (response response' : RadioToClient) (sink sink' : Sink) :
    LowEq (s.answer response sink).state (t.answer response' sink').state := by
  obtain ⟨rest, store, epoch, pin⟩ := h
  refine ⟨?_, store, epoch, pin⟩
  rw [answer, rest]
  rfl

theorem LowEq.strangerAnswer (h : LowEq s t) (locked : s.isAuthorized u = false)
    (locked' : t.isAuthorized u = false) (hooks : Option Hooks) (req : ClientToRadio) :
    s.strangerAnswer hooks req u = t.strangerAnswer hooks req u := by
  have info : s.deviceInfoMessage hooks u = t.deviceInfoMessage hooks u := by
    obtain ⟨b, _, _, words, _⟩ := h.store
    unfold deviceInfoMessage
    rw [locked, locked', words, h.epoch, h.rest]
    rfl
  unfold CommandProcessor.strangerAnswer
  rw [info]

/-- The state a wrong guess is answered from. -/
theorem Shut.counted (h : Shut u pin s t) :
    Shut u pin (if s.authBackoffActive then s else s.noteAuthFailure)
      (if t.authBackoffActive then t else t.noteAuthFailure) := by
  obtain ⟨⟨rest, store, epoch, same⟩, stranger, inForce, own⟩ := h
  have penalty : t.authBackoffActive = s.authBackoffActive := by
    rw [rest]
    rfl
  rw [penalty]
  split
  · exact ⟨⟨rest, store, epoch, same⟩, stranger, inForce, own⟩
  · refine ⟨⟨?_, store, epoch, same⟩, stranger, inForce, own⟩
    rw [rest]
    rfl

theorem Shut.answers (h : Shut u pin s t) (response : RadioToClient) :
    Alike u pin (s.answer response u) (t.answer response u) :=
  ⟨rfl, h.low.answers _ _ _ _, h.stranger, h.inForce, h.own⟩

theorem Shut.request [SettingsStore σ] (h : Shut u pin s t) (env : Env) (req : ClientToRadio)
    (wrong : ∀ guess, req.body = .auth guess → guess.str ≠ pin) :
    Alike u pin (s.handleRequest env req u) (t.handleRequest env req u) := by
  have refused := isAuthorized_stranger h.locked h.stranger
  have refused' := isAuthorized_stranger h.locked' h.stranger'
  by_cases auth : ∃ guess, req.body = .auth guess
  · obtain ⟨guess, body⟩ := auth
    have miss : ¬s.ExactPin guess := fun hit => wrong guess body (hit.2.trans h.inForce)
    have miss' : ¬t.ExactPin guess := fun hit =>
      wrong guess body (hit.2.trans (h.low.pin.trans h.inForce))
    unfold handleRequest
    rw [body]
    dsimp only
    rw [handleAuth_wrong req.id h.locked h.stranger miss,
      handleAuth_wrong req.id h.locked' h.stranger' miss']
    exact h.counted.answers _
  · have other : ∀ guess, req.body ≠ .auth guess := fun guess body => auth ⟨guess, body⟩
    rw [handleRequest_stranger env req h.locked h.stranger other,
      handleRequest_stranger env req h.locked' h.stranger' other,
      h.low.strangerAnswer refused refused']
    exact h.answers _

/-! ## What the others read -/

/-- The step only answers `c`. -/
structure Answers (s : CommandProcessor σ) (c : Sink) (o : Outcome σ) : Prop where
  state : ∃ response, o.state = { s with response := response }
  acts : ∀ a ∈ o.acts, ∃ msg, a = .frame [c] msg

theorem answers_answer (response : RadioToClient) (c : Sink) : Answers s c (s.answer response c) :=
  ⟨⟨response, rfl⟩, fun _ ha => ⟨response, List.mem_singleton.mp ha⟩⟩

theorem Answers.andThen {c : Sink} {o : Outcome σ} (h : Answers s c o)
    {f : CommandProcessor σ → Outcome σ} (next : Answers o.state c (f o.state)) :
    Answers s c (o.andThen f) := by
  obtain ⟨⟨response, state⟩, acts⟩ := h
  obtain ⟨⟨response', state'⟩, acts'⟩ := next
  constructor
  · refine ⟨response', ?_⟩
    rw [andThen_state, state', state]
  · intro a ha
    rcases List.mem_append.mp ha with before | after
    · exact acts a before
    · exact acts' a after

theorem answers_requireAuth {c : Sink} {o : Outcome σ} (id : UInt32) (h : Answers s c o) :
    Answers s c (s.requireAuth id c o) := by
  unfold requireAuth
  split
  · exact h
  · rw [sendError_eq]
    exact answers_answer _ _

theorem answers_fetch (id since max : UInt32) (c : Sink) :
    Answers s c (s.handleFetchPackets id since max c) := by
  apply answers_requireAuth
  dsimp only
  apply Answers.andThen
  · apply Store.fetchSince_rule fun st : Outcome σ × UInt32 => Answers s c st.1
    · exact ⟨⟨s.response, rfl⟩, fun _ ha => nomatch ha⟩
    · intro st e h
      exact h.andThen (f := fun s => (s.buildPacketEntry id e).deliver c)
        (answers_answer ⟨id, .packetEntry (packetEntry e)⟩ c)
  · exact answers_answer _ _

theorem answers_read [SettingsStore σ] (env : Env) (req : ClientToRadio) (c : Sink)
    (read : GatedRead req.body) : Answers s c (s.handleRequest env req c) := by
  unfold handleRequest
  rcases read with body | body | ⟨since, max, body⟩
  · rw [body]
    exact answers_requireAuth _ (answers_answer _ _)
  · rw [body]
    exact answers_requireAuth _ (answers_answer _ _)
  · rw [body]
    exact answers_fetch req.id since max c

theorem Answers.silent {c : Sink} {o : Outcome σ} (h : Answers s c o) (other : c ≠ u) :
    framesTo u o.acts = [] := by
  apply List.flatMap_eq_nil_iff.mpr
  intro a ha
  obtain ⟨msg, rfl⟩ := h.acts a ha
  simp [other]

/-- Neither run shows `u` what it answers somebody else. -/
theorem Shut.apart (h : Shut u pin s t) {c : Sink} (other : c ≠ u) {o o' : Outcome σ}
    (read : Answers s c o) (read' : Answers t c o') : Alike u pin o o' := by
  obtain ⟨response, state⟩ := read.state
  obtain ⟨response', state'⟩ := read'.state
  refine ⟨(read.silent other).trans (read'.silent other).symm, ?_⟩
  rw [state, state']
  exact ⟨h.low.answers response response' 0 0, h.stranger, h.inForce, h.own⟩

/-! ## Received packets and the clock -/

theorem packetReceived_state (s : CommandProcessor σ) (rssi snr : Int8) (raw : Payload) :
    ∃ response, (s.onPacketReceived rssi snr raw).state = { s with
      noiseFloorDbm := rssi.toInt32 - snr.toInt32
      store := (s.store.append s.clock.uptimeMs64 rssi snr kFlagReceived raw).store
      response := response } := by
  unfold onPacketReceived
  dsimp only [andThen_state]
  split
  · exact ⟨s.response, rfl⟩
  · split
    · exact ⟨s.response, rfl⟩
    · exact ⟨_, rfl⟩

theorem packetReceived_silent (refused : s.isAuthorized u = false) (rssi snr : Int8)
    (raw : Payload) : framesTo u (s.onPacketReceived rssi snr raw).acts = [] := by
  have stores (stored : Option StoredPacket) :
      framesTo u (stored.toList.map Act.storeAppend) = [] := by
    cases stored <;> rfl
  unfold onPacketReceived
  dsimp only [andThen_acts]
  rw [framesTo_append, storeAppend, stores, List.nil_append]
  split
  · rfl
  · split
    · rfl
    · exact framesTo_gated _ none refused

theorem Shut.packet (h : Shut u pin s t) {rssi snr rssi' snr' : Int8} {raw raw' : Payload}
    (floor : rssi.toInt32 - snr.toInt32 = rssi'.toInt32 - snr'.toInt32)
    (length : raw.1.length = raw'.1.length) :
    Alike u pin (s.onPacketReceived rssi snr raw) (t.onPacketReceived rssi' snr' raw') := by
  have silent := packetReceived_silent (isAuthorized_stranger h.locked h.stranger) rssi snr raw
  have silent' := packetReceived_silent (isAuthorized_stranger h.locked' h.stranger') rssi' snr' raw'
  obtain ⟨response, state⟩ := packetReceived_state s rssi snr raw
  obtain ⟨response', state'⟩ := packetReceived_state t rssi' snr' raw'
  obtain ⟨⟨rest, store, epoch, same⟩, stranger, inForce, own⟩ := h
  have stored := (store.append length s.clock.uptimeMs64 t.clock.uptimeMs64 rssi snr rssi' snr'
    kFlagReceived kFlagReceived).1
  refine ⟨silent.trans silent'.symm, ?_⟩
  rw [state, state']
  refine ⟨⟨?_, stored, epoch, same⟩, stranger, inForce, own⟩
  rw [← floor, rest]

theorem Shut.ticked (h : Shut u pin s t) (now : UInt32) :
    Shut u pin (s.ticked now) (t.ticked now) := by
  obtain ⟨⟨rest, store, epoch, same⟩, stranger, inForce, own⟩ := h
  refine ⟨⟨?_, store, epoch, same⟩, stranger, inForce, own⟩
  rw [CommandProcessor.ticked, rest]
  rfl

theorem Shut.reports (h : Shut u pin s t) (seq : UInt32) (ok : Bool) :
    Alike u pin ({ s with txPending := false }.emitTxResult seq ok)
      ({ t with txPending := false }.emitTxResult seq ok) := by
  obtain ⟨⟨rest, store, epoch, same⟩, stranger, inForce, own⟩ := h
  have sinks : t.sinks = s.sinks := by rw [rest]
  refine ⟨?_, ⟨?_, store, epoch, same⟩, stranger, inForce, own⟩
  · rw [emitTxResult_eq, emitTxResult_eq, push, push, recipients, recipients, sinks]
    rfl
  · rw [rest]
    rfl

theorem Shut.txResult (h : Shut u pin s t) (seq : UInt32) (ok : Bool) :
    Alike u pin (s.onTxResult seq ok) (t.onTxResult seq ok) := by
  have flight : (!t.txPending || seq ≠ t.txPendingSeq) = (!s.txPending || seq ≠ s.txPendingSeq) := by
    rw [h.low.rest]
  unfold onTxResult
  rw [flight]
  split
  · exact ⟨rfl, h⟩
  · exact h.reports seq ok

theorem Shut.poll (h : Shut u pin s t) (now : UInt32) (txDone : Bool) :
    Alike u pin (s.poll now txDone) (t.poll now txDone) := by
  rw [poll_eq, poll_eq]
  have shut := h.ticked now
  generalize s.ticked now = s at shut
  generalize t.ticked now = t at shut
  have pending : t.txPending = s.txPending := by rw [shut.low.rest]
  have seq : t.txPendingSeq = s.txPendingSeq := by rw [shut.low.rest]
  rw [pending, seq]
  split
  · exact shut.txResult _ _
  · exact ⟨rfl, shut⟩

theorem Shut.step [SettingsStore σ] {pbDecode : List UInt8 → Option ClientToRadio}
    (h : Shut u pin s t) {e f : Event} (paired : Paired pbDecode u pin e f) :
    Alike u pin (s.step pbDecode e) (t.step pbDecode f) := by
  cases paired with
  | request env data wrong =>
    show Alike u pin (s.onEnvelope pbDecode env data u) (t.onEnvelope pbDecode env data u)
    unfold onEnvelope
    cases decoded : decodeEnvelope pbDecode data with
    | none => exact ⟨rfl, h⟩
    | some req => exact h.request env req (wrong req · decoded)
  | read env data c other read =>
    show Alike u pin (s.onEnvelope pbDecode env data c) (t.onEnvelope pbDecode env data c)
    unfold onEnvelope
    cases decoded : decodeEnvelope pbDecode data with
    | none => exact ⟨rfl, h⟩
    | some req =>
      have gated := read req decoded
      exact h.apart other (answers_read env req c gated) (answers_read env req c gated)
  | poll now txDone => exact h.poll now txDone
  | packet rssi snr rssi' snr' raw raw' floor length => exact h.packet floor length

/-- **Confidentiality of the PIN gate.** On a device with a PIN of its own, two
runs from states that differ in gated material only send a stranger the same
frames, whatever it asks and whatever is received and read meanwhile. -/
theorem gated_material_confidential [SettingsStore σ]
    (pbDecode : List UInt8 → Option ClientToRadio) {s t : CommandProcessor σ} (low : LowEq s t)
    (locked : s.device.pinIsDefault = false) (u : Sink) (stranger : s.authenticated u = false)
    {events events' : List Event}
    (paired : List.Forall₂ (Paired pbDecode u s.device.pin.str) events events') :
    framesTo u (s.run pbDecode events).acts = framesTo u (t.run pbDecode events').acts := by
  have own : s.device.pin.str ≠ DeviceSettings.kDefaultPin := by
    intro default'
    rw [(DeviceSettings.pinIsDefault_iff s.device).mpr default'] at locked
    cases locked
  have shut : Shut u s.device.pin.str s t := ⟨low, stranger, rfl, own⟩
  generalize s.device.pin.str = pin at paired shut
  clear low locked stranger own
  induction paired generalizing s t with
  | nil => rfl
  | cons first _ ih =>
    obtain ⟨same, next⟩ := shut.step first
    rw [run, run, andThen_acts, andThen_acts, framesTo_append, framesTo_append, same, ih next]

/-- The device of the examples, under another name and on another frequency. -/
def otherBoot : CommandProcessor MemorySettingsStore :=
  ((new (Store.new 1000) {}
    { saved := some { RadioSettings.unset with freqHz := 868000000 }
      savedDevice := some { DeviceSettings.defaults with
        name := copyStr kNameMax [0x41], pin := samplePin } }
    [] [] ⟨0, .none⟩).boot true true).state

/-- A stranger connects. One device hears a packet, the other a louder one that
says something else; then the stranger guesses the PIN. -/
theorem gated_material_confidential_two_boots :
    let s := (sampleBoot.step sampleDecode (.connect 1)).state
    let t := (otherBoot.step sampleDecode (.connect 1)).state
    s.sinks = [1] ∧ framesTo 1 (s.run sampleDecode
        [.packetReceived (-80) 5 ⟨[0xAA], by decide⟩, sampleEvent 1 1]).acts =
      framesTo 1 (t.run sampleDecode
        [.packetReceived (-75) 10 ⟨[0xBB], by decide⟩, sampleEvent 1 1]).acts := by
  intro s t
  refine ⟨rfl, ?_⟩
  apply gated_material_confidential sampleDecode (s := s) (t := t)
  · refine ⟨rfl, ⟨fun _ => 0, [], [], rfl, ?_⟩, rfl, rfl⟩
    exact ⟨PacketStore.new_holds 1000, PacketStore.new_holds 1000, rfl⟩
  · decide
  · rfl
  · refine .cons (.packet _ _ _ _ _ _ (by decide) rfl) (.cons (.request _ _ ?_) .nil)
    intro req guess decoded body
    have wrong : decodeEnvelope sampleDecode wrongPin =
        some ⟨2, .auth (copyStr kPinMax [0x34, 0x33, 0x32, 0x31])⟩ := rfl
    obtain rfl := Option.some.inj (wrong.symm.trans decoded)
    obtain rfl := Request.auth.inj body
    decide

end CommandProcessor

end MeshPigeon
