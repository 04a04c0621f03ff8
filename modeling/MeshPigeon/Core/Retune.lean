import MeshPigeon.Core.Records
import MeshPigeon.Core.Uptime

/-!
# Retuning

What a `SetRadioSettings` must be to be accepted, and what it leaves either way;
the grace window in which only the first one is.
-/
namespace MeshPigeon

/-- Every value of the request is one the radio can be set to, in the units of the wire. -/
structure Tunable (m : RadioSettingsMessage) : Prop where
  freq : m.freqHz ≠ 0
  bandwidth : 0 < m.bandwidthHz.toNat ∧ m.bandwidthHz.toNat % 10 = 0 ∧ m.bandwidthHz.toNat ≤ 655350
  sf : 5 ≤ m.sf.toNat ∧ m.sf.toNat ≤ 12
  cr : 5 ≤ m.cr.toNat ∧ m.cr.toNat ≤ 8
  power : m.powerDbm.toNat ≤ 22

/-- The tuning is the one the request names, in the units it is stored in. -/
structure Denotes (t : RadioSettings) (m : RadioSettingsMessage) : Prop where
  freq : t.freqHz = m.freqHz
  bandwidth : t.bwX100khz.toNat * 10 = m.bandwidthHz.toNat
  sf : t.sf.toNat = m.sf.toNat
  cr : t.cr.toNat = m.cr.toNat
  power : t.powerDbm.toNat = m.powerDbm.toNat
  /-- as `int8_t`, the way it goes to the radio -/
  signed : t.powerDbm.toInt8.toInt = m.powerDbm.toNat

open CommandProcessor

theorem validTuning_iff (m : RadioSettingsMessage) : validTuning m = true ↔ Tunable m := by
  have tenths : (m.bandwidthHz / 10).toNat = m.bandwidthHz.toNat / 10 := UInt32.toNat_div ..
  have rest : (m.bandwidthHz % 10).toNat = m.bandwidthHz.toNat % 10 := UInt32.toNat_mod ..
  simp only [validTuning, kTxPowerMax, Bool.not_eq_true', Bool.or_eq_false_iff,
    decide_eq_false_iff_not, gt_iff_lt, UInt32.lt_iff_toNat_lt, UInt32.toNat_inj.symm, tenths, rest,
    ne_eq, not_not]
  have zero : (0 : UInt32).toNat = 0 := rfl
  have five : (5 : UInt32).toNat = 5 := rfl
  have eight : (8 : UInt32).toNat = 8 := rfl
  have twelve : (12 : UInt32).toNat = 12 := rfl
  have ceiling : (22 : UInt32).toNat = 22 := rfl
  have widest : (0xFFFF : UInt32).toNat = 65535 := rfl
  rw [zero, five, eight, twelve, ceiling, widest]
  constructor
  · rintro ⟨⟨⟨⟨⟨⟨⟨⟨some, whole⟩, wide⟩, freq⟩, sf⟩, sf'⟩, cr⟩, cr'⟩, power⟩
    refine ⟨fun zero => freq (by rw [zero]; rfl), ?_, ?_, ?_, ?_⟩ <;> omega
  · rintro ⟨freq, bandwidth, sf, cr, power⟩
    have carrier : ¬m.freqHz.toNat = 0 := fun zero => freq (UInt32.toNat_inj.mp zero)
    omega

/-- What is stored denotes what was asked for: nothing is lost in narrowing it. -/
theorem Tunable.denoted {m : RadioSettingsMessage} (h : Tunable m) (epoch : UInt32) :
    Denotes { requestedTuning m with configEpoch := epoch } m := by
  have tenths : (m.bandwidthHz / 10).toNat = m.bandwidthHz.toNat / 10 := UInt32.toNat_div ..
  obtain ⟨freq, ⟨_, whole, widest⟩, sf, cr, power⟩ := h
  have narrow {n : Nat} (fits : n < 256) : n % 2 ^ 8 = n := Nat.mod_eq_of_lt fits
  refine ⟨rfl, ?_, ?_, ?_, ?_, ?_⟩
  · show (m.bandwidthHz / 10).toUInt16.toNat * 10 = _
    rw [UInt32.toNat_toUInt16, tenths]
    omega
  · exact (UInt32.toNat_toUInt8 m.sf).trans (narrow (by omega))
  · exact (UInt32.toNat_toUInt8 m.cr).trans (narrow (by omega))
  · exact (UInt32.toNat_toUInt8 m.powerDbm).trans (narrow (by omega))
  · have kept : m.powerDbm.toUInt8.toBitVec.toNat = m.powerDbm.toNat :=
      (UInt32.toNat_toUInt8 m.powerDbm).trans (narrow (by omega))
    show m.powerDbm.toUInt8.toBitVec.toInt = _
    rw [BitVec.toInt_eq_toNat_of_lt (by rw [kept]; omega), kept]

/-- Read back on the wire it is the request, with the epoch of the firmware. -/
theorem Denotes.reads_back {t : RadioSettings} {m : RadioSettingsMessage} (h : Denotes t m) :
    radioSettingsMessage t = { m with configEpoch := t.configEpoch } := by
  have hertz : t.bwX100khz.toUInt32 * 10 = m.bandwidthHz := by
    apply UInt32.toNat_inj.mp
    have bound := m.bandwidthHz.toNat_lt
    rw [UInt32.toNat_mul, UInt16.toNat_toUInt32, show (10 : UInt32).toNat = 10 from rfl, h.bandwidth]
    exact Nat.mod_eq_of_lt bound
  have sf : t.sf.toUInt32 = m.sf := UInt32.toNat_inj.mp ((UInt8.toNat_toUInt32 _).trans h.sf)
  have cr : t.cr.toUInt32 = m.cr := UInt32.toNat_inj.mp ((UInt8.toNat_toUInt32 _).trans h.cr)
  have power : t.powerDbm.toUInt32 = m.powerDbm :=
    UInt32.toNat_inj.mp ((UInt8.toNat_toUInt32 _).trans h.power)
  rw [radioSettingsMessage, h.freq, hertz, sf, cr, power]

/-! ## What becomes of a request -/

namespace CommandProcessor

variable {σ : Type}

/-- The conditions a `SetRadioSettings` is accepted under. -/
structure AcceptsTuning (s : CommandProcessor σ) (env : Env)
    (settings : Option RadioSettingsMessage) (sink : Sink) (m : RadioSettingsMessage) : Prop where
  authorized : s.isAuthorized sink = true
  present : settings = some m
  tunable : Tunable m
  unlocked : s.firstOwnerLockActive = false
  idle : s.txPending = false
  applied : env.applyOk = true

variable [SettingsStore σ] {s : CommandProcessor σ} {env : Env}
  {settings : Option RadioSettingsMessage} {m : RadioSettingsMessage} {sink : Sink}

theorem setRadioSettings_accepted (id : UInt32) (h : AcceptsTuning s env settings sink m) :
    s.handleSetRadioSettings env id settings sink =
      let response : RadioToClient := ⟨id, .radioSettings (radioSettingsMessage (s.nextTuning m))⟩
      { state := { s.tuned (s.nextTuning m) with response := response }
        acts := [.radioApply (requestedTuning m), .save (s.nextTuning m),
          .frame (s.recipients (some sink) true) { response with id := 0 },
          .frame [sink] response] } := by
  obtain ⟨authorized, rfl, tunable, unlocked, idle, applied⟩ := h
  rw [handleSetRadioSettings, requireAuth_authorized _ _ authorized]
  simp only [(validTuning_iff m).mpr tunable, unlocked, idle, applied, Bool.not_true, Bool.or_false,
    Bool.false_eq_true, if_false]
  rfl

/-- A refusal changes the response alone; the radio may have been asked. -/
structure Refuses (s : CommandProcessor σ) (id : UInt32) (sink : Sink) (o : Outcome σ)
    (code : ErrorCode) : Prop where
  state : o.state = { s with response := ⟨id, .error code []⟩ }
  acts : o.acts = [.frame [sink] ⟨id, .error code []⟩] ∨
    ∃ t, o.acts = [.radioApply t, .frame [sink] ⟨id, .error code []⟩]

omit [SettingsStore σ] in
theorem refuses_error (s : CommandProcessor σ) (id : UInt32) (sink : Sink) (code : ErrorCode) :
    Refuses s id sink (s.sendError id code sink) code := ⟨rfl, .inl rfl⟩

/-- Whatever the cause, a refusal is one error answer and nothing else. -/
theorem setRadioSettings_refused (id : UInt32)
    (h : ∀ m, ¬AcceptsTuning s env settings sink m) :
    ∃ code, Refuses s id sink (s.handleSetRadioSettings env id settings sink) code := by
  unfold handleSetRadioSettings requireAuth
  split
  · rename_i authorized
    cases settings with
    | none => exact ⟨_, refuses_error s id sink .badPayload⟩
    | some m =>
      dsimp only
      split
      · exact ⟨_, refuses_error s id sink .badPayload⟩
      rename_i valid
      split
      · exact ⟨_, refuses_error s id sink .busy⟩
      rename_i free
      cases applied : env.applyOk with
      | false => exact ⟨.txFailed, rfl, .inr ⟨requestedTuning m, rfl⟩⟩
      | true =>
        simp only [Bool.or_eq_true, not_or, Bool.not_eq_true] at free
        simp only [Bool.not_eq_true', Bool.not_eq_false] at valid
        exact absurd ⟨authorized, rfl, (validTuning_iff m).mp valid, free.1, free.2, applied⟩ (h m)
  · exact ⟨_, refuses_error s id sink .authRequired⟩

/-- It is answered with a tuning exactly when it is accepted. -/
theorem setRadioSettings_answered (id : UInt32) :
    (∃ msg, Act.frame [sink] ⟨id, .radioSettings msg⟩ ∈
      (s.handleSetRadioSettings env id settings sink).acts) ↔
      ∃ m, AcceptsTuning s env settings sink m := by
  constructor
  · rintro ⟨msg, answered⟩
    by_contra refused
    obtain ⟨code, state, alone | ⟨t, asked⟩⟩ := setRadioSettings_refused id (not_exists.mp refused)
    · rw [alone] at answered
      simp at answered
    · rw [asked] at answered
      simp at answered
  · rintro ⟨m, accepts⟩
    rw [setRadioSettings_accepted id accepts]
    exact ⟨radioSettingsMessage (s.nextTuning m), by simp⟩

/-- A valid tuning is refused BUSY while the first owner is protected. -/
theorem setRadioSettings_locked (id : UInt32) (authorized : s.isAuthorized sink = true)
    (tunable : Tunable m) (locked : s.firstOwnerLockActive = true) :
    s.handleSetRadioSettings env id (some m) sink = s.answer ⟨id, .error .busy []⟩ sink := by
  rw [handleSetRadioSettings, requireAuth_authorized _ _ authorized]
  simp only [(validTuning_iff m).mpr tunable, locked, Bool.not_true, Bool.true_or,
    Bool.false_eq_true, if_false, if_true]
  rfl

/-- **A retune narrows nothing and is atomic.** It is accepted exactly under its
conditions. Then the tuning given to the radio and the one kept and persisted
denote the request, the pushed and the answered one are the request on the wire,
under the firmware's own epoch; otherwise nothing changes and nothing is pushed. -/
theorem setRadioSettings_atomic (s : CommandProcessor σ) (env : Env) (id : UInt32)
    (settings : Option RadioSettingsMessage) (sink : Sink) :
    let o := s.handleRequest env ⟨id, .setRadioSettings settings⟩ sink
    ((∃ msg, Act.frame [sink] ⟨id, .radioSettings msg⟩ ∈ o.acts) ↔
      ∃ m, AcceptsTuning s env settings sink m) ∧
    (∀ m, AcceptsTuning s env settings sink m → ∃ applied kept,
      let msg := { m with configEpoch := s.settings.configEpoch + 1 }
      Denotes applied m ∧ Denotes kept m ∧ kept.configEpoch = s.settings.configEpoch + 1 ∧
      o.acts = [.radioApply applied, .save kept,
        .frame (s.recipients (some sink) true) ⟨0, .radioSettings msg⟩,
        .frame [sink] ⟨id, .radioSettings msg⟩] ∧
      o.state = { s with
        radioOk := true
        settings := kept
        settingsStore := SettingsStore.save s.settingsStore kept
        setCountSinceBoot := s.setCountSinceBoot + 1
        response := ⟨id, .radioSettings msg⟩ } ∧
      radioSettingsMessage o.state.settings = msg ∧
      RadioSettings.deserialize kept.serialize = some kept) ∧
    ((∀ m, ¬AcceptsTuning s env settings sink m) → ∃ code, Refuses s id sink o code) := by
  have handled : s.handleRequest env ⟨id, .setRadioSettings settings⟩ sink =
    s.handleSetRadioSettings env id settings sink := rfl
  rw [handled]
  refine ⟨setRadioSettings_answered id, ?_, setRadioSettings_refused id⟩
  intro m accepts
  have kept : Denotes (s.nextTuning m) m := accepts.tunable.denoted _
  have wire : radioSettingsMessage (s.nextTuning m) =
    { m with configEpoch := s.settings.configEpoch + 1 } := kept.reads_back
  refine ⟨requestedTuning m, s.nextTuning m, accepts.tunable.denoted 0, kept, rfl, ?_⟩
  rw [setRadioSettings_accepted id accepts, wire]
  exact ⟨rfl, rfl, wire, RadioSettings.deserialize_serialize rfl⟩

/-! ## The first owner -/

variable {pbDecode : List UInt8 → Option ClientToRadio}

/-- The event is a `SetRadioSettings` that is answered with the tuning now in force. -/
def Retunes (pbDecode : List UInt8 → Option ClientToRadio) (s : CommandProcessor σ) (e : Event) :
    Prop :=
  ∃ env data sink req settings msg, e = .envelope env data sink ∧
    decodeEnvelope pbDecode data = some req ∧ req.body = .setRadioSettings settings ∧
    Act.frame [sink] ⟨req.id, .radioSettings msg⟩ ∈ (s.step pbDecode e).acts

/-- The run accepted a tuning. -/
def RetunedIn (pbDecode : List UInt8 → Option ClientToRadio) (s : CommandProcessor σ)
    (events : List Event) : Prop :=
  ∃ pre e post, events = pre ++ e :: post ∧ Retunes pbDecode (s.run pbDecode pre).state e

theorem step_request {data : List UInt8} {req : ClientToRadio} (env : Env) (sink : Sink)
    (decoded : decodeEnvelope pbDecode data = some req) :
    s.step pbDecode (.envelope env data sink) = s.handleRequest env req sink := by
  rw [step, onEnvelope, decoded]

theorem retunes_iff {e : Event} : Retunes pbDecode s e ↔
    ∃ env data sink req settings m, e = .envelope env data sink ∧
      decodeEnvelope pbDecode data = some req ∧ req.body = .setRadioSettings settings ∧
      AcceptsTuning s env settings sink m := by
  constructor
  · rintro ⟨env, data, sink, ⟨id, body⟩, settings, msg, rfl, decoded, rfl, answered⟩
    rw [step_request env sink decoded] at answered
    obtain ⟨m, accepts⟩ := (setRadioSettings_answered id).mp ⟨msg, answered⟩
    exact ⟨env, data, sink, _, settings, m, rfl, decoded, rfl, accepts⟩
  · rintro ⟨env, data, sink, ⟨id, body⟩, settings, m, rfl, decoded, rfl, accepts⟩
    obtain ⟨msg, answered⟩ := (setRadioSettings_answered id).mpr ⟨m, accepts⟩
    refine ⟨env, data, sink, _, settings, msg, rfl, decoded, rfl, ?_⟩
    rw [step_request env sink decoded]
    exact answered

omit [SettingsStore σ] in
theorem firstOwnerLockActive_iff :
    s.firstOwnerLockActive = true ↔ 1 ≤ s.setCountSinceBoot.toNat ∧ s.now < 300000 := by
  simp only [firstOwnerLockActive, Bool.and_eq_true, decide_eq_true_eq, ge_iff_le,
    UInt32.le_iff_toNat_le, UInt64.lt_iff_toNat_lt]
  rfl

/-- Only an accepted tuning counts. -/
theorem Handled.count {req : ClientToRadio} {o : Outcome σ} (h : Handled s env req sink o) :
    o.state.setCountSinceBoot = s.setCountSinceBoot ∨ ∃ settings msg,
      req.body = .setRadioSettings settings ∧
      Act.frame [sink] ⟨req.id, .radioSettings msg⟩ ∈ o.acts := by
  cases h with
  | @retuned m _ body _ _ _ response _ acts =>
    right
    refine ⟨some m, radioSettingsMessage (s.nextTuning m), body, ?_⟩
    rw [acts, response]
    simp
  | answered _ _ same =>
    rw [same]
    exact .inl rfl
  | @auth pin _ same =>
    obtain ⟨_, _, _, _, _, _, answers⟩ := handleAuth_answers s req.id pin sink
    rw [same, answers]
    exact .inl rfl
  | retuneFailed _ _ _ state _ | storeRefused _ _ state _ | sent _ _ _ _ state _
  | sendFailed _ _ _ _ state _ | fetched _ _ _ state _ | purged _ state _ | restarted _ state _
  | reset _ state _ =>
    rw [state]
    exact .inl rfl
  | @written m _ _ _ _ _ written _ state _ =>
    obtain ⟨_, _, _, same⟩ := s.deviceWritten_eq m sink
    rw [state, written, same]
    exact .inl rfl

theorem step_count (e : Event) (other : ¬Retunes pbDecode s e) :
    (s.step pbDecode e).state.setCountSinceBoot = s.setCountSinceBoot := by
  cases step_stepped pbDecode s e with
  | @connected sink event same =>
    obtain ⟨_, added, _⟩ := (s.setAuthenticated sink false).addSink_eq sink
    rw [same, added]
    rfl
  | requested event decoded request handled =>
    rcases handled.count with same | ⟨settings, msg, body, answered⟩
    · exact same
    · exact absurd ⟨_, _, _, _, settings, msg, event, decoded, body, answered⟩ other
  | unheard _ _ same | heard _ _ _ _ same => rw [same]
  | dropped _ _ same | relinked _ same | disconnected _ same | ticked _ _ same
  | finished _ _ same | stale _ same | reported _ _ same | linkChanged _ same =>
    rw [same]
    rfl

/-- An accepted tuning counts once, and was not locked out. -/
theorem Retunes.counts {e : Event} (h : Retunes pbDecode s e) :
    (s.step pbDecode e).state.setCountSinceBoot = s.setCountSinceBoot + 1 ∧
      (s.step pbDecode e).state.now = s.now ∧ s.firstOwnerLockActive = false := by
  obtain ⟨env, data, sink, ⟨id, body⟩, settings, m, rfl, decoded, rfl, accepts⟩ := retunes_iff.mp h
  have handled : s.handleRequest env ⟨id, .setRadioSettings settings⟩ sink =
    s.handleSetRadioSettings env id settings sink := rfl
  rw [step_request env sink decoded, handled, setRadioSettings_accepted id accepts]
  exact ⟨rfl, rfl, accepts.unlocked⟩

theorem retunedIn_concat {es : List Event} {e : Event} : RetunedIn pbDecode s (es ++ [e]) ↔
    RetunedIn pbDecode s es ∨ Retunes pbDecode (s.run pbDecode es).state e := by
  constructor
  · rintro ⟨pre, e', post, split, retunes⟩
    rcases List.eq_nil_or_concat post with rfl | ⟨post, last, rfl⟩
    · obtain ⟨rfl, rfl⟩ : es = pre ∧ e = e' := by simpa using List.append_inj' split rfl
      exact .inr retunes
    · have inside : es = pre ++ e' :: post := by
        have split : es ++ [e] = (pre ++ e' :: post) ++ [last] := by rw [split]; simp
        exact (List.append_inj' split rfl).1
      exact .inl ⟨pre, e', post, inside, retunes⟩
  · rintro (⟨pre, e', post, rfl, retunes⟩ | retunes)
    · exact ⟨pre, e', post ++ [e], by simp, retunes⟩
    · exact ⟨es, e, [], rfl, retunes⟩

/-- Until the grace window is past the count says whether a tuning was accepted. -/
theorem run_count (pbDecode : List UInt8 → Option ClientToRadio) {events : List Event}
    (start : s.setCountSinceBoot = 0)
    (few : FewWraps s events) :
    let t := (s.run pbDecode events).state
    (¬RetunedIn pbDecode s events ∧ t.setCountSinceBoot = 0) ∨
      (RetunedIn pbDecode s events ∧ (t.setCountSinceBoot = 1 ∨ 300000 ≤ t.now)) := by
  induction events using List.reverseRecOn with
  | nil =>
    left
    refine ⟨?_, start⟩
    rintro ⟨pre, e, post, split, -⟩
    simp at split
  | append_singleton events e ih =>
    have later := few.later_from pbDecode
    rw [run_concat, andThen_state] at later ⊢
    have before := ih few.front
    dsimp only at before ⊢
    rw [retunedIn_concat]
    by_cases retunes : Retunes pbDecode (s.run pbDecode events).state e
    · obtain ⟨counts, same, unlocked⟩ := retunes.counts
      right
      refine ⟨.inr retunes, ?_⟩
      rw [counts, same]
      rcases before with ⟨_, none⟩ | ⟨_, once | past⟩
      · rw [none]
        exact .inl rfl
      · right
        by_contra early
        have locked := firstOwnerLockActive_iff.mpr ⟨by rw [once]; decide, Nat.lt_of_not_le early⟩
        rw [unlocked] at locked
        cases locked
      · exact .inr past
    · rw [step_count e retunes]
      rcases before with ⟨never, none⟩ | ⟨once, counted⟩
      · left
        exact ⟨not_or.mpr ⟨never, retunes⟩, none⟩
      · right
        exact ⟨.inl once, counted.imp_right fun past => Nat.le_trans past later⟩

/-- **The first owner keeps the tuning for five minutes.** In every run from boot
in which the rollovers of the clock fit: once a tuning was accepted, no other is
before the core time reaches 300000, and a valid one from an authorized client is
answered BUSY and changes nothing; as long as none was accepted, whatever was
refused, and again from 300000 on, the lock refuses nothing. -/
theorem first_owner_lock (s₀ : CommandProcessor σ) (events : List Event) (boot : Booted s₀)
    (few : FewWraps s₀ events) :
    let s := (s₀.run pbDecode events).state
    (RetunedIn pbDecode s₀ events → s.now < 300000 →
      (∀ e, ¬Retunes pbDecode s e) ∧
      ∀ env data sink req m, decodeEnvelope pbDecode data = some req →
        req.body = .setRadioSettings (some m) → Tunable m → s.isAuthorized sink = true →
        s.step pbDecode (.envelope env data sink) = s.answer ⟨req.id, .error .busy []⟩ sink) ∧
    ((¬RetunedIn pbDecode s₀ events ∨
        ∃ pre post, events = pre ++ post ∧ 300000 ≤ (s₀.run pbDecode pre).state.now) →
      s.firstOwnerLockActive = false ∧
      ∀ env data sink req m, decodeEnvelope pbDecode data = some req →
        req.body = .setRadioSettings (some m) → Tunable m → s.isAuthorized sink = true →
        s.txPending = false → env.applyOk = true →
        Retunes pbDecode s (.envelope env data sink)) := by
  have start : s₀.setCountSinceBoot = 0 := by
    obtain ⟨_, _, _, _, _, _, _, _, rfl⟩ := boot
    rfl
  intro s
  have counted := run_count pbDecode start few
  constructor
  · intro retuned early
    have locked : s.firstOwnerLockActive = true := by
      rcases counted with ⟨never, _⟩ | ⟨_, once | past⟩
      · exact absurd retuned never
      · exact firstOwnerLockActive_iff.mpr ⟨by rw [once]; decide, early⟩
      · exact absurd early (Nat.not_lt.mpr past)
    refine ⟨fun e retunes => ?_, fun env data sink req m decoded body tunable authorized => ?_⟩
    · rw [retunes.counts.2.2] at locked
      cases locked
    · rw [step_request env sink decoded, handleRequest, body]
      exact setRadioSettings_locked req.id authorized tunable locked
  · intro free
    have unlocked : s.firstOwnerLockActive = false := by
      apply Bool.eq_false_iff.mpr
      intro locked
      obtain ⟨some, early⟩ := firstOwnerLockActive_iff.mp locked
      rcases free with never | ⟨pre, post, rfl, past⟩
      · rcases counted with ⟨_, none⟩ | ⟨retuned, _⟩
        · rw [none] at some
          exact absurd some (by decide)
        · exact never retuned
      · exact absurd early (Nat.not_lt.mpr (Nat.le_trans past (few.later_from pbDecode)))
    refine ⟨unlocked, fun env data sink req m decoded body tunable authorized idle applied => ?_⟩
    exact retunes_iff.mpr ⟨env, data, sink, req, _, m, rfl, decoded, body,
      authorized, rfl, tunable, unlocked, idle, applied⟩

/-- A tuning as it is on the wire. -/
def tuningRequest : List UInt8 :=
  [0x08, 0x07, 0x2A, 0x12, 0x0A, 0x10, 0x08, 0x80, 0xC2, 0xF2, 0x9D, 0x03, 0x10, 0xC8,
    0xD0, 0x07, 0x18, 0x09, 0x20, 0x05, 0x28, 0x0E]

/-- 868 MHz, 125 kHz, SF9, 4/5, 14 dBm. -/
def sampleTuning : RadioSettingsMessage := ⟨868000000, 125000, 9, 5, 14, 0⟩

def tuningDecode (data : List UInt8) : Option ClientToRadio :=
  if data = tuningRequest then some ⟨7, .setRadioSettings (some sampleTuning)⟩
  else sampleDecode data

/-- Two owners log in, the first one tunes. -/
def firstOwner : List Event :=
  [.connect 1, .connect 2, sampleEvent 0 1, sampleEvent 0 2,
    .envelope ⟨none, true, true⟩ tuningRequest 1, .poll 299999 false]

theorem first_owner_lock_second_owner :
    let s := (sampleBoot.run tuningDecode firstOwner).state
    (RetunedIn tuningDecode sampleBoot firstOwner → s.now < 300000 →
      (∀ e, ¬Retunes tuningDecode s e) ∧
      ∀ env data sink req m, decodeEnvelope tuningDecode data = some req →
        req.body = .setRadioSettings (some m) → Tunable m → s.isAuthorized sink = true →
        s.step tuningDecode (.envelope env data sink) = s.answer ⟨req.id, .error .busy []⟩ sink) ∧
    ((¬RetunedIn tuningDecode sampleBoot firstOwner ∨
        ∃ pre post, firstOwner = pre ++ post ∧
          300000 ≤ (sampleBoot.run tuningDecode pre).state.now) →
      s.firstOwnerLockActive = false ∧
      ∀ env data sink req m, decodeEnvelope tuningDecode data = some req →
        req.body = .setRadioSettings (some m) → Tunable m → s.isAuthorized sink = true →
        s.txPending = false → env.applyOk = true →
        Retunes tuningDecode s (.envelope env data sink)) :=
  first_owner_lock sampleBoot firstOwner sampleBoot_booted (by decide)

/-- The second owner's tuning is refused. -/
example : ((sampleBoot.run tuningDecode firstOwner).state.step tuningDecode
    (.envelope ⟨none, true, true⟩ tuningRequest 2)).acts =
      [.frame [2] ⟨7, .error .busy []⟩] := by decide +kernel

end CommandProcessor

end MeshPigeon
