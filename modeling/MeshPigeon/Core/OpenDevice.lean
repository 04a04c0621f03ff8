import MeshPigeon.Core.Budget

/-!
# Whether an open device admits everyone

A device on the shipped PIN ships open. A penalty for wrong PINs is looked at
before the PIN is, so the device is open only as long as none is left over.
-/
namespace MeshPigeon.CommandProcessor

variable {σ : Type}

/-- The step leaves the PIN as open as it was, the deadline and the time. -/
structure Unmoved (s t : CommandProcessor σ) : Prop where
  open' : t.device.pinIsDefault = s.device.pinIsDefault
  until' : t.authBackoffUntil = s.authBackoffUntil
  clock : t.clock = s.clock

variable [SettingsStore σ]

/-- On the shipped PIN no penalty is open and an Auth of any connection is answered Ok. -/
structure Admits (s : CommandProcessor σ) : Prop where
  unbarred : s.device.pinIsDefault = true → s.authBackoffActive = false
  answered : s.device.pinIsDefault = true → ∀ env id pin sink,
    (s.handleRequest env ⟨id, .auth pin⟩ sink).acts = [.frame [sink] ⟨id, .ok⟩]

/-- The event leaves a device on the shipped PIN with a penalty open: a factory
reset during one, or a time that has come half way round since a deadline that
was never lifted. -/
inductive Bars (pbDecode : List UInt8 → Option ClientToRadio) (s : CommandProcessor σ) :
    Event → Prop where
  | reset {env : Env} {data : List UInt8} {sink : Sink} {req : ClientToRadio} :
      decodeEnvelope pbDecode data = some req → req.body = .factoryReset →
      s.isAuthorized sink = true → s.authBackoffActive = true →
      Bars pbDecode s (.envelope env data sink)
  | lapsed {millis : UInt32} {txDone : Bool} : s.device.pinIsDefault = true →
      s.authBackoffUntil ≠ 0 →
      2 ^ 63 ≤ ((s.clock.poll millis).uptimeMs64 - s.authBackoffUntil).toNat →
      Bars pbDecode s (.poll millis txDone)

/-- What a step does to the PIN and the penalty. -/
inductive PenaltyStep (pbDecode : List UInt8 → Option ClientToRadio) (s t : CommandProcessor σ)
    (e : Event) : Prop where
  | unmoved : Unmoved s t → PenaltyStep pbDecode s t e
  /-- the PIN was written -/
  | lifted : t.authBackoffUntil = 0 → PenaltyStep pbDecode s t e
  /-- a wrong PIN was counted -/
  | counted : t.device.pinIsDefault = false → PenaltyStep pbDecode s t e
  | ticked {millis : UInt32} {txDone : Bool} : e = .poll millis txDone →
      t.device.pinIsDefault = s.device.pinIsDefault → t.authBackoffUntil = s.authBackoffUntil →
      t.clock = s.clock.poll millis → PenaltyStep pbDecode s t e
  | reset {env : Env} {data : List UInt8} {sink : Sink} {req : ClientToRadio} :
      e = .envelope env data sink → decodeEnvelope pbDecode data = some req →
      req.body = .factoryReset → s.isAuthorized sink = true → t.device.pinIsDefault = true →
      t.authBackoffUntil = s.authBackoffUntil → t.clock = s.clock → PenaltyStep pbDecode s t e

variable {pbDecode : List UInt8 → Option ClientToRadio} {s t : CommandProcessor σ} {env : Env}
  {req : ClientToRadio} {sink : Sink}

/-- The penalty is all that can keep a connection out. -/
theorem admits_iff : s.Admits ↔ (s.device.pinIsDefault = true → s.authBackoffActive = false) := by
  refine ⟨Admits.unbarred, fun unbarred => ⟨unbarred, ?_⟩⟩
  intro default' env id pin sink
  show (s.handleAuth id pin sink).acts = _
  rw [handleAuth, unbarred default', default', Bool.or_true, Bool.true_or]
  rfl

/-! ## One step -/

omit [SettingsStore σ] in
theorem handleAuth_penalty (e : Event) (id : UInt32) (pin : CharArray (kPinMax + 1)) (sink : Sink) :
    PenaltyStep pbDecode s (s.handleAuth id pin sink).state e := by
  unfold handleAuth
  split
  · exact .unmoved ⟨rfl, rfl, rfl⟩
  split
  · exact .unmoved ⟨rfl, rfl, rfl⟩
  · rename_i wrong
    simp only [Bool.or_eq_true, not_or, Bool.not_eq_true] at wrong
    exact .counted wrong.1.2

theorem factoryReset_state (env : Env) (id : UInt32) (authorized : s.isAuthorized sink = true) :
    (s.handleRequest env ⟨id, .factoryReset⟩ sink).state =
      { s.resetDevice with response := ⟨id, .ok⟩ } := by
  rw [handleRequest]
  dsimp only
  rw [requireAuth_authorized _ _ authorized]
  simp only [andThen_state, boardAct]
  split <;> rfl

/-- Any request but a factory reset. -/
theorem Handled.penalty {o : Outcome σ} (h : Handled s env req sink o) (e : Event)
    (other : req.body ≠ .factoryReset) : PenaltyStep pbDecode s o.state e := by
  have same {u : CommandProcessor σ} (state : o.state = u) (unmoved : Unmoved s u) :
      PenaltyStep pbDecode s o.state e := .unmoved (state ▸ unmoved)
  cases h with
  | answered _ _ answer => exact same (congrArg Outcome.state answer) ⟨rfl, rfl, rfl⟩
  | @auth pin _ answer =>
    rw [answer]
    exact handleAuth_penalty e req.id pin sink
  | reset body _ _ => exact absurd body other
  | retuneFailed _ _ _ state _ | fetched _ _ _ state _ => exact same state ⟨rfl, rfl, rfl⟩
  | retuned _ _ _ _ _ state _ => exact same state ⟨rfl, rfl, rfl⟩
  | storeRefused _ _ state _ => exact same state ⟨rfl, rfl, rfl⟩
  | sent _ _ _ _ state _ | sendFailed _ _ _ _ state _ => exact same state ⟨rfl, rfl, rfl⟩
  | purged _ state _ | restarted _ state _ => exact same state ⟨rfl, rfl, rfl⟩
  | @written m _ _ _ _ _ written _ state _ =>
    subst written
    cases hpin : m.pin with
    | some pin =>
      refine .lifted ?_
      rw [state]
      simp [deviceWritten, moveSessions, hpin]
    | none =>
      have device : (candidate s.device m).pin = s.device.pin := by simp [candidate, hpin]
      simp only [deviceWritten, hpin, Option.isSome_none, Bool.false_eq_true, if_false] at state
      refine same state ⟨?_, rfl, rfl⟩
      show (candidate s.device m).pinIsDefault = _
      rw [DeviceSettings.pinIsDefault, device]
      rfl

theorem step_penalty (s : CommandProcessor σ) (e : Event) :
    PenaltyStep pbDecode s (s.step pbDecode e).state e := by
  cases step_stepped pbDecode s e with
  | @connected sink _ same =>
    obtain ⟨_, added, _⟩ := (s.setAuthenticated sink false).addSink_eq sink
    rw [same, added]
    exact .unmoved ⟨rfl, rfl, rfl⟩
  | @requested env data sink req event decoded request handled =>
    by_cases body : req.body = .factoryReset
    · by_cases authorized : s.isAuthorized sink = true
      · obtain ⟨id, _⟩ := req
        subst body
        rw [request, factoryReset_state env id authorized]
        exact .reset event decoded rfl authorized DeviceSettings.defaults_pinIsDefault rfl rfl
      · rw [request, handleRequest, body]
        dsimp only
        rw [requireAuth_stranger _ _ (Bool.eq_false_iff.mpr authorized)]
        exact .unmoved ⟨rfl, rfl, rfl⟩
    · exact handled.penalty e body
  | ticked event _ same | finished event _ same =>
    rw [same]
    exact .ticked event rfl rfl rfl
  | relinked _ same | disconnected _ same | dropped _ _ same | unheard _ _ same
  | heard _ _ _ _ same | stale _ same | reported _ _ same | linkChanged _ same =>
    rw [same]
    exact .unmoved ⟨rfl, rfl, rfl⟩

omit [SettingsStore σ] in
theorem authBackoffActive_congr (until' : t.authBackoffUntil = s.authBackoffUntil)
    (clock : t.clock = s.clock) : t.authBackoffActive = s.authBackoffActive := by
  rw [authBackoffActive, authBackoffActive, until', clock]

/-- A device that admits everyone goes on admitting, but for the two events. -/
theorem Admits.step (h : s.Admits) {e : Event} (spared : ¬Bars pbDecode s e) :
    (s.step pbDecode e).state.Admits := by
  rw [admits_iff]
  intro default'
  have moved : PenaltyStep pbDecode s (s.step pbDecode e).state e := step_penalty s e
  cases moved with
  | unmoved unmoved =>
    rw [authBackoffActive_congr unmoved.until' unmoved.clock]
    exact h.unbarred (unmoved.open' ▸ default')
  | lifted none =>
    rw [authBackoffActive, none]
    rfl
  | counted locked =>
    rw [locked] at default'
    cases default'
  | ticked event same until' clock =>
    subst event
    rw [same] at default'
    rw [Bool.eq_false_iff, ne_eq, authBackoffActive_iff, until', clock]
    rintro ⟨some, round⟩
    exact spared (.lapsed default' some round)
  | reset event decoded body authorized _ until' clock =>
    subst event
    rw [authBackoffActive_congr until' clock, Bool.eq_false_iff]
    exact fun open' => spared (.reset decoded body authorized open')

/-- After one of the two the penalty keeps everyone out. -/
theorem Bars.not_admits {e : Event} (h : Bars pbDecode s e) :
    ¬(s.step pbDecode e).state.Admits := by
  intro admits
  cases h with
  | @reset env data sink req decoded body authorized penalty =>
    obtain ⟨id, _⟩ := req
    subst body
    have state : (s.step pbDecode (.envelope env data sink)).state =
        { s.resetDevice with response := ⟨id, .ok⟩ } := by
      rw [CommandProcessor.step, onEnvelope, decoded]
      exact factoryReset_state env id authorized
    rw [state] at admits
    have unbarred : s.authBackoffActive = false :=
      admits.unbarred DeviceSettings.defaults_pinIsDefault
    rw [penalty] at unbarred
    cases unbarred
  | @lapsed millis txDone default' some round =>
    have ticked : (s.step pbDecode (.poll millis txDone)).state.device = s.device ∧
        (s.step pbDecode (.poll millis txDone)).state.authBackoffUntil = s.authBackoffUntil ∧
        (s.step pbDecode (.poll millis txDone)).state.clock = s.clock.poll millis := by
      cases step_stepped pbDecode s (.poll millis txDone) with
      | ticked event _ same | finished event _ same =>
        cases event
        rw [same]
        exact ⟨rfl, rfl, rfl⟩
      | _ event => cases event
    obtain ⟨device, until', clock⟩ := ticked
    have barred : (s.step pbDecode (.poll millis txDone)).state.authBackoffActive = true := by
      rw [authBackoffActive_iff, until', clock]
      exact ⟨some, round⟩
    rw [admits.unbarred (device ▸ default')] at barred
    cases barred

/-! ## Whole runs -/

theorem booted_admits {s₀ : CommandProcessor σ} (boot : Booted s₀) : s₀.Admits := by
  obtain ⟨_, _, _, _, _, _, _, _, rfl⟩ := boot
  exact admits_iff.mpr fun _ => rfl

/-- **When an open device admits everyone.** In every run from boot: in every
state it goes through that has the shipped PIN no penalty is open and an Auth of
any connection is answered Ok, if and only if no factory reset is accepted while
a penalty is open, and no poll of a device on the shipped PIN brings the core
time half way round past a deadline that was never lifted. -/
theorem open_admits_iff (pbDecode : List UInt8 → Option ClientToRadio) {s₀ : CommandProcessor σ}
    (boot : Booted s₀) (events : List Event) :
    (∀ pre post, events = pre ++ post → (s₀.run pbDecode pre).state.Admits) ↔
      ∀ pre e post, events = pre ++ e :: post → ¬Bars pbDecode (s₀.run pbDecode pre).state e := by
  constructor
  · intro admits pre e post split bars
    apply bars.not_admits
    have after := admits (pre ++ [e]) post (by rw [split]; simp)
    rwa [run_concat, andThen_state] at after
  · intro spared pre
    induction pre using List.reverseRecOn with
    | nil => exact fun _ _ => booted_admits boot
    | append_singleton pre e ih =>
      intro post split
      rw [List.append_assoc, List.singleton_append] at split
      rw [run_concat, andThen_state]
      exact (ih (e :: post) split).step (spared pre e post split)

/-- The samples, and a factory reset. -/
def resetDecode (data : List UInt8) : Option ClientToRadio :=
  if data = [0x08, 0x07, 0x72, 0x00] then some ⟨7, .factoryReset⟩ else sampleDecode data

def resetEvent (sink : Sink) : Event :=
  .envelope ⟨none, true, true⟩ [0x08, 0x07, 0x72, 0x00] sink

/-- One connection logs in, another guesses the PIN `n` times, the first resets the device. -/
def guessedThenReset (n : Nat) : List Event :=
  [.connect 1, .connect 2, sampleEvent 0 1] ++ List.replicate n (sampleEvent 1 2) ++ [resetEvent 1]

/-- The fourth guess opens a penalty that outlives the reset. -/
theorem reset_keeps_penalty :
    let s := (sampleBoot.run resetDecode (guessedThenReset 4)).state
    s.device.pinIsDefault = true ∧ s.authBackoffActive = true ∧
      (s.handleRequest ⟨none, true, true⟩ ⟨1, .auth samplePin⟩ 2).acts =
        [.frame [2] ⟨1, .error .authRequired []⟩] ∧ ¬s.Admits := by
  have barred : (sampleBoot.run resetDecode (guessedThenReset 4)).state.device.pinIsDefault = true ∧
      (sampleBoot.run resetDecode (guessedThenReset 4)).state.authBackoffActive = true ∧
      ((sampleBoot.run resetDecode (guessedThenReset 4)).state.handleRequest ⟨none, true, true⟩
        ⟨1, .auth samplePin⟩ 2).acts = [.frame [2] ⟨1, .error .authRequired []⟩] := by
    decide +kernel
  refine ⟨barred.1, barred.2.1, barred.2.2, fun admits => ?_⟩
  have unbarred := admits.unbarred barred.1
  rw [barred.2.1] at unbarred
  cases unbarred

theorem open_admits_iff_three_guesses :
    (∀ pre post, guessedThenReset 3 = pre ++ post →
      (sampleBoot.run resetDecode pre).state.Admits) ↔
      ∀ pre e post, guessedThenReset 3 = pre ++ e :: post →
        ¬Bars resetDecode (sampleBoot.run resetDecode pre).state e :=
  open_admits_iff resetDecode sampleBoot_booted (guessedThenReset 3)

end MeshPigeon.CommandProcessor
