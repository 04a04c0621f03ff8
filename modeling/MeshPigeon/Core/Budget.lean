import MeshPigeon.Core.Handled
import MeshPigeon.Lib.Spacing

/-! The budget of wrong PINs, one for the whole device. -/
namespace MeshPigeon.CommandProcessor

variable {σ : Type}

/-- `uptime_ms64()` as a number. -/
def now (s : CommandProcessor σ) : Nat := s.clock.uptimeMs64.toNat

/-- An Auth is compared and found wrong. -/
def comparesWrong (s : CommandProcessor σ) (body : Request) (sink : Sink) : Bool :=
  match body with
  | .auth pin => !s.authBackoffActive &&
      !(s.authenticated sink || s.device.pinIsDefault || s.pinMatches pin.1 pin.strlen)
  | _ => false

/-- An Auth succeeds. -/
def succeeds (s : CommandProcessor σ) (body : Request) (sink : Sink) : Bool :=
  match body with
  | .auth pin => !s.authBackoffActive &&
      (s.authenticated sink || s.device.pinIsDefault || s.pinMatches pin.1 pin.strlen)
  | _ => false

variable [SettingsStore σ]

def wrongAt (pbDecode : List UInt8 → Option ClientToRadio) (s : CommandProcessor σ) : Event → Bool
  | .envelope _ data sink =>
    (decodeEnvelope pbDecode data).any fun req => s.comparesWrong req.body sink
  | _ => false

/-- The core times at which a PIN was compared and found wrong. -/
def attempts (pbDecode : List UInt8 → Option ClientToRadio) (s : CommandProcessor σ) :
    List Event → List Nat
  | [] => []
  | e :: es => (if s.wrongAt pbDecode e then [s.now] else []) ++
      attempts pbDecode (s.step pbDecode e).state es

/-- What starts the budget over: a successful Auth, an accepted write of the
PIN, a factory reset. -/
def Renews (pbDecode : List UInt8 → Option ClientToRadio) (s : CommandProcessor σ) (e : Event) :
    Prop :=
  ∃ env data sink req, e = .envelope env data sink ∧ decodeEnvelope pbDecode data = some req ∧
    (s.succeeds req.body sink = true ∨
      (∃ m, req.body = .setDeviceSettings m ∧ m.pin.isSome = true ∧ AcceptsDevice s env m sink) ∨
      (req.body = .factoryReset ∧ s.isAuthorized sink = true))

/-- Nothing in the stretch starts the budget over. -/
def Stretch (pbDecode : List UInt8 → Option ClientToRadio) (s : CommandProcessor σ)
    (events : List Event) : Prop :=
  ∀ pre e post, events = pre ++ e :: post → ¬Renews pbDecode (s.run pbDecode pre).state e

/-- The 64 bits of the core time do not run over. -/
def Unwrapped (pbDecode : List UInt8 → Option ClientToRadio) (s : CommandProcessor σ)
    (events : List Event) : Prop :=
  ∀ pre millis txDone post, events = pre ++ .poll millis txDone :: post →
    (s.run pbDecode pre).state.now ≤ ((s.run pbDecode pre).state.ticked millis).now

/-- At this core time the deadline of a penalty would be 0, which stands for none. -/
def unguarded : Nat := 2 ^ 64 - 1000

/-! ## One step -/

/-- The step compares no PIN and leaves the counter and the deadline. -/
structure Uncounted (s t : CommandProcessor σ) : Prop where
  fails : t.authFails = s.authFails
  until' : t.authBackoffUntil = s.authBackoffUntil

variable {pbDecode : List UInt8 → Option ClientToRadio} {s : CommandProcessor σ} {env : Env}
  {req : ClientToRadio} {sink : Sink}

/-- Any request but an Auth, unless it is accepted as a write of the PIN. -/
theorem Handled.uncounted {o : Outcome σ} (h : Handled s env req sink o)
    (other : ∀ pin, req.body ≠ .auth pin)
    (unwritten : ∀ m, req.body = .setDeviceSettings m → AcceptsDevice s env m sink → m.pin = none) :
    Uncounted s o.state ∧ o.state.clock = s.clock := by
  have same {u : CommandProcessor σ} (state : o.state = u) (fails : u.authFails = s.authFails)
      (deadline : u.authBackoffUntil = s.authBackoffUntil) (clock : u.clock = s.clock) :
      Uncounted s o.state ∧ o.state.clock = s.clock :=
    ⟨⟨(congrArg _ state).trans fails, (congrArg _ state).trans deadline⟩,
      (congrArg _ state).trans clock⟩
  cases h with
  | answered _ _ answer => exact same (congrArg Outcome.state answer) rfl rfl rfl
  | @auth pin body _ => exact absurd body (other pin)
  | retuneFailed _ _ _ state _ | retuned _ _ _ _ _ state _ | storeRefused _ _ state _
  | sent _ _ _ _ state _ | sendFailed _ _ _ _ state _ | fetched _ _ _ state _ | purged _ state _
  | restarted _ state _ | reset _ state _ => exact same state rfl rfl rfl
  | @written m _ _ body accepts _ written _ state _ =>
    have pinless := unwritten m body accepts
    subst written
    unfold deviceWritten at state
    rw [pinless] at state
    exact same state rfl rfl rfl

/-- An Auth that does not succeed: a wrong PIN is counted, and during a penalty
nothing is compared. -/
theorem auth_step (body : ∃ pin, req.body = .auth pin)
    (fails : s.succeeds req.body sink = false) :
    (s.comparesWrong req.body sink = true ∧ ∃ response,
      (s.handleRequest env req sink).state = { s.noteAuthFailure with response := response }) ∨
    (s.comparesWrong req.body sink = false ∧
      s.handleRequest env req sink = s.answer ⟨req.id, .error .authRequired []⟩ sink) := by
  obtain ⟨pin, body⟩ := body
  have handled : s.handleRequest env req sink = s.handleAuth req.id pin sink := by
    rw [handleRequest, body]
  simp only [succeeds, body] at fails
  simp only [comparesWrong, body]
  rw [handled, handleAuth]
  cases penalty : s.authBackoffActive with
  | true => exact .inr ⟨rfl, rfl⟩
  | false =>
    rw [penalty, Bool.not_false, Bool.true_and] at fails
    rw [fails]
    exact .inl ⟨rfl, ⟨req.id, .error .authRequired []⟩, rfl⟩

/-- What a step of a stretch does to the budget. -/
inductive Counted (s t : CommandProcessor σ) (e : Event) (wrong : Bool) : Prop where
  | wrong {response : RadioToClient} : wrong = true → s.authBackoffActive = false →
      t = { s.noteAuthFailure with response := response } → Counted s t e wrong
  | ticked {millis : UInt32} {txDone : Bool} : wrong = false → e = .poll millis txDone →
      Uncounted s t → t.clock = s.clock.poll millis → Counted s t e wrong
  | other : wrong = false → Uncounted s t → t.clock = s.clock → Counted s t e wrong

theorem step_counted (e : Event) (stretch : ¬Renews pbDecode s e) :
    Counted s (s.step pbDecode e).state e (s.wrongAt pbDecode e) := by
  cases step_stepped pbDecode s e with
  | @connected sink event same =>
    subst event
    rw [same]
    obtain ⟨_, added, _⟩ := (s.setAuthenticated sink false).addSink_eq sink
    rw [added]
    exact .other rfl ⟨rfl, rfl⟩ rfl
  | dropped event undecoded same =>
    subst event
    rw [same, wrongAt, undecoded]
    exact .other rfl ⟨rfl, rfl⟩ rfl
  | @requested env data sink req event decoded request handled =>
    subst event
    rw [wrongAt, decoded, Option.any_some]
    by_cases auth : ∃ pin, req.body = .auth pin
    · have fails : s.succeeds req.body sink = false :=
        Bool.eq_false_iff.mpr fun success =>
          stretch ⟨env, data, sink, req, rfl, decoded, .inl success⟩
      rw [request]
      rcases auth_step auth fails with ⟨wrong, response, state⟩ | ⟨spared, answer⟩
      · refine .wrong wrong ?_ state
        obtain ⟨pin, body⟩ := auth
        simp only [comparesWrong, body, Bool.and_eq_true, Bool.not_eq_true'] at wrong
        exact wrong.1
      · rw [answer]
        exact .other spared ⟨rfl, rfl⟩ rfl
    · simp only [not_exists] at auth
      have spared : s.comparesWrong req.body sink = false := by
        unfold comparesWrong
        split
        · rename_i pin body
          exact absurd body (auth pin)
        · rfl
      obtain ⟨uncounted, clock⟩ := handled.uncounted auth
        fun m body accepts => Option.not_isSome_iff_eq_none.mp fun set =>
          stretch ⟨env, data, sink, req, rfl, decoded, .inr (.inl ⟨m, body, set, accepts⟩)⟩
      exact .other spared uncounted clock
  | ticked event _ same | finished event _ same =>
    subst event
    rw [same]
    exact .ticked rfl rfl ⟨rfl, rfl⟩ rfl
  | relinked event same | disconnected event same | unheard event _ same | heard event _ _ _ same
  | stale event same | reported event _ same | linkChanged event same =>
    subst event
    rw [same]
    exact .other rfl ⟨rfl, rfl⟩ rfl

omit [SettingsStore σ] in
/-- A penalty is open while the time is less than half way round past its deadline. -/
theorem authBackoffActive_iff : s.authBackoffActive = true ↔
    s.authBackoffUntil ≠ 0 ∧ 2 ^ 63 ≤ (s.clock.uptimeMs64 - s.authBackoffUntil).toNat := by
  have negative : (s.clock.uptimeMs64 - s.authBackoffUntil).toInt64 < 0 ↔
      2 ^ 63 ≤ (s.clock.uptimeMs64 - s.authBackoffUntil).toNat := by
    rw [Int64.lt_iff_toInt_lt]
    show (s.clock.uptimeMs64 - s.authBackoffUntil).toBitVec.toInt < 0 ↔ _
    rw [BitVec.toInt_neg_iff]
    show 2 ^ 64 ≤ 2 * (s.clock.uptimeMs64 - s.authBackoffUntil).toNat ↔ _
    omega
  rw [authBackoffActive, Bool.and_eq_true, decide_eq_true_iff, decide_eq_true_iff, negative]

omit [SettingsStore σ] in
/-- Within a second after a counted attempt at `t` its penalty is open. -/
theorem penalty_open {t : Nat} (deadline : s.authBackoffUntil = UInt64.ofNat t + 1000)
    (small : t < 2 ^ 64) (guarded : t ≠ unguarded) (past : t ≤ s.now) (soon : s.now < t + 1000) :
    s.authBackoffActive = true := by
  have word : s.authBackoffUntil.toNat = (t + 1000) % 2 ^ 64 := by
    rw [deadline, UInt64.toNat_add, UInt64.toNat_ofNat_of_lt' small]
    rfl
  have bound : s.now < 2 ^ 64 := s.clock.uptimeMs64.toNat_lt
  have some : s.authBackoffUntil ≠ 0 := by
    intro zero
    rw [zero, UInt64.toNat_zero] at word
    unfold unguarded at guarded
    omega
  rw [authBackoffActive_iff]
  refine ⟨some, ?_⟩
  rw [UInt64.toNat_sub, word]
  change 2 ^ 63 ≤ (2 ^ 64 - (t + 1000) % 2 ^ 64 + s.now) % 2 ^ 64
  omega

/-! ## A stretch -/

/-- The attempts so far against the counter and the deadline. -/
structure Budgeted (s : CommandProcessor σ) (ts : List Nat) : Prop where
  spaced : Spacing.From 3 1000 ts
  past : ∀ t ∈ ts, t ≤ s.now
  counted : min ts.length 255 ≤ s.authFails.toNat
  deadline : 4 ≤ ts.length → ∀ t, ts.getLast? = some t → s.authBackoffUntil = UInt64.ofNat t + 1000

omit [SettingsStore σ] in
theorem Budgeted.uncounted {t : CommandProcessor σ} {ts : List Nat} (h : Budgeted s ts)
    (same : Uncounted s t) (later : s.now ≤ t.now) : Budgeted t ts := by
  refine ⟨h.spaced, fun a ha => Nat.le_trans (h.past a ha) later, ?_, ?_⟩
  · rw [same.fails]
    exact h.counted
  · rw [same.until']
    exact h.deadline

omit [SettingsStore σ] in
theorem noteAuthFailure_counts (s : CommandProcessor σ) {n : Nat} (h : min n 255 ≤ s.authFails.toNat) :
    min (n + 1) 255 ≤ s.noteAuthFailure.authFails.toNat := by
  have bound := s.authFails.toNat_lt
  unfold noteAuthFailure
  dsimp only
  split
  · rename_i below
    have below := UInt8.lt_iff_toNat_lt.mp below
    change s.authFails.toNat < 255 at below
    rw [UInt8.toNat_add]
    change min (n + 1) 255 ≤ (s.authFails.toNat + 1) % 256
    omega
  · rename_i full
    have full := mt UInt8.lt_iff_toNat_lt.mpr full
    change ¬s.authFails.toNat < 255 at full
    omega

omit [SettingsStore σ] in
theorem noteAuthFailure_until (s : CommandProcessor σ) (h : 4 ≤ s.noteAuthFailure.authFails.toNat) :
    s.noteAuthFailure.authBackoffUntil = UInt64.ofNat s.now + 1000 := by
  unfold noteAuthFailure at h ⊢
  dsimp only at h ⊢
  rw [if_pos, now, UInt64.ofNat_toNat]
  · rfl
  · rw [gt_iff_lt, UInt8.lt_iff_toNat_lt]
    exact h

omit [SettingsStore σ] in
/-- One more attempt, compared because no penalty was open. -/
theorem Budgeted.wrong {ts : List Nat} (h : Budgeted s ts) (guarded : ∀ t ∈ ts, t ≠ unguarded)
    (closed : s.authBackoffActive = false) (response : RadioToClient) :
    Budgeted { s.noteAuthFailure with response := response } (ts ++ [s.now]) := by
  have counted := s.noteAuthFailure_counts h.counted
  constructor
  · apply h.spaced.snoc
    intro enough last hlast
    have mem := List.mem_of_getLast? hlast
    apply Nat.le_of_not_lt
    intro soon
    have open' := penalty_open (h.deadline enough last hlast)
      (Nat.lt_of_le_of_lt (h.past last mem) s.clock.uptimeMs64.toNat_lt) (guarded last mem)
      (h.past last mem) soon
    rw [open'] at closed
    cases closed
  · intro t ht
    rcases List.mem_append.mp ht with before | this
    · exact h.past t before
    · rw [List.mem_singleton.mp this]
      exact Nat.le_refl _
  · rw [List.length_append, List.length_singleton]
    exact counted
  · intro enough t last
    rw [List.getLast?_append, List.getLast?_singleton, Option.some_or] at last
    obtain rfl := Option.some.inj last
    rw [List.length_append, List.length_singleton] at enough
    exact s.noteAuthFailure_until (by omega)

theorem attempts_concat (s : CommandProcessor σ) (es : List Event) (e : Event) :
    attempts pbDecode s (es ++ [e]) = attempts pbDecode s es ++
      if (s.run pbDecode es).state.wrongAt pbDecode e then [(s.run pbDecode es).state.now]
      else [] := by
  induction es generalizing s with
  | nil => exact List.append_nil _
  | cons e' es ih =>
    rw [List.cons_append, attempts, ih, attempts, List.append_assoc]
    rfl

/-- No attempt is compared at the one core time whose deadline would be 0. -/
def Guarded (pbDecode : List UInt8 → Option ClientToRadio) (s : CommandProcessor σ)
    (events : List Event) : Prop := unguarded ∉ attempts pbDecode s events

theorem run_budgeted {events : List Event} (stretch : Stretch pbDecode s events)
    (unwrapped : Unwrapped pbDecode s events) (guarded : Guarded pbDecode s events) :
    Budgeted (s.run pbDecode events).state (attempts pbDecode s events) := by
  induction events using List.reverseRecOn with
  | nil => exact ⟨Spacing.from_nil, nofun, Nat.zero_le _, nofun⟩
  | append_singleton events e ih =>
    rw [Guarded, attempts_concat] at guarded
    have guarded' : unguarded ∉ attempts pbDecode s events :=
      fun h => guarded (List.mem_append_left _ h)
    have before := ih
      (fun pre e' post split => stretch pre e' (post ++ [e]) (by rw [split]; simp))
      (fun pre millis txDone post split =>
        unwrapped pre millis txDone (post ++ [e]) (by rw [split]; simp)) guarded'
    rw [run_concat, attempts_concat, andThen_state]
    cases step_counted e (stretch events e [] rfl) with
    | wrong wrong closed state =>
      rw [wrong, if_pos rfl, state]
      exact before.wrong (fun t ht same => guarded' (same ▸ ht)) closed _
    | ticked spared poll uncounted clock =>
      rw [spared, if_neg (by decide), List.append_nil]
      apply before.uncounted uncounted
      have later := unwrapped events _ _ [] (congrArg (events ++ [·]) poll)
      rw [now, now, clock]
      exact later
    | other spared uncounted clock =>
      rw [spared, if_neg (by decide), List.append_nil]
      apply before.uncounted uncounted
      rw [now, now, clock]

/-- **The budget of wrong PINs does not leak.** In every stretch of a run that
nothing starts over, from any state and over any connections: from the fourth
compared wrong PIN on the next one is compared a second later at the earliest,
so their number by any time is bounded, within that second a penalty is open,
and while one is open every Auth is answered unread and changes nothing but the
response. This is while the core time does not run over, and unless a PIN was
compared at the one core time whose deadline would be 0. -/
theorem pin_budget (pbDecode : List UInt8 → Option ClientToRadio) (s : CommandProcessor σ)
    (events : List Event) (stretch : Stretch pbDecode s events)
    (unwrapped : Unwrapped pbDecode s events) (guarded : Guarded pbDecode s events) :
    Spacing.From 3 1000 (attempts pbDecode s events) ∧
    (∀ t4 t, (attempts pbDecode s events)[3]? = some t4 → t4 ≤ t →
      (attempts pbDecode s events).countP (· ≤ t) ≤ 4 + (t - t4) / 1000) ∧
    (∀ last, 4 ≤ (attempts pbDecode s events).length →
      (attempts pbDecode s events).getLast? = some last →
      (s.run pbDecode events).state.now < last + 1000 →
      (s.run pbDecode events).state.authBackoffActive = true) ∧
    ∀ env data sink req pin, decodeEnvelope pbDecode data = some req → req.body = .auth pin →
      (s.run pbDecode events).state.authBackoffActive = true →
      (s.run pbDecode events).state.step pbDecode (.envelope env data sink) =
        (s.run pbDecode events).state.answer ⟨req.id, .error .authRequired []⟩ sink := by
  have budget := run_budgeted stretch unwrapped guarded
  refine ⟨budget.spaced, ?_, ?_, ?_⟩
  · intro t4 t fourth le
    exact budget.spaced.count_le (by decide) fourth le
  · intro last enough hlast soon
    have mem := List.mem_of_getLast? hlast
    exact penalty_open (budget.deadline enough last hlast)
      (Nat.lt_of_le_of_lt (budget.past last mem) (UInt64.toNat_lt _))
      (fun same => guarded (same ▸ mem)) (budget.past last mem) soon
  · intro env data sink req pin decoded body penalty
    rw [step, onEnvelope, decoded]
    dsimp only
    rw [handleRequest, body]
    dsimp only
    rw [handleAuth, penalty, if_pos rfl, sendError_eq]

/-- Five wrong PINs from one connection. -/
def fiveWrong : List Event := List.replicate 5 (sampleEvent 1 1)

theorem fiveWrong_split {pre post : List Event} {e : Event} (h : fiveWrong = pre ++ e :: post) :
    e = sampleEvent 1 1 ∧ ∃ k < 5, pre = List.replicate k (sampleEvent 1 1) := by
  have all : ∀ a ∈ pre ++ e :: post, a = sampleEvent 1 1 := by
    rw [← h]
    exact fun a ha => List.eq_of_mem_replicate ha
  have length := congrArg List.length h
  rw [fiveWrong, List.length_replicate, List.length_append, List.length_cons] at length
  exact ⟨all e (by simp), pre.length, by omega,
    List.eq_replicate_of_mem fun a ha => all a (List.mem_append_left _ ha)⟩

/-- Wrong PINs start nothing over while they are found wrong. -/
theorem fiveWrong_stretch {s : CommandProcessor MemorySettingsStore}
    (wrong : ∀ k < 5, (s.run sampleDecode (List.replicate k (sampleEvent 1 1))).state.succeeds
      (.auth (copyStr kPinMax [0x34, 0x33, 0x32, 0x31])) 1 = false) :
    Stretch sampleDecode s fiveWrong := by
  rintro pre e post split ⟨env, data, sink, req, rfl, decoded, renews⟩
  obtain ⟨event, k, few, rfl⟩ := fiveWrong_split split
  obtain ⟨rfl, rfl, rfl⟩ := Event.envelope.inj event
  have guess : decodeEnvelope sampleDecode ((samples.map Prod.fst).getD 1 []) =
      some ⟨2, .auth (copyStr kPinMax [0x34, 0x33, 0x32, 0x31])⟩ := by decide
  obtain rfl := Option.some.inj (guess.symm.trans decoded)
  rcases renews with success | ⟨m, body, _⟩ | ⟨body, _⟩
  · rw [wrong k few] at success
    cases success
  · cases body
  · cases body

/-- Five wrong PINs at boot: the fifth meets the penalty the fourth opened. -/
theorem pin_budget_five_wrong :
    Spacing.From 3 1000 (attempts sampleDecode sampleBoot fiveWrong) ∧
    (∀ t4 t, (attempts sampleDecode sampleBoot fiveWrong)[3]? = some t4 → t4 ≤ t →
      (attempts sampleDecode sampleBoot fiveWrong).countP (· ≤ t) ≤ 4 + (t - t4) / 1000) ∧
    (∀ last, 4 ≤ (attempts sampleDecode sampleBoot fiveWrong).length →
      (attempts sampleDecode sampleBoot fiveWrong).getLast? = some last →
      (sampleBoot.run sampleDecode fiveWrong).state.now < last + 1000 →
      (sampleBoot.run sampleDecode fiveWrong).state.authBackoffActive = true) ∧
    ∀ env data sink req pin, decodeEnvelope sampleDecode data = some req → req.body = .auth pin →
      (sampleBoot.run sampleDecode fiveWrong).state.authBackoffActive = true →
      (sampleBoot.run sampleDecode fiveWrong).state.step sampleDecode (.envelope env data sink) =
        (sampleBoot.run sampleDecode fiveWrong).state.answer
          ⟨req.id, .error .authRequired []⟩ sink :=
  pin_budget sampleDecode sampleBoot fiveWrong (fiveWrong_stretch (by decide +kernel))
    (by
      intro pre millis txDone post split
      cases (fiveWrong_split split).1)
    (by
      unfold Guarded
      decide +kernel)

/-! ## The one core time without a penalty -/

/-- `millis()` runs over `n` times. -/
def rollovers (n : Nat) : List Event :=
  (List.replicate n [Event.poll 1 false, Event.poll 0 false]).flatten

/-- A poll that finds nothing finished. -/
theorem poll_idle (pbDecode : List UInt8 → Option ClientToRadio) (s : CommandProcessor σ)
    (millis : UInt32) : (s.step pbDecode (.poll millis false)).state = s.ticked millis := by
  rw [step, poll_eq, Bool.and_false]
  rfl

theorem run_rollovers (pbDecode : List UInt8 → Option ClientToRadio) (n : Nat)
    (s : CommandProcessor σ) (start : s.clock.lastMs = 0) :
    (s.run pbDecode (rollovers n)).state =
      { s with clock := { s.clock with rollovers := s.clock.rollovers + UInt32.ofNat n } } := by
  induction n generalizing s with
  | zero => simp [rollovers, run]
  | succ n ih =>
    have once : (s.run pbDecode [.poll 1 false, .poll 0 false]).state =
        { s with clock := { s.clock with rollovers := s.clock.rollovers + 1 } } := by
      change ((s.step pbDecode (.poll 1 false)).state.step pbDecode (.poll 0 false)).state = _
      have wrapped : (s.clock.poll 1).poll 0 =
          { s.clock with rollovers := s.clock.rollovers + 1 } := by
        simp [UptimeClock.poll, start]
      rw [poll_idle, poll_idle, ← wrapped]
      rfl
    have split : rollovers (n + 1) = [.poll 1 false, .poll 0 false] ++ rollovers n := rfl
    have more : s.clock.rollovers + 1 + UInt32.ofNat n =
        s.clock.rollovers + UInt32.ofNat (n + 1) := by
      rw [UInt32.ofNat_add, UInt32.add_assoc, UInt32.add_comm 1]
      rfl
    rw [split, run_append, andThen_state, once,
      ih { s with clock := { s.clock with rollovers := s.clock.rollovers + 1 } } start, ← more]

/-- The core time is a second short of running over. -/
def lastGasp : List Event := rollovers (2 ^ 32 - 1) ++ [.poll 4294966296 false]

/-- A device that reaches the core time 2^64 - 1000 compares five wrong PINs in one tick. -/
theorem pin_budget_unguarded :
    Reachable sampleDecode (sampleBoot.run sampleDecode lastGasp).state ∧
    Stretch sampleDecode (sampleBoot.run sampleDecode lastGasp).state fiveWrong ∧
    ¬Spacing.From 3 1000
      (attempts sampleDecode (sampleBoot.run sampleDecode lastGasp).state fiveWrong) := by
  have state : (sampleBoot.run sampleDecode lastGasp).state =
      { sampleBoot with clock := ⟨4294966296, 4294967295, 0⟩ } := by
    rw [lastGasp, run_append, andThen_state, run_rollovers _ _ _ rfl]
    change (step sampleDecode _ (.poll 4294966296 false)).state = _
    rw [poll_idle]
    rfl
  rw [state]
  refine ⟨?_, fiveWrong_stretch (by decide +kernel), ?_⟩
  · rw [← state]
    exact ⟨sampleBoot, lastGasp, sampleBoot_booted, rfl⟩
  · intro spaced
    have times : attempts sampleDecode { sampleBoot with clock := ⟨4294966296, 4294967295, 0⟩ }
        fiveWrong = List.replicate 5 unguarded := by decide +kernel
    rw [times] at spaced
    have := spaced 3 unguarded unguarded (Nat.le_refl 3) rfl rfl
    omega

end MeshPigeon.CommandProcessor
