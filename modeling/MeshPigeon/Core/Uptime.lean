import MeshPigeon.Core.Budget

/-!
# The core time over a run

The 64-bit time follows from the readings of `millis()` alone, and while the
rollovers fit their 32 bits it never goes back.
-/
namespace MeshPigeon

namespace UptimeClock

/-- How often the readings of `millis()` go back, the last one before them being `last`. -/
def wraps (last : UInt32) : List UInt32 → Nat
  | [] => 0
  | now :: readings => (if now < last then 1 else 0) + wraps now readings

/-- The clock after a sequence of readings. -/
def polls (c : UptimeClock) (readings : List UInt32) : UptimeClock := readings.foldl poll c

theorem uptimeMs64_toNat (c : UptimeClock) :
    c.uptimeMs64.toNat = c.rollovers.toNat * 2 ^ 32 + c.lastMs.toNat := by
  have low := c.lastMs.toNat_lt
  have high := c.rollovers.toNat_lt
  have shifted : (c.rollovers.toUInt64 <<< 32).toNat = c.rollovers.toNat <<< 32 := by
    rw [UInt64.toNat_shiftLeft]
    show c.rollovers.toNat <<< 32 % 2 ^ 64 = _
    rw [Nat.mod_eq_of_lt]
    rw [Nat.shiftLeft_eq]
    omega
  rw [uptimeMs64, UInt64.toNat_or, shifted, UInt32.toNat_toUInt64,
    ← Nat.shiftLeft_add_eq_or_of_lt low, Nat.shiftLeft_eq]

theorem wraps_append (c : UptimeClock) (as bs : List UInt32) :
    wraps c.lastMs (as ++ bs) = wraps c.lastMs as + wraps (c.polls as).lastMs bs := by
  induction as generalizing c with
  | nil => exact (Nat.zero_add _).symm
  | cons a as ih =>
    rw [List.cons_append, wraps, wraps, Nat.add_assoc]
    exact congrArg _ (ih (c.poll a))

/-- One reading, while the rollovers fit. -/
theorem poll_later (c : UptimeClock) (now : UInt32)
    (few : c.rollovers.toNat + wraps c.lastMs [now] < 2 ^ 32) :
    (c.poll now).rollovers.toNat = c.rollovers.toNat + wraps c.lastMs [now] ∧
      c.uptimeMs64.toNat ≤ (c.poll now).uptimeMs64.toNat := by
  have low := c.lastMs.toNat_lt
  rw [uptimeMs64_toNat, uptimeMs64_toNat]
  unfold poll wraps at *
  unfold wraps at *
  dsimp only at *
  by_cases back : now < c.lastMs
  · simp only [back, if_true] at few ⊢
    have next : (c.rollovers + 1).toNat = c.rollovers.toNat + 1 := by
      rw [UInt32.toNat_add]
      exact Nat.mod_eq_of_lt few
    rw [next]
    exact ⟨rfl, by omega⟩
  · simp only [back, if_false] at few ⊢
    have forth : c.lastMs.toNat ≤ now.toNat := UInt32.not_lt.mp back
    exact ⟨rfl, by omega⟩

/-- The core time never goes back. -/
theorem polls_later (c : UptimeClock) (readings : List UInt32)
    (few : c.rollovers.toNat + wraps c.lastMs readings < 2 ^ 32) :
    (c.polls readings).rollovers.toNat = c.rollovers.toNat + wraps c.lastMs readings ∧
      c.uptimeMs64.toNat ≤ (c.polls readings).uptimeMs64.toNat := by
  induction readings generalizing c with
  | nil => exact ⟨rfl, Nat.le_refl _⟩
  | cons now readings ih =>
    have one : wraps c.lastMs (now :: readings) = wraps c.lastMs [now] + wraps now readings := rfl
    rw [one] at few ⊢
    obtain ⟨counted, later⟩ := c.poll_later now (by omega)
    have last : (c.poll now).lastMs = now := rfl
    obtain ⟨rest, latest⟩ := ih (c.poll now) (by rw [counted, last]; omega)
    rw [counted, last] at rest
    exact ⟨by rw [← Nat.add_assoc]; exact rest, Nat.le_trans later latest⟩

/-! ## The clock against the true time -/

/-- The clock stands at the true time `t`. -/
structure Shows (c : UptimeClock) (t : Nat) : Prop where
  rollovers : c.rollovers.toNat = t / 2 ^ 32
  lastMs : c.lastMs.toNat = t % 2 ^ 32

theorem Shows.uptime {c : UptimeClock} {t : Nat} (h : c.Shows t) : c.uptimeMs64.toNat = t := by
  rw [uptimeMs64_toNat, h.rollovers, h.lastMs, Nat.mul_comm, Nat.div_add_mod]

/-- A poll within 2^32 ms of the last sees whether the counter wrapped between. -/
theorem Shows.poll {c : UptimeClock} {t t' : Nat} (h : c.Shows t) (later : t ≤ t')
    (soon : t' - t < 2 ^ 32) (fits : t' < 2 ^ 64) : (c.poll (UInt32.ofNat t')).Shows t' := by
  have read : (UInt32.ofNat t').toNat = t' % 2 ^ 32 := UInt32.toNat_ofNat'
  refine ⟨?_, read⟩
  have before := h.rollovers
  unfold UptimeClock.poll
  dsimp only
  by_cases back : UInt32.ofNat t' < c.lastMs
  · rw [if_pos back, UInt32.toNat_add, before]
    rw [UInt32.lt_iff_toNat_lt, read, h.lastMs] at back
    show (t / 2 ^ 32 + 1) % 2 ^ 32 = t' / 2 ^ 32
    omega
  · rw [if_neg back, before]
    rw [UInt32.lt_iff_toNat_lt, read, h.lastMs] at back
    omega

/-- The readings of `millis()` at the true times `t 0` to `t (n - 1)`. -/
def millisAt (t : Nat → Nat) (n : Nat) : List UInt32 := (List.range n).map fun i => UInt32.ofNat (t i)

theorem polls_shows {c : UptimeClock} (start : c.Shows 0) {t : Nat → Nat} {k : Nat}
    (first : t 0 < 2 ^ 32) (steps : ∀ i < k, t i ≤ t (i + 1) ∧ t (i + 1) - t i < 2 ^ 32)
    (fits : t k < 2 ^ 64) : (c.polls (millisAt t (k + 1))).Shows (t k) := by
  have last (n : Nat) : c.polls (millisAt t (n + 1)) =
      (c.polls (millisAt t n)).poll (UInt32.ofNat (t n)) := by
    rw [millisAt, List.range_succ, List.map_append, polls, List.foldl_append]
    rfl
  induction k with
  | zero =>
    rw [last]
    exact start.poll (Nat.zero_le _) first fits
  | succ k ih =>
    obtain ⟨later, soon⟩ := steps k (Nat.lt_succ_self k)
    rw [last]
    exact (ih (fun i hi => steps i (by omega)) (by omega)).poll later soon fits

/-- The derived clock is exact along every true time polled often enough, and
never goes back while the rollovers fit their 32 bits. -/
theorem derived_clock_exact (boots : UInt32) :
    (∀ (t : Nat → Nat) (k : Nat), t 0 < 2 ^ 32 →
      (∀ i < k, t i ≤ t (i + 1) ∧ t (i + 1) - t i < 2 ^ 32) → t k < 2 ^ 64 →
      (polls { bootCount := boots } (millisAt t (k + 1))).uptimeMs64.toNat = t k) ∧
    ∀ readings more : List UInt32, wraps 0 (readings ++ more) < 2 ^ 32 →
      (polls { bootCount := boots } readings).uptimeMs64 ≤
        (polls { bootCount := boots } (readings ++ more)).uptimeMs64 := by
  constructor
  · intro t k first steps fits
    have start : Shows { bootCount := boots } 0 := ⟨rfl, rfl⟩
    exact (polls_shows start first steps fits).uptime
  · intro readings more few
    let c : UptimeClock := { bootCount := boots }
    have none : c.rollovers.toNat = 0 := rfl
    have split : wraps c.lastMs (readings ++ more) < 2 ^ 32 := few
    rw [wraps_append] at split
    obtain ⟨counted, -⟩ := c.polls_later readings (by omega)
    have later := ((c.polls readings).polls_later more (by omega)).2
    rw [UInt64.le_iff_toNat_le]
    show (c.polls readings).uptimeMs64.toNat ≤ (c.polls (readings ++ more)).uptimeMs64.toNat
    rw [polls, polls, List.foldl_append]
    exact later

/-- Three polls over the first wrap. -/
theorem derived_clock_exact_wrap :
    (polls {} (millisAt (fun i => 0xFFFFF000 + 0x2000 * i) 3)).uptimeMs64.toNat = 0x100003000 :=
  (derived_clock_exact 0).1 (fun i => 0xFFFFF000 + 0x2000 * i) 2 (by decide)
    (fun i _ => by omega) (by decide)

end UptimeClock

namespace CommandProcessor

variable {σ : Type} [SettingsStore σ] {pbDecode : List UInt8 → Option ClientToRadio}

/-- What a request does to the clock: nothing. -/
theorem Handled.clock {s : CommandProcessor σ} {env : Env} {req : ClientToRadio} {sink : Sink}
    {o : Outcome σ} (h : Handled s env req sink o) : o.state.clock = s.clock := by
  cases h with
  | answered _ _ same => rw [same]; rfl
  | @auth pin _ same =>
    obtain ⟨_, _, _, _, _, _, answers⟩ := handleAuth_answers s req.id pin sink
    rw [same, answers]
    rfl
  | retuned _ _ _ _ _ state _ | reset _ state _ =>
    rw [state]
    rfl
  | retuneFailed _ _ _ state _ | storeRefused _ _ state _ | sent _ _ _ _ state _
  | sendFailed _ _ _ _ state _ | fetched _ _ _ state _ | purged _ state _ | restarted _ state _ =>
    rw [state]
  | @written m _ _ _ _ _ written _ state _ =>
    obtain ⟨_, _, _, same⟩ := s.deviceWritten_eq m sink
    rw [state, written, same]

/-- The reading an event takes of `millis()`. -/
def reading : Event → Option UInt32
  | .poll now _ => some now
  | _ => none

/-- Only a poll moves the clock. -/
theorem step_clock (s : CommandProcessor σ) (e : Event) :
    (s.step pbDecode e).state.clock = s.clock.polls (reading e).toList := by
  cases step_stepped pbDecode s e with
  | @connected sink event same =>
    subst event
    obtain ⟨_, added, _⟩ := (s.setAuthenticated sink false).addSink_eq sink
    rw [same, added]
    rfl
  | dropped event _ same | relinked event same | disconnected event same | unheard event _ same
  | heard event _ _ _ same | ticked event _ same | finished event _ same | stale event same
  | reported event _ same | linkChanged event same =>
    subst event
    rw [same]
    rfl
  | requested event _ request handled =>
    subst event
    exact handled.clock

/-- The readings a run takes of `millis()`. -/
def readings (events : List Event) : List UInt32 := events.filterMap reading

theorem readings_append (es fs : List Event) : readings (es ++ fs) = readings es ++ readings fs :=
  List.filterMap_append

theorem run_clock (s : CommandProcessor σ) (events : List Event) :
    (s.run pbDecode events).state.clock = s.clock.polls (readings events) := by
  induction events generalizing s with
  | nil => rfl
  | cons e events ih =>
    rw [run, andThen_state, ih, step_clock]
    cases e <;> rfl

/-- The rollovers fit their 32 bits to the end of the run. -/
def FewWraps (s : CommandProcessor σ) (events : List Event) : Prop :=
  s.clock.rollovers.toNat + UptimeClock.wraps s.clock.lastMs (readings events) < 2 ^ 32

instance (s : CommandProcessor σ) (events : List Event) : Decidable (FewWraps s events) :=
  inferInstanceAs (Decidable (_ < _))

namespace FewWraps

variable {s : CommandProcessor σ} {es fs : List Event}

omit [SettingsStore σ] in
theorem front (few : FewWraps s (es ++ fs)) : FewWraps s es := by
  unfold FewWraps at *
  rw [readings_append, UptimeClock.wraps_append] at few
  omega

variable (pbDecode) in
theorem back (few : FewWraps s (es ++ fs)) : FewWraps (s.run pbDecode es).state fs := by
  obtain ⟨counted, -⟩ := UptimeClock.polls_later _ _ few.front
  unfold FewWraps at *
  rw [readings_append, UptimeClock.wraps_append] at few
  rw [run_clock, counted]
  omega

/-- In a run with few wraps the core time never goes back. -/
theorem later (few : FewWraps s fs) : s.now ≤ (s.run pbDecode fs).state.now := by
  unfold now
  rw [run_clock]
  exact (UptimeClock.polls_later _ _ few).2

variable (pbDecode) in
/-- From any point of a run to any later one. -/
theorem later_from (few : FewWraps s (es ++ fs)) :
    (s.run pbDecode es).state.now ≤ (s.run pbDecode (es ++ fs)).state.now := by
  rw [run_append]
  exact (few.back pbDecode).later

end FewWraps

end CommandProcessor

end MeshPigeon
