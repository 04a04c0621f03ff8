import MeshPigeon.Core.Handled

/-!
# Sessions

A flag belongs to whoever proved the PIN in force.
-/
namespace MeshPigeon.CommandProcessor

variable {σ : Type}

/-- The step moves no flag and no PIN, and registers nobody. -/
structure Keeps (s t : CommandProcessor σ) : Prop where
  flags : t.authenticated = s.authenticated
  device : t.device = s.device
  sinks : ∀ c ∈ t.sinks, c ∈ s.sinks

/-- The flag was set before, by a connection that is still the same, under the same PIN. -/
def Carried (s t : CommandProcessor σ) (e : Event) (c : Sink) : Prop :=
  t.device.pin.str = s.device.pin.str ∧ c ∈ s.sinks ∧ s.authenticated c = true ∧
    e ≠ .connect c ∧ e ≠ .relink c

theorem Keeps.carried {s t : CommandProcessor σ} {c : Sink} (h : Keeps s t) {e : Event}
    (registered : c ∈ t.sinks) (flag : t.authenticated c = true) (same : e ≠ .connect c)
    (same' : e ≠ .relink c) : Carried s t e c := by
  refine ⟨by rw [h.device], h.sinks c registered, ?_, same, same'⟩
  rw [← h.flags]
  exact flag

theorem carried_envelope {s t : CommandProcessor σ} {c : Sink} {env : Env} {data : List UInt8}
    {sink : Sink} (same : t.device.pin.str = s.device.pin.str) (registered : c ∈ s.sinks)
    (held : s.authenticated c = true) : Carried s t (.envelope env data sink) c :=
  ⟨same, registered, held, by simp, by simp⟩

theorem pinIsDefault_congr {s t : CommandProcessor σ} (h : t.device.pin.str = s.device.pin.str) :
    t.device.pinIsDefault = s.device.pinIsDefault := by
  unfold DeviceSettings.pinIsDefault
  rw [h]

variable [SettingsStore σ]

/-- With this event `c` proves the PIN `pin`: an Auth that carries it, outside
a penalty window, or the write that put it in force. -/
def Credential (pbDecode : List UInt8 → Option ClientToRadio) (s : CommandProcessor σ) (e : Event)
    (c : Sink) (pin : List UInt8) : Prop :=
  ∃ env data req, e = .envelope env data c ∧ decodeEnvelope pbDecode data = some req ∧
    ((s.Proves req.body ∧ s.device.pin.str = pin) ∨
      ∃ m, req.body = .setDeviceSettings m ∧ s.device.pin.str ≠ pin ∧
        (s.step pbDecode e).state.device.pin.str = pin)

variable {pbDecode : List UInt8 → Option ClientToRadio} {s : CommandProcessor σ} {c : Sink}
  {env : Env} {data : List UInt8} {sink : Sink} {req : ClientToRadio}

theorem auth_origin {pin : CharArray (kPinMax + 1)}
    (decoded : decodeEnvelope pbDecode data = some req)
    (body : req.body = .auth pin)
    (registered : c ∈ (s.handleAuth req.id pin sink).state.sinks)
    (flag : (s.handleAuth req.id pin sink).state.authenticated c = true)
    (locked : (s.handleAuth req.id pin sink).state.device.pinIsDefault = false) :
    Carried s (s.handleAuth req.id pin sink).state (.envelope env data sink) c ∨
      Credential pbDecode s (.envelope env data sink) c
        (s.handleAuth req.id pin sink).state.device.pin.str := by
  revert registered flag locked
  unfold handleAuth
  cases penalty : s.authBackoffActive with
  | true =>
    intro registered flag _
    exact .inl (carried_envelope rfl registered flag)
  | false =>
    rw [if_neg (by simp)]
    split
    · rename_i allowed
      intro registered flag locked
      by_cases self : c = sink
      · subst self
        have locked : s.device.pinIsDefault = false := locked
        by_cases held : s.authenticated c = true
        · exact .inl (carried_envelope rfl registered held)
        · have matched : s.pinMatches pin.1 pin.strlen = true := by
            simpa [held, locked] using allowed
          exact .inr ⟨env, data, req, rfl, decoded,
            .inl ⟨⟨pin, body, (pinMatches_iff s pin).mp matched, penalty⟩, rfl⟩⟩
      · have held : s.authenticated c = true := by
          simpa [sendOk_eq, answer, setAuthenticated, self] using flag
        exact .inl (carried_envelope rfl registered held)
    · intro registered flag _
      exact .inl (carried_envelope rfl registered flag)

theorem write_origin {m : SetDeviceSettingsMessage} {o : Outcome σ}
    (decoded : decodeEnvelope pbDecode data = some req)
    (body : req.body = .setDeviceSettings m) (accepts : AcceptsDevice s env m sink)
    (handled : (s.step pbDecode (.envelope env data sink)).state = o.state)
    (device : o.state.device = (s.deviceWritten m sink).device)
    (flags : o.state.authenticated = (s.deviceWritten m sink).authenticated)
    (member : c ∈ s.sinks) (flag : o.state.authenticated c = true)
    (locked : o.state.device.pinIsDefault = false) :
    Carried s o.state (.envelope env data sink) c ∨
      Credential pbDecode s (.envelope env data sink) c o.state.device.pin.str := by
  rw [flags] at flag
  rw [device] at locked ⊢
  cases hpin : m.pin with
  | none =>
    have held : s.authenticated c = true := by simpa [deviceWritten, hpin] using flag
    refine .inl (carried_envelope ?_ member held)
    rw [device]
    simp [deviceWritten, candidate, hpin]
  | some pin =>
    have writer : c = sink := by
      apply Classical.byContradiction
      intro other
      simp [deviceWritten, moveSessions, hpin, member, other] at flag
    subst writer
    by_cases rotated : s.device.pin.str = (s.deviceWritten m c).device.pin.str
    · have locked : s.device.pinIsDefault = false := (pinIsDefault_congr rotated).trans locked
      have held : s.authenticated c = true := by
        simpa [isAuthorized, locked] using accepts.authorized
      exact .inl (carried_envelope (device ▸ rotated.symm) member held)
    · exact .inr ⟨env, data, req, rfl, decoded, .inr ⟨m, body, rotated, by rw [handled, device]⟩⟩

/-- Where a flag that is set after a request comes from. -/
theorem Handled.origin {o : Outcome σ} (h : Handled s env req sink o)
    (decoded : decodeEnvelope pbDecode data = some req)
    (handled : s.step pbDecode (.envelope env data sink) = o) (registered : c ∈ o.state.sinks)
    (flag : o.state.authenticated c = true) (locked : o.state.device.pinIsDefault = false) :
    Carried s o.state (.envelope env data sink) c ∨
      Credential pbDecode s (.envelope env data sink) c o.state.device.pin.str := by
  have kept {t : CommandProcessor σ} (state : o.state = t) (keeps : Keeps s t) :
      Carried s o.state (.envelope env data sink) c ∨
        Credential pbDecode s (.envelope env data sink) c o.state.device.pin.str :=
    .inl ((state ▸ keeps).carried registered flag (by simp) (by simp))
  cases h with
  | auth body same =>
    subst same
    exact auth_origin decoded body registered flag locked
  | reset _ state _ =>
    rw [state] at locked
    exact absurd (DeviceSettings.defaults_pinIsDefault.symm.trans locked) (by decide)
  | @written m t _ body accepts _ written _ state _ =>
    have member : c ∈ t.sinks := by
      rw [state] at registered
      exact (removing_sublist ..).subset registered
    rw [written, s.deviceWritten_sinks m sink] at member
    refine write_origin decoded body accepts (congrArg Outcome.state handled) ?_ ?_ member flag
      locked <;> rw [state, written]
  | answered _ _ same => exact kept (congrArg Outcome.state same) ⟨rfl, rfl, fun _ h => h⟩
  | retuned _ _ _ _ _ state _ => exact kept state ⟨rfl, rfl, fun _ h => h⟩
  | sent _ _ _ _ state _ | sendFailed _ _ _ _ state _ =>
    exact kept state ⟨rfl, rfl, fun _ h => h⟩
  | retuneFailed _ _ _ state _ | fetched _ _ _ state _ =>
    exact kept state ⟨rfl, rfl, fun _ h => h⟩
  | storeRefused _ _ state _ => exact kept state ⟨rfl, rfl, fun _ h => h⟩
  | purged _ state _ | restarted _ state _ => exact kept state ⟨rfl, rfl, fun _ h => h⟩

/-- Where a flag that is set under a PIN of the device's own comes from. -/
theorem flag_origin (e : Event) (registered : c ∈ (s.step pbDecode e).state.sinks)
    (flag : (s.step pbDecode e).state.authenticated c = true)
    (locked : (s.step pbDecode e).state.device.pinIsDefault = false) :
    Carried s (s.step pbDecode e).state e c ∨
      Credential pbDecode s e c (s.step pbDecode e).state.device.pin.str := by
  have unflagged (sink : Sink) (flag : (s.setAuthenticated sink false).authenticated c = true) :
      c ≠ sink ∧ s.authenticated c = true := by
    by_cases self : c = sink
    · simp [setAuthenticated, self] at flag
    · exact ⟨self, by simpa [setAuthenticated, self] using flag⟩
  generalize step : s.step pbDecode e = o at registered flag locked ⊢
  cases step ▸ step_stepped pbDecode s e with
  | @connected sink event same =>
    obtain ⟨sinks, added, member⟩ := (s.setAuthenticated sink false).addSink_eq sink
    rw [same, added] at registered flag ⊢
    obtain ⟨other, held⟩ := unflagged sink flag
    exact .inl ⟨rfl, member c registered other, held, by simpa [event] using other.symm,
      by simp [event]⟩
  | @relinked sink event same =>
    rw [same] at registered flag ⊢
    obtain ⟨other, held⟩ := unflagged sink flag
    exact .inl ⟨rfl, registered, held, by simp [event], by simpa [event] using other.symm⟩
  | disconnected event same =>
    rw [same] at registered flag ⊢
    exact .inl ⟨rfl, List.mem_of_mem_erase registered, flag, by simp [event], by simp [event]⟩
  | requested event decoded _ handled =>
    subst event
    exact handled.origin decoded step registered flag locked
  | dropped event _ same | ticked event _ same | stale event same | linkChanged event same
  | unheard event _ same | finished event _ same | reported event _ same
  | heard event _ _ _ same =>
    rw [same] at registered flag ⊢
    have kept : Keeps s _ := ⟨rfl, rfl, fun _ h => h⟩
    exact .inl (kept.carried registered flag (by simp [event]) (by simp [event]))

/-- After `s`, in `events`, `c` proved the PIN in force at the end: since then
that PIN never changed, and `c` is still the connection that proved it. -/
def Proved (pbDecode : List UInt8 → Option ClientToRadio) (s : CommandProcessor σ)
    (events : List Event) (c : Sink) : Prop :=
  ∃ pre e post, events = pre ++ e :: post ∧
    Credential pbDecode (s.run pbDecode pre).state e c (s.run pbDecode events).state.device.pin.str ∧
    (∀ k, (s.run pbDecode (pre ++ e :: post.take k)).state.device.pin.str =
      (s.run pbDecode events).state.device.pin.str) ∧
    .connect c ∉ post ∧ .relink c ∉ post

theorem Proved.carried {events : List Event} {e : Event} (h : s.Proved pbDecode events c)
    (same : (s.run pbDecode (events ++ [e])).state.device.pin.str =
      (s.run pbDecode events).state.device.pin.str)
    (fresh : e ≠ .connect c) (fresh' : e ≠ .relink c) : s.Proved pbDecode (events ++ [e]) c := by
  obtain ⟨pre, proof, post, rfl, credential, unchanged, noConnect, noRelink⟩ := h
  refine ⟨pre, proof, post ++ [e], by simp, by rwa [same], ?_, ?_, ?_⟩
  · intro k
    rw [same]
    by_cases inside : k ≤ post.length
    · rw [List.take_append_of_le_length inside]
      exact unchanged k
    · rw [List.take_of_length_le (by simp; omega)]
      simpa using same
  · simp [noConnect, Ne.symm fresh]
  · simp [noRelink, Ne.symm fresh']

theorem Proved.of_credential {events : List Event} {e : Event}
    (h : Credential pbDecode (s.run pbDecode events).state e c
      (s.run pbDecode (events ++ [e])).state.device.pin.str) :
    s.Proved pbDecode (events ++ [e]) c :=
  ⟨events, e, [], rfl, h, fun k => by simp, by simp, by simp⟩

/-- **Sessions belong to proofs of the current PIN.** In whatever state a run
from boot reaches, under a PIN that is not the default, every registered
connection with its flag set has sent that PIN, or has written it, since the
PIN last changed. -/
theorem sessions_prove_pin {s₀ : CommandProcessor σ} (booted : Booted s₀) (events : List Event)
    (locked : (s₀.run pbDecode events).state.device.pinIsDefault = false) (c : Sink)
    (registered : c ∈ (s₀.run pbDecode events).state.sinks)
    (flag : (s₀.run pbDecode events).state.authenticated c = true) :
    s₀.Proved pbDecode events c := by
  induction events using List.reverseRecOn with
  | nil =>
    obtain ⟨capacity, clock, settingsStore, boardName, fwVersion, response, beginOk, applyOk, rfl⟩ :=
      booted
    cases registered
  | append_singleton events e ih =>
    have last : (s₀.run pbDecode (events ++ [e])).state =
        ((s₀.run pbDecode events).state.step pbDecode e).state := by
      rw [run_concat, andThen_state]
    rw [last] at registered flag locked
    rcases flag_origin e registered flag locked with ⟨same, member, held, fresh, fresh'⟩ | proof
    · have before := ih ((pinIsDefault_congr same).symm.trans locked) member held
      exact before.carried (by rw [last]; exact same) fresh fresh'
    · exact Proved.of_credential (by rw [last]; exact proof)

/-- A connection that sends the PIN of `sampleBoot`. -/
theorem sessions_prove_pin_login : sampleBoot.Proved sampleDecode [.connect 1, sampleEvent 0 1] 1 :=
  sessions_prove_pin sampleBoot_booted [.connect 1, sampleEvent 0 1] (by decide) 1 (by decide)
    (by decide)

end MeshPigeon.CommandProcessor
