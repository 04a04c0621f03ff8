import MeshPigeon.Transport.WifiInvariants

/-! Whether a client that writes the settings still gets its answer. -/
namespace MeshPigeon

/-- The settings make `apply` stop the server: they take the link down, bind it to
another network, or move the port of a server that is up. -/
def WifiTransport.StopsServer (w : WifiTransport) (settings : DeviceSettings) : Prop :=
  if (w.configured settings).usable = false then w.settings.wifiEnabled = true
  else w.settings.wifiEnabled = false ∨ w.credentialsChanged settings = true ∨
    (newPort settings ≠ w.port ∧ w.serverUp = true)

instance (w : WifiTransport) (settings : DeviceSettings) : Decidable (w.StopsServer settings) := by
  unfold WifiTransport.StopsServer
  infer_instance

/-- The answer with this id is written to the slot's socket before the socket is closed. -/
def answeredOpen (i : Slot) (id : UInt32) : List WifiSeen → Bool
  | [] => false
  | .link (.dropped j) :: log => j ≠ i && answeredOpen i id log
  | .core (.frame dest ⟨id', .deviceSettings _⟩) :: log =>
    (i.sink ∈ dest && id' = id) || answeredOpen i id log
  | _ :: log => answeredOpen i id log

namespace WifiTransport

/-- What `apply` drops is every client, or none. -/
theorem apply_inUse (a : Around) (settings : DeviceSettings) {w : WifiTransport} {i : Slot}
    (used : (w.clients i).inUse = true) :
    ((w.apply a settings).1.clients i).inUse = false ↔ w.StopsServer settings := by
  have stopped := stopServer_inUse (w.configured settings) i
  have kept : ((w.configured settings).clients i).inUse = true := used
  unfold StopsServer apply
  dsimp only
  cases (w.configured settings).usable with
  | false =>
    simp only [Bool.not_false, if_true]
    cases w.settings.wifiEnabled with
    | true =>
      simp only [if_true, Linked.andThen, disconnect, setState_fst, iff_true]
      exact stopped
    | false => simp [kept]
  | true =>
    simp only [Bool.not_true, Bool.false_eq_true, if_false, Bool.true_eq_false]
    by_cases rebinds : (!w.settings.wifiEnabled || w.credentialsChanged settings) = true
    · have stops : w.settings.wifiEnabled = false ∨ w.credentialsChanged settings = true ∨
          (newPort settings ≠ w.port ∧ w.serverUp = true) := by
        rcases Bool.or_eq_true_iff.mp rebinds with off | changed
        · exact .inl (by simpa using off)
        · exact .inr (.inl changed)
      simp only [if_pos rebinds, Linked.andThen, disconnect, connectStart, setState_fst, stops,
        iff_true]
      exact stopped
    · rw [if_neg rebinds]
      simp only [Bool.or_eq_true, Bool.not_eq_true', not_or, Bool.not_eq_false,
        Bool.not_eq_true] at rebinds
      simp only [rebinds.1, rebinds.2, Bool.true_eq_false, Bool.false_eq_true, false_or]
      have up : (w.configured settings).serverUp = w.serverUp := rfl
      rw [up]
      by_cases moves : newPort settings ≠ w.port ∧ w.serverUp = true
      · rw [if_pos moves]
        exact iff_of_true stopped moves
      · rw [if_neg moves]
        simp [kept, moves]

theorem apply_drops (a : Around) (settings : DeviceSettings) {w : WifiTransport} {i : Slot}
    (used : (w.clients i).inUse = true) :
    .dropped i ∈ (w.apply a settings).2 ↔ w.StopsServer settings := by
  have slots := (moves_apply a settings w).slots i
  have drops : .dropped i ∈ (w.apply a settings).2 ↔
      0 < (w.apply a settings).2.countP (·.drops i) := by
    rw [List.countP_pos_iff]
    constructor
    · intro dropped
      exact ⟨_, dropped, by simp [Effect.drops]⟩
    · rintro ⟨e, he, drops⟩
      cases e with
      | dropped j => exact of_decide_eq_true drops ▸ he
      | changed s link => cases drops
  rw [drops, ← apply_inUse a settings used]
  simp only [held, used, if_true] at slots
  split at slots
  · rename_i still
    rw [still]
    simp only [Bool.true_eq_false, iff_false]
    omega
  · rename_i gone
    rw [Bool.eq_false_iff.mpr gone]
    simp only [iff_true]
    omega

end WifiTransport

namespace WifiBoard

open CommandProcessor WifiTransport

variable {σ : Type}

variable {i : Slot} {id : UInt32}

/-- Not the answer with this id. -/
def NoAnswer (id : UInt32) (seen : WifiSeen) : Prop :=
  ∀ dest m, seen ≠ .core (.frame dest ⟨id, .deviceSettings m⟩)

theorem answeredOpen_cons {seen : WifiSeen} (other : NoAnswer id seen)
    (kept : ∀ j, seen = .link (.dropped j) → j ≠ i) (log : List WifiSeen) :
    answeredOpen i id (seen :: log) = answeredOpen i id log := by
  cases seen with
  | core a =>
    cases a with
    | frame dest msg =>
      obtain ⟨id', body⟩ := msg
      cases body with
      | deviceSettings m =>
        have another : id' ≠ id := by
          rintro rfl
          exact other dest m rfl
        simp [answeredOpen, another]
      | _ => rfl
    | _ => rfl
  | link e =>
    cases e with
    | dropped j => simp [answeredOpen, kept j rfl]
    | changed s link => rfl
  | opened j => rfl

/-- While the socket stays open, the answer may still come. -/
theorem answeredOpen_kept {log : List WifiSeen} (other : ∀ seen ∈ log, NoAnswer id seen)
    (kept : .link (.dropped i) ∉ log) (log' : List WifiSeen) :
    answeredOpen i id (log ++ log') = answeredOpen i id log' := by
  induction log with
  | nil => rfl
  | cons seen log ih =>
    simp only [List.mem_cons, not_or] at kept
    rw [List.cons_append, answeredOpen_cons (other seen List.mem_cons_self)]
    · exact ih (fun seen h => other seen (List.mem_cons_of_mem _ h)) kept.2
    · rintro j rfl rfl
      exact kept.1 rfl

/-- Once it is closed, it comes too late. -/
theorem answeredOpen_dropped {log : List WifiSeen} (other : ∀ seen ∈ log, NoAnswer id seen)
    (dropped : .link (.dropped i) ∈ log) (log' : List WifiSeen) :
    answeredOpen i id (log ++ log') = false := by
  obtain ⟨early, late, rfl⟩ := List.append_of_mem dropped
  induction early with
  | nil => simp [answeredOpen]
  | cons seen early ih =>
    have first := other seen List.mem_cons_self
    have rest := ih (fun seen h => other seen (List.mem_cons_of_mem _ h)) (by simp)
    by_cases here : seen = .link (.dropped i)
    · subst here
      simp [answeredOpen]
    · rw [List.cons_append, List.cons_append, answeredOpen_cons first]
      · exact rest
      · rintro j rfl rfl
        exact here rfl

variable [SettingsStore σ]

/-- The write leaves the server alone: it changes nothing, carries no Wi-Fi field, or
results in settings the server is not stopped for. -/
def SparesServer (b : WifiBoard σ) (m : SetDeviceSettingsMessage) : Prop :=
  (candidate b.core.device m).same b.core.device = true ∨ wifiTouched m = false ∨
    ¬b.wifi.StopsServer (candidate b.core.device m)

omit [SettingsStore σ] in
theorem noAnswer_announced (id : UInt32) (t : CommandProcessor σ) (env : Env)
    (m : SetDeviceSettingsMessage) :
    ∀ act ∈ Act.saveDevice t.device :: (t.announceName env m).acts,
      (∀ settings, act ≠ .applyWifi settings) ∧ NoAnswer id (.core act) := by
  intro act hact
  rcases List.mem_cons.mp hact with rfl | hact
  · exact ⟨by simp, by simp [NoAnswer]⟩
  · unfold announceName at hact
    split at hact
    · rw [List.mem_singleton.mp hact]
      exact ⟨by simp, by simp [NoAnswer]⟩
    · cases hact

theorem noAnswer_core {acts : List Act} (other : ∀ act ∈ acts, NoAnswer id (.core act)) :
    ∀ seen ∈ acts.map WifiSeen.core, NoAnswer id seen := by
  intro seen hseen
  obtain ⟨act, hact, rfl⟩ := List.mem_map.mp hseen
  exact other act hact

/-- The answer, at the end of the log. -/
theorem answeredOpen_last (i : Slot) (id : UInt32) (m : DeviceSettingsMessage) :
    answeredOpen i id [.core (.frame [i.sink] ⟨id, .deviceSettings m⟩)] = true := by
  simp [answeredOpen]

/-- What is logged of a write that changes the settings: the answer comes last, and the
sockets closed before it are those `apply` drops. -/
theorem write_log {b : WifiBoard σ} {a : Answers} {env : Env}
    (hooks : env.hooks = some (b.wifi.hooks a)) (request : id ≠ 0) {m : SetDeviceSettingsMessage}
    (accepts : AcceptsDevice b.core env m i.sink)
    (change : (candidate b.core.device m).same b.core.device = false) :
    ∃ log answer, (perform a.toAround b.wifi
        (b.core.handleSetDeviceSettings env id m i.sink).acts).2 =
          log ++ [.core (.frame [i.sink] ⟨id, .deviceSettings answer⟩)] ∧
      (∀ seen ∈ log, NoAnswer id seen) ∧
      (.link (.dropped i) ∈ log ↔ wifiTouched m = true ∧
        .dropped i ∈ (b.wifi.apply a.toAround (candidate b.core.device m)).2) := by
  obtain ⟨_, acts⟩ := setDeviceSettings_applied id accepts change
  rw [← b.core.deviceWritten_device m i.sink]
  generalize b.core.deviceWritten m i.sink = t at acts ⊢
  have early := noAnswer_announced id t env m
  generalize Act.saveDevice t.device :: (t.announceName env m).acts = front at early acts
  generalize hnotify : Act.frame (CommandProcessor.recipients _ _ _) _ = notify at acts
  generalize hanswer : Act.frame [i.sink] _ = answer at acts
  have notified : (∀ settings, notify ≠ .applyWifi settings) ∧ NoAnswer id (.core notify) := by
    rw [← hnotify]
    refine ⟨by simp, ?_⟩
    intro dest m' same
    exact request.symm (congrArg RadioToClient.id (Act.frame.inj (WifiSeen.core.inj same)).2)
  have told (acts : List Act) (plain : ∀ act ∈ acts,
      (∀ settings, act ≠ .applyWifi settings) ∧ NoAnswer id (.core act)) :
      ∀ act ∈ acts ++ [notify], (∀ settings, act ≠ .applyWifi settings) ∧
        NoAnswer id (.core act) := by
    intro act hact
    rcases List.mem_append.mp hact with hact | hact
    · exact plain act hact
    · rw [List.mem_singleton.mp hact]
      exact notified
  cases touched : wifiTouched m with
  | false =>
    have uncalled : (t.applyWifi env m).acts = [] := by
      simp [CommandProcessor.applyWifi, hooks, touched]
    have logged := perform_other a.toAround b.wifi (fun act hact => (told front early act hact).1)
      [answer]
    refine ⟨(front ++ [notify]).map .core, t.deviceSettingsMessage env.hooks, ?_,
      noAnswer_core fun act hact => (told front early act hact).2, by simp⟩
    rw [acts, uncalled, List.append_nil, ← List.singleton_append, ← List.append_assoc, logged,
      ← hanswer]
    rfl
  | true =>
    have called : (t.applyWifi env m).acts = .applyWifi t.device ::
        (t.hookCalls ((b.wifi.hooks a).applyWifi t.device)).acts := by
      simp [CommandProcessor.applyWifi, hooks, touched]
    have heard := hookCalls_frames ((b.wifi.hooks a).applyWifi t.device) t
    generalize (t.hookCalls ((b.wifi.hooks a).applyWifi t.device)).acts = pushes at called heard
    have late := told pushes fun act hact => by
      obtain ⟨_, _, rfl⟩ := heard act hact
      exact ⟨by simp, by simp [NoAnswer]⟩
    refine ⟨front.map .core ++ (.core (.applyWifi t.device) ::
      ((b.wifi.apply a.toAround t.device).2.map .link ++ (pushes ++ [notify]).map .core)),
      t.deviceSettingsMessage env.hooks, ?_, ?_, by simp⟩
    · rw [acts, called, List.append_assoc, List.cons_append, perform_apply _ _ _
        (fun act hact => (early act hact).1), ← hanswer]
      · simp
      · intro act hact
        rw [← List.singleton_append, ← List.append_assoc] at hact
        rcases List.mem_append.mp hact with hact | hact
        · exact (late act hact).1
        · rw [List.mem_singleton.mp hact, ← hanswer]
          simp
    · intro seen hseen
      rcases List.mem_append.mp hseen with hseen | hseen
      · exact noAnswer_core (fun act hact => (early act hact).2) seen hseen
      rcases List.mem_cons.mp hseen with rfl | hseen
      · simp [NoAnswer]
      rcases List.mem_append.mp hseen with hseen | hseen
      · obtain ⟨e, _, rfl⟩ := List.mem_map.mp hseen
        simp [NoAnswer]
      · exact noAnswer_core (fun act hact => (late act hact).2) seen hseen

/-- When a write is answered. -/
theorem answered_write {b : WifiBoard σ} {a : Answers} {env : Env}
    (hooks : env.hooks = some (b.wifi.hooks a)) (request : id ≠ 0)
    (used : (b.wifi.clients i).inUse = true) {m : SetDeviceSettingsMessage}
    (accepts : AcceptsDevice b.core env m i.sink) :
    answeredOpen i id (perform a.toAround b.wifi
      (b.core.handleSetDeviceSettings env id m i.sink).acts).2 = true ↔ b.SparesServer m := by
  cases change : (candidate b.core.device m).same b.core.device with
  | true =>
    rw [setDeviceSettings_same id accepts change, sendDeviceSettings_eq]
    simp [CommandProcessor.answer, perform, answeredOpen, SparesServer, change]
  | false =>
    obtain ⟨log, answer, logged, others, dropped⟩ := write_log hooks request accepts change
    rw [apply_drops a.toAround _ used] at dropped
    have spares : b.SparesServer m ↔ .link (.dropped i) ∉ log := by
      rw [dropped, SparesServer, change]
      cases wifiTouched m <;> simp
    rw [logged, spares]
    by_cases closed : .link (.dropped i) ∈ log
    · simp [answeredOpen_dropped others closed, closed]
    · rw [answeredOpen_kept others closed, answeredOpen_last]
      simp [closed]

/-- **When a client that writes the settings over Wi-Fi gets its answer.** The answer
to an accepted write is written to an open socket exactly if the write leaves the
server alone. -/
theorem answered_open_iff {pbDecode : List UInt8 → Option ClientToRadio} {b : WifiBoard σ}
    {a : Answers} {data : List UInt8} {req : ClientToRadio} {m : SetDeviceSettingsMessage}
    (used : (b.wifi.clients i).inUse = true) (decoded : decodeEnvelope pbDecode data = some req)
    (body : req.body = .setDeviceSettings m)
    (accepts : AcceptsDevice b.core ⟨some (b.wifi.hooks a), a.applyOk, a.transmitOk⟩ m i.sink) :
    answeredOpen i req.id (b.request pbDecode a data i.sink).2 = true ↔ b.SparesServer m := by
  have handled : b.core.handleRequest ⟨some (b.wifi.hooks a), a.applyOk, a.transmitOk⟩ req i.sink =
      b.core.handleSetDeviceSettings ⟨some (b.wifi.hooks a), a.applyOk, a.transmitOk⟩ req.id m
        i.sink := by
    rw [handleRequest, body]
  rw [request, onEnvelope, decoded]
  dsimp only
  rw [handled]
  exact answered_write rfl (decodeEnvelope_id decoded) used accepts

/-- The link is up, and a client is in slot 0. -/
def sampleLinked : WifiBoard MemorySettingsStore :=
  (lifetime linkDecode sampleCore {} (sampleEvents.take 2)).1

theorem answered_open_named :
    answeredOpen 0 6 (sampleLinked.request linkDecode {} sampleName (Slot.sink 0)).2 = true :=
  (answered_open_iff (by decide +kernel)
    (show decodeEnvelope linkDecode sampleName = some ⟨6, .setDeviceSettings giveName⟩ by
      decide +kernel) rfl
    ⟨by decide +kernel, by decide +kernel, by decide +kernel⟩).mpr
      (.inr (.inr (by decide +kernel)))

/-- The client that turns Wi-Fi off is never answered. -/
theorem turned_off_unanswered :
    (sampleLinked.wifi.clients 0).inUse = true ∧
      decodeEnvelope linkDecode sampleOff = some ⟨5, .setDeviceSettings turnOff⟩ ∧
      AcceptsDevice sampleLinked.core ⟨some (sampleLinked.wifi.hooks {}), true, true⟩ turnOff
        (Slot.sink 0) ∧
      answeredOpen 0 5 (sampleLinked.request linkDecode {} sampleOff (Slot.sink 0)).2 = false :=
  ⟨by decide +kernel, by decide +kernel, ⟨by decide +kernel, by decide +kernel, by decide +kernel⟩,
    by decide +kernel⟩

end WifiBoard

end MeshPigeon
