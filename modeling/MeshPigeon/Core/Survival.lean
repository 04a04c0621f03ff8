import MeshPigeon.Core.Lifetime
import MeshPigeon.Core.Uptime
import MeshPigeon.Nanopb.Envelope

/-!
# What outlives a boot

* `configuration_survives`: a board comes up with what was in force;
* `setting_survives`: what is set stays set until someone who may write it does;
* `epoch_names_tuning`: no two tunings ever share an epoch;
* `boots_counted`: the count tells the boots apart.
-/
namespace MeshPigeon

namespace Nrf52

open CommandProcessor

/-- The configuration in force, or the one the next boot will have. -/
def config : Nrf52 → RadioSettings × DeviceSettings
  | off flash => flash.loaded.config
  | running s => (s.settings, s.device)

variable {pbDecode : List UInt8 → Option ClientToRadio} {b : Nrf52}

/-! ## The record in force -/

/-- The device settings in force read back from a flash as they are. -/
def Sound (b : Nrf52) : Prop := ∀ s, b = running s → s.device.Closed ∧ s.device.wifiPort ≠ 0

theorem portDefaulted_port (d : DeviceSettings) : (portDefaulted d).wifiPort ≠ 0 := by
  unfold portDefaulted
  split
  · show kWifiPortDefault ≠ 0
    decide
  · assumption

/-- A tuning that is saved leaves the device settings. -/
theorem tuned_device (l : Loaded) (s : RadioSettings) :
    ((StoreOp.save s).apply l).config.2 = l.config.2 := rfl

theorem saved_config (l : Loaded) {d : DeviceSettings} (closed : d.Closed) (port : d.wifiPort ≠ 0) :
    ((StoreOp.saveDevice d).apply l).config = (l.config.1, d) := by
  rw [apply_saveDevice l closed]
  exact congrArg _ (if_neg port)

variable (pbDecode) in
theorem Sound.event {s : CommandProcessor FlashStore} (sound : (running s).Sound)
    (answers : FileAnswers) (e : Event) :
    let o := (answering s answers).step pbDecode e
    o.state.device.Closed ∧ o.state.device.wifiPort ≠ 0 := by
  obtain ⟨closed, port⟩ := sound s rfl
  intro o
  have configures : Configures pbDecode (answering s answers) e o.state (storeOps o.acts) :=
    step_configures pbDecode (answering s answers) e
  generalize storeOps o.acts = ops at configures
  cases configures with
  | kept same =>
    rw [same.device]
    exact ⟨closed, port⟩
  | tuned _ device _ =>
    rw [device]
    exact ⟨closed, port⟩
  | @written m writes _ device _ =>
    obtain ⟨_, _, _, _, _, _, _, accepts⟩ := writes
    rw [device]
    exact ⟨closed.candidate m, candidate_port port accepts.valid⟩
  | reset _ _ device _ =>
    rw [device]
    exact ⟨DeviceSettings.closed_defaults, by decide⟩

theorem Sound.turn (h : b.Sound) (t : Turn) : (b.turn pbDecode t).Sound := by
  cases t with
  | setup p =>
    rintro s ⟨⟩
    exact ⟨closed_portDefaulted (Flash.loadDevice_closed _), portDefaulted_port _⟩
  | setupCut p steps part => rintro s ⟨⟩
  | powerOff => cases b <;> rintro s ⟨⟩
  | event answers e =>
    cases b with
    | off flash => rintro s ⟨⟩
    | running s =>
      rintro t ⟨⟩
      exact h.event pbDecode answers e
  | eventCut answers e steps part =>
    cases b with
    | off flash => rintro s ⟨⟩
    | running s => rintro t ⟨⟩

theorem life_sound (f : Flash) (turns : List Turn) : ((off f).life pbDecode turns).Sound :=
  life_invariant (fun _ running => by cases running) fun _ h t _ => h.turn t

/-! ## What a boot comes up with -/

/-- The flash has what is in force. -/
def Synced (b : Nrf52) : Prop :=
  ∀ s, b = running s → s.settingsStore.flash.loaded.config = (s.settings, s.device)

theorem Synced.config (h : b.Synced) : b.config = b.flash.loaded.config := by
  cases b with
  | off flash => rfl
  | running s => exact (h s rfl).symm

variable (pbDecode) in
/-- The effect of an event on the configuration is that of its call on the records. -/
theorem event_config {s : CommandProcessor FlashStore} (sound : (running s).Sound)
    (synced : (running s).Synced) (e : Event) (answers : FileAnswers) :
    let o := (answering s answers).step pbDecode e
    ∀ op ∈ storeOps o.acts, (op.apply s.settingsStore.flash.loaded).config =
      (o.state.settings, o.state.device) := by
  obtain ⟨closed, port⟩ := sound s rfl
  have inForce := synced s rfl
  obtain ⟨tuning, device⟩ := Prod.mk.inj inForce
  intro o
  have configures : Configures pbDecode (answering s answers) e o.state (storeOps o.acts) :=
    step_configures pbDecode (answering s answers) e
  generalize storeOps o.acts = ops at configures ⊢
  cases configures with
  | kept same => exact fun op none => absurd none List.not_mem_nil
  | tuned settings device' _ =>
    intro op mine
    rw [List.mem_singleton.mp mine, apply_save _ rfl, settings, device']
    exact congrArg _ device
  | @written m writes settings device' _ =>
    obtain ⟨_, _, _, _, _, _, _, accepts⟩ := writes
    intro op mine
    have loaded : (StoreOp.apply s.settingsStore.flash.loaded
        (.saveDevice (candidate s.device m))).config = _ :=
      saved_config _ (closed.candidate m) (candidate_port port accepts.valid)
    rw [List.mem_singleton.mp mine, settings, device']
    exact loaded.trans (congrArg (Prod.mk · _) tuning)
  | reset _ settings device' _ =>
    intro op mine
    rw [List.mem_singleton.mp mine, settings, device']
    exact congrArg (Prod.mk · _) tuning

theorem setup_config (p : Setup) (f : Flash) :
    ((setup p f).settings, (setup p f).device) = f.loaded.config ∧
      (setup p f).settingsStore.flash.loaded.config = f.loaded.config := by
  have flash : (setup p f).settingsStore.flash.loaded.config = f.loaded.config := by
    rcases setup_loaded p f with same | counted
    · rw [same]
    · rw [counted]
      rfl
  exact ⟨flash, flash⟩

theorem Synced.turn (h : b.Synced) (sound : b.Sound) {t : Turn} (able : t.Able) :
    (b.turn pbDecode t).Synced := by
  cases t with
  | setup p =>
    rintro s ⟨⟩
    obtain ⟨inForce, loaded⟩ := setup_config p b.flash
    exact loaded.trans inForce.symm
  | setupCut p steps part => rintro s ⟨⟩
  | powerOff => cases b <;> rintro s ⟨⟩
  | event answers e =>
    cases b with
    | off flash => rintro s ⟨⟩
    | running s =>
      rintro t ⟨⟩
      rcases event_calls pbDecode s answers e with quiet | ⟨op, mine, call⟩
      · rw [quiet.settings, quiet.device, quiet.settingsStore]
        exact h s rfl
      · rw [call, perform_able ⟨s.settingsStore.flash, answers⟩ able]
        exact event_config pbDecode sound h e answers op mine
  | eventCut answers e steps part =>
    cases b with
    | off flash => rintro s ⟨⟩
    | running s => rintro t ⟨⟩

theorem life_synced {f : Flash} {turns : List Turn} (able : ∀ t ∈ turns, t.Able) :
    ((off f).life pbDecode turns).Synced := by
  have both : ((off f).life pbDecode turns).Sound ∧ ((off f).life pbDecode turns).Synced := by
    apply life_invariant (P := fun b => b.Sound ∧ b.Synced)
    · exact ⟨fun _ running => (by cases running), fun _ running => (by cases running)⟩
    · rintro b ⟨sound, h⟩ t ht
      exact ⟨sound.turn t, h.turn sound (able t ht)⟩
  exact both.2

theorem Synced.config_setup (h : b.Synced) (p : Setup) :
    (b.turn pbDecode (.setup p)).config = b.config := by
  rw [h.config]
  exact (setup_config p b.flash).1

theorem Synced.config_setupCut (h : b.Synced) (p : Setup) (steps part : Nat) :
    (b.turn pbDecode (.setupCut p steps part)).config = b.config := by
  rw [h.config]
  rcases setupCut_loaded p b.flash steps part with same | counted
  · exact congrArg Loaded.config same
  · exact (congrArg Loaded.config counted).trans rfl

theorem Synced.config_powerOff (h : b.Synced) : (b.turn pbDecode .powerOff).config = b.config := by
  rw [h.config]
  cases b <;> rfl

variable (pbDecode) in
theorem Synced.config_eventCut (h : b.Synced) (sound : b.Sound) (answers : FileAnswers) (e : Event)
    (steps part : Nat) :
    (b.turn pbDecode (.eventCut answers e steps part)).config = b.config ∨
      (b.turn pbDecode (.eventCut answers e steps part)).config =
        (b.turn pbDecode (.event answers e)).config := by
  cases b with
  | off flash => exact .inl rfl
  | running s =>
    rcases eventCut_loaded s.settingsStore.flash (length_storeOps _ _) answers steps part with
      same | ⟨op, mine, after⟩
    · left
      rw [h.config]
      exact congrArg Loaded.config same
    · right
      exact (congrArg Loaded.config after).trans (event_config pbDecode sound h e answers op mine)

/-- **A board comes up with what was in force.** While the file system takes what is written, a boot
changes nothing of the tuning or of the device settings, nor does a power cut that hits `setup` or
hits between events; and one inside an event leaves what was in force before it or what it put in
force. -/
theorem configuration_survives (pbDecode : List UInt8 → Option ClientToRadio) {f : Flash}
    {turns : List Turn} (able : ∀ t ∈ turns, t.Able) :
    let b := (off f).life pbDecode turns
    (∀ p, (b.turn pbDecode (.setup p)).config = b.config) ∧
    (∀ p steps part, (b.turn pbDecode (.setupCut p steps part)).config = b.config) ∧
    (b.turn pbDecode .powerOff).config = b.config ∧
    ∀ answers e steps part, (b.turn pbDecode (.eventCut answers e steps part)).config = b.config ∨
      (b.turn pbDecode (.eventCut answers e steps part)).config =
        (b.turn pbDecode (.event answers e)).config :=
  have h := life_synced able
  ⟨h.config_setup, h.config_setupCut, h.config_powerOff,
    h.config_eventCut pbDecode (life_sound f turns)⟩

/-! ### A device with a name and a tuning -/

def sampleAnswers : FileAnswers := ⟨true, 1000, true⟩

def sampleSetup : Turn := .setup ⟨1000, [], [], sampleAnswers, true, true, ⟨0, .none⟩⟩

def nameRequest : Request := .setDeviceSettings { name := some (copyStr kNameMax [0x41]) }

def pinRequest : Request := .setDeviceSettings { pin := some samplePin }

def tuningRequest (freqHz : UInt32) : Request :=
  .setRadioSettings (some ⟨freqHz, 250000, 9, 5, 14, 0⟩)

/-- What a client sends that encodes `r`. -/
def sampleRequest (r : Request) : Event :=
  .envelope ⟨none, true, true⟩ ((encodeRequest ⟨1, r⟩).getD []) 1

/-- A first boot; a client names the device and tunes it, and five minutes go by. -/
def firstLife : List Turn := [
  sampleSetup,
  .event sampleAnswers (.connect 1),
  .event sampleAnswers (sampleRequest nameRequest),
  .event sampleAnswers (sampleRequest (tuningRequest 869525000)),
  .event sampleAnswers (.poll 300000 false)]

/-- It tunes it again, the power goes inside the write of a PIN, and the device boots twice. -/
def secondLife : List Turn := [
  .event sampleAnswers (sampleRequest (tuningRequest 868000000)),
  .eventCut sampleAnswers (sampleRequest pinRequest) 2 3,
  sampleSetup, .powerOff, sampleSetup]

theorem firstLife_able : ∀ t ∈ firstLife, t.Able := by
  intro t ht
  simp only [firstLife, sampleSetup, List.mem_cons, List.not_mem_nil, or_false] at ht
  rcases ht with rfl | rfl | rfl | rfl | rfl
  · trivial
  all_goals exact able_roomy

/-- The name and the tuning of the first life, through a boot and through a cut anywhere in a write. -/
theorem configuration_survives_named :
    let b := (off fun _ => none).life decodeRequest firstLife
    (b.config.1.freqHz = 869525000 ∧ b.config.2.name = copyStr kNameMax [0x41]) ∧
      (∀ p, (b.turn decodeRequest (.setup p)).config = b.config) ∧
      (b.turn decodeRequest .powerOff).config = b.config ∧
      ∀ steps part,
        (b.turn decodeRequest (.eventCut sampleAnswers (sampleRequest pinRequest) steps part)).config =
            b.config ∨
          (b.turn decodeRequest (.eventCut sampleAnswers (sampleRequest pinRequest) steps part)).config =
            (b.turn decodeRequest (.event sampleAnswers (sampleRequest pinRequest))).config := by
  intro b
  obtain ⟨booted, _, gone, cut⟩ :=
    configuration_survives (f := fun _ => none) decodeRequest firstLife_able
  exact ⟨by decide +kernel, booted, gone, cut sampleAnswers (sampleRequest pinRequest)⟩

/-! ## What stays set -/

/-- A view of the device settings: a boot would come up with it, and it is in force. -/
structure Holds {β : Type} (view : DeviceSettings → β) (v : β) (b : Nrf52) : Prop where
  loaded : view b.flash.loaded.config.2 = v
  inForce : ∀ s, b = running s → view s.device = v

/-- Someone who is authorized resets the device, or writes over what is seen of it. -/
def Rewrites {β : Type} (pbDecode : List UInt8 → Option ClientToRadio) (view : DeviceSettings → β)
    (s : CommandProcessor FlashStore) (e : Event) : Prop :=
  Resets pbDecode s e ∨ ∃ m, Writes pbDecode s e m ∧ view (candidate s.device m) ≠ view s.device

/-- Whatever event the turn is about, it is none of those. -/
def Spares {β : Type} (pbDecode : List UInt8 → Option ClientToRadio) (view : DeviceSettings → β)
    (b : Nrf52) (t : Turn) : Prop :=
  ∀ s e, b = running s → t.event? = some e → ¬Rewrites pbDecode view s e

variable {β : Type} {view : DeviceSettings → β} {v : β}

/-- What an event that spares the view does to it, in force and by any of its calls. -/
theorem Holds.event {s : CommandProcessor FlashStore} (h : (running s).Holds view v)
    (sound : (running s).Sound) {e : Event} (spared : ¬Rewrites pbDecode view s e)
    (answers : FileAnswers) :
    let o := (answering s answers).step pbDecode e
    view o.state.device = v ∧
      ∀ op ∈ storeOps o.acts, view (op.apply s.settingsStore.flash.loaded).config.2 = v := by
  have inForce := h.inForce s rfl
  have loaded : view s.settingsStore.flash.loaded.config.2 = v := h.loaded
  obtain ⟨closed, port⟩ := sound s rfl
  intro o
  have configures : Configures pbDecode (answering s answers) e o.state (storeOps o.acts) :=
    step_configures pbDecode (answering s answers) e
  generalize storeOps o.acts = ops at configures ⊢
  cases configures with
  | kept same =>
    refine ⟨?_, fun op none => absurd none List.not_mem_nil⟩
    rw [same.device]
    exact inForce
  | tuned _ device _ =>
    refine ⟨?_, fun op mine => ?_⟩
    · rw [device]
      exact inForce
    · rw [List.mem_singleton.mp mine, tuned_device]
      exact loaded
  | @written m writes _ device _ =>
    obtain ⟨env, data, sink, req, asked, decoded, body, accepts⟩ := writes
    have mine : Writes pbDecode s e m := ⟨env, data, sink, req, asked, decoded, body,
      accepts.authorized, accepts.valid, accepts.supported⟩
    have kept : view (candidate s.device m) = v := by
      by_contra other
      exact spared (.inr ⟨m, mine, fun same => other (same.trans inForce)⟩)
    refine ⟨?_, fun op mine => ?_⟩
    · rw [device]
      exact kept
    · have saved : (StoreOp.apply s.settingsStore.flash.loaded
          (.saveDevice (candidate s.device m))).config = _ :=
        saved_config _ (closed.candidate m) (candidate_port port accepts.valid)
      rw [List.mem_singleton.mp mine]
      exact (congrArg (fun c => view c.2) saved).trans kept
  | reset resets => exact absurd (.inl resets) spared

/-- One turn. -/
theorem Holds.turn (h : b.Holds view v) (sound : b.Sound) {t : Turn}
    (spared : b.Spares pbDecode view t) : (b.turn pbDecode t).Holds view v := by
  have loaded : view b.flash.loaded.config.2 = v := h.loaded
  have off {f : Flash} (dev : view f.loaded.config.2 = v) : (off f).Holds view v := by
    refine ⟨dev, ?_⟩
    rintro _ ⟨⟩
  cases t with
  | setup p =>
    have dev : view (MeshPigeon.setup p b.flash).settingsStore.flash.loaded.config.2 = v := by
      rcases setup_loaded p b.flash with same | counted
      · exact (congrArg (fun l => view l.config.2) same).trans loaded
      · exact (congrArg (fun l => view l.config.2) counted).trans loaded
    refine ⟨dev, ?_⟩
    rintro s ⟨⟩
    exact dev
  | setupCut p steps part =>
    refine off ?_
    rcases setupCut_loaded p b.flash steps part with same | counted
    · exact (congrArg (fun l => view l.config.2) same).trans loaded
    · exact (congrArg (fun l => view l.config.2) counted).trans loaded
  | powerOff => cases b <;> exact off loaded
  | event answers e =>
    cases b with
    | off flash => exact h
    | running s =>
      obtain ⟨inForce, stored⟩ := h.event sound (spared s e rfl rfl) answers
      refine ⟨?_, ?_⟩
      · rcases event_calls pbDecode s answers e with quiet | ⟨op, mine, call⟩
        · exact (congrArg (fun st : FlashStore => view st.flash.loaded.config.2)
            quiet.settingsStore).trans loaded
        · refine (congrArg (fun st : FlashStore => view st.flash.loaded.config.2) call).trans ?_
          rcases perform_loaded ⟨s.settingsStore.flash, answers⟩ op with same | after
          · exact (congrArg (fun l => view l.config.2) same).trans loaded
          · exact (congrArg (fun l => view l.config.2) after).trans (stored op mine)
      · rintro t ⟨⟩
        exact inForce
  | eventCut answers e steps part =>
    cases b with
    | off flash => exact h
    | running s =>
      obtain ⟨_, stored⟩ := h.event sound (spared s e rfl rfl) answers
      refine off ?_
      rcases eventCut_loaded s.settingsStore.flash (length_storeOps _ _) answers steps part with
        same | ⟨op, mine, after⟩
      · exact (congrArg (fun l => view l.config.2) same).trans loaded
      · exact (congrArg (fun l => view l.config.2) after).trans (stored op mine)

/-- **What is set stays set.** Whatever writes fail and wherever the power is cut, through any number
of boots, a setting that a boot would come up with and that is in force stays so until an authorized
request that is accepted writes over it, or resets the device. -/
theorem setting_survives (pbDecode : List UInt8 → Option ClientToRadio) {f : Flash}
    {before after : List Turn} (set : ((off f).life pbDecode before).Holds view v)
    (spared : ∀ front t back, after = front ++ t :: back →
      ((off f).life pbDecode (before ++ front)).Spares pbDecode view t) :
    ((off f).life pbDecode (before ++ after)).Holds view v := by
  induction after using List.reverseRecOn with
  | nil => rwa [List.append_nil]
  | append_singleton front t ih =>
    have earlier := ih fun front' t' back split => spared front' t' (back ++ [t]) (by simp [split])
    rw [← List.append_assoc, life_concat]
    exact earlier.turn (life_sound f _) (spared front t [] rfl)

/-- A request that does not touch what is seen of the settings. -/
theorem spares_request {s : CommandProcessor FlashStore} {env : Env} {data : List UInt8}
    {sink : Sink} {req : ClientToRadio} (decoded : decodeEnvelope pbDecode data = some req)
    (unreset : req.body ≠ .factoryReset)
    (kept : ∀ m, req.body = .setDeviceSettings m → ∀ d, view (candidate d m) = view d) :
    ¬Rewrites pbDecode view s (.envelope env data sink) := by
  rintro (⟨_, _, _, req', ⟨⟩, decoded', body, _⟩ | ⟨m, ⟨_, _, _, req', ⟨⟩, decoded', body, _⟩, other⟩)
  · obtain rfl := Option.some.inj (decoded.symm.trans decoded')
    exact unreset body
  · obtain rfl := Option.some.inj (decoded.symm.trans decoded')
    exact other (kept m body s.device)

theorem setting_survives_named :
    Holds DeviceSettings.name (copyStr kNameMax [0x41])
      ((off fun _ => none).life decodeRequest (firstLife ++ secondLife)) := by
  have set : Holds DeviceSettings.name (copyStr kNameMax [0x41])
      ((off fun _ => none).life decodeRequest firstLife) := by
    refine ⟨?_, ?_⟩
    · rw [← (life_synced firstLife_able).config]
      decide +kernel
    · rintro s ⟨⟩
      decide +kernel
  refine setting_survives decodeRequest set ?_
  rintro front t back split s e _ event
  have mine : t ∈ secondLife := split ▸ List.mem_append_right front List.mem_cons_self
  simp only [secondLife, sampleSetup, List.mem_cons, List.not_mem_nil, or_false] at mine
  rcases mine with rfl | rfl | rfl | rfl | rfl <;> cases event
  · have decoded : decodeEnvelope decodeRequest
        ((encodeRequest ⟨1, tuningRequest 868000000⟩).getD []) =
          some ⟨1, tuningRequest 868000000⟩ := by decide +kernel
    exact spares_request decoded nofun nofun
  · have decoded : decodeEnvelope decodeRequest ((encodeRequest ⟨1, pinRequest⟩).getD []) =
        some ⟨1, pinRequest⟩ := by decide +kernel
    refine spares_request decoded nofun ?_
    rintro m ⟨⟩ d
    rfl

/-! ## Epochs -/

def tuning (b : Nrf52) : RadioSettings := b.config.1

/-- The tunings that a turn saves, or would have saved but for the cut. -/
def retunes (pbDecode : List UInt8 → Option ClientToRadio) : Nrf52 → Turn → Nat
  | running s, .event answers e => ((answering s answers).step pbDecode e).acts.countP Act.saves
  | running s, .eventCut answers e _ _ =>
    ((answering s answers).step pbDecode e).acts.countP Act.saves
  | _, _ => 0

/-- All the tunings of a life. -/
def tunings (pbDecode : List UInt8 → Option ClientToRadio) : Nrf52 → List Turn → Nat
  | _, [] => 0
  | b, t :: ts => b.retunes pbDecode t + tunings pbDecode (b.turn pbDecode t) ts

theorem tunings_append (b : Nrf52) (ts us : List Turn) :
    b.tunings pbDecode (ts ++ us) =
      b.tunings pbDecode ts + (b.life pbDecode ts).tunings pbDecode us := by
  induction ts generalizing b with
  | nil => exact (Nat.zero_add _).symm
  | cons t ts ih =>
    rw [List.cons_append, tunings, tunings, ih, Nat.add_assoc]
    rfl

variable (pbDecode) in
/-- An event leaves the tuning, or saves one with the next epoch. -/
theorem event_tuning (s : CommandProcessor FlashStore) (answers : FileAnswers) (e : Event) :
    let o := (answering s answers).step pbDecode e
    o.state.settings = s.settings ∨ o.state.settings.configEpoch = s.settings.configEpoch + 1 ∧
      0 < o.acts.countP Act.saves := by
  intro o
  have configures : Configures pbDecode (answering s answers) e o.state (storeOps o.acts) :=
    step_configures pbDecode (answering s answers) e
  generalize called : storeOps o.acts = ops at configures
  cases configures with
  | kept same => exact .inl same.settings
  | @tuned m settings _ _ =>
    right
    refine ⟨by rw [settings]; rfl, List.countP_pos_iff.mpr ?_⟩
    have saved : .save ((answering s answers).nextTuning m) ∈ storeOps o.acts := by
      rw [called]
      exact List.mem_singleton_self _
    obtain ⟨a, mine, save⟩ := List.mem_filterMap.mp saved
    refine ⟨a, mine, ?_⟩
    cases a <;> cases save
    rfl
  | written _ settings _ _ => exact .inl settings
  | reset _ settings _ _ => exact .inl settings

theorem tuning_event (b : Nrf52) (answers : FileAnswers) (e : Event) :
    (b.turn pbDecode (.event answers e)).tuning = b.tuning ∨
      (b.turn pbDecode (.event answers e)).tuning.configEpoch = b.tuning.configEpoch + 1 ∧
        0 < b.retunes pbDecode (.event answers e) := by
  cases b with
  | off flash => exact .inl rfl
  | running s => exact event_tuning pbDecode s answers e

variable (pbDecode) in
/-- A turn leaves the tuning, or puts one with the next epoch in its place. -/
theorem tuning_turn (h : b.Synced) (sound : b.Sound) (t : Turn) :
    (b.turn pbDecode t).tuning = b.tuning ∨
      (b.turn pbDecode t).tuning.configEpoch = b.tuning.configEpoch + 1 ∧
        0 < b.retunes pbDecode t := by
  cases t with
  | setup p => exact .inl (congrArg Prod.fst (h.config_setup p))
  | setupCut p steps part => exact .inl (congrArg Prod.fst (h.config_setupCut p steps part))
  | powerOff => exact .inl (congrArg Prod.fst h.config_powerOff)
  | event answers e => exact tuning_event b answers e
  | eventCut answers e steps part =>
    rcases h.config_eventCut pbDecode sound answers e steps part with same | same
    · exact .inl (congrArg Prod.fst same)
    · have stored : (b.turn pbDecode (.eventCut answers e steps part)).tuning =
          (b.turn pbDecode (.event answers e)).tuning := congrArg Prod.fst same
      have calls : b.retunes pbDecode (.eventCut answers e steps part) =
          b.retunes pbDecode (.event answers e) := by cases b <;> rfl
      rw [stored, calls]
      exact tuning_event b answers e

theorem epoch_le {f : Flash} {turns : List Turn} (able : ∀ t ∈ turns, t.Able)
    (left : (off f).tuning.configEpoch.toNat + (off f).tunings pbDecode turns < 2 ^ 32) :
    ((off f).life pbDecode turns).tuning.configEpoch.toNat ≤
      (off f).tuning.configEpoch.toNat + (off f).tunings pbDecode turns := by
  induction turns using List.reverseRecOn with
  | nil => exact Nat.le_refl _
  | append_singleton ts t ih =>
    rw [tunings_append, tunings, tunings] at left ⊢
    have able' : ∀ u ∈ ts, u.Able := fun u hu => able u (List.mem_append_left _ hu)
    have few := ih able' (by omega)
    rw [life_concat]
    rcases tuning_turn pbDecode (life_synced able') (life_sound f ts) t with same | ⟨next, counted⟩
    · rw [same]
      omega
    · have one : (1 : UInt32).toNat = 1 := rfl
      rw [next, UInt32.toNat_add]
      omega

/-- **An epoch names one tuning.** While the file system takes what is written and the epochs do not
run out, they never go back, over any number of boots and power cuts, and the tuning is the same
whenever the epoch is. -/
theorem epoch_names_tuning (pbDecode : List UInt8 → Option ClientToRadio) {f : Flash}
    {before after : List Turn} (able : ∀ t ∈ before ++ after, t.Able)
    (left : (off f).tuning.configEpoch.toNat + (off f).tunings pbDecode (before ++ after) <
      2 ^ 32) :
    let earlier := ((off f).life pbDecode before).tuning
    let later := ((off f).life pbDecode (before ++ after)).tuning
    earlier.configEpoch.toNat ≤ later.configEpoch.toNat ∧
      (earlier.configEpoch = later.configEpoch → earlier = later) := by
  intro earlier
  induction after using List.reverseRecOn with
  | nil =>
    rw [List.append_nil]
    exact ⟨Nat.le_refl _, fun _ => rfl⟩
  | append_singleton ts t ih =>
    rw [← List.append_assoc] at able left ⊢
    rw [tunings_append, tunings, tunings] at left
    have able' : ∀ u ∈ before ++ ts, u.Able := fun u hu => able u (List.mem_append_left _ hu)
    obtain ⟨rising, named⟩ := ih able' (by omega)
    have below : ((off f).life pbDecode (before ++ ts)).tuning.configEpoch.toNat ≤ _ :=
      epoch_le able' (by omega)
    rw [life_concat]
    intro later
    rcases tuning_turn pbDecode (life_synced able') (life_sound f _) t with same | ⟨next, counted⟩
    · rw [show later = _ from same]
      exact ⟨rising, named⟩
    · have one : (1 : UInt32).toNat = 1 := rfl
      have word : later.configEpoch.toNat = _ := congrArg UInt32.toNat next
      rw [UInt32.toNat_add] at word
      exact ⟨by omega, fun none => by rw [← UInt32.toNat_inj] at none; omega⟩

/-- A second tuning of the first life, cut off inside its write or finished. -/
theorem epoch_names_tuning_retuned :
    let once := ((off fun _ => none).life decodeRequest firstLife).tuning
    let cut := ((off fun _ => none).life decodeRequest (firstLife ++
      [.eventCut sampleAnswers (sampleRequest (tuningRequest 868000000)) 2 3, .powerOff])).tuning
    let again := ((off fun _ => none).life decodeRequest (firstLife ++
      [.event sampleAnswers (sampleRequest (tuningRequest 868000000))])).tuning
    once.configEpoch = 1 ∧ once = cut ∧
      once.configEpoch.toNat ≤ again.configEpoch.toNat ∧ again.freqHz = 868000000 := by
  intro once cut again
  have able_cut : ∀ t ∈ firstLife ++
      [.eventCut sampleAnswers (sampleRequest (tuningRequest 868000000)) 2 3, .powerOff],
      t.Able := by
    intro t ht
    rcases List.mem_append.mp ht with ht | ht
    · exact firstLife_able t ht
    · simp only [List.mem_cons, List.not_mem_nil, or_false] at ht
      rcases ht with rfl | rfl <;> trivial
  have able_again : ∀ t ∈ firstLife ++
      [.event sampleAnswers (sampleRequest (tuningRequest 868000000))], t.Able := by
    intro t ht
    rcases List.mem_append.mp ht with ht | ht
    · exact firstLife_able t ht
    · rw [List.mem_singleton.mp ht]
      exact able_roomy
  refine ⟨by decide +kernel, ?_, ?_, by decide +kernel⟩
  · exact (epoch_names_tuning decodeRequest able_cut (by decide +kernel)).2 (by decide +kernel)
  · exact (epoch_names_tuning decodeRequest able_again (by decide +kernel)).1

/-! ## Boots -/

/-- The turn begins a boot. -/
def Turn.starts : Turn → Bool
  | .setup _ | .setupCut _ _ _ => true
  | _ => false

/-- The count of the boot that a turn finishes, and whether it was saved. -/
def bootCount? (b : Nrf52) : Turn → Option (UInt32 × Bool)
  | .setup p => some ((MeshPigeon.setup p b.flash).clock.bootCount,
      ((StoreOp.saveBootCount (b.flash.loadBootCount + 1)).steps p.answers).2)
  | _ => none

/-- The counts of the boots, in order. -/
def boots (pbDecode : List UInt8 → Option ClientToRadio) : Nrf52 → List Turn → List (UInt32 × Bool)
  | _, [] => []
  | b, t :: ts => (b.bootCount? t).toList ++ boots pbDecode (b.turn pbDecode t) ts

theorem storeOp_boots {a : Act} {op : StoreOp} (call : a.storeOp = some op) (l : Loaded) :
    (op.apply l).boots = l.boots := by
  cases a <;> cases call <;> rfl

theorem event_boots {s : CommandProcessor FlashStore} {e : Event} {op : StoreOp}
    (mine : op ∈ storeOps (s.step pbDecode e).acts) (l : Loaded) : (op.apply l).boots = l.boots := by
  obtain ⟨a, _, call⟩ := List.mem_filterMap.mp mine
  exact storeOp_boots call l

/-- A finished boot has the count after the saved one, and saves it if it can. -/
theorem count_setup (p : Setup) (f : Flash) :
    (setup p f).clock.bootCount = f.loadBootCount + 1 ∧
      ((setup p f).settingsStore.flash.loadBootCount = f.loadBootCount ∨
        (setup p f).settingsStore.flash.loadBootCount = f.loadBootCount + 1) ∧
      (((StoreOp.saveBootCount (f.loadBootCount + 1)).steps p.answers).2 = true →
        (setup p f).settingsStore.flash.loadBootCount = f.loadBootCount + 1) := by
  refine ⟨rfl, ?_, fun saved => ?_⟩
  · exact (setup_loaded p f).imp (congrArg Loaded.boots) (congrArg Loaded.boots)
  · exact congrArg Loaded.boots ((StoreOp.ends f (.saveBootCount _) p.answers).1 saved)

variable (pbDecode) in
/-- Nothing but a boot moves the count, by one. -/
theorem count_turn (b : Nrf52) (t : Turn) :
    (b.turn pbDecode t).flash.loadBootCount = b.flash.loadBootCount ∨
      (b.turn pbDecode t).flash.loadBootCount = b.flash.loadBootCount + 1 ∧ t.starts = true := by
  cases t with
  | setup p => exact (count_setup p b.flash).2.1.imp_right fun next => ⟨next, rfl⟩
  | setupCut p steps part =>
    exact (setupCut_loaded p b.flash steps part).imp (congrArg Loaded.boots)
      fun next => ⟨congrArg Loaded.boots next, rfl⟩
  | powerOff => cases b <;> exact .inl rfl
  | event answers e =>
    cases b with
    | off flash => exact .inl rfl
    | running s =>
      left
      show (FlashStore.flash _).loaded.boots = s.settingsStore.flash.loaded.boots
      rcases event_calls pbDecode s answers e with quiet | ⟨op, mine, call⟩
      · rw [quiet.settingsStore]
        rfl
      · rw [call]
        rcases perform_loaded ⟨s.settingsStore.flash, answers⟩ op with same | after
        · rw [same]
        · rw [after]
          exact event_boots mine _
  | eventCut answers e steps part =>
    cases b with
    | off flash => exact .inl rfl
    | running s =>
      left
      show (Flash.loaded _).boots = s.settingsStore.flash.loaded.boots
      rcases eventCut_loaded s.settingsStore.flash (length_storeOps _ _) answers steps part with
        same | ⟨op, mine, after⟩
      · exact congrArg Loaded.boots same
      · exact (congrArg Loaded.boots after).trans (event_boots mine _)

/-- Later boots count on from what is saved. -/
theorem boots_above {turns : List Turn} {b : Nrf52}
    (left : b.flash.loadBootCount.toNat + turns.countP Turn.starts < 2 ^ 32) {c : UInt32 × Bool}
    (h : c ∈ boots pbDecode b turns) : b.flash.loadBootCount.toNat < c.1.toNat := by
  induction turns generalizing b with
  | nil => cases h
  | cons t ts ih =>
    rw [List.countP_cons] at left
    have one : (1 : UInt32).toNat = 1 := rfl
    rcases List.mem_append.mp h with now | later
    · cases t with
      | setup p =>
        obtain rfl := List.mem_singleton.mp now
        rw [Turn.starts, if_pos rfl] at left
        rw [(count_setup p b.flash).1, UInt32.toNat_add]
        omega
      | setupCut | event | eventCut | powerOff => cases now
    · rcases count_turn pbDecode b t with same | ⟨next, starts⟩
      · have above := ih (by rw [same]; omega) later
        rwa [same] at above
      · rw [if_pos starts] at left
        have above := ih (by rw [next, UInt32.toNat_add]; omega) later
        rw [next, UInt32.toNat_add] at above
        omega

theorem boots_append (b : Nrf52) (ts us : List Turn) :
    b.boots pbDecode (ts ++ us) = b.boots pbDecode ts ++ (b.life pbDecode ts).boots pbDecode us := by
  induction ts generalizing b with
  | nil => rfl
  | cons t ts ih =>
    rw [List.cons_append, boots, boots, ih, List.append_assoc]
    rfl

theorem boots_rising {b : Nrf52} {turns : List Turn}
    (left : b.flash.loadBootCount.toNat + turns.countP Turn.starts < 2 ^ 32) :
    (b.boots pbDecode turns).Pairwise fun a b =>
      a.1.toNat ≤ b.1.toNat ∧ (a.2 = true → a.1.toNat < b.1.toNat) := by
  induction turns generalizing b with
  | nil => exact .nil
  | cons t ts ih =>
    rw [List.countP_cons] at left
    have one : (1 : UInt32).toNat = 1 := rfl
    have step := count_turn pbDecode b t
    have left' : (b.turn pbDecode t).flash.loadBootCount.toNat + ts.countP Turn.starts < 2 ^ 32 := by
      rcases step with same | ⟨next, starts⟩
      · rw [same]
        omega
      · rw [if_pos starts] at left
        rw [next, UInt32.toNat_add]
        omega
    have rest := ih left'
    cases t with
    | setup p =>
      rw [Turn.starts, if_pos rfl] at left
      refine List.pairwise_cons.mpr ⟨fun c later => ?_, rest⟩
      have above := boots_above left' later
      obtain ⟨count, _, saved⟩ := count_setup p b.flash
      rw [count, UInt32.toNat_add]
      refine ⟨?_, fun done => ?_⟩
      · rcases step with same | ⟨next, _⟩
        · rw [same] at above
          omega
        · rw [next, UInt32.toNat_add] at above
          omega
      · have counted : (b.turn pbDecode (.setup p)).flash.loadBootCount = _ := saved done
        rw [counted, UInt32.toNat_add] at above
        omega
    | setupCut | event | eventCut | powerOff => exact rest

theorem count_event (s : CommandProcessor FlashStore) (answers : FileAnswers) (e : Event) :
    ((answering s answers).step pbDecode e).state.clock.bootCount = s.clock.bootCount := by
  rw [step_clock]
  cases reading e <;> rfl

/-- **The count tells the boots apart.** Over any boots and power cuts, the counts never go back, and
a boot whose count was saved is told from every later one; the last of them is in the clock. -/
theorem boots_counted (pbDecode : List UInt8 → Option ClientToRadio) {f : Flash} {turns : List Turn}
    (left : f.loadBootCount.toNat + turns.countP Turn.starts < 2 ^ 32) :
    ((off f).boots pbDecode turns).Pairwise (fun a b =>
        a.1.toNat ≤ b.1.toNat ∧ (a.2 = true → a.1.toNat < b.1.toNat)) ∧
      ∀ s, (off f).life pbDecode turns = running s →
        ((off f).boots pbDecode turns).getLast?.map Prod.fst = some s.clock.bootCount := by
  refine ⟨boots_rising left, ?_⟩
  clear left
  induction turns using List.reverseRecOn with
  | nil => rintro s ⟨⟩
  | append_singleton ts t ih =>
    rw [life_concat, boots_append]
    generalize (off f).life pbDecode ts = b at ih ⊢
    cases t with
    | setup p =>
      rintro s ⟨⟩
      exact (congrArg _ List.getLast?_concat).trans rfl
    | setupCut p steps part => rintro s ⟨⟩
    | powerOff => cases b <;> rintro s ⟨⟩
    | event answers e =>
      cases b with
      | off flash => rintro s ⟨⟩
      | running s =>
        rintro t ⟨⟩
        rw [count_event, ← ih s rfl]
        exact congrArg (fun bs => (List.getLast? bs).map Prod.fst) (List.append_nil _)
    | eventCut answers e steps part =>
      cases b with
      | off flash => rintro s ⟨⟩
      | running s => rintro t ⟨⟩

theorem boots_counted_sample :
    ((off fun _ => none).boots decodeRequest (firstLife ++ secondLife)).Pairwise fun a b =>
      a.1.toNat ≤ b.1.toNat ∧ (a.2 = true → a.1.toNat < b.1.toNat) :=
  (boots_counted decodeRequest (by decide +kernel)).1

end Nrf52

end MeshPigeon
