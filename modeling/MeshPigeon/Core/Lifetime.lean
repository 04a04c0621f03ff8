import MeshPigeon.Core.Flash

/-!
# The life of an nRF52 board

`setup` and `loop` of `main.cpp` over a flash whose writes may fail, with the
power cut anywhere, boot after boot; and what one turn of such a life does to
the three records.
-/
namespace MeshPigeon

open Files (Cut exec cutAt)
open LittleEndian

variable {σ : Type}

/-! ## The processor over the flash -/

/-- The flash, and what the file system answers to the next call. -/
structure FlashStore where
  flash : Flash
  answers : FileAnswers

def FlashStore.perform (st : FlashStore) (op : StoreOp) : FlashStore :=
  { st with flash := exec st.flash (op.steps st.answers).1 }

instance : SettingsStore FlashStore where
  save st r := st.perform (.save r)
  load st := st.flash.load
  saveDevice st d := st.perform (.saveDevice d)
  loadDevice st := st.flash.loadDevice
  clearDevice st := st.perform .clearDevice

/-- The calls on the settings store. -/
def Act.storeOp : Act → Option StoreOp
  | .save s => some (.save s)
  | .saveDevice d => some (.saveDevice d)
  | .clearDevice => some .clearDevice
  | _ => none

/-- The call that stores a tuning. -/
def Act.saves : Act → Bool
  | .save _ => true
  | _ => false

def storeOps (acts : List Act) : List StoreOp := acts.filterMap Act.storeOp

theorem storeOps_append (as bs : List Act) : storeOps (as ++ bs) = storeOps as ++ storeOps bs :=
  List.filterMap_append

theorem storeOps_stored (stored : Option StoredPacket) :
    storeOps (stored.toList.map .storeAppend) = [] := by
  cases stored <;> rfl

theorem storeOps_none {acts : List Act} (h : ∀ a ∈ acts, a.storeOp = none) : storeOps acts = [] :=
  List.filterMap_eq_nil_iff.mpr h

namespace CommandProcessor

/-! ## What an event does to the configuration -/

theorem storeOps_hookCalls (s : CommandProcessor σ) (calls : List HookCall) :
    storeOps (s.hookCalls calls).acts = [] := by
  induction calls generalizing s with
  | nil => rfl
  | cons call calls ih =>
    rw [hookCalls, Outcome.andThen, storeOps_append, ih, List.append_nil]
    cases call with
    | wifiStateChanged link =>
      rw [hookCall, onWifiStateChanged_eq]
      rfl
    | removeSink c => rfl

theorem storeOps_announceName (s : CommandProcessor σ) (env : Env) (m : SetDeviceSettingsMessage) :
    storeOps (s.announceName env m).acts = [] := by
  unfold announceName
  split <;> rfl

theorem storeOps_applyWifi (s : CommandProcessor σ) (env : Env) (m : SetDeviceSettingsMessage) :
    storeOps (s.applyWifi env m).acts = [] := by
  unfold applyWifi
  split
  · rfl
  · split
    · rw [Outcome.andThen, storeOps_append, storeOps_hookCalls]
      rfl
    · rfl

variable [SettingsStore σ]

/-- An accepted write of the device settings. -/
def Writes (pbDecode : List UInt8 → Option ClientToRadio) (s : CommandProcessor σ) (e : Event)
    (m : SetDeviceSettingsMessage) : Prop :=
  ∃ env data sink req, e = .envelope env data sink ∧ decodeEnvelope pbDecode data = some req ∧
    req.body = .setDeviceSettings m ∧ AcceptsDevice s env m sink

def Resets (pbDecode : List UInt8 → Option ClientToRadio) (s : CommandProcessor σ) (e : Event) :
    Prop :=
  ∃ env data sink req, e = .envelope env data sink ∧ decodeEnvelope pbDecode data = some req ∧
    req.body = .factoryReset ∧ s.isAuthorized sink = true

/-- What one event can do to the configuration, with its calls on the store. -/
inductive Configures (pbDecode : List UInt8 → Option ClientToRadio) (s : CommandProcessor σ)
    (e : Event) (t : CommandProcessor σ) : List StoreOp → Prop where
  | kept : Unconfigured s t → Configures pbDecode s e t []
  | tuned {m : RadioSettingsMessage} : t.settings = s.nextTuning m → t.device = s.device →
      t.settingsStore = SettingsStore.save s.settingsStore (s.nextTuning m) →
      Configures pbDecode s e t [.save (s.nextTuning m)]
  | written {m : SetDeviceSettingsMessage} : Writes pbDecode s e m → t.settings = s.settings →
      t.device = candidate s.device m →
      t.settingsStore = SettingsStore.saveDevice s.settingsStore (candidate s.device m) →
      Configures pbDecode s e t [.saveDevice (candidate s.device m)]
  | reset : Resets pbDecode s e → t.settings = s.settings → t.device = DeviceSettings.defaults →
      t.settingsStore = SettingsStore.clearDevice s.settingsStore →
      Configures pbDecode s e t [.clearDevice]

variable {s : CommandProcessor σ} {pbDecode : List UInt8 → Option ClientToRadio}

theorem Handled.configures {env : Env} {data : List UInt8} {sink : Sink} {req : ClientToRadio}
    {o : Outcome σ} (decoded : decodeEnvelope pbDecode data = some req)
    (request : o = s.handleRequest env req sink) (handled : Handled s env req sink o) :
    Configures pbDecode s (.envelope env data sink) o.state (storeOps o.acts) := by
  have same {t : CommandProcessor σ} {acts : List Act} (state : o.state = t) (calls : o.acts = acts)
      (settings : t.settings = s.settings) (device : t.device = s.device)
      (saved : t.settingsStore = s.settingsStore) (silent : storeOps acts = []) :
      Configures pbDecode s (.envelope env data sink) o.state (storeOps o.acts) := by
    rw [state, calls, silent]
    exact .kept ⟨settings, device, saved⟩
  cases handled with
  | answered _ _ answer =>
    rw [answer] at same ⊢
    exact same rfl rfl rfl rfl rfl rfl
  | @auth pin _ answer =>
    obtain ⟨_, _, _, _, _, _, answers⟩ := handleAuth_answers s req.id pin sink
    rw [answer, answers] at same ⊢
    exact same rfl rfl rfl rfl rfl rfl
  | retuneFailed _ _ _ state acts => exact same state acts rfl rfl rfl rfl
  | @retuned m response _ _ _ _ _ state acts =>
    rw [state, acts]
    exact .tuned rfl rfl rfl
  | storeRefused _ _ state acts | sendFailed _ _ _ _ state acts | sent _ _ _ _ state acts =>
    refine same state acts rfl rfl rfl ?_
    rw [storeOps_append, storeOps_stored]
    rfl
  | @fetched sinceSeq maxCount response _ _ _ state acts =>
    refine same state acts rfl rfl rfl ?_
    rw [storeOps_append, storeOps_none fun a ha => ?_]
    · rfl
    · obtain ⟨e, _, rfl⟩ := List.mem_map.mp ha
      rfl
  | purged _ state acts => exact same state acts rfl rfl rfl rfl
  | @restarted a which state acts =>
    refine same state acts rfl rfl rfl ?_
    split
    · rcases which with ⟨_, rfl⟩ | ⟨_, rfl⟩ <;> rfl
    · rfl
  | reset body state acts =>
    have authorized : s.isAuthorized sink = true := by
      by_contra stranger
      have refused : o = s.answer ⟨req.id, .error .authRequired []⟩ sink := by
        rw [request, handleRequest, body]
        exact requireAuth_stranger _ _ (Bool.eq_false_iff.mpr stranger) _
      rw [refused] at acts
      cases acts
    rw [state, acts]
    have ops : storeOps (([.clearDevice, .storeClear, .frame [sink] ⟨req.id, .ok⟩] : List Act) ++
        if env.hooks.isSome then [.factoryReset] else []) = [.clearDevice] := by
      split <;> rfl
    rw [ops]
    exact .reset ⟨env, data, sink, req, rfl, decoded, body, authorized⟩ rfl rfl rfl
  | @written m t response body accepts change written _ state acts =>
    obtain ⟨_, _, _, eq⟩ := s.deviceWritten_eq m sink
    have device : t.device = candidate s.device m := by rw [written, eq]
    have settings : t.settings = s.settings := by rw [written, eq]
    have saved : t.settingsStore =
        SettingsStore.saveDevice s.settingsStore (candidate s.device m) := by rw [written, eq]
    have ops : storeOps o.acts = [.saveDevice (candidate s.device m)] := by
      rw [acts, storeOps_append, List.cons_append, ← List.singleton_append, storeOps_append,
        storeOps_append, storeOps_announceName, storeOps_applyWifi, device]
      rfl
    rw [ops, state]
    exact .written ⟨env, data, sink, req, rfl, decoded, body, accepts⟩ settings device saved

theorem step_configures (pbDecode : List UInt8 → Option ClientToRadio) (s : CommandProcessor σ)
    (e : Event) :
    Configures pbDecode s e (s.step pbDecode e).state (storeOps (s.step pbDecode e).acts) := by
  cases step_stepped pbDecode s e with
  | requested event decoded request handled =>
    subst event
    exact handled.configures decoded request
  | @connected sink _ same =>
    obtain ⟨_, added, _⟩ := (s.setAuthenticated sink false).addSink_eq sink
    rw [same, added]
    exact .kept ⟨rfl, rfl, rfl⟩
  | unheard _ _ same =>
    rw [same, storeOps_stored]
    exact .kept ⟨rfl, rfl, rfl⟩
  | relinked _ same | disconnected _ same | dropped _ _ same | heard _ _ _ _ same
  | ticked _ _ same | finished _ _ same | stale _ same | reported _ _ same | linkChanged _ same =>
    rw [same]
    exact .kept ⟨rfl, rfl, rfl⟩

end CommandProcessor

/-! ## The board -/

/-- What `setup` is given: the board's constants and what its parts answer. -/
structure Setup where
  kStoreBytes : UInt32
  kBoardName : List UInt8
  kFwVersion : List UInt8
  /-- to `save_boot_count` -/
  answers : FileAnswers
  beginOk : Bool
  applyOk : Bool
  /-- what is in the memory of `response_` -/
  response : RadioToClient

/-- The processor that `setup` leaves running. -/
def setup (p : Setup) (f : Flash) : CommandProcessor FlashStore :=
  let bootCount := f.loadBootCount + 1
  let store := FlashStore.perform ⟨f, p.answers⟩ (.saveBootCount bootCount)
  ((CommandProcessor.new (Store.new p.kStoreBytes) { bootCount := bootCount } store p.kBoardName
    p.kFwVersion p.response).boot p.beginOk p.applyOk).state

/-- The flash of a board that is off, or the processor that runs over it. -/
inductive Nrf52 where
  | off (flash : Flash)
  | running (s : CommandProcessor FlashStore)

namespace Nrf52

/-- A reset and `setup`, an event, or the power going: while `setup` or an event has so many steps
on the file system done, or in between. -/
inductive Turn where
  | setup (p : Setup)
  | setupCut (p : Setup) (steps part : Nat)
  | event (answers : FileAnswers) (e : Event)
  | eventCut (answers : FileAnswers) (e : Event) (steps part : Nat)
  | powerOff

def Turn.event? : Turn → Option Event
  | .event _ e => some e
  | .eventCut _ e _ _ => some e
  | _ => none

def flash : Nrf52 → Flash
  | off flash => flash
  | running s => s.settingsStore.flash

def answering (s : CommandProcessor FlashStore) (answers : FileAnswers) :
    CommandProcessor FlashStore :=
  { s with settingsStore := { s.settingsStore with answers := answers } }

variable (pbDecode : List UInt8 → Option ClientToRadio)

/-- The steps on the file system that `setup` takes. -/
def setupSteps (p : Setup) (f : Flash) : List (Files.Step RecordPath UInt8) :=
  ((StoreOp.saveBootCount (f.loadBootCount + 1)).steps p.answers).1

/-- The steps an event takes. -/
def eventSteps (s : CommandProcessor FlashStore) (answers : FileAnswers) (e : Event) :
    List (Files.Step RecordPath UInt8) :=
  (storeOps ((answering s answers).step pbDecode e).acts).flatMap fun op => (op.steps answers).1

def turn : Nrf52 → Turn → Nrf52
  | b, .setup p => running (MeshPigeon.setup p b.flash)
  | b, .setupCut p steps part => off (exec b.flash (cutAt (setupSteps p b.flash) steps part))
  | running s, .event answers e => running ((answering s answers).step pbDecode e).state
  | running s, .eventCut answers e steps part =>
    off (exec s.settingsStore.flash (cutAt (eventSteps pbDecode s answers e) steps part))
  | b, .powerOff => off b.flash
  | off flash, _ => off flash

def life (b : Nrf52) (turns : List Turn) : Nrf52 := turns.foldl (turn pbDecode) b

theorem life_append (b : Nrf52) (ts us : List Turn) :
    b.life pbDecode (ts ++ us) = (b.life pbDecode ts).life pbDecode us := List.foldl_append

theorem life_concat (b : Nrf52) (ts : List Turn) (t : Turn) :
    b.life pbDecode (ts ++ [t]) = (b.life pbDecode ts).turn pbDecode t := life_append ..

variable {pbDecode}

/-- What holds of a board that is off and is kept by every turn holds all its life. -/
theorem life_invariant {P : Nrf52 → Prop} {f : Flash} (start : P (off f)) {turns : List Turn}
    (kept : ∀ b, P b → ∀ t ∈ turns, P (b.turn pbDecode t)) : P ((off f).life pbDecode turns) := by
  induction turns using List.reverseRecOn with
  | nil => exact start
  | append_singleton ts t ih =>
    rw [life_concat]
    exact kept _ (ih fun b h u hu => kept b h u (List.mem_append_left _ hu)) t
      (List.mem_append_right _ List.mem_cons_self)

end Nrf52

/-! ## The records -/

/-- What the records come to at a boot. -/
def Loaded.config (l : Loaded) : RadioSettings × DeviceSettings :=
  (l.radio.getD RadioSettings.unset, CommandProcessor.portDefaulted l.dev)

theorem perform_loaded (st : FlashStore) (op : StoreOp) :
    (st.perform op).flash.loaded = st.flash.loaded ∨
      (st.perform op).flash.loaded = op.apply st.flash.loaded := by
  cases result : (op.steps st.answers).2 with
  | false => exact .inl ((op.ends st.flash st.answers).2 result)
  | true => exact .inr ((op.ends st.flash st.answers).1 result)

/-- The file system takes every record. -/
def FileAnswers.Able (fs : FileAnswers) : Prop :=
  ∀ (op : StoreOp) buf, op.content = some buf → fs.Good buf

/-- The file system takes what a finished event writes. -/
def Nrf52.Turn.Able : Nrf52.Turn → Prop
  | .event answers _ => answers.Able
  | _ => True

theorem able_roomy : FileAnswers.Able ⟨true, 1000, true⟩ := by
  intro op buf content
  refine ⟨rfl, ?_, rfl⟩
  cases op <;> cases content
  · exact Nat.le_trans (Nat.le_of_eq (RadioSettings.length_serialize _)) (by decide)
  · exact Nat.le_trans (Nat.le_of_eq (DeviceSettings.length_serialize _)) (by decide)
  · exact Nat.le_trans (Nat.le_of_eq (length_put 4 _)) (by decide)

theorem perform_able (st : FlashStore) (able : st.answers.Able) (op : StoreOp) :
    (st.perform op).flash.loaded = op.apply st.flash.loaded := by
  refine (op.ends st.flash st.answers).1 ?_
  cases op.shape st.answers with
  | replaces _ _ steps | removes _ steps => rw [steps]
  | fails content bad _ _ => exact absurd (able op _ content) bad

theorem Flash.loadDevice_closed (f : Flash) : f.loadDevice.Closed :=
  LawfulSettingsStore.keeps_loaded f.settings

theorem closed_portDefaulted {d : DeviceSettings} (closed : d.Closed) :
    (CommandProcessor.portDefaulted d).Closed := by
  unfold CommandProcessor.portDefaulted
  split
  · exact ⟨closed.name, closed.pin, closed.wifiSsid, closed.wifiPassword⟩
  · exact closed

theorem apply_save (l : Loaded) {s : RadioSettings} (version : s.version = kSerializedVersion) :
    (StoreOp.save s).apply l = { l with radio := some s } := by
  rw [StoreOp.apply, RadioSettings.deserialize_serialize version]

theorem apply_saveDevice (l : Loaded) {d : DeviceSettings} (closed : d.Closed) :
    (StoreOp.saveDevice d).apply l = { l with dev := d } := by
  rw [StoreOp.apply, DeviceSettings.deserialize_serialize closed]
  rfl

namespace Nrf52

open CommandProcessor

variable {pbDecode : List UInt8 → Option ClientToRadio} {f : Flash} {b : Nrf52}
  {s : CommandProcessor FlashStore}

theorem setup_loaded (p : Setup) (f : Flash) :
    (MeshPigeon.setup p f).settingsStore.flash.loaded = f.loaded ∨
      (MeshPigeon.setup p f).settingsStore.flash.loaded =
        { f.loaded with boots := f.loadBootCount + 1 } :=
  perform_loaded ⟨f, p.answers⟩ (.saveBootCount (f.loadBootCount + 1))

theorem setupCut_loaded (p : Setup) (f : Flash) (steps part : Nat) :
    let cut : Flash := exec f (cutAt (setupSteps p f) steps part)
    cut.loaded = f.loaded ∨ cut.loaded = { f.loaded with boots := f.loadBootCount + 1 } :=
  StoreOp.cut f (Files.cut_cutAt _ steps part)

/-- Before the event's one call on the store, or after it. -/
theorem eventCut_loaded (f : Flash) {ops : List StoreOp} (one : ops.length ≤ 1)
    (answers : FileAnswers) (steps part : Nat) :
    let cut : Flash := exec f (cutAt (ops.flatMap fun op => (op.steps answers).1) steps part)
    cut.loaded = f.loaded ∨ ∃ op ∈ ops, cut.loaded = op.apply f.loaded := by
  match ops with
  | [] =>
    left
    have none : cutAt (([] : List StoreOp).flatMap fun op => (op.steps answers).1) steps part =
        [] := by simp [cutAt]
    simp only [none]
    rfl
  | [op] =>
    simp only [List.flatMap_singleton]
    exact (StoreOp.cut f (Files.cut_cutAt _ steps part)).imp_right fun after =>
      ⟨op, List.mem_cons_self, after⟩

theorem length_storeOps (s : CommandProcessor FlashStore) (e : Event) :
    (storeOps (s.step pbDecode e).acts).length ≤ 1 := by
  have h := step_configures pbDecode s e
  generalize storeOps (s.step pbDecode e).acts = ops at h
  cases h <;> simp

variable (pbDecode) in
/-- An event changes nothing that is kept, or makes one call on the store. -/
theorem event_calls (s : CommandProcessor FlashStore) (answers : FileAnswers) (e : Event) :
    let o := (answering s answers).step pbDecode e
    Unconfigured (answering s answers) o.state ∨ ∃ op ∈ storeOps o.acts,
      o.state.settingsStore = FlashStore.perform ⟨s.settingsStore.flash, answers⟩ op := by
  intro o
  have configures : Configures pbDecode (answering s answers) e o.state (storeOps o.acts) :=
    step_configures pbDecode (answering s answers) e
  generalize storeOps o.acts = ops at configures ⊢
  cases configures with
  | kept same => exact .inl same
  | tuned _ _ saved | written _ _ _ saved | reset _ _ _ saved =>
    exact .inr ⟨_, List.mem_cons_self, saved⟩

end Nrf52

end MeshPigeon
