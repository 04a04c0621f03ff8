import MeshPigeon.Transport.WifiBoard
import MeshPigeon.Transport.WifiSound

/-! What holds of the Wi-Fi link and of the registry, whatever happens to the board. -/
namespace MeshPigeon

/-- The link state a frame pushes. -/
def Act.pushedState : Act → Option WifiState
  | .frame _ ⟨id, .status m⟩ => if id = 0 then some m.wifiState else none
  | _ => none

def WifiSeen.pushedState : WifiSeen → Option WifiState
  | .core a => a.pushedState
  | _ => none

def WifiSeen.changed : WifiSeen → Option WifiTransport.State
  | .link e => e.changes
  | _ => none

/-- A call that neither reconfigures the link nor pushes a status. -/
structure Act.Linkless (a : Act) : Prop where
  apply : ∀ settings, a ≠ .applyWifi settings
  push : a.pushedState = none

/-- Neither a frame nor a call of `apply_wifi`. -/
def Act.isCall : Act → Bool
  | .frame _ _ => false
  | .applyWifi _ => false
  | _ => true

namespace CommandProcessor

variable {σ : Type}

/-- The processor leaves the link alone, and the registry of the slots. -/
structure Linkless (s : CommandProcessor σ) (o : Outcome σ) : Prop where
  acts : ∀ a ∈ o.acts, a.Linkless
  sinks : ∀ i : Slot, o.state.sinks.count i.sink = s.sinks.count i.sink

/-- The processor hands settings to the link, and hears of what that does. -/
structure Relinks (s : CommandProcessor σ) (h : Hooks) (settings : DeviceSettings)
    (o : Outcome σ) : Prop where
  acts : ∃ front back, (∀ a ∈ front, a.Linkless) ∧ (∀ a ∈ back, a.Linkless) ∧
    ∃ t : CommandProcessor σ,
      o.acts = front ++ .applyWifi settings :: (t.hookCalls (h.applyWifi settings)).acts ++ back
  sinks : o.state.sinks = removing s.sinks (h.applyWifi settings)

theorem linkless_call {a : Act} (call : a.isCall = true) : a.Linkless := by
  constructor
  · rintro settings rfl
    cases call
  · cases a with
    | frame dest msg => cases call
    | _ => rfl

theorem linkless_answer (dest : List Sink) {id : UInt32} (request : id ≠ 0) (body : Body) :
    (Act.frame dest ⟨id, body⟩).Linkless := by
  refine ⟨nofun, ?_⟩
  cases body with
  | status m => exact if_neg request
  | _ => rfl

theorem linkless_push (dest : List Sink) (id : UInt32) {body : Body} (other : ∀ m, body ≠ .status m) :
    (Act.frame dest ⟨id, body⟩).Linkless := by
  refine ⟨nofun, ?_⟩
  cases body with
  | status m => exact absurd rfl (other m)
  | _ => rfl

theorem linkless_stored (stored : Option StoredPacket) :
    ∀ a ∈ stored.toList.map Act.storeAppend, a.Linkless := by
  intro a ha
  obtain ⟨_, _, rfl⟩ := List.mem_map.mp ha
  exact linkless_call rfl

theorem linkless_announceName (t : CommandProcessor σ) (env : Env) (m : SetDeviceSettingsMessage) :
    ∀ a ∈ (t.announceName env m).acts, a.Linkless := by
  intro a ha
  unfold announceName at ha
  split at ha
  · rw [List.mem_singleton.mp ha]
    exact linkless_call rfl
  · cases ha

/-- The link is told of a write that touches it, and of no other. -/
theorem applyWifi_called (t : CommandProcessor σ) {env : Env} {h : Hooks}
    (hooks : env.hooks = some h) (m : SetDeviceSettingsMessage) :
    (t.applyWifi env m).acts = [] ∧ t.linkCalls env m = [] ∨
      (t.applyWifi env m).acts =
          .applyWifi t.device :: (t.hookCalls (h.applyWifi t.device)).acts ∧
        t.linkCalls env m = h.applyWifi t.device := by
  cases touched : wifiTouched m with
  | false => exact .inl ⟨by simp [applyWifi, hooks, touched], by simp [linkCalls, touched]⟩
  | true => exact .inr ⟨by simp [applyWifi, hooks, touched], by simp [linkCalls, touched, hooks]⟩

variable [SettingsStore σ]

/-- **What a request does to the link.** -/
theorem request_link {s : CommandProcessor σ} {env : Env} {h : Hooks} (hooks : env.hooks = some h)
    {req : ClientToRadio} {sink : Sink} {o : Outcome σ} (request : req.id ≠ 0)
    (handled : Handled s env req sink o) :
    Linkless s o ∨ ∃ settings, Relinks s h settings o := by
  have answer (body : Body) : (Act.frame [sink] ⟨req.id, body⟩).Linkless :=
    linkless_answer [sink] request body
  have callAnswer {act : Act} (call : act.isCall = true) (body : Body) :
      ∀ a ∈ [act, .frame [sink] ⟨req.id, body⟩], a.Linkless := by
    simp only [List.mem_cons, List.not_mem_nil, or_false]
    rintro a (rfl | rfl)
    · exact linkless_call call
    · exact answer body
  cases handled with
  | @answered body _ _ same =>
    left
    rw [same]
    refine ⟨fun a ha => ?_, fun _ => rfl⟩
    rw [List.mem_singleton.mp ha]
    exact answer body
  | @auth pin _ same =>
    left
    obtain ⟨_, _, _, verdict, _, _, answers⟩ := handleAuth_answers s req.id pin sink
    rw [same, answers]
    refine ⟨fun a ha => ?_, fun _ => rfl⟩
    rw [List.mem_singleton.mp ha]
    exact answer verdict
  | retuneFailed _ _ _ state acts =>
    left
    refine ⟨?_, fun _ => by rw [state]⟩
    rw [acts]
    exact callAnswer rfl _
  | retuned _ _ _ _ named state acts =>
    left
    refine ⟨?_, fun _ => by rw [state]; rfl⟩
    rw [acts, named]
    simp only [List.mem_cons, List.not_mem_nil, or_false]
    rintro a (rfl | rfl | rfl | rfl)
    · exact linkless_call rfl
    · exact linkless_call rfl
    · exact linkless_push _ 0 nofun
    · exact answer _
  | storeRefused _ _ state acts =>
    left
    refine ⟨?_, fun _ => by rw [state]⟩
    rw [acts]
    intro a ha
    rcases List.mem_append.mp ha with ha | ha
    · exact linkless_stored _ a ha
    · rw [List.mem_singleton.mp ha]
      exact answer _
  | sent _ _ _ _ state acts =>
    left
    refine ⟨?_, fun _ => by rw [state]⟩
    rw [acts]
    simp only [List.mem_append, List.mem_cons, List.not_mem_nil, or_false]
    rintro a (ha | rfl | rfl)
    · exact linkless_stored _ a ha
    · exact answer _
    · exact linkless_call rfl
  | sendFailed _ _ _ _ state acts =>
    left
    refine ⟨?_, fun _ => by rw [state]⟩
    rw [acts]
    simp only [List.mem_append, List.mem_cons, List.not_mem_nil, or_false]
    rintro a (ha | rfl | rfl | rfl)
    · exact linkless_stored _ a ha
    · exact answer _
    · exact linkless_call rfl
    · exact linkless_push _ 0 nofun
  | fetched _ _ named state acts =>
    left
    refine ⟨?_, fun _ => by rw [state]⟩
    rw [acts, named]
    intro a ha
    rcases List.mem_append.mp ha with ha | ha
    · obtain ⟨e, _, rfl⟩ := List.mem_map.mp ha
      exact answer _
    · rw [List.mem_singleton.mp ha]
      exact answer _
  | purged _ state acts =>
    left
    refine ⟨?_, fun _ => by rw [state]⟩
    rw [acts]
    exact callAnswer rfl _
  | restarted called state acts =>
    left
    refine ⟨?_, fun _ => by rw [state]⟩
    rw [acts, hooks]
    simp only [Option.isSome_some, if_true, List.mem_cons, List.not_mem_nil, or_false]
    rintro a (rfl | rfl)
    · exact answer _
    · rcases called with ⟨_, rfl⟩ | ⟨_, rfl⟩ <;> exact linkless_call rfl
  | reset _ state acts =>
    left
    refine ⟨?_, fun _ => by rw [state]; rfl⟩
    rw [acts, hooks]
    simp only [Option.isSome_some, if_true, List.cons_append, List.nil_append, List.mem_cons,
      List.not_mem_nil, or_false]
    rintro a (rfl | rfl | rfl | rfl)
    · exact linkless_call rfl
    · exact linkless_call rfl
    · exact answer _
    · exact linkless_call rfl
  | @written m t response _ _ _ written named state acts =>
    have same : t.sinks = s.sinks := by rw [written, s.deviceWritten_sinks m sink]
    have front : ∀ a ∈ Act.saveDevice t.device :: (t.announceName env m).acts, a.Linkless := by
      intro a ha
      rcases List.mem_cons.mp ha with rfl | ha
      · exact linkless_call rfl
      · exact linkless_announceName t env m a ha
    have back (dest : List Sink) :
        ∀ a ∈ [Act.frame dest { response with id := 0 }, .frame [sink] response], a.Linkless := by
      rw [named]
      simp only [List.mem_cons, List.not_mem_nil, or_false]
      rintro a (rfl | rfl)
      · exact linkless_push dest 0 nofun
      · exact answer _
    rcases t.applyWifi_called hooks m with ⟨uncalled, kept⟩ | ⟨called, calls⟩
    · left
      refine ⟨?_, fun _ => by rw [state, kept, ← same]; rfl⟩
      rw [acts, uncalled, List.append_nil]
      intro a ha
      rcases List.mem_append.mp ha with ha | ha
      · exact front a ha
      · exact back _ a ha
    · right
      rw [called] at acts
      refine ⟨t.device, ⟨_, _, front, back _, t, acts⟩, ?_⟩
      rw [state, calls, same]

/-- Events that are no request leave the link alone, and the registry of the slots. -/
theorem step_linkless (pbDecode : List UInt8 → Option ClientToRadio) (s : CommandProcessor σ)
    {e : Event} (other : ∀ env data sink, e ≠ .envelope env data sink)
    (other' : ∀ link, e ≠ .wifiStateChanged link)
    (outside : ∀ sink, e = .connect sink ∨ e = .disconnect sink → kMaxClients ≤ sink) :
    Linkless s (s.step pbDecode e) := by
  have distinct {sink : Sink} (far : kMaxClients ≤ sink) (i : Slot) : i.sink ≠ sink :=
    Nat.ne_of_lt (Nat.lt_of_lt_of_le i.isLt far)
  have silent {t : CommandProcessor σ} (sinks : ∀ i : Slot, t.sinks.count i.sink = s.sinks.count i.sink) :
      Linkless s t.quiet := ⟨fun _ ha => (List.not_mem_nil ha).elim, sinks⟩
  have pushed (dest : List Sink) (seq : UInt32) (ok : Bool) :
      ∀ a ∈ [Act.frame dest ⟨0, .txResult seq ok⟩], a.Linkless := by
    intro a ha
    rw [List.mem_singleton.mp ha]
    exact linkless_push dest 0 (by simp)
  cases s.step_stepped pbDecode e with
  | @connected sink event same =>
    rw [same]
    apply silent
    intro i
    have far := distinct (outside sink (.inl event)) i
    unfold addSink
    split
    · rfl
    · simp [setAuthenticated, far.symm]
  | relinked _ same =>
    rw [same]
    exact silent fun _ => rfl
  | @disconnected sink event same =>
    rw [same]
    apply silent
    intro i
    exact List.count_erase_of_ne (distinct (outside sink (.inr event)) i)
  | dropped event => exact absurd event (other _ _ _)
  | requested event => exact absurd event (other _ _ _)
  | unheard _ _ same =>
    rw [same]
    exact ⟨linkless_stored _, fun _ => rfl⟩
  | heard _ _ _ _ same =>
    rw [same]
    refine ⟨?_, fun _ => rfl⟩
    simp only [List.mem_cons, List.not_mem_nil, or_false]
    rintro a (rfl | rfl)
    · exact linkless_call rfl
    · exact linkless_push _ 0 (by simp)
  | ticked _ _ same =>
    rw [same]
    exact silent fun _ => rfl
  | finished _ _ same =>
    rw [same]
    exact ⟨pushed _ _ _, fun _ => rfl⟩
  | stale _ same =>
    rw [same]
    exact silent fun _ => rfl
  | reported _ _ same =>
    rw [same]
    exact ⟨pushed _ _ _, fun _ => rfl⟩
  | linkChanged event => exact absurd event (other' _)

end CommandProcessor

namespace WifiBoard

open CommandProcessor WifiTransport

variable {σ : Type}

/-- The link states pushed, in order. -/
def pushedStates (log : List WifiSeen) : List WifiState := log.filterMap WifiSeen.pushedState

/-- The values given to `state_`, in order. -/
def changesIn (log : List WifiSeen) : List WifiTransport.State := log.filterMap WifiSeen.changed

/-- The link is sound, the registry holds its slots, and every change of its state has
been pushed. -/
structure Agreed (b : WifiBoard σ) (log : List WifiSeen) : Prop where
  sound : b.wifi.Sound
  registered : ∀ i : Slot, b.core.sinks.count i.sink = b.wifi.held i
  pushes : pushedStates log = (changesIn log).map State.wire
  path : Path .off (changesIn log) b.wifi.state

/-- A call keeps the agreement. -/
def Keeps (b : WifiBoard σ) (r : Ran σ) : Prop := ∀ log, Agreed b log → Agreed r.1 (log ++ r.2)

theorem Keeps.andThen {b : WifiBoard σ} {r : Ran σ} {f : WifiBoard σ → Ran σ} (h : Keeps b r)
    (h' : Keeps r.1 (f r.1)) : Keeps b (r.andThen f) := by
  intro log agreed
  rw [Ran.andThen, ← List.append_assoc]
  exact h' _ (h log agreed)

theorem keeps_refl (b : WifiBoard σ) : Keeps b (b, []) := by
  intro log agreed
  rw [List.append_nil]
  exact agreed

/-! ## What the processor hears -/

theorem removing_count (i : Slot) (es : List Effect) (sinks : List Sink) :
    (removing sinks (es.map Effect.hookCall)).count i.sink =
      sinks.count i.sink - es.countP (·.drops i) := by
  induction es generalizing sinks with
  | nil => rfl
  | cons e es ih =>
    cases e with
    | changed s link =>
      rw [List.countP_cons_of_neg (by simp [Effect.drops])]
      exact ih sinks
    | dropped j =>
      have rest := ih (sinks.erase j.sink)
      by_cases same : j = i
      · subst same
        rw [List.count_erase_self] at rest
        rw [List.countP_cons_of_pos (by simp [Effect.drops]), Nat.add_comm, ← Nat.sub_sub]
        exact rest
      · have other : i.sink ≠ j.sink := fun eq => same (Fin.ext eq.symm)
        rw [List.count_erase_of_ne other] at rest
        rw [List.countP_cons_of_neg (by simp [Effect.drops, same])]
        exact rest

/-- The processor pushes every change it hears of, and calls nothing else. -/
theorem hookCalls_pushed {es : List Effect} (told : ∀ e ∈ es, e.Told) (s : CommandProcessor σ) :
    (s.hookCalls (es.map Effect.hookCall)).acts.filterMap Act.pushedState =
      (changes es).map State.wire := by
  induction es generalizing s with
  | nil => rfl
  | cons e es ih =>
    have rest := fun s => ih (fun e he => told e (List.mem_cons_of_mem _ he)) s
    rw [List.map_cons, hookCalls, andThen_acts, List.filterMap_append, rest]
    cases e with
    | dropped i => rfl
    | changed state link =>
      have wire : (link.fillStatus {}).wifiState = state.wire :=
        told (.changed state link) List.mem_cons_self {}
      rw [Effect.hookCall, hookCall, onWifiStateChanged_eq]
      show (statusMessage (some link)).wifiState :: _ = state.wire :: _
      rw [← wire]
      rfl

theorem hookCalls_registered {b : WifiBoard σ} {r : Linked} (moves : Moves b.wifi r)
    {sinks : List Sink} (registered : ∀ i : Slot, sinks.count i.sink = b.wifi.held i) (i : Slot) :
    (removing sinks (r.2.map Effect.hookCall)).count i.sink = r.1.held i := by
  rw [removing_count, registered i, ← moves.slots i, Nat.add_sub_cancel]

theorem pushedStates_core (acts : List Act) :
    pushedStates (acts.map .core) = acts.filterMap Act.pushedState := by
  rw [pushedStates, List.filterMap_map]
  rfl

theorem changesIn_core (acts : List Act) : changesIn (acts.map .core) = [] := by
  rw [changesIn, List.filterMap_map, List.filterMap_eq_nil_iff]
  intro a _
  rfl

theorem pushedStates_link (es : List Effect) : pushedStates (es.map .link) = [] := by
  rw [pushedStates, List.filterMap_map, List.filterMap_eq_nil_iff]
  intro e _
  rfl

theorem changesIn_link (es : List Effect) : changesIn (es.map .link) = changes es := by
  rw [changesIn, List.filterMap_map]
  rfl

theorem pushedStates_append (log log' : List WifiSeen) :
    pushedStates (log ++ log') = pushedStates log ++ pushedStates log' := List.filterMap_append

theorem changesIn_append (log log' : List WifiSeen) :
    changesIn (log ++ log') = changesIn log ++ changesIn log' := List.filterMap_append

/-- Calls that leave the link alone push no state. -/
theorem pushed_linkless {acts : List Act} (h : ∀ a ∈ acts, a.Linkless) :
    acts.filterMap Act.pushedState = [] :=
  List.filterMap_eq_nil_iff.mpr fun a ha => (h a ha).push

/-! ## What each call keeps -/

/-- The link acts, and the processor hears of it. -/
theorem keeps_settle {b : WifiBoard σ} {r : Linked} (moves : Moves b.wifi r)
    (sound : b.wifi.Sound → r.1.Sound) : Keeps b (b.settle r) := by
  intro log agreed
  obtain ⟨response, heard⟩ := hookCalls_sinks (r.2.map Effect.hookCall) b.core
  constructor
  · exact sound agreed.sound
  · intro i
    rw [settle, heard]
    exact hookCalls_registered moves agreed.registered i
  · simp only [settle, pushedStates_append, changesIn_append, pushedStates_link, changesIn_link,
      pushedStates_core, changesIn_core, hookCalls_pushed moves.told, List.nil_append,
      List.append_nil, List.map_append, agreed.pushes]
  · simp only [settle, changesIn_append, changesIn_link, changesIn_core, List.append_nil]
    exact agreed.path.append moves.path

/-- The processor acts, and leaves the link alone. -/
theorem keeps_linkless {b : WifiBoard σ} {o : Outcome σ} (h : Linkless b.core o) :
    Keeps b (b.aside o) := by
  intro log agreed
  constructor
  · exact agreed.sound
  · intro i
    exact (h.sinks i).trans (agreed.registered i)
  · simp only [aside, pushedStates_append, changesIn_append, pushedStates_core, changesIn_core,
      pushed_linkless h.acts, List.append_nil, agreed.pushes]
  · simp only [aside, changesIn_append, changesIn_core, List.append_nil]
    exact agreed.path

/-- All the processor does when it hears of the link is push a status. -/
theorem hookCalls_frames (calls : List HookCall) (s : CommandProcessor σ) :
    ∀ act ∈ (s.hookCalls calls).acts, ∃ dest m, act = .frame dest ⟨0, .status m⟩ := by
  induction calls generalizing s with
  | nil => nofun
  | cons call calls ih =>
    rw [hookCalls, andThen_acts]
    intro act hact
    rcases List.mem_append.mp hact with first | later
    · cases call with
      | wifiStateChanged link =>
        rw [hookCall, onWifiStateChanged_eq] at first
        exact ⟨_, _, List.mem_singleton.mp first⟩
      | removeSink c => cases first
    · exact ih _ act later

/-- Calls other than `apply_wifi` are only logged. -/
theorem perform_other (a : Around) (w : WifiTransport) {acts : List Act}
    (h : ∀ act ∈ acts, ∀ settings, act ≠ .applyWifi settings) (rest : List Act) :
    perform a w (acts ++ rest) = ((perform a w rest).1, acts.map .core ++ (perform a w rest).2) := by
  induction acts with
  | nil => rfl
  | cons act acts ih =>
    have later := ih fun act hact => h act (List.mem_cons_of_mem _ hact)
    have other := h act List.mem_cons_self
    cases act with
    | applyWifi settings => exact absurd rfl (other settings)
    | _ =>
      rw [List.cons_append, perform, later]
      · rfl
      · nofun

/-- The one call of `apply_wifi` among others. -/
theorem perform_apply (a : Around) (w : WifiTransport) {front acts : List Act}
    (settings : DeviceSettings) (h : ∀ act ∈ front, ∀ settings, act ≠ .applyWifi settings)
    (h' : ∀ act ∈ acts, ∀ settings, act ≠ .applyWifi settings) :
    perform a w (front ++ .applyWifi settings :: acts) =
      ((w.apply a settings).1, front.map .core ++ (.core (.applyWifi settings) ::
        ((w.apply a settings).2.map .link ++ acts.map .core))) := by
  have after := perform_other a (w.apply a settings).1 h' []
  rw [List.append_nil] at after
  rw [perform_other a w h, perform, after, perform, List.append_nil]
  rfl

/-- A client object changes, but not whether it is in use. -/
theorem keeps_setClient (b : WifiBoard σ) (i : Slot) {c : TcpClient}
    (same : c.inUse = (b.wifi.clients i).inUse) : Keeps b (b.setClient i c, []) := by
  have inUse (j : Slot) :
      (Function.update b.wifi.clients i c j).inUse = (b.wifi.clients j).inUse := by
    by_cases here : j = i
    · rw [here, Function.update_self, same]
    · rw [Function.update_of_ne here]
  intro log agreed
  rw [List.append_nil]
  have sound := agreed.sound
  constructor
  · refine ⟨sound.off, sound.up, sound.server, ?_, ?_⟩
    · show b.wifi.numClients = _
      simp only [sound.count, inUseCount, setClient, inUse]
    · intro down j
      exact (inUse j).trans (sound.idle down j)
  · intro j
    simp only [setClient, held, inUse]
    exact agreed.registered j
  · exact agreed.pushes
  · exact agreed.path

/-- A slot taken is registered at once. -/
theorem keeps_acceptClients (b : WifiBoard σ) (incoming : Bool) :
    Keeps b (b.acceptClients incoming) := by
  unfold acceptClients
  split
  · exact keeps_refl b
  rename_i listening
  split
  · exact keeps_refl b
  rename_i i found
  have free : (b.wifi.clients i).inUse = false := by
    simpa using List.find?_some found
  split
  · exact keeps_refl b
  rename_i room
  simp only [Bool.or_eq_true, Bool.not_eq_true', not_or, Bool.not_eq_false] at listening
  intro log agreed
  have sound := agreed.sound
  constructor
  · refine ⟨sound.off, sound.up, sound.server, ?_, ?_⟩
    · have fresh : i ∉ Finset.univ.filter fun i => (b.wifi.clients i).inUse = true := by simp [free]
      simp only [sound.count, inUseCount]
      rw [← Finset.card_insert_of_notMem fresh]
      apply congrArg Finset.card
      ext j
      by_cases here : j = i <;> simp [here]
    · intro down
      rw [show b.wifi.serverUp = false from down] at listening
      cases listening.1.1
  · intro j
    have before := agreed.registered j
    have added : ((b.core.setAuthenticated i.sink false).addSink i.sink).sinks =
        b.core.sinks ++ [i.sink] := by
      rw [addSink, if_neg (show ¬(b.core.setAuthenticated i.sink false).sinks.length ≥ kMaxSinks
        from room)]
      rfl
    simp only [added, List.count_append, before, held]
    by_cases here : j = i
    · subst here
      simp [free]
    · have other : i.sink ≠ j.sink := fun eq => here (Fin.ext eq.symm)
      simp [here, other]
  · rw [pushedStates_append, changesIn_append, show pushedStates [.opened i] = [] from rfl,
      show changesIn [.opened i] = [] from rfl, List.append_nil, List.append_nil]
    exact agreed.pushes
  · rw [changesIn_append, show changesIn [.opened i] = [] from rfl, List.append_nil]
    exact agreed.path

variable [SettingsStore σ] {pbDecode : List UInt8 → Option ClientToRadio}

omit [SettingsStore σ] in
/-- The calls of a request are carried out. -/
theorem keeps_perform {b : WifiBoard σ} {a : Answers} {o : Outcome σ}
    (h : Linkless b.core o ∨ ∃ settings, Relinks b.core (b.wifi.hooks a) settings o) :
    Keeps b (⟨o.state, (perform a.toAround b.wifi o.acts).1⟩,
      (perform a.toAround b.wifi o.acts).2) := by
  rcases h with linkless | ⟨settings, relinks⟩
  · have logged := perform_other a.toAround b.wifi (fun act h => (linkless.acts act h).apply) []
    rw [List.append_nil, perform, List.append_nil] at logged
    rw [logged]
    exact keeps_linkless linkless
  · obtain ⟨front, back, plain, plain', t, acts⟩ := relinks.acts
    have moves := moves_apply a.toAround settings b.wifi
    have told : (t.hookCalls ((b.wifi.hooks a).applyWifi settings)).acts.filterMap
        Act.pushedState = (changes (b.wifi.apply a.toAround settings).2).map State.wire :=
      hookCalls_pushed moves.told t
    have frames (act : Act) (h : act ∈ (t.hookCalls ((b.wifi.hooks a).applyWifi settings)).acts)
        (settings : DeviceSettings) : act ≠ .applyWifi settings := by
      obtain ⟨_, _, rfl⟩ := hookCalls_frames _ t act h
      nofun
    rw [acts, List.append_assoc, List.cons_append, perform_apply _ _ _
      (fun act h => (plain act h).apply)
      (fun act h => (List.mem_append.mp h).elim (frames act) fun h => (plain' act h).apply)]
    have pushed : pushedStates [.core (.applyWifi settings)] = [] := rfl
    have changed : changesIn [.core (.applyWifi settings)] = [] := rfl
    intro log agreed
    rw [← List.singleton_append]
    constructor
    · exact agreed.sound.apply _ _
    · intro i
      dsimp only
      rw [relinks.sinks]
      exact hookCalls_registered moves agreed.registered i
    · simp only [pushedStates_append, changesIn_append, pushedStates_core, changesIn_core,
        pushedStates_link, changesIn_link, pushed, changed,
        pushed_linkless plain, pushed_linkless plain', told, agreed.pushes, List.nil_append,
        List.append_nil, List.map_append]
    · simp only [changesIn_append, changesIn_core, changesIn_link, changed, List.nil_append,
        List.append_nil]
      exact agreed.path.append moves.path

/-- A request may reconfigure the link it came over. -/
theorem keeps_request (b : WifiBoard σ) (a : Answers) (data : List UInt8) (sink : Sink) :
    Keeps b (b.request pbDecode a data sink) := by
  unfold request onEnvelope
  cases decoded : decodeEnvelope pbDecode data with
  | none => exact keeps_refl b
  | some req =>
    exact keeps_perform
      (request_link rfl (decodeEnvelope_id decoded) (handleRequest_handled b.core _ req sink))

theorem keeps_drain (i : Slot) (bytes : List (UInt8 × Answers)) (b : WifiBoard σ) :
    Keeps b (b.drain pbDecode i bytes) := by
  induction bytes generalizing b with
  | nil => exact keeps_refl b
  | cons received bytes ih =>
    obtain ⟨byte, a⟩ := received
    have read : Keeps b (b.setClient i { b.wifi.clients i with
        reader := ((b.wifi.clients i).reader.feed byte).1 }, []) := keeps_setClient b i rfl
    unfold drain
    dsimp only
    split
    · exact read.andThen (f := fun b => (b.request pbDecode a _ i.sink).andThen fun b =>
        b.drain pbDecode i bytes) ((keeps_request _ a _ i.sink).andThen (ih _))
    · exact read.andThen (f := fun b => b.drain pbDecode i bytes) (ih _)

omit [SettingsStore σ] in
theorem keeps_hangUp (b : WifiBoard σ) (i : Slot) (t : Turn) : Keeps b (b.hangUp i t) := by
  have flagged : Keeps b (if t.writeFailed then
      b.setClient i { b.wifi.clients i with broken := true } else b, []) := by
    split
    · exact keeps_setClient b i rfl
    · exact keeps_refl b
  have closes (b : WifiBoard σ) : Keeps b (if (b.wifi.clients i).broken || !t.connected then
      b.settle (b.wifi.dropClient i) else (b, [])) := by
    split
    · exact keeps_settle (moves_dropClient i _) fun sound => sound.dropClient i
    · exact keeps_refl b
  exact flagged.andThen (f := fun b => if (b.wifi.clients i).broken || !t.connected then
    b.settle (b.wifi.dropClient i) else (b, [])) (closes _)

theorem keeps_turn (b : WifiBoard σ) (i : Slot) (t : Turn) : Keeps b (b.turn pbDecode i t) := by
  unfold turn
  split
  · exact keeps_refl b
  refine Keeps.andThen ?_ (keeps_hangUp _ i t)
  split
  · exact keeps_refl b
  · exact keeps_drain i _ b

theorem keeps_pumpClients (turns : Slot → Turn) (is : List Slot) (b : WifiBoard σ) :
    Keeps b (b.pumpClients pbDecode turns is) := by
  induction is generalizing b with
  | nil => exact keeps_refl b
  | cons i is ih => exact (keeps_turn b i (turns i)).andThen (ih _)

theorem keeps_pump (b : WifiBoard σ) (p : Pumped) : Keeps b (b.pump pbDecode p) := by
  unfold pump
  split
  · exact keeps_refl b
  have driven : Keeps b (b.settle (b.wifi.drive p.status p.around)) :=
    keeps_settle (moves_drive _ _ _) fun sound => sound.drive _ _
  exact (driven.andThen (keeps_acceptClients _ _)).andThen (keeps_pumpClients _ _ _)

/-- **Every event keeps the agreement.** -/
theorem keeps_step (b : WifiBoard σ) (e : WifiEvent) : Keeps b (b.step pbDecode e) := by
  have apart (n : Nat) : kMaxClients ≤ otherSink n := Nat.le_add_right _ _
  cases e with
  | apply a settings =>
    exact keeps_settle (moves_apply a settings b.wifi) fun sound => sound.apply a settings
  | pump p => exact keeps_pump b p
  | writeFailed i => exact keeps_setClient b i rfl
  | connect n =>
    refine keeps_linkless (step_linkless pbDecode b.core nofun nofun ?_)
    rintro sink (event | event) <;> cases event
    exact apart n
  | relink n => exact keeps_linkless (step_linkless pbDecode b.core nofun nofun nofun)
  | disconnect n =>
    refine keeps_linkless (step_linkless pbDecode b.core nofun nofun ?_)
    rintro sink (event | event) <;> cases event
    exact apart n
  | envelope n a data => exact keeps_request b a data _
  | packetReceived rssi snr raw =>
    exact keeps_linkless (step_linkless pbDecode b.core nofun nofun nofun)
  | poll millis txDone => exact keeps_linkless (step_linkless pbDecode b.core nofun nofun nofun)
  | txResult seq ok => exact keeps_linkless (step_linkless pbDecode b.core nofun nofun nofun)

theorem keeps_run (es : List WifiEvent) (b : WifiBoard σ) : Keeps b (b.run pbDecode es) := by
  induction es generalizing b with
  | nil => exact keeps_refl b
  | cons e es ih => exact (keeps_step b e).andThen (ih _)

omit [SettingsStore σ] in
theorem begun_agreed {core : CommandProcessor σ} (outside : ∀ c ∈ core.sinks, kMaxClients ≤ c) :
    Agreed ⟨core, {}⟩ [] := by
  constructor
  · constructor
    · exact ⟨fun _ => rfl, fun _ => rfl⟩
    · exact ⟨nofun, nofun⟩
    · rfl
    · exact (inUseCount_zero fun _ => rfl).symm
    · exact fun _ _ => rfl
  · intro i
    exact List.count_eq_zero.mpr fun registered =>
      Nat.not_le.mpr i.isLt (outside i.sink registered)
  · rfl
  · rfl

theorem lifetime_agreed {core : CommandProcessor σ} (outside : ∀ c ∈ core.sinks, kMaxClients ≤ c)
    (a : Around) (events : List WifiEvent) :
    Agreed (lifetime pbDecode core a events).1 (lifetime pbDecode core a events).2 := by
  have start : Keeps ⟨core, {}⟩ ((WifiBoard.mk core {}).settle (WifiTransport.begin a)) := by
    apply keeps_settle
    · exact (moves_stopServer _).andThen (moves_setState a .off _)
    · intro sound
      obtain ⟨clients, free, stopped⟩ := stopServer_spec sound.count
      rw [WifiTransport.begin, Linked.andThen, setState_fst]
      change WifiTransport.Sound { (({} : WifiTransport).stopServer).1 with state := .off }
      rw [stopped]
      exact sound_stopped ⟨fun _ => rfl, fun _ => rfl⟩ (by simp) rfl rfl rfl free
  exact start.andThen (f := fun b => b.run pbDecode events) (keeps_run events _) []
    (begun_agreed outside)

/-- What holds of the link at the boundary of an operation. -/
structure LinkInvariants (b : WifiBoard σ) (log : List WifiSeen) : Prop where
  off : b.wifi.state = .off ↔ b.wifi.usable = false
  up : b.wifi.serverUp = true ↔ b.wifi.state = .connected
  server : b.wifi.state = .connected ↔ b.wifi.server ≠ none
  count : b.wifi.numClients = b.wifi.inUseCount
  cap : b.wifi.numClients ≤ kMaxClients
  idle : b.wifi.serverUp = false → b.wifi.numClients = 0
  registered : ∀ i : Slot,
    b.core.sinks.count i.sink = if (b.wifi.clients i).inUse then 1 else 0
  /-- one status for each change, and it says what changed -/
  pushes : pushedStates log = (changesIn log).map State.wire
  changes : Path .off (changesIn log) b.wifi.state

omit [SettingsStore σ] in
theorem Agreed.invariants {b : WifiBoard σ} {log : List WifiSeen} (h : Agreed b log) :
    LinkInvariants b log where
  off := h.sound.off
  up := h.sound.up
  server := by
    rw [← h.sound.up, ← h.sound.server, Option.isSome_iff_ne_none]
  count := h.sound.count
  cap := by
    rw [h.sound.count]
    exact b.wifi.inUseCount_le
  idle := by
    intro down
    rw [h.sound.count, inUseCount_zero (h.sound.idle down)]
  registered := h.registered
  pushes := h.pushes
  changes := h.path

omit [SettingsStore σ] in
/-- A slot just taken is a stranger's, with nothing read yet. -/
theorem accepted_fresh (b : WifiBoard σ) (incoming : Bool) (i : Slot)
    (free : (b.wifi.clients i).inUse = false)
    (taken : ((b.acceptClients incoming).1.wifi.clients i).inUse = true) :
    ((b.acceptClients incoming).1.wifi.clients i).reader = FrameReader.reset ∧
      (b.acceptClients incoming).1.core.authenticated i.sink = false := by
  have still (used : (b.wifi.clients i).inUse = true) : False := by
    rw [free] at used
    cases used
  unfold acceptClients at taken ⊢
  split at taken
  · exact (still taken).elim
  rename_i listening
  rw [if_neg listening]
  split at taken
  · exact (still taken).elim
  rename_i j _
  dsimp only
  split at taken
  · exact (still taken).elim
  rename_i room
  rw [if_neg room]
  by_cases here : i = j
  · subst here
    refine ⟨by simp, ?_⟩
    unfold addSink
    split <;> simp [setAuthenticated]
  · simp only [Function.update_of_ne here] at taken
    exact (still taken).elim

/-- **The invariants of the Wi-Fi link.** They hold of every run, and a slot that has
just been taken starts unauthenticated with an empty reader. -/
theorem wifi_invariants (pbDecode : List UInt8 → Option ClientToRadio) {core : CommandProcessor σ}
    (outside : ∀ c ∈ core.sinks, kMaxClients ≤ c) (a : Around) (events : List WifiEvent) :
    LinkInvariants (lifetime pbDecode core a events).1 (lifetime pbDecode core a events).2 ∧
    ∀ (b : WifiBoard σ) (incoming : Bool) (i : Slot), (b.wifi.clients i).inUse = false →
      ((b.acceptClients incoming).1.wifi.clients i).inUse = true →
        ((b.acceptClients incoming).1.wifi.clients i).reader = FrameReader.reset ∧
          (b.acceptClients incoming).1.core.authenticated i.sink = false :=
  ⟨(lifetime_agreed outside a events).invariants, accepted_fresh⟩

/-! ## A board for examples -/

/-- Wi-Fi enabled, on the network "A". -/
def sampleNetwork : DeviceSettings :=
  { DeviceSettings.defaults with wifiEnabled := true, wifiSsid := copyStr kSsidMax [0x41] }

/-- An envelope that turns Wi-Fi off. -/
def sampleOff : List UInt8 := [0x08, 0x05, 0x52, 0x02, 0x18, 0x00]

/-- One that names the device, and leaves Wi-Fi on. -/
def sampleName : List UInt8 := [0x08, 0x06, 0x52, 0x05, 0x0A, 0x01, 0x42, 0x18, 0x01]

def turnOff : SetDeviceSettingsMessage := { wifiEnabled := some false }

def giveName : SetDeviceSettingsMessage :=
  { name := some (copyStr kNameMax [0x42]), wifiEnabled := some true }

def linkDecode (data : List UInt8) : Option ClientToRadio :=
  if data = sampleOff then some ⟨5, .setDeviceSettings turnOff⟩
  else if data = sampleName then some ⟨6, .setDeviceSettings giveName⟩
  else none

def sampleCore : CommandProcessor MemorySettingsStore :=
  ((CommandProcessor.new (Store.new 1000) {} { savedDevice := some sampleNetwork } [] []
    ⟨0, .none⟩).boot true true).state

/-- The link comes up, and a client comes in that turns it off. -/
def sampleEvents : List WifiEvent :=
  [.apply {} sampleNetwork,
    .pump { status := .connected, incoming := true },
    .pump
      { status := .connected
        turns := fun i => if i = 0 then { bytes := (frameEncodeEnvelope sampleOff).map (·, {}) }
          else {} }]

theorem wifi_invariants_off :
    LinkInvariants (lifetime linkDecode sampleCore {} sampleEvents).1
        (lifetime linkDecode sampleCore {} sampleEvents).2 ∧
      pushedStates (lifetime linkDecode sampleCore {} sampleEvents).2 =
        [.connecting, .connected, .off] :=
  ⟨(wifi_invariants linkDecode (show ∀ c ∈ sampleCore.sinks, kMaxClients ≤ c by decide +kernel) {}
      sampleEvents).1,
    by decide +kernel⟩

end WifiBoard

end MeshPigeon
