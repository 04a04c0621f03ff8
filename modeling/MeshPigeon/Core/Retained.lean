import MeshPigeon.Core.Handled
import MeshPigeon.Core.Ledger

/-! What the store retains of everything that was stored. -/
namespace MeshPigeon.CommandProcessor

variable {σ : Type}

/-- What a step does to the store, with the entries its calls stored. -/
inductive StoreStep (s t : Store) (acts : List Act) : Prop where
  | same : t = s → storedIn acts = [] → StoreStep s t acts
  | cleared : t = s.clear → storedIn acts = [] → StoreStep s t acts
  | appended {uptimeMs : UInt64} {rssi snr : Int8} {flags : UInt8} {raw : Payload} :
      t = (s.append uptimeMs rssi snr flags raw).store →
      storedIn acts = (s.append uptimeMs rssi snr flags raw).stored.toList → StoreStep s t acts

theorem storedIn_map (es : List StoredPacket) : storedIn (es.map .storeAppend) = es := by
  induction es with
  | nil => rfl
  | cons e es ih => exact congrArg (e :: ·) ih

theorem storedIn_silent {acts : List Act} (h : ∀ a ∈ acts, a.Silent) : storedIn acts = [] :=
  (silent_lists h).1

theorem storedIn_frames {acts : List Act} (h : ∀ a ∈ acts, ∃ dest msg, a = .frame dest msg) :
    storedIn acts = [] := by
  rw [storedIn, List.filterMap_eq_nil_iff]
  intro a ha
  obtain ⟨dest, msg, rfl⟩ := h a ha
  rfl

variable [SettingsStore σ]

/-- Only a SendPacket stores anything, and it stores its packet. -/
theorem Handled.stores {s : CommandProcessor σ} {env : Env} {req : ClientToRadio} {sink : Sink}
    {o : Outcome σ} (h : Handled s env req sink o) :
    storedIn o.acts = [] ∧ (o.state.store = s.store ∨ o.state.store = s.store.clear) ∨
      ∃ raw, req.body = .sendPacket raw ∧ o.state.store = (s.outgoing raw).store ∧
        storedIn o.acts = (s.outgoing raw).stored.toList := by
  cases h with
  | storeRefused body _ state acts | sent body _ _ _ state acts | sendFailed body _ _ _ state acts =>
    refine .inr ⟨_, body, by rw [state], ?_⟩
    rw [acts, storedIn_append, storedIn_map]
    exact List.append_nil _
  | answered _ _ same =>
    rw [same]
    exact .inl ⟨rfl, .inl rfl⟩
  | @auth pin _ same =>
    obtain ⟨_, _, _, _, _, _, answers⟩ := handleAuth_answers s req.id pin sink
    rw [same, answers]
    exact .inl ⟨rfl, .inl rfl⟩
  | retuneFailed _ _ _ state acts | retuned _ _ _ _ _ state acts =>
    rw [acts, state]
    exact .inl ⟨rfl, .inl rfl⟩
  | purged _ state acts =>
    rw [acts, state]
    exact .inl ⟨rfl, .inr rfl⟩
  | fetched _ _ response state acts =>
    refine .inl ⟨?_, .inl (by rw [state])⟩
    rw [acts, response]
    apply storedIn_frames
    intro a ha
    rcases List.mem_append.mp ha with entry | last
    · obtain ⟨e, _, rfl⟩ := List.mem_map.mp entry
      exact ⟨_, _, rfl⟩
    · exact ⟨_, _, List.mem_singleton.mp last⟩
  | restarted call state acts =>
    refine .inl ⟨?_, .inl (by rw [state])⟩
    rw [acts]
    rcases call with ⟨_, rfl⟩ | ⟨_, rfl⟩ <;> split <;> rfl
  | reset _ state acts =>
    refine .inl ⟨?_, .inr (by rw [state]; rfl)⟩
    rw [acts]
    split <;> rfl
  | @written m t _ _ _ _ written _ state acts =>
    obtain ⟨_, _, _, same⟩ := s.deviceWritten_eq m sink
    have named : storedIn (t.announceName env m).acts = [] :=
      storedIn_silent (inert_announceName t env m).acts
    have linked : storedIn (t.applyWifi env m).acts = [] :=
      storedIn_silent (inert_applyWifi t env m).acts
    refine .inl ⟨?_, .inl (by rw [state, written, same])⟩
    rw [acts, storedIn_append, storedIn_append, linked, List.append_nil]
    exact List.append_eq_nil_iff.mpr ⟨named, rfl⟩

theorem step_store (pbDecode : List UInt8 → Option ClientToRadio) (s : CommandProcessor σ)
    (e : Event) : StoreStep s.store (s.step pbDecode e).state.store (s.step pbDecode e).acts := by
  cases step_stepped pbDecode s e with
  | @connected sink _ same =>
    obtain ⟨_, added, _⟩ := (s.setAuthenticated sink false).addSink_eq sink
    rw [same, added]
    exact .same rfl rfl
  | requested _ _ _ handled =>
    rcases handled.stores with ⟨nothing, same | cleared⟩ | ⟨raw, _, store, stored⟩
    · exact .same same nothing
    · exact .cleared cleared nothing
    · exact .appended store stored
  | unheard _ _ same =>
    rw [same]
    exact .appended rfl (storedIn_map _)
  | heard _ _ stored _ same =>
    rw [same]
    exact .appended rfl (congrArg Option.toList stored).symm
  | relinked _ same | disconnected _ same | dropped _ _ same | ticked _ _ same
  | finished _ _ same | stale _ same | reported _ _ same | linkChanged _ same =>
    rw [same]
    exact .same rfl rfl

/-- What is retained is the newest of what was stored. -/
def Retains (s : CommandProcessor σ) (acts : List Act) : Prop :=
  ∃ L, PacketStore.Holds s.store.1 L ∧ L <:+ storedIn acts

theorem Retains.step {pbDecode : List UInt8 → Option ClientToRadio} {s : CommandProcessor σ}
    {acts : List Act} (h : Retains s acts) (e : Event) :
    Retains (s.step pbDecode e).state (acts ++ (s.step pbDecode e).acts) := by
  obtain ⟨L, holds, newest⟩ := h
  rw [Retains, storedIn_append]
  cases step_store pbDecode s e with
  | same store stored =>
    rw [store, stored, List.append_nil]
    exact ⟨L, holds, newest⟩
  | cleared store stored =>
    rw [store]
    exact ⟨[], PacketStore.clear_holds _, List.nil_suffix⟩
  | @appended uptimeMs rssi snr flags raw store stored =>
    rw [store, stored]
    by_cases big : s.store.1.capacity.toNat < 16 + raw.1.length
    · rw [Store.append_eq (PacketStore.append_refused big)]
      refine ⟨L, holds.counted, ?_⟩
      rw [Option.toList_none, List.append_nil]
      exact newest
    · obtain ⟨t, K, run, kept, holds', _⟩ :=
        PacketStore.append_stored holds uptimeMs rssi snr flags (Nat.le_of_not_lt big)
      rw [Store.append_eq run]
      refine ⟨_, holds', ?_⟩
      obtain ⟨older, split⟩ := kept.trans newest
      exact ⟨older, by rw [← split, List.append_assoc]; rfl⟩

theorem run_retains {pbDecode : List UInt8 → Option ClientToRadio} {s₀ : CommandProcessor σ}
    (boot : Booted s₀) (events : List Event) :
    Retains (s₀.run pbDecode events).state (s₀.run pbDecode events).acts := by
  apply run_invariant (fun s _ acts => Retains s acts)
  · obtain ⟨capacity, clock, settingsStore, boardName, fwVersion, response, beginOk, applyOk, rfl⟩ :=
      boot
    exact ⟨[], PacketStore.new_holds capacity, List.nil_suffix⟩
  · intro s _ acts e h
    exact h.step e

/-- The store of a reachable state is the queue of what it retains, numbered on
from everything stored so far. -/
theorem run_simulates {pbDecode : List UInt8 → Option ClientToRadio} {s₀ : CommandProcessor σ}
    (boot : Booted s₀) (events : List Event)
    (few : (storedIn (s₀.run pbDecode events).acts).length < 2 ^ 32 - 1) :
    ∃ L, L <:+ storedIn (s₀.run pbDecode events).acts ∧
      PacketStore.Simulates (s₀.run pbDecode events).state.store.1
        ⟨L, (storedIn (s₀.run pbDecode events).acts).length + 1⟩ := by
  obtain ⟨L, holds, newest⟩ := run_retains boot events
  refine ⟨L, newest, holds, ?_, Nat.lt_succ_of_le newest.length_le⟩
  rw [(run_ledger boot events).next, UInt32.toNat_ofNat_of_lt' (by unfold UInt32.size; omega), Nat.add_comm]

end MeshPigeon.CommandProcessor
