import MeshPigeon.Core.Handled

/-! What every step does to the packets accepted for transmission and to their reports. -/
namespace MeshPigeon

namespace Act

/-- The entry a call stored. -/
def stored : Act → Option StoredPacket
  | .storeAppend e => some e
  | _ => none

/-- The packet handed to the radio. -/
def transmitted : Act → Option Payload
  | .radioTransmit raw => some raw
  | _ => none

/-- The seq a frame accepts for transmission. -/
def accepted : Act → Option UInt32
  | .frame _ ⟨_, .packetAccepted seq⟩ => some seq
  | _ => none

/-- The seq a frame reports as transmitted or failed. -/
def reported : Act → Option UInt32
  | .frame _ ⟨_, .txResult seq _⟩ => some seq
  | _ => none

/-- A call that neither stores, transmits, accepts nor reports a packet. -/
structure Silent (a : Act) : Prop where
  stored : a.stored = none
  transmitted : a.transmitted = none
  accepted : a.accepted = none
  reported : a.reported = none

end Act

def storedIn (acts : List Act) : List StoredPacket := acts.filterMap Act.stored
def transmittedIn (acts : List Act) : List Payload := acts.filterMap Act.transmitted
def acceptedIn (acts : List Act) : List UInt32 := acts.filterMap Act.accepted
def reportedIn (acts : List Act) : List UInt32 := acts.filterMap Act.reported

namespace CommandProcessor

variable {σ : Type}

/-- The step leaves the packets in flight and in the store alone. -/
structure Inert (s : CommandProcessor σ) (o : Outcome σ) : Prop where
  acts : ∀ a ∈ o.acts, a.Silent
  pending : o.state.txPending = s.txPending
  seq : o.state.txPendingSeq = s.txPendingSeq
  next : o.state.store.1.nextSeq = s.store.1.nextSeq

theorem Inert.andThen {s : CommandProcessor σ} {o : Outcome σ}
    {f : CommandProcessor σ → Outcome σ} (h : Inert s o) (hf : Inert o.state (f o.state)) :
    Inert s (o.andThen f) := by
  constructor
  · intro a ha
    rcases List.mem_append.mp ha with ha | ha
    · exact h.acts a ha
    · exact hf.acts a ha
  · exact hf.pending.trans h.pending
  · exact hf.seq.trans h.seq
  · exact hf.next.trans h.next

theorem inert_quiet (s : CommandProcessor σ) : Inert s s.quiet :=
  ⟨by simp, rfl, rfl, rfl⟩

theorem inert_act (s : CommandProcessor σ) {a : Act} (h : a.Silent) : Inert s (s.act a) := by
  refine ⟨fun b hb => ?_, rfl, rfl, rfl⟩
  rw [List.mem_singleton.mp hb]
  exact h

theorem silent_frame (dest : List Sink) (id : UInt32) {body : Body} (h : Plain body) :
    (Act.frame dest ⟨id, body⟩).Silent := by
  cases body with
  | packetAccepted seq => exact absurd rfl (h.1 seq)
  | txResult seq ok => exact absurd rfl (h.2 seq ok)
  | _ => exact ⟨rfl, rfl, rfl, rfl⟩

theorem inert_answer (s : CommandProcessor σ) (id : UInt32) {body : Body} (sink : Sink)
    (h : Plain body) : Inert s (s.answer ⟨id, body⟩ sink) := by
  refine ⟨fun a ha => ?_, rfl, rfl, rfl⟩
  rw [List.mem_singleton.mp ha]
  exact silent_frame _ _ h

theorem inert_push (s : CommandProcessor σ) (id : UInt32) {body : Body} (except : Option Sink)
    (authorizedOnly : Bool) (h : Plain body) : Inert s (s.push ⟨id, body⟩ except authorizedOnly) := by
  refine ⟨fun a ha => ?_, rfl, rfl, rfl⟩
  rw [List.mem_singleton.mp ha]
  exact silent_frame _ _ h

/-- Changes elsewhere in the state before a step do not matter to it. -/
theorem Inert.of_same {s t : CommandProcessor σ} {o : Outcome σ} (h : Inert t o)
    (pending : t.txPending = s.txPending) (seq : t.txPendingSeq = s.txPendingSeq)
    (next : t.store.1.nextSeq = s.store.1.nextSeq) : Inert s o :=
  ⟨h.acts, h.pending.trans pending, h.seq.trans seq, h.next.trans next⟩

theorem inert_hookCalls (calls : List HookCall) (s : CommandProcessor σ) :
    Inert s (s.hookCalls calls) := by
  induction calls generalizing s with
  | nil => exact inert_quiet s
  | cons call calls ih =>
    apply Inert.andThen _ (ih _)
    cases call with
    | wifiStateChanged link =>
      rw [hookCall, onWifiStateChanged_eq]
      exact inert_push s 0 none false ⟨by simp, by simp⟩
    | removeSink c => exact (inert_quiet _).of_same rfl rfl rfl

theorem inert_announceName (s : CommandProcessor σ) (env : Env) (m : SetDeviceSettingsMessage) :
    Inert s (s.announceName env m) := by
  unfold announceName
  split
  · exact inert_act s ⟨rfl, rfl, rfl, rfl⟩
  · exact inert_quiet s

theorem inert_applyWifi (s : CommandProcessor σ) (env : Env) (m : SetDeviceSettingsMessage) :
    Inert s (s.applyWifi env m) := by
  unfold applyWifi
  split
  · exact inert_quiet s
  · split
    · exact (inert_act s ⟨rfl, rfl, rfl, rfl⟩).andThen (inert_hookCalls _ s)
    · exact inert_quiet s

/-! ## The one request that transmits, and the events that report -/

/-- A packet goes out: stored, accepted and handed to the radio, in that order. -/
structure Sent (s : CommandProcessor σ) (env : Env) (id : UInt32) (raw : Payload) (sink : Sink)
    (o : Outcome σ) (entry : StoredPacket) : Prop where
  idle : s.txPending = false
  same : entry.raw = raw
  seq : entry.seq = s.store.1.nextSeq
  held : ∃ K, PacketStore.Holds o.state.store.1 (K ++ [entry])
  next : o.state.store.1.nextSeq = s.store.1.nextSeq + 1
  acts : o.acts = [.storeAppend entry, .frame [sink] ⟨id, .packetAccepted entry.seq⟩,
    .radioTransmit raw] ++
      if env.transmitOk then [] else [.frame s.sinks ⟨0, .txResult entry.seq false⟩]
  pending : o.state.txPending = env.transmitOk
  pendingSeq : env.transmitOk = true → o.state.txPendingSeq = entry.seq

/-- A packet is stored and nothing more comes of it for the radio. -/
structure Stored (s : CommandProcessor σ) (o : Outcome σ) (entry : StoredPacket) : Prop where
  seq : entry.seq = s.store.1.nextSeq
  next : o.state.store.1.nextSeq = s.store.1.nextSeq + 1
  acts : ∃ rest, o.acts = .storeAppend entry :: rest ∧ ∀ a ∈ rest, a.Silent
  pending : o.state.txPending = s.txPending
  pendingSeq : o.state.txPendingSeq = s.txPendingSeq

/-- Everything a step can do to packets: nothing, store one, send one, or
report the one in flight. -/
inductive Deed (pbDecode : List UInt8 → Option ClientToRadio) (s : CommandProcessor σ) (e : Event)
    (o : Outcome σ) : Prop where
  | inert : Inert s o → Deed pbDecode s e o
  | store {entry : StoredPacket} : Stored s o entry → Deed pbDecode s e o
  | send {env : Env} {data : List UInt8} {sink : Sink} {req : ClientToRadio} {raw : Payload}
      {entry : StoredPacket} : e = .envelope env data sink →
      decodeEnvelope pbDecode data = some req → req.body = .sendPacket raw →
      Sent s env req.id raw sink o entry → Deed pbDecode s e o
  | report {ok : Bool} : s.txPending = true → o.state.txPending = false →
      o.acts = [.frame s.sinks ⟨0, .txResult s.txPendingSeq ok⟩] →
      o.state.store.1.nextSeq = s.store.1.nextSeq → Deed pbDecode s e o

theorem push_all (s : CommandProcessor σ) (response : RadioToClient) :
    (s.push response none false).acts = [.frame s.sinks response] := by
  simp [push, recipients]

/-! ## One step -/

/-- The append took the packet in, under the next seq. -/
structure Entered (s : CommandProcessor σ) (a : Store.Appended) (raw : Payload)
    (entry : StoredPacket) : Prop where
  same : entry.raw = raw
  seq : entry.seq = s.store.1.nextSeq
  answer : a.seq = entry.seq
  stored : a.stored = some entry
  held : ∃ K, PacketStore.Holds a.store.1 (K ++ [entry])
  next : a.store.1.nextSeq = s.store.1.nextSeq + 1

/-- A packet is refused by the store, or takes the next seq. -/
theorem append_cases (s : CommandProcessor σ) (rssi snr : Int8) (flags : UInt8) (raw : Payload)
    {a : Store.Appended} (appended : a = s.store.append s.clock.uptimeMs64 rssi snr flags raw) :
    a.seq = 0 ∧ a.stored = none ∧ a.store.1.nextSeq = s.store.1.nextSeq ∨
      ∃ entry, Entered s a raw entry := by
  rw [appended]
  rcases s.store.append_spec s.clock.uptimeMs64 rssi snr flags raw with
    ⟨zero, nothing, store⟩ | ⟨seq, stored, next, held⟩
  · exact .inl ⟨zero, nothing, by rw [store]⟩
  · exact .inr ⟨_, rfl, rfl, seq, stored, held, next⟩

theorem numbered_entered (s : CommandProcessor σ) {rssi snr : Int8} {flags : UInt8} (raw : Payload)
    {a : Store.Appended} (appended : a = s.store.append s.clock.uptimeMs64 rssi snr flags raw)
    (numbered : a.seq ≠ 0) : ∃ entry, Entered s a raw entry := by
  rcases append_cases s rssi snr flags raw appended with ⟨zero, _⟩ | entered
  · exact absurd zero numbered
  · exact entered

theorem Entered.stored_of {s : CommandProcessor σ} {a : Store.Appended} {raw : Payload}
    {entry : StoredPacket} (entered : Entered s a raw entry) {o : Outcome σ} {rest : List Act}
    (store : o.state.store = a.store) (acts : o.acts = a.stored.toList.map .storeAppend ++ rest)
    (silent : ∀ a ∈ rest, a.Silent) (pending : o.state.txPending = s.txPending)
    (seq : o.state.txPendingSeq = s.txPendingSeq) : Stored s o entry := by
  refine ⟨entered.seq, by rw [store, entered.next], ⟨rest, ?_, silent⟩, pending, seq⟩
  rw [acts, entered.stored]
  rfl

/-- A packet that was numbered goes out, whatever the radio then says. -/
theorem Entered.sent_of {s : CommandProcessor σ} {a : Store.Appended} {raw : Payload}
    {entry : StoredPacket} (entered : Entered s a raw entry) (idle : s.txPending = false) {env : Env}
    {id : UInt32} {sink : Sink} {o : Outcome σ} (store : o.state.store = a.store)
    (acts : o.acts = a.stored.toList.map .storeAppend ++
      [.frame [sink] ⟨id, .packetAccepted a.seq⟩, .radioTransmit raw] ++
        if env.transmitOk then [] else [.frame s.sinks ⟨0, .txResult a.seq false⟩])
    (pending : o.state.txPending = env.transmitOk)
    (seq : env.transmitOk = true → o.state.txPendingSeq = a.seq) :
    Sent s env id raw sink o entry where
  idle := idle
  same := entered.same
  seq := entered.seq
  held := by
    rw [store]
    exact entered.held
  next := by rw [store, entered.next]
  acts := by
    rw [acts, entered.stored, entered.answer]
    rfl
  pending := pending
  pendingSeq started := (seq started).trans entered.answer

variable [SettingsStore σ] {s : CommandProcessor σ} {env : Env} {req : ClientToRadio} {sink : Sink}
  {o : Outcome σ}

/-- What one request does to packets. -/
theorem Handled.packets (h : Handled s env req sink o) :
    Inert s o ∨ (∃ entry, Stored s o entry) ∨
      ∃ raw entry, req.body = .sendPacket raw ∧ Sent s env req.id raw sink o entry := by
  cases h with
  | answered _ plain same =>
    left
    rw [same]
    exact inert_answer s req.id sink plain
  | @auth pin _ same =>
    left
    obtain ⟨_, _, _, _, _, plain, answers⟩ := handleAuth_answers s req.id pin sink
    rw [same, answers]
    exact (inert_answer _ req.id sink plain).of_same rfl rfl rfl
  | retuneFailed _ _ _ state acts =>
    refine .inl ⟨?_, by rw [state], by rw [state], by rw [state]⟩
    rw [acts]
    simp only [List.mem_cons, List.not_mem_nil, or_false]
    rintro a (rfl | rfl)
    · exact ⟨rfl, rfl, rfl, rfl⟩
    · exact silent_frame _ _ ⟨by simp, by simp⟩
  | retuned _ _ _ _ response state acts =>
    refine .inl ⟨?_, by rw [state]; rfl, by rw [state]; rfl, by rw [state]; rfl⟩
    rw [acts, response]
    simp only [List.mem_cons, List.not_mem_nil, or_false]
    rintro a (rfl | rfl | rfl | rfl)
    · exact ⟨rfl, rfl, rfl, rfl⟩
    · exact ⟨rfl, rfl, rfl, rfl⟩
    · exact silent_frame _ _ ⟨by simp, by simp⟩
    · exact silent_frame _ _ ⟨by simp, by simp⟩
  | @storeRefused raw _ _ state acts =>
    have refusal : (Act.frame [sink] ⟨req.id, .error .busy []⟩).Silent :=
      silent_frame _ _ ⟨by simp, by simp⟩
    rcases append_cases s 0 0 kFlagSent raw rfl with ⟨_, nothing, next⟩ | ⟨entry, entered⟩
    · refine .inl ⟨?_, by rw [state], by rw [state], by rw [state]; exact next⟩
      rw [acts, outgoing, nothing]
      intro a ha
      rw [List.mem_singleton.mp ha]
      exact refusal
    · refine .inr (.inl ⟨entry, entered.stored_of ?_ acts ?_ ?_ ?_⟩)
      · rw [state]
        rfl
      · intro a ha
        rw [List.mem_singleton.mp ha]
        exact refusal
      · rw [state]
      · rw [state]
  | @sent raw body idle numbered ok state acts =>
    obtain ⟨entry, entered⟩ := s.numbered_entered raw rfl numbered
    refine .inr (.inr ⟨raw, entry, body, entered.sent_of idle ?_ ?_ ?_ ?_⟩)
    · rw [state]
      rfl
    · rw [acts, ok, if_pos rfl, List.append_nil]
      rfl
    · rw [state, ok]
    · intro _
      rw [state]
      rfl
  | @sendFailed raw body idle numbered ok state acts =>
    obtain ⟨entry, entered⟩ := s.numbered_entered raw rfl numbered
    refine .inr (.inr ⟨raw, entry, body, entered.sent_of idle ?_ ?_ ?_ ?_⟩)
    · rw [state]
      rfl
    · rw [acts, ok, if_neg Bool.false_ne_true, List.append_assoc]
      rfl
    · rw [state, ok]
      exact idle
    · intro started
      rw [ok] at started
      cases started
  | fetched _ _ response state acts =>
    refine .inl ⟨?_, by rw [state], by rw [state], by rw [state]⟩
    rw [acts, response]
    intro a ha
    rcases List.mem_append.mp ha with entry | last
    · obtain ⟨e, _, rfl⟩ := List.mem_map.mp entry
      exact silent_frame _ _ ⟨by simp, by simp⟩
    · rw [List.mem_singleton.mp last]
      exact silent_frame _ _ ⟨by simp, by simp⟩
  | purged _ state acts =>
    refine .inl ⟨?_, by rw [state], by rw [state], by rw [state]; rfl⟩
    rw [acts]
    simp only [List.mem_cons, List.not_mem_nil, or_false]
    rintro a (rfl | rfl) <;> exact ⟨rfl, rfl, rfl, rfl⟩
  | restarted call state acts =>
    refine .inl ⟨?_, by rw [state], by rw [state], by rw [state]⟩
    rw [acts]
    intro a ha
    rcases List.mem_cons.mp ha with rfl | called
    · exact ⟨rfl, rfl, rfl, rfl⟩
    · split at called
      · rw [List.mem_singleton.mp called]
        rcases call with ⟨_, rfl⟩ | ⟨_, rfl⟩ <;> exact ⟨rfl, rfl, rfl, rfl⟩
      · cases called
  | reset _ state acts =>
    refine .inl ⟨?_, by rw [state]; rfl, by rw [state]; rfl, by rw [state]; rfl⟩
    rw [acts]
    intro a ha
    rcases List.mem_append.mp ha with always | called
    · simp only [List.mem_cons, List.not_mem_nil, or_false] at always
      rcases always with rfl | rfl | rfl <;> exact ⟨rfl, rfl, rfl, rfl⟩
    · split at called
      · rw [List.mem_singleton.mp called]
        exact ⟨rfl, rfl, rfl, rfl⟩
      · cases called
  | @written m t _ _ _ _ written response state acts =>
    obtain ⟨_, _, _, same⟩ := s.deviceWritten_eq m sink
    have kept : o.state.txPending = s.txPending ∧ o.state.txPendingSeq = s.txPendingSeq ∧
        o.state.store.1.nextSeq = s.store.1.nextSeq := by
      rw [state, written, same]
      exact ⟨rfl, rfl, rfl⟩
    refine .inl ⟨?_, kept.1, kept.2.1, kept.2.2⟩
    rw [acts, response]
    intro a ha
    rcases List.mem_append.mp ha with ha | sent
    · rcases List.mem_append.mp ha with ha | linked
      · rcases List.mem_cons.mp ha with rfl | named
        · exact ⟨rfl, rfl, rfl, rfl⟩
        · exact (inert_announceName t env m).acts a named
      · exact (inert_applyWifi t env m).acts a linked
    · simp only [List.mem_cons, List.not_mem_nil, or_false] at sent
      rcases sent with rfl | rfl <;> exact silent_frame _ _ ⟨by simp, by simp⟩

variable {pbDecode : List UInt8 → Option ClientToRadio}

/-- **What a step can do to packets.** -/
theorem step_deed (s : CommandProcessor σ) (e : Event) :
    Deed pbDecode s e (s.step pbDecode e) := by
  generalize step : s.step pbDecode e = o
  cases step ▸ step_stepped pbDecode s e with
  | @connected sink _ same =>
    obtain ⟨_, added, _⟩ := (s.setAuthenticated sink false).addSink_eq sink
    rw [same, added]
    exact .inert ((inert_quiet _).of_same rfl rfl rfl)
  | relinked _ same | disconnected _ same | dropped _ _ same | ticked _ _ same | stale _ same =>
    rw [same]
    exact .inert ((inert_quiet _).of_same rfl rfl rfl)
  | requested event decoded _ handled =>
    rcases handled.packets with inert | ⟨entry, stored⟩ | ⟨raw, entry, body, sent⟩
    · exact .inert inert
    · exact .store stored
    · exact .send event decoded body sent
  | @unheard rssi snr raw _ _ same =>
    subst same
    rcases append_cases s rssi snr kFlagReceived raw rfl with ⟨_, nothing, next⟩ | ⟨entry, entered⟩
    · refine .inert ⟨?_, rfl, rfl, next⟩
      rw [incoming, nothing]
      intro a ha
      cases ha
    · refine .store (entered.stored_of rfl (List.append_nil _).symm ?_ rfl rfl)
      intro a ha
      cases ha
  | @heard rssi snr raw entry _ numbered stored _ same =>
    subst same
    obtain ⟨entry', entered⟩ := s.numbered_entered raw rfl numbered
    obtain rfl := Option.some.inj (stored.symm.trans entered.stored)
    refine .store (entered.stored_of rfl (by rw [entered.stored]; rfl) ?_ rfl rfl)
    intro a ha
    rw [List.mem_singleton.mp ha]
    exact silent_frame _ _ ⟨by simp, by simp⟩
  | finished _ flight same | reported _ flight same =>
    rw [same]
    exact .report flight rfl (push_all _ _) rfl
  | linkChanged _ same =>
    rw [same]
    exact .inert (inert_push s 0 none false ⟨by simp, by simp⟩)

end CommandProcessor

end MeshPigeon
