import MeshPigeon.Core.Notices
import MeshPigeon.Core.Paging
import MeshPigeon.Core.Uptime

/-!
# Live push and history

A packet is put on the wire from the copy taken when it was stored, and again
from the ring whenever a client fetches it. Both show the client one packet.
-/
namespace MeshPigeon

/-- The entry a frame carries. -/
def Act.entry : Act → Option PacketEntry
  | .frame _ ⟨_, .packetEntry m⟩ => some m
  | _ => none

/-- The entries handed to clients, pushed or fetched. -/
def entriesOut (acts : List Act) : List PacketEntry := acts.filterMap Act.entry

namespace CommandProcessor

variable {σ : Type}

/-- A packet off the air as clients are to see it. -/
def liveEntry (s : CommandProcessor σ) (rssi snr : Int8) (raw : Payload) : PacketEntry where
  seq := (s.incoming rssi snr raw).seq
  raw := raw
  uptimeMs := s.clock.uptimeMs64
  rssi := rssi.toInt32
  snr := snr.toInt32
  origin := .received

/-- What an event stores, stamped with the time of the event. -/
inductive Stamps (pbDecode : List UInt8 → Option ClientToRadio) (s : CommandProcessor σ) :
    Event → StoredPacket → Prop where
  | heard {rssi snr : Int8} {raw : Payload} :
      Stamps pbDecode s (.packetReceived rssi snr raw)
        ⟨s.store.1.nextSeq, s.clock.uptimeMs64, rssi, snr, kFlagReceived, raw⟩
  | sent {env : Env} {data : List UInt8} {sink : Sink} {req : ClientToRadio} {raw : Payload} :
      decodeEnvelope pbDecode data = some req → req.body = .sendPacket raw →
      Stamps pbDecode s (.envelope env data sink)
        ⟨s.store.1.nextSeq, s.clock.uptimeMs64, 0, 0, kFlagSent, raw⟩

/-- Where the entries a step hands out come from. -/
inductive HandsOut (s : CommandProcessor σ) (acts : List Act) : Prop where
  | nothing : entriesOut acts = [] → HandsOut s acts
  | live {d : StoredPacket} : d ∈ storedIn acts → entriesOut acts = [packetEntry d] →
      HandsOut s acts
  | page (sinceSeq maxCount : UInt32) :
      entriesOut acts = (s.requestedPage sinceSeq maxCount).map packetEntry → HandsOut s acts

theorem entriesOut_append (as bs : List Act) :
    entriesOut (as ++ bs) = entriesOut as ++ entriesOut bs := List.filterMap_append

theorem entriesOut_stored (stored : Option StoredPacket) :
    entriesOut (stored.toList.map .storeAppend) = [] := by
  cases stored <;> rfl

theorem entriesOut_terminal (dest : List Sink) (id : UInt32) {body : Body}
    (terminal : body.terminal = true) : entriesOut [.frame dest ⟨id, body⟩] = [] := by
  cases body with
  | packetEntry m => cases terminal
  | _ => rfl

/-- Calls that send no entry. -/
theorem entriesOut_none {acts : List Act}
    (h : ∀ dest msg, .frame dest msg ∈ acts → ∀ m, msg.body ≠ .packetEntry m) :
    entriesOut acts = [] := by
  rw [entriesOut, List.filterMap_eq_nil_iff]
  intro a ha
  cases a with
  | frame dest msg =>
    obtain ⟨id, body⟩ := msg
    cases body with
    | packetEntry m => exact absurd rfl (h dest _ ha m)
    | _ => rfl
  | _ => rfl

theorem entriesOut_page (dest : List Sink) (id : UInt32) (page : List StoredPacket) :
    entriesOut (page.map fun e => .frame dest ⟨id, .packetEntry (packetEntry e)⟩) =
      page.map packetEntry := by
  induction page with
  | nil => rfl
  | cons e page ih => exact congrArg (packetEntry e :: ·) ih

theorem entriesOut_announceName (s : CommandProcessor σ) (env : Env)
    (m : SetDeviceSettingsMessage) : entriesOut (s.announceName env m).acts = [] :=
  entriesOut_none fun dest msg sent => absurd sent (announceName_frameless s env m dest msg)

theorem entriesOut_applyWifi (s : CommandProcessor σ) (env : Env)
    (m : SetDeviceSettingsMessage) : entriesOut (s.applyWifi env m).acts = [] := by
  apply entriesOut_none
  intro dest msg sent entry same
  have link := applyWifi_ofLink s env m dest msg sent
  rw [same] at link
  cases link

/-! ## One step -/

/-- An append stores nothing, or the packet it was given. -/
theorem appended_stored {s : CommandProcessor σ} {rssi snr : Int8} {flags : UInt8} {raw : Payload}
    {d : StoredPacket}
    (h : d ∈ (s.store.append s.clock.uptimeMs64 rssi snr flags raw).stored.toList) :
    d = ⟨s.store.1.nextSeq, s.clock.uptimeMs64, rssi, snr, flags, raw⟩ := by
  rw [Option.mem_toList] at h
  rcases s.store.append_spec s.clock.uptimeMs64 rssi snr flags raw with
    ⟨_, none', _⟩ | ⟨_, stored, _⟩
  · rw [none'] at h
    cases h
  · rw [stored] at h
    exact (Option.some.inj h).symm

variable [SettingsStore σ] {s : CommandProcessor σ} {env : Env} {req : ClientToRadio} {sink : Sink}
  {o : Outcome σ}

/-- Only a fetch is answered with entries, and they are its page. -/
theorem Handled.handsOut (h : Handled s env req sink o) : HandsOut s o.acts := by
  cases h with
  | answered terminal _ same =>
    rw [same]
    exact .nothing (entriesOut_terminal _ _ terminal)
  | @auth pin _ same =>
    obtain ⟨_, _, _, _, terminal, _, answers⟩ := handleAuth_answers s req.id pin sink
    rw [same, answers]
    exact .nothing (entriesOut_terminal _ _ terminal)
  | retuneFailed _ _ _ _ acts | purged _ _ acts =>
    rw [acts]
    exact .nothing rfl
  | retuned _ _ _ _ response _ acts =>
    rw [acts, response]
    exact .nothing rfl
  | storeRefused _ _ _ acts | sent _ _ _ _ _ acts | sendFailed _ _ _ _ _ acts =>
    rw [acts]
    refine .nothing ?_
    rw [entriesOut_append, entriesOut_stored]
    rfl
  | @fetched sinceSeq maxCount _ _ _ response _ acts =>
    rw [acts, response]
    refine .page sinceSeq maxCount ?_
    rw [entriesOut_append, entriesOut_page]
    exact List.append_nil _
  | restarted call _ acts =>
    rw [acts]
    rcases call with ⟨_, rfl⟩ | ⟨_, rfl⟩ <;> split <;> exact .nothing rfl
  | reset _ _ acts =>
    rw [acts]
    split <;> exact .nothing rfl
  | @written m t _ _ _ _ _ response _ acts =>
    rw [acts, response]
    refine .nothing ?_
    rw [entriesOut_append, entriesOut_append, entriesOut_applyWifi, List.append_nil]
    exact List.append_eq_nil_iff.mpr ⟨entriesOut_announceName t env m, rfl⟩

variable {pbDecode : List UInt8 → Option ClientToRadio}

theorem step_stamps (s : CommandProcessor σ) (e : Event) {d : StoredPacket}
    (hd : d ∈ storedIn (s.step pbDecode e).acts) : Stamps pbDecode s e d := by
  cases step_stepped pbDecode s e with
  | connected _ same | relinked _ same | disconnected _ same | dropped _ _ same | ticked _ _ same
  | finished _ _ same | stale _ same | reported _ _ same | linkChanged _ same =>
    rw [same] at hd
    cases hd
  | requested event decoded _ handled =>
    subst event
    rcases handled.stores with ⟨none', _⟩ | ⟨raw, body, _, stored⟩
    · rw [none'] at hd
      cases hd
    · rw [stored] at hd
      rw [appended_stored hd]
      exact .sent decoded body
  | unheard event _ same =>
    subst event
    rw [same, storedIn_map] at hd
    rw [appended_stored hd]
    exact .heard
  | heard event _ stored _ same =>
    subst event
    rw [same] at hd
    rw [List.mem_singleton.mp hd, appended_stored (Option.mem_toList.mpr stored)]
    exact .heard

theorem step_handsOut (pbDecode : List UInt8 → Option ClientToRadio) (s : CommandProcessor σ)
    (e : Event) :
    HandsOut s (s.step pbDecode e).acts := by
  cases step_stepped pbDecode s e with
  | connected _ same | relinked _ same | disconnected _ same | dropped _ _ same | ticked _ _ same
  | finished _ _ same | stale _ same | reported _ _ same | linkChanged _ same =>
    rw [same]
    exact .nothing rfl
  | requested _ _ _ handled => exact handled.handsOut
  | unheard _ _ same =>
    rw [same]
    exact .nothing (entriesOut_stored _)
  | heard _ _ _ _ same =>
    rw [same]
    exact .live List.mem_cons_self rfl

/-! ## Whole runs -/

omit [SettingsStore σ] in
theorem Retains.page {acts : List Act} (h : Retains s acts) {sinceSeq maxCount : UInt32}
    {d : StoredPacket} (hd : d ∈ s.requestedPage sinceSeq maxCount) : d ∈ storedIn acts := by
  obtain ⟨L, holds, newest⟩ := h
  rw [requestedPage, Store.page_eq holds] at hd
  exact newest.subset (List.mem_of_mem_filter (List.mem_of_mem_take hd))

/-- Every entry handed out is one that was stored. -/
theorem run_known {s₀ : CommandProcessor σ} (boot : Booted s₀) (events : List Event) :
    ∀ m ∈ entriesOut (s₀.run pbDecode events).acts,
      ∃ d ∈ storedIn (s₀.run pbDecode events).acts, m = packetEntry d := by
  induction events using List.reverseRecOn with
  | nil => exact fun m hm => absurd hm List.not_mem_nil
  | append_singleton events e ih =>
    rw [run_concat, andThen_acts, entriesOut_append, storedIn_append]
    intro m hm
    rcases List.mem_append.mp hm with old | new
    · obtain ⟨d, hd, same⟩ := ih m old
      exact ⟨d, List.mem_append_left _ hd, same⟩
    · cases step_handsOut pbDecode (s₀.run pbDecode events).state e with
      | nothing none' =>
        rw [none'] at new
        cases new
      | live stored out =>
        rw [out] at new
        exact ⟨_, List.mem_append_right _ stored, List.mem_singleton.mp new⟩
      | page _ _ out =>
        rw [out] at new
        obtain ⟨d, hd, rfl⟩ := List.mem_map.mp new
        exact ⟨d, List.mem_append_left _ ((run_retains boot events).page hd), rfl⟩

/-- Entries with one number show one packet. -/
theorem run_once {s₀ : CommandProcessor σ} (boot : Booted s₀) (events : List Event)
    (few : (storedIn (s₀.run pbDecode events).acts).length < 2 ^ 32 - 1) {d : StoredPacket}
    (hd : d ∈ storedIn (s₀.run pbDecode events).acts) {m : PacketEntry}
    (hm : m ∈ entriesOut (s₀.run pbDecode events).acts) (same : m.seq = d.seq) :
    m = packetEntry d := by
  obtain ⟨d', hd', rfl⟩ := run_known boot events m hm
  rw [List.inj_on_of_nodup_map ((run_ledger boot events).once few) hd' hd same]

/-- What a step of a run stores is stored in the run. -/
theorem storedIn_step {s₀ : CommandProcessor σ} {pre : List Event} {e : Event} (post : List Event)
    {d : StoredPacket} (hd : d ∈ storedIn ((s₀.run pbDecode pre).state.step pbDecode e).acts) :
    d ∈ storedIn (s₀.run pbDecode (pre ++ e :: post)).acts := by
  rw [run_append, andThen_acts, storedIn_append, run, andThen_acts, storedIn_append]
  exact List.mem_append_right _ (List.mem_append_left _ hd)

/-- The retained entry of a number is one that was stored under it. -/
theorem run_get {s₀ : CommandProcessor σ} (boot : Booted s₀) (events : List Event)
    (few : (storedIn (s₀.run pbDecode events).acts).length < 2 ^ 32 - 1) {seq : UInt32}
    {d : StoredPacket} (retained : (s₀.run pbDecode events).state.store.1.get seq = some (some d)) :
    d ∈ storedIn (s₀.run pbDecode events).acts ∧ d.seq = seq := by
  obtain ⟨L, newest, simulates⟩ := run_simulates boot events few
  rw [simulates.get_eq] at retained
  have found := Option.some.inj retained
  have number := List.find?_some found
  exact ⟨newest.subset (List.mem_of_find?_eq_some found), by simpa using number⟩

/-! ## Stamps -/

/-- Later packets carry later times, and none a time to come. -/
structure Stamped (s : CommandProcessor σ) (stored : List StoredPacket) : Prop where
  ordered : stored.Pairwise fun d d' => d.uptimeMs ≤ d'.uptimeMs
  past : ∀ d ∈ stored, d.uptimeMs.toNat ≤ s.now

theorem Stamped.step {stored : List StoredPacket} (h : Stamped s stored) {e : Event}
    (later : s.now ≤ (s.step pbDecode e).state.now) :
    Stamped (s.step pbDecode e).state (stored ++ storedIn (s.step pbDecode e).acts) := by
  have stamp : ∀ d ∈ storedIn (s.step pbDecode e).acts, d.uptimeMs.toNat = s.now := by
    intro d hd
    cases step_stamps s e hd <;> rfl
  constructor
  · refine List.pairwise_append.mpr ⟨h.ordered, ?_, ?_⟩
    · apply List.Pairwise.imp_of_mem (R := fun _ _ => True) _ (List.pairwise_of_forall fun _ _ => trivial)
      intro d d' hd hd' _
      rw [UInt64.le_iff_toNat_le, stamp d hd, stamp d' hd']
    · intro d hd d' hd'
      rw [UInt64.le_iff_toNat_le, stamp d' hd']
      exact h.past d hd
  · intro d hd
    rcases List.mem_append.mp hd with old | new
    · exact Nat.le_trans (h.past d old) later
    · rw [stamp d new]
      exact later

theorem run_stamped {s₀ : CommandProcessor σ} (events : List Event) (few : FewWraps s₀ events) :
    Stamped (s₀.run pbDecode events).state (storedIn (s₀.run pbDecode events).acts) := by
  induction events using List.reverseRecOn with
  | nil => exact ⟨List.Pairwise.nil, fun d hd => absurd hd List.not_mem_nil⟩
  | append_singleton events e ih =>
    have later := few.later_from pbDecode
    rw [run_concat, andThen_state] at later
    rw [run_concat, andThen_acts, andThen_state, storedIn_append]
    exact (ih few.front).step later

omit [SettingsStore σ] in
/-- The numbers go up in the order of storing. -/
theorem Ledger.increasing {acts : List Act} (h : Ledger s acts)
    (few : (storedIn acts).length < 2 ^ 32 - 1) :
    (storedIn acts).Pairwise fun d d' => d.seq < d'.seq := by
  have numbers : ((storedIn acts).map (·.seq)).Pairwise (· < ·) := by
    rw [h.numbered, List.pairwise_map]
    apply List.Pairwise.imp_of_mem _ List.pairwise_lt_range'
    intro a b ha hb less
    have ha' := List.mem_range'_1.mp ha
    have hb' := List.mem_range'_1.mp hb
    rw [UInt32.lt_iff_toNat_lt, UInt32.toNat_ofNat', UInt32.toNat_ofNat']
    omega
  exact List.pairwise_map.mp numbers

omit [SettingsStore σ] in
/-- Of two stored packets the one with the higher number is no older. -/
theorem Stamped.monotone {stored : List StoredPacket} (h : Stamped s stored)
    (increasing : stored.Pairwise fun d d' => d.seq < d'.seq) {d d' : StoredPacket}
    (hd : d ∈ stored) (hd' : d' ∈ stored) (le : d.seq ≤ d'.seq) : d.uptimeMs ≤ d'.uptimeMs := by
  obtain ⟨i, hi, rfl⟩ := List.mem_iff_getElem.mp hd
  obtain ⟨j, hj, rfl⟩ := List.mem_iff_getElem.mp hd'
  rcases Nat.lt_trichotomy i j with before | rfl | after
  · exact List.pairwise_iff_getElem.mp h.ordered i j hi hj before
  · exact UInt64.le_refl _
  · have less := List.pairwise_iff_getElem.mp increasing j i hj hi after
    exact absurd less (UInt32.not_lt.mpr le)

/-! ## The two paths -/

/-- A packet off the air is pushed as it is kept: one entry, live, in every
later fetch and in the ring for as long as it is there. -/
structure PushedAsKept (s : CommandProcessor σ) (rssi snr : Int8) (raw : Payload)
    (o t : Outcome σ) : Prop where
  pushed : .frame (s.recipients none true) ⟨0, .packetEntry (s.liveEntry rssi snr raw)⟩ ∈ o.acts
  handedOut : ∀ m ∈ entriesOut t.acts, m.seq = (s.incoming rssi snr raw).seq →
    m = s.liveEntry rssi snr raw
  retained : ∀ d, t.state.store.1.get (s.incoming rssi snr raw).seq = some (some d) →
    packetEntry d = s.liveEntry rssi snr raw

/-- A packet given to the radio is kept as it was given. -/
structure SentAsKept (seq : UInt32) (o t : Outcome σ) : Prop where
  transmitted : ∃ raw, transmittedIn o.acts = [raw] ∧
    (∀ m ∈ entriesOut t.acts, m.seq = seq → m.raw = raw ∧ m.origin = .sent) ∧
    ∀ d, t.state.store.1.get seq = some (some d) →
      (packetEntry d).raw = raw ∧ (packetEntry d).origin = .sent

theorem pushedAsKept {s₀ : CommandProcessor σ} (boot : Booted s₀) {pre post : List Event}
    {rssi snr : Int8} {raw : Payload}
    (few : (storedIn
      (s₀.run pbDecode (pre ++ .packetReceived rssi snr raw :: post)).acts).length < 2 ^ 32 - 1)
    (numbered : ((s₀.run pbDecode pre).state.incoming rssi snr raw).seq ≠ 0) :
    PushedAsKept (s₀.run pbDecode pre).state rssi snr raw
      ((s₀.run pbDecode pre).state.step pbDecode (.packetReceived rssi snr raw))
      (s₀.run pbDecode (pre ++ .packetReceived rssi snr raw :: post)) := by
  generalize now : (s₀.run pbDecode pre).state = s at numbered ⊢
  rcases s.store.append_spec s.clock.uptimeMs64 rssi snr kFlagReceived raw with
    ⟨zero, _⟩ | ⟨seq, stored, _⟩
  · exact absurd zero numbered
  have acts : (s.step pbDecode (.packetReceived rssi snr raw)).acts = _ :=
    congrArg Outcome.acts (packetReceived_live numbered stored)
  have live : s.liveEntry rssi snr raw =
      packetEntry ⟨s.store.1.nextSeq, s.clock.uptimeMs64, rssi, snr, kFlagReceived, raw⟩ := by
    have air : ¬kFlagReceived &&& kFlagSent ≠ 0 := by decide
    rw [liveEntry, packetEntry, incoming, seq, if_neg air]
  have inRun : (⟨s.store.1.nextSeq, s.clock.uptimeMs64, rssi, snr, kFlagReceived, raw⟩ :
      StoredPacket) ∈
      storedIn (s₀.run pbDecode (pre ++ .packetReceived rssi snr raw :: post)).acts := by
    apply storedIn_step post
    rw [now, acts]
    exact List.mem_cons_self
  constructor
  · rw [live, acts]
    exact List.mem_cons_of_mem _ List.mem_cons_self
  · intro m hm same
    rw [live]
    exact run_once boot _ few inRun hm (same.trans seq)
  · intro d retained
    obtain ⟨hd, number⟩ := run_get boot _ few retained
    rw [live, List.inj_on_of_nodup_map ((run_ledger boot _).once few) hd inRun (number.trans seq)]

theorem sentAsKept {s₀ : CommandProcessor σ} (boot : Booted s₀) {pre post : List Event} {e : Event}
    (few : (storedIn (s₀.run pbDecode (pre ++ e :: post)).acts).length < 2 ^ 32 - 1) {seq : UInt32}
    (accepted : seq ∈ acceptedIn ((s₀.run pbDecode pre).state.step pbDecode e).acts) :
    SentAsKept seq ((s₀.run pbDecode pre).state.step pbDecode e)
      (s₀.run pbDecode (pre ++ e :: post)) := by
  have sends : SendsOnly pbDecode (s₀.run pbDecode pre).state e _ := step_sendsOnly _ e
  rcases sends with
    ⟨_, none'⟩ | ⟨env, data, sink, req, raw, entry, event, decoded, body, sent⟩
  · rw [none'] at accepted
    cases accepted
  have acts := sent.acts
  have stored : entry ∈ storedIn ((s₀.run pbDecode pre).state.step pbDecode e).acts := by
    rw [acts]
    exact List.mem_cons_self
  have number : seq = entry.seq := by
    rw [acts] at accepted
    cases started : env.transmitOk <;> rw [started] at accepted <;>
      exact List.mem_singleton.mp accepted
  have flags : entry.flags = kFlagSent := by
    subst event
    cases step_stamps _ _ stored
    rfl
  have origin : (packetEntry entry).origin = .sent := by
    rw [packetEntry, flags]
    rfl
  have inRun := storedIn_step post stored
  refine ⟨raw, ?_, ?_, ?_⟩
  · rw [acts]
    cases env.transmitOk <;> rfl
  · intro m hm same
    rw [run_once boot _ few inRun hm (same.trans number)]
    exact ⟨sent.same, origin⟩
  · intro d retained
    obtain ⟨hd, numbered⟩ := run_get boot _ few retained
    rw [List.inj_on_of_nodup_map ((run_ledger boot _).once few) hd inRun (numbered.trans number)]
    exact ⟨sent.same, origin⟩

/-- **Live push and history agree.** In every run from boot with fewer than
2^32 - 1 packets stored: a packet taken off the air is pushed as it is kept, a
packet given to the radio is kept as it was given, and while the rollovers fit
their 32 bits, of two retained packets the one with the higher number is no
older. -/
theorem live_agrees_with_history (pbDecode : List UInt8 → Option ClientToRadio)
    {s₀ : CommandProcessor σ} (boot : Booted s₀) (events : List Event)
    (few : (storedIn (s₀.run pbDecode events).acts).length < 2 ^ 32 - 1) :
    (∀ pre rssi snr raw post, events = pre ++ .packetReceived rssi snr raw :: post →
      ((s₀.run pbDecode pre).state.incoming rssi snr raw).seq ≠ 0 →
      PushedAsKept (s₀.run pbDecode pre).state rssi snr raw
        ((s₀.run pbDecode pre).state.step pbDecode (.packetReceived rssi snr raw))
        (s₀.run pbDecode events)) ∧
    (∀ pre e post, events = pre ++ e :: post →
      ∀ seq ∈ acceptedIn ((s₀.run pbDecode pre).state.step pbDecode e).acts,
        SentAsKept seq ((s₀.run pbDecode pre).state.step pbDecode e) (s₀.run pbDecode events)) ∧
    (FewWraps s₀ events → ∀ seq seq' d d',
      (s₀.run pbDecode events).state.store.1.get seq = some (some d) →
      (s₀.run pbDecode events).state.store.1.get seq' = some (some d') →
      seq ≤ seq' → d.uptimeMs ≤ d'.uptimeMs) := by
  refine ⟨?_, ?_, ?_⟩
  · rintro pre rssi snr raw post rfl numbered
    exact pushedAsKept boot few numbered
  · rintro pre e post rfl seq accepted
    exact sentAsKept boot few accepted
  · intro wraps seq seq' d d' retained retained' le
    obtain ⟨hd, rfl⟩ := run_get boot events few retained
    obtain ⟨hd', rfl⟩ := run_get boot events few retained'
    exact (run_stamped events wraps).monotone ((run_ledger boot events).increasing few) hd hd' le

/-- A login, a packet off the air, one that is sent, and both fetched. -/
def heardAndSent : List Event :=
  [.connect 1, sampleEvent 0 1, .packetReceived 0 0 (onePacket 0xAA), .poll 5 false,
    sampleEvent 3 1, .envelope ⟨none, true, true⟩ [0x08, 0x05, 0x3A, 0x00] 1]

theorem live_agrees_with_history_sent :
    let logged := (sampleBoot.run pagingDecode (heardAndSent.take 2)).state
    let polled := (sampleBoot.run pagingDecode (heardAndSent.take 4)).state
    let t := sampleBoot.run pagingDecode heardAndSent
    PushedAsKept logged 0 0 (onePacket 0xAA)
        (logged.step pagingDecode (.packetReceived 0 0 (onePacket 0xAA))) t ∧
      SentAsKept 2 (polled.step pagingDecode (sampleEvent 3 1)) t ∧
      ∀ seq seq' d d', t.state.store.1.get seq = some (some d) →
        t.state.store.1.get seq' = some (some d') → seq ≤ seq' → d.uptimeMs ≤ d'.uptimeMs := by
  intro logged polled t
  obtain ⟨heard, sent, stamped⟩ :=
    live_agrees_with_history pagingDecode sampleBoot_booted heardAndSent (by decide +kernel)
  refine ⟨?_, ?_, stamped (by decide +kernel)⟩
  · exact heard (heardAndSent.take 2) 0 0 (onePacket 0xAA) (heardAndSent.drop 3) rfl
      (by decide +kernel)
  · exact sent (heardAndSent.take 4) (sampleEvent 3 1) (heardAndSent.drop 5) rfl 2
      (by decide +kernel)

end CommandProcessor

end MeshPigeon
