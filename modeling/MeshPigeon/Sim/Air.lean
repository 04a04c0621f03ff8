import MeshPigeon.Sim.Simulator

/-!
# The simulator's air

* `air_conserved`: what is heard was sent or injected, and nothing else is on the air;
* `lossless_echo`: without loss, every packet sent is heard once and in order;
* `transmission_reported`: a transmission is reported within three ticks.
-/
namespace MeshPigeon

namespace Simulator

variable {o : SimOptions} {sim : Simulator}

/-! ## What an event does to the radio -/

/-- No packet is transmitted, and the one under way stays so. -/
structure Mute (s : CommandProcessor MemorySettingsStore) (e : Event) : Prop where
  transmitted : transmittedIn (s.step decodeRequest e).acts = []
  pending : (s.step decodeRequest e).state.txPending = s.txPending
  seq : (s.step decodeRequest e).state.txPendingSeq = s.txPendingSeq

/-- One packet is transmitted, and stays under way if the radio takes it. -/
structure Sends (s : CommandProcessor MemorySettingsStore) (e : Event) (ok : Bool) (raw : Payload) :
    Prop where
  idle : s.txPending = false
  transmitted : transmittedIn (s.step decodeRequest e).acts = [raw]
  pending : (s.step decodeRequest e).state.txPending = ok

theorem transmittedIn_silent {as : List Act} (h : ∀ a ∈ as, a.Silent) : transmittedIn as = [] :=
  List.filterMap_eq_nil_iff.mpr fun a ha => (h a ha).transmitted

theorem mute_or_sends (s : CommandProcessor MemorySettingsStore) {e : Event}
    (unpolled : ∀ now done, e ≠ .poll now done) (unreported : ∀ seq ok, e ≠ .txResult seq ok) :
    Mute s e ∨ ∃ env data c raw, e = .envelope env data c ∧ Sends s e env.transmitOk raw := by
  cases step : CommandProcessor.step_stepped decodeRequest s e with
  | @connected c _ same =>
    left
    obtain ⟨_, added, _⟩ := (s.setAuthenticated c false).addSink_eq c
    refine ⟨?_, ?_, ?_⟩
    all_goals rw [same, added]; rfl
  | relinked _ same | disconnected _ same | dropped _ _ same | linkChanged _ same =>
    left
    refine ⟨?_, ?_, ?_⟩
    all_goals rw [same]; rfl
  | requested event _ _ handled =>
    rcases handled.packets with inert | ⟨entry, stored⟩ | ⟨raw, entry, _, sent⟩
    · exact .inl ⟨transmittedIn_silent inert.acts, inert.pending, inert.seq⟩
    · obtain ⟨rest, acts, silent⟩ := stored.acts
      refine .inl ⟨?_, stored.pending, stored.pendingSeq⟩
      rw [acts]
      exact (List.filterMap_cons_none rfl).trans (transmittedIn_silent silent)
    · refine .inr ⟨_, _, _, raw, event, sent.idle, ?_, sent.pending⟩
      rw [sent.acts]
      split <;> rfl
  | @unheard rssi snr raw _ _ same =>
    left
    refine ⟨?_, by rw [same], by rw [same]⟩
    rw [same]
    cases (s.incoming rssi snr raw).stored <;> rfl
  | heard _ _ _ _ same => exact .inl ⟨by rw [same]; rfl, by rw [same], by rw [same]⟩
  | ticked event | finished event => exact absurd event (unpolled _ _)
  | stale event | reported event => exact absurd event (unreported _ _)

theorem Brought.mute_or_sends {r : SimRadio} {e : Event} (brought : Brought r e)
    (s : CommandProcessor MemorySettingsStore) :
    heard [.event e] = [] ∧ (Mute s e ∨ ∃ raw, Sends s e r.transmits raw) := by
  have unpolled : ∀ now done, e ≠ .poll now done := by cases brought <;> simp
  have unreported : ∀ seq ok, e ≠ .txResult seq ok := by cases brought <;> simp
  refine ⟨by cases brought <;> rfl, ?_⟩
  rcases Simulator.mute_or_sends s unpolled unreported with mute | ⟨_, _, _, raw, same, sends⟩
  · exact .inl mute
  · cases brought with
    | connect | disconnect | linkChanged => cases same
    | envelope =>
      cases same
      exact .inr ⟨raw, sends⟩

theorem mute_received (s : CommandProcessor MemorySettingsStore) (rssi snr : Int8) (raw : Payload) :
    Mute s (.packetReceived rssi snr raw) := by
  have unpolled : ∀ now done, Event.packetReceived rssi snr raw ≠ .poll now done := by simp
  rcases mute_or_sends s unpolled (by simp) with mute | ⟨_, _, _, _, none, _⟩
  · exact mute
  · cases none

/-! ## The air -/

/-- The packet that is under way. -/
def inFlight (r : SimRadio) : List Payload := if r.txActive then [r.lastTx] else []

/-- What the core, the radio and the log have to do with each other. -/
structure Balanced (o : SimOptions) (core : CommandProcessor MemorySettingsStore) (radio : SimRadio)
    (log : List SimSeen) : Prop where
  lock : core.txPending = radio.txActive
  ready : radio.Ready
  lossPct : radio.lossPct = o.lossPct
  dupPct : radio.dupPct = o.dupPct
  keyed : keyed log = (deliveries log).map Prod.fst ++ inFlight radio
  copies : ∀ d ∈ deliveries log,
    d.2 ≤ 2 ∧ (o.lossPct = 0 → 1 ≤ d.2) ∧ (o.dupPct = 0 → d.2 ≤ 1)
  conserved : heard log ++ radio.air = aired log
  sent : o.lossPct = 0 → Simulator.keyed log = transmittedIn (acts log)
  own : o.trafficMs = 0 → aired log = (deliveries log).flatMap fun d => List.replicate d.2 d.1

/-- What one step adds to the balance. -/
structure Change (o : SimOptions) (core : CommandProcessor MemorySettingsStore)
    (radio radio' : SimRadio) (log : List SimSeen) : Prop where
  lock : core.txPending = radio'.txActive
  ready : radio'.Ready
  tuned : SimRadio.Tuned radio radio'
  keyed : inFlight radio ++ keyed log = (deliveries log).map Prod.fst ++ inFlight radio'
  copies : ∀ d ∈ deliveries log,
    d.2 ≤ 2 ∧ (o.lossPct = 0 → 1 ≤ d.2) ∧ (o.dupPct = 0 → d.2 ≤ 1)
  conserved : radio.air ++ aired log = heard log ++ radio'.air
  sent : o.lossPct = 0 → Simulator.keyed log = transmittedIn (acts log)
  own : o.trafficMs = 0 → aired log = (deliveries log).flatMap fun d => List.replicate d.2 d.1

theorem transmittedIn_append (as bs : List Act) :
    transmittedIn (as ++ bs) = transmittedIn as ++ transmittedIn bs := List.filterMap_append

variable {core core' : CommandProcessor MemorySettingsStore} {radio radio' : SimRadio}
  {log log' : List SimSeen}

theorem Balanced.append (h : Balanced o core radio log)
    (change : Change o core' radio radio' log') : Balanced o core' radio' (log ++ log') where
  lock := change.lock
  ready := change.ready
  lossPct := change.tuned.lossPct.trans h.lossPct
  dupPct := change.tuned.dupPct.trans h.dupPct
  keyed := by
    rw [keyed_append, deliveries_append, List.map_append, h.keyed, List.append_assoc, change.keyed,
      List.append_assoc]
  copies := by
    intro d hd
    rw [deliveries_append] at hd
    exact (List.mem_append.mp hd).elim (h.copies d) (change.copies d)
  conserved := by
    rw [heard_append, aired_append, ← h.conserved, List.append_assoc, List.append_assoc,
      change.conserved]
  sent lossless := by
    rw [keyed_append, acts_append, transmittedIn_append, h.sent lossless, change.sent lossless]
  own untrafficked := by
    rw [aired_append, deliveries_append, List.flatMap_append, h.own untrafficked,
      change.own untrafficked]

/-- A call that transmits nothing. -/
theorem Change.mute (h : Balanced o sim.core sim.radio log) {e : Event} (mute : Mute sim.core e)
    (unheard : heard [.event e] = []) :
    Change o (sim.call e).1.core sim.radio (sim.call e).1.radio (sim.call e).2 := by
  obtain ⟨_, acts_eq, keyed_eq, deliveries_eq, aired_eq, heard_eq⟩ := sim.call_log e
  rw [mute.transmitted] at acts_eq keyed_eq deliveries_eq aired_eq heard_eq
  rw [unheard] at heard_eq
  rw [(sim.call_mute mute.transmitted).1]
  refine ⟨mute.pending.trans h.lock, h.ready, ⟨rfl, rfl⟩, ?_, ?_, ?_, fun _ => ?_, fun _ => ?_⟩
  · rw [keyed_eq, deliveries_eq]
    exact List.append_nil _
  · rw [deliveries_eq]
    exact fun d none => absurd none List.not_mem_nil
  · rw [aired_eq, heard_eq]
    exact List.append_nil _
  · rw [keyed_eq, acts_eq, transmittedIn_append, mute.transmitted]
    rfl
  · rw [aired_eq, deliveries_eq]
    rfl

/-- The radio takes the packet, or kills it. -/
theorem Change.sends (h : Balanced o sim.core sim.radio log) {e : Event} {raw : Payload}
    (sends : Sends sim.core e sim.radio.transmits raw) (unheard : heard [.event e] = []) :
    Change o (sim.call e).1.core sim.radio (sim.call e).1.radio (sim.call e).2 := by
  obtain ⟨_, acts_eq, keyed_eq, deliveries_eq, aired_eq, heard_eq⟩ := sim.call_log e
  have after : (sim.call e).1.radio = (sim.radio.transmit raw).2 := by
    rw [call, sends.transmitted]
    rfl
  have idle : sim.radio.txActive = false := h.lock.symm.trans sends.idle
  have full := h.ready.idle idle
  have sent : transmittedIn (acts (sim.call e).2) = [raw] := by
    rw [acts_eq, (transmits_log _ _).2, List.append_nil, sends.transmitted]
  rw [sends.transmitted] at keyed_eq deliveries_eq aired_eq heard_eq
  rw [unheard] at heard_eq
  rw [after]
  cases took : sim.radio.transmits with
  | false =>
    obtain ⟨status, tuned, active, _, ticks, air⟩ := SimRadio.transmit_killed took raw
    have log_eq : (transmits sim.radio [raw]).2 = [] := if_neg (by rw [status]; decide)
    rw [log_eq] at keyed_eq deliveries_eq aired_eq heard_eq
    rw [idle] at active
    refine ⟨?_, ⟨fun _ => ticks.trans full, ?_⟩, tuned, ?_, ?_, ?_, fun lossless => ?_, fun _ => ?_⟩
    · rw [active, ← took]
      exact sends.pending
    · rw [active]
      rintro ⟨⟩
    · rw [keyed_eq, deliveries_eq, inFlight, inFlight, active, idle]
      rfl
    · rw [deliveries_eq]
      exact fun d none => absurd none List.not_mem_nil
    · rw [aired_eq, heard_eq, air]
      exact List.append_nil _
    · rw [SimRadio.transmits_lossless (h.lossPct.trans lossless)] at took
      cases took
    · rw [aired_eq, deliveries_eq]
      rfl
  | true =>
    obtain ⟨status, tuned, active, last, ticks, air⟩ := SimRadio.transmit_started took raw
    have log_eq : (transmits sim.radio [raw]).2 = [.keyed raw] := if_pos status
    rw [log_eq] at keyed_eq deliveries_eq aired_eq heard_eq
    refine ⟨?_, ⟨?_, fun _ => ?_⟩, tuned, ?_, ?_, ?_, fun _ => ?_, fun _ => ?_⟩
    · rw [active, ← took]
      exact sends.pending
    · rw [active]
      rintro ⟨⟩
    · rw [ticks, full]
      decide
    · rw [keyed_eq, deliveries_eq, inFlight, inFlight, active, idle, last]
      rfl
    · rw [deliveries_eq]
      exact fun d none => absurd none List.not_mem_nil
    · rw [aired_eq, heard_eq, air]
      exact List.append_nil _
    · rw [keyed_eq, sent]
      rfl
    · rw [aired_eq, deliveries_eq]
      rfl

/-- A packet from the air. -/
theorem Change.heard (h : Balanced o sim.core sim.radio log) {p : Reception}
    (got : sim.radio.receive.1 = some p) :
    let r := { sim with radio := sim.radio.receive.2 }.call (.packetReceived p.rssi p.snr p.raw)
    Change o r.1.core sim.radio r.1.radio r.2 := by
  intro r
  let sim' : Simulator := { sim with radio := sim.radio.receive.2 }
  have mute := mute_received sim.core p.rssi p.snr p.raw
  obtain ⟨_, acts_eq, keyed_eq, deliveries_eq, aired_eq, heard_eq⟩ :=
    sim'.call_log (.packetReceived p.rssi p.snr p.raw)
  have radio : r.1.radio = sim.radio.receive.2 := (sim'.call_mute mute.transmitted).1
  rw [mute.transmitted] at acts_eq keyed_eq deliveries_eq aired_eq heard_eq
  rcases sim.radio.receive_cases with ⟨none, _⟩ | ⟨raw, air, sky, ⟨rssi, snr, first⟩, rest, tuned,
    active, last, ticks⟩
  · rw [none] at got
    cases got
  · have mine : p.raw = raw := by
      cases got.symm.trans first
      rfl
    rw [radio]
    refine ⟨?_, ⟨fun idle => ?_, fun busy => ?_⟩, tuned, ?_, ?_, ?_, fun _ => ?_, fun _ => ?_⟩
    · exact mute.pending.trans (h.lock.trans active.symm)
    · exact ticks.trans (h.ready.idle (active.symm.trans idle))
    · rw [ticks]
      exact h.ready.busy (active.symm.trans busy)
    · rw [show Simulator.keyed r.2 = _ from keyed_eq, show deliveries r.2 = _ from deliveries_eq,
        inFlight, inFlight, active, last]
      exact List.append_nil _
    · rw [show deliveries r.2 = _ from deliveries_eq]
      exact fun d none => absurd none List.not_mem_nil
    · rw [show aired r.2 = _ from aired_eq, show Simulator.heard r.2 = _ from heard_eq, rest, sky,
        ← mine]
      exact List.append_nil _
    · rw [show Simulator.keyed r.2 = _ from keyed_eq, show acts r.2 = _ from acts_eq,
        transmittedIn_append]
      exact (congrArg (· ++ transmittedIn []) mute.transmitted).symm
    · rw [show aired r.2 = _ from aired_eq, show deliveries r.2 = _ from deliveries_eq]
      rfl

theorem Balanced.moved (h : Balanced o sim.core sim.radio log) {r : Simulated}
    (moved : Moved o sim r) : Balanced o r.1.core r.1.radio (log ++ r.2) := by
  cases moved with
  | kept core radio same =>
    rw [core, radio, same, List.append_nil]
    exact h
  | @called e brought core radio same =>
    rw [core, radio, same]
    refine h.append ?_
    obtain ⟨unheard, mute | ⟨raw, sends⟩⟩ := brought.mute_or_sends sim.core
    · exact .mute h mute unheard
    · exact .sends h sends unheard
  | @injected raw wanted core radio same =>
    rw [core, radio, same]
    exact h.append ⟨h.lock, ⟨h.ready.idle, h.ready.busy⟩, ⟨rfl, rfl⟩, List.append_nil _,
      fun d none => absurd none List.not_mem_nil, rfl, fun _ => rfl, fun none => absurd none wanted⟩
  | @heard p got same =>
    rw [same]
    exact h.append (.heard h got)

/-! ### The poll -/

theorem step_poll (s : CommandProcessor MemorySettingsStore) (now : UInt32) (done : Bool) :
    let o := s.step decodeRequest (.poll now done)
    transmittedIn o.acts = [] ∧ o.state.txPending = (s.txPending && !done) ∧
      o.state.txPendingSeq = s.txPendingSeq ∧
      (s.txPending = true → done = true →
        o.acts = [.frame s.sinks ⟨0, .txResult s.txPendingSeq true⟩]) := by
  intro o
  cases CommandProcessor.step_stepped decodeRequest s (.poll now done) with
  | ticked event unfinished same =>
    cases event
    rw [show o = _ from same]
    refine ⟨rfl, ?_, rfl, fun pending finished => ?_⟩
    · show s.txPending = _
      cases pending : s.txPending with
      | false => rfl
      | true =>
        rw [pending, Bool.true_and] at unfinished
        rw [unfinished]
        rfl
    · rw [pending, finished] at unfinished
      cases unfinished
  | finished event pending same =>
    cases event
    rw [show o = _ from same]
    refine ⟨rfl, ?_, rfl, fun _ _ => ?_⟩
    · rw [pending]
      rfl
    · exact CommandProcessor.push_all ..
  | connected event | relinked event | disconnected event | dropped event | requested event
  | unheard event | heard event | stale event | reported event | linkChanged event => cases event

/-- The poll is a call of the core over the radio that has answered it. -/
theorem poll_log (sim : Simulator) :
    let now := sim.simClock + 1
    let o := sim.core.step decodeRequest (.poll now sim.polling.1)
    let copies := sim.polling.2.air.length - sim.radio.air.length
    sim.poll.1.core = o.state ∧ sim.poll.1.radio = sim.polling.2 ∧
      sim.poll.2 = (if sim.core.txPending && sim.polling.1 then
        [.delivered sim.radio.lastTx copies] else []) ++
          .event (.poll now sim.polling.1) :: o.acts.map .act := by
  intro now o copies
  have polled := Simulator.call_mute { sim with simClock := now, radio := sim.polling.2 }
    (step_poll sim.core now sim.polling.1).1
  exact ⟨rfl, polled.1, congrArg _ polled.2⟩

theorem acts_log (e : Event) (as : List Act) :
    keyed (.event e :: as.map .act) = [] ∧ deliveries (.event e :: as.map .act) = [] ∧
      aired (.event e :: as.map .act) = [] ∧ acts (.event e :: as.map .act) = as ∧
      heard (.event e :: as.map .act) = heard [.event e] := by
  induction as with
  | nil => exact ⟨rfl, rfl, rfl, rfl, rfl⟩
  | cons a as ih => exact ⟨ih.1, ih.2.1, ih.2.2.1, congrArg (a :: ·) ih.2.2.2.1, ih.2.2.2.2⟩

/-- What a poll that finishes nothing adds. -/
theorem Change.unfinished (h : Balanced o sim.core sim.radio log)
    (early : sim.polling.1 = false) (active : sim.polling.2.txActive = sim.radio.txActive)
    (ready : sim.polling.2.Ready) (tuned : SimRadio.Tuned sim.radio sim.polling.2)
    (last : sim.polling.2.lastTx = sim.radio.lastTx) (air : sim.polling.2.air = sim.radio.air) :
    Change o sim.poll.1.core sim.radio sim.poll.1.radio sim.poll.2 := by
  obtain ⟨core, radio, log_eq⟩ := sim.poll_log
  obtain ⟨untransmitted, pending, _⟩ := step_poll sim.core (sim.simClock + 1) sim.polling.1
  rw [early, Bool.and_false, if_neg Bool.false_ne_true, List.nil_append] at log_eq
  obtain ⟨keyed_eq, deliveries_eq, aired_eq, acts_eq, heard_eq⟩ :=
    acts_log (.poll (sim.simClock + 1) false)
      (sim.core.step decodeRequest (.poll (sim.simClock + 1) false)).acts
  rw [early] at pending untransmitted
  rw [core, radio, log_eq, early]
  refine ⟨?_, ready, tuned, ?_, ?_, ?_, fun _ => ?_, fun _ => ?_⟩
  · rw [pending, active, ← h.lock]
    exact Bool.and_true _
  · rw [keyed_eq, deliveries_eq, inFlight, inFlight, active, last]
    exact List.append_nil _
  · rw [deliveries_eq]
    exact fun d none => absurd none List.not_mem_nil
  · rw [aired_eq, heard_eq, air]
    exact List.append_nil _
  · rw [keyed_eq, acts_eq]
    exact untransmitted.symm
  · rw [aired_eq, deliveries_eq]
    rfl

/-- The third poll of a transmission delivers it. -/
theorem Change.finished (h : Balanced o sim.core sim.radio log)
    (pending : sim.core.txPending = true) (left : sim.radio.txTicksLeft = 1) :
    Change o sim.poll.1.core sim.radio sim.poll.1.radio sim.poll.2 := by
  obtain ⟨core, radio, log_eq⟩ := sim.poll_log
  have active : sim.radio.txActive = true := h.lock.symm.trans pending
  obtain ⟨copies, done, air, few, some', single, tuned, idle, full⟩ :=
    SimRadio.txDone_last active left
  have asked : sim.polling = sim.radio.txDone := if_pos pending
  rw [asked] at core radio log_eq
  have counted : sim.radio.txDone.2.air.length - sim.radio.air.length = copies := by
    rw [air, List.length_append, List.length_replicate]
    omega
  obtain ⟨untransmitted, released, _⟩ := step_poll sim.core (sim.simClock + 1) true
  rw [pending, done, counted] at log_eq
  rw [done] at core
  obtain ⟨keyed_eq, deliveries_eq, aired_eq, acts_eq, heard_eq⟩ :=
    acts_log (.poll (sim.simClock + 1) true)
      (sim.core.step decodeRequest (.poll (sim.simClock + 1) true)).acts
  have keyed' : Simulator.keyed sim.poll.2 = [] := by
    rw [log_eq, keyed_append, keyed_eq]
    rfl
  have deliveries' : deliveries sim.poll.2 = [(sim.radio.lastTx, copies)] := by
    rw [log_eq, deliveries_append, deliveries_eq]
    rfl
  have aired' : aired sim.poll.2 = List.replicate copies sim.radio.lastTx := by
    rw [log_eq, aired_append, aired_eq, List.append_nil]
    exact List.append_nil _
  have heard' : Simulator.heard sim.poll.2 = [] := by
    rw [log_eq, heard_append, heard_eq]
    rfl
  have acts' : transmittedIn (acts sim.poll.2) = [] := by
    rw [log_eq, acts_append, acts_eq]
    exact untransmitted
  rw [core, radio]
  refine ⟨?_, ⟨fun _ => full, fun busy => ?_⟩, tuned, ?_, ?_, ?_, fun _ => ?_, fun _ => ?_⟩
  · rw [released, pending, idle]
    rfl
  · rw [idle] at busy
    cases busy
  · rw [keyed', deliveries', inFlight, inFlight, active, idle]
    rfl
  · rw [deliveries']
    intro d hd
    rw [List.mem_singleton.mp hd]
    exact ⟨few, fun none => some' (h.lossPct.trans none), fun none => single (h.dupPct.trans none)⟩
  · rw [aired', heard', air]
    rfl
  · rw [keyed', acts']
  · rw [aired', deliveries']
    exact (List.append_nil _).symm

/-- A poll asks for nothing, counts down or delivers. -/
theorem poll_cases (h : Balanced o sim.core sim.radio log) :
    sim.core.txPending = false ∧ sim.polling = (false, sim.radio) ∨
      sim.core.txPending = true ∧ 1 < sim.radio.txTicksLeft ∧ sim.polling =
        (false, { sim.radio with txTicksLeft := sim.radio.txTicksLeft - 1 }) ∨
      sim.core.txPending = true ∧ sim.radio.txTicksLeft = 1 := by
  cases pending : sim.core.txPending with
  | false => exact .inl ⟨rfl, if_neg (by rw [pending]; decide)⟩
  | true =>
    right
    have active : sim.radio.txActive = true := h.lock.symm.trans pending
    obtain ⟨least, _⟩ := h.ready.busy active
    by_cases last : sim.radio.txTicksLeft = 1
    · exact .inr ⟨rfl, last⟩
    · have left : 1 < sim.radio.txTicksLeft := by omega
      exact .inl ⟨rfl, left, (if_pos pending).trans (SimRadio.txDone_early active left)⟩

theorem Balanced.poll (h : Balanced o sim.core sim.radio log) :
    Balanced o sim.poll.1.core sim.poll.1.radio (log ++ sim.poll.2) := by
  rcases poll_cases h with ⟨_, same⟩ | ⟨pending, left, early⟩ | ⟨pending, left⟩
  · refine h.append (.unfinished h ?_ ?_ ?_ ?_ ?_ ?_)
    all_goals rw [same]
    · exact h.ready
    · exact ⟨rfl, rfl⟩
  · have active : sim.radio.txActive = true := h.lock.symm.trans pending
    obtain ⟨_, most⟩ := h.ready.busy active
    refine h.append (.unfinished h ?_ ?_ ?_ ?_ ?_ ?_)
    all_goals rw [early]
    · refine ⟨fun idle => absurd (active.symm.trans idle) (by decide), fun _ => ⟨?_, ?_⟩⟩
      · show 1 ≤ sim.radio.txTicksLeft - 1
        omega
      · show sim.radio.txTicksLeft - 1 ≤ kTxTicks
        omega
    · exact ⟨rfl, rfl⟩
  · exact h.append (.finished h pending left)

theorem balanced_start (o : SimOptions) (response : RadioToClient) :
    Balanced o (start o response).core (start o response).radio [] where
  lock := rfl
  ready := SimRadio.ready_start o.lossPct o.dupPct
  lossPct := rfl
  dupPct := rfl
  keyed := rfl
  copies _ none := absurd none List.not_mem_nil
  conserved := rfl
  sent _ := rfl
  own _ := rfl

theorem balanced_kept : Kept o fun r => Balanced o r.1.core r.1.radio r.2 :=
  fun _ _ _ h moved => h.moved moved

theorem run_balanced (h : Balanced o sim.core sim.radio log) (rounds : List (Option SimReady)) :
    Balanced o (sim.run o rounds).1.core (sim.run o rounds).1.radio
      (log ++ (sim.run o rounds).2) :=
  balanced_kept.run (fun _ _ h => h.poll) rounds h

/-- **Nothing is on the air that nobody sent.** Whatever the losses, the packets the radio took are
those it has delivered and the one under way, in order; each was delivered twice at most, at least
once without losses and at most once without duplicates; and what the core has heard and what is
still on the air are the packets delivered and injected, each copy once and in order. -/
theorem air_conserved (o : SimOptions) (response : RadioToClient)
    (rounds : List (Option SimReady)) :
    let r := (start o response).run o rounds
    keyed r.2 = (deliveries r.2).map Prod.fst ++ inFlight r.1.radio ∧
      (∀ d ∈ deliveries r.2,
        d.2 ≤ 2 ∧ (o.lossPct = 0 → 1 ≤ d.2) ∧ (o.dupPct = 0 → d.2 ≤ 1)) ∧
      heard r.2 ++ r.1.radio.air = aired r.2 := by
  have h := run_balanced (balanced_start o response) rounds
  exact ⟨h.keyed, h.copies, h.conserved⟩

theorem flatMap_single {ds : List (Payload × Nat)} (one : ∀ d ∈ ds, d.2 = 1) :
    (ds.flatMap fun d => List.replicate d.2 d.1) = ds.map Prod.fst := by
  induction ds with
  | nil => rfl
  | cons d ds ih =>
    rw [List.flatMap_cons, List.map_cons, one d List.mem_cons_self,
      ih fun d hd => one d (List.mem_cons_of_mem _ hd)]
    rfl

/-- **Without loss, what is sent is heard.** With no losses, duplicates or other traffic, the
packets the core has handed to the radio are those it has heard, those on the air and the one under
way: each once, and in the order it sent them. -/
theorem lossless_echo (o : SimOptions) (response : RadioToClient) (lossless : o.lossPct = 0)
    (dupless : o.dupPct = 0) (alone : o.trafficMs = 0) (rounds : List (Option SimReady)) :
    let r := (start o response).run o rounds
    transmittedIn (acts r.2) = heard r.2 ++ r.1.radio.air ++ inFlight r.1.radio := by
  intro r
  have h : Balanced o r.1.core r.1.radio r.2 := run_balanced (balanced_start o response) rounds
  have once : ∀ d ∈ deliveries r.2, d.2 = 1 := fun d hd => by
    obtain ⟨_, least, most⟩ := h.copies d hd
    exact Nat.le_antisymm (most dupless) (least lossless)
  calc transmittedIn (acts r.2) = keyed r.2 := (h.sent lossless).symm
    _ = (deliveries r.2).map Prod.fst ++ inFlight r.1.radio := h.keyed
    _ = aired r.2 ++ inFlight r.1.radio := by
        rw [h.own alone, flatMap_single once]
    _ = heard r.2 ++ r.1.radio.air ++ inFlight r.1.radio := by rw [h.conserved]

/-- What a client sends in one round. -/
def sampleRound (body : Request) : Option SimReady :=
  let frame := frameEncodeEnvelope ((encodeRequest ⟨1, body⟩).getD [])
  some ⟨true, fun _ => if fits : frame.length ≤ 1024 then .data frame fits else .closed⟩

/-- A client tunes the radio and sends a packet. -/
def sampleRounds : List (Option SimReady) := [
  sampleRound (.setRadioSettings (some ⟨868000000, 125000, 7, 5, 14, 0⟩)),
  sampleRound (.sendPacket ⟨[0xAA, 0xBB], by decide⟩), none, none, none]

theorem lossless_echo_sample :
    let r := (start {} ⟨0, .none⟩).run {} sampleRounds
    transmittedIn (acts r.2) = heard r.2 ++ r.1.radio.air ++ inFlight r.1.radio :=
  lossless_echo {} ⟨0, .none⟩ rfl rfl rfl sampleRounds

/-! ## How long a transmission takes -/

/-- The packet with that seq is under way, with so many polls to go. -/
structure Busy (seq : UInt32) (left : Int) (sim : Simulator) : Prop where
  pending : sim.core.txPending = true
  seq : sim.core.txPendingSeq = seq
  left : sim.radio.txTicksLeft = left

variable {seq : UInt32} {left : Int}

theorem Busy.of_mute {sim : Simulator} (busy : Busy seq left sim) {e : Event}
    (mute : Mute sim.core e) : Busy seq left (sim.call e).1 where
  pending := mute.pending.trans busy.pending
  seq := mute.seq.trans busy.seq
  left := by
    rw [(sim.call_mute mute.transmitted).1]
    exact busy.left

theorem Busy.of_same {sim sim' : Simulator} (busy : Busy seq left sim) (core : sim'.core = sim.core)
    (ticks : sim'.radio.txTicksLeft = sim.radio.txTicksLeft) : Busy seq left sim' where
  pending := by rw [core]; exact busy.pending
  seq := by rw [core]; exact busy.seq
  left := ticks.trans busy.left

/-- Nothing but a poll tells on a transmission. -/
theorem Busy.moved (busy : Busy seq left sim) {r : Simulated} (moved : Moved o sim r) :
    Busy seq left r.1 := by
  cases moved with
  | kept core radio _ => exact busy.of_same core (by rw [radio])
  | @called e brought core radio _ =>
    obtain ⟨_, mute | ⟨raw, sends⟩⟩ := brought.mute_or_sends sim.core
    · exact (busy.of_mute mute).of_same core (by rw [radio])
    · exact absurd (sends.idle.symm.trans busy.pending) (by decide)
  | injected _ core radio _ => exact busy.of_same core (by rw [radio]; rfl)
  | @heard p _ same =>
    rw [same]
    have ticks : sim.radio.receive.2.txTicksLeft = sim.radio.txTicksLeft := by
      rcases sim.radio.receive_cases with ⟨none, _⟩ | ⟨_, _, _, _, _, _, _, _, ticks⟩
      · rw [none]
      · exact ticks
    have next : Busy seq left { sim with radio := sim.radio.receive.2 } := busy.of_same rfl ticks
    exact next.of_mute (mute_received sim.core p.rssi p.snr p.raw)

theorem busy_kept : Kept o fun r => Busy seq left r.1 := by
  intro sim log r busy moved
  have busy : Busy seq left sim := busy
  exact Busy.moved (r := r) busy moved

/-- The poll that finds one to go reports the packet; the others count. -/
theorem Busy.poll (busy : Busy seq left sim) (h : Balanced o sim.core sim.radio log) :
    (left = 1 → ∃ dest, .act (.frame dest ⟨0, .txResult seq true⟩) ∈ sim.poll.2) ∧
      (1 < left → Busy seq (left - 1) sim.poll.1) := by
  obtain ⟨pending, mine, ticks⟩ := busy
  obtain ⟨core, radio, log_eq⟩ := sim.poll_log
  rcases poll_cases h with ⟨idle, _⟩ | ⟨_, more, early⟩ | ⟨_, last⟩
  · rw [idle] at pending
    cases pending
  · refine ⟨fun one => by omega, fun _ => ?_⟩
    obtain ⟨_, still, same, _⟩ := step_poll sim.core (sim.simClock + 1) false
    rw [early] at core radio
    refine ⟨?_, ?_, ?_⟩
    · rw [core, still, pending]
      rfl
    · rw [core, same]
      exact mine
    · rw [radio, ← ticks]
  · refine ⟨fun _ => ⟨sim.core.sinks, ?_⟩, fun more => by omega⟩
    have active : sim.radio.txActive = true := h.lock.symm.trans pending
    obtain ⟨_, done, _⟩ := SimRadio.txDone_last active last
    have asked : sim.polling.1 = true := (congrArg Prod.fst (if_pos pending)).trans done
    obtain ⟨_, _, _, report⟩ := step_poll sim.core (sim.simClock + 1) true
    rw [log_eq, asked, report pending rfl, mine]
    exact List.mem_append_right _ (List.mem_cons_of_mem _ List.mem_cons_self)

/-- One round of a transmission. -/
theorem Busy.round (busy : Busy seq left sim) (h : Balanced o sim.core sim.radio log)
    (ready : Option SimReady) :
    (left = 1 → ∃ dest, .act (.frame dest ⟨0, .txResult seq true⟩) ∈ (sim.round o ready).2) ∧
      (1 < left → Busy seq (left - 1) (sim.round o ready).1) := by
  let served : Simulated := ready.elim (sim, []) sim.serve
  have balanced : Balanced o served.1.core served.1.radio (log ++ served.2) :=
    balanced_kept.serve ready h
  have begins : (fun r : Simulated => Busy seq left r.1) (sim, []) := busy
  have still : Busy seq left served.1 := (busy_kept (o := o)).serve ready begins
  obtain ⟨last, early⟩ := still.poll balanced
  refine ⟨fun one => ?_, fun more => ?_⟩
  · obtain ⟨dest, told⟩ := last one
    refine ⟨dest, List.mem_append_right _ ?_⟩
    exact List.mem_append_left _ (List.mem_append_left _ (List.mem_append_left _ told))
  · have counted : (fun r : Simulated => Busy seq (left - 1) r.1)
        (served.1.poll.1, [] ++ served.1.poll.2) := early more
    exact (busy_kept (o := o)).afterPoll counted

/-- **A transmission is reported within three ticks.** Whatever comes in meanwhile: when a packet is
under way, one of the three next ticks tells the clients that it was transmitted. -/
theorem transmission_reported (o : SimOptions) (response : RadioToClient)
    (rounds : List (Option SimReady)) (first second third : Option SimReady) :
    let r := (start o response).run o rounds
    r.1.core.txPending = false ∨
      ∃ dest, .act (.frame dest ⟨0, .txResult r.1.core.txPendingSeq true⟩) ∈
        (r.1.run o [first, second, third]).2 := by
  intro r
  have h : Balanced o r.1.core r.1.radio r.2 := run_balanced (balanced_start o response) rounds
  cases pending : r.1.core.txPending with
  | false => exact .inl rfl
  | true =>
    right
    obtain ⟨least, most⟩ := h.ready.busy (h.lock.symm.trans pending)
    have most : r.1.radio.txTicksLeft ≤ 3 := most
    have busy : Busy r.1.core.txPendingSeq r.1.radio.txTicksLeft r.1 := ⟨pending, rfl, rfl⟩
    have next (sim : Simulator) (log : List SimSeen) (h : Balanced o sim.core sim.radio log)
        (ready : Option SimReady) : Balanced o (sim.round o ready).1.core
          (sim.round o ready).1.radio (log ++ (sim.round o ready).2) :=
      balanced_kept.round (fun _ _ h => h.poll) ready h
    have h' := next _ _ h first
    have h'' := next _ _ h' second
    obtain ⟨one, more⟩ := busy.round h first
    by_cases last : r.1.radio.txTicksLeft = 1
    · obtain ⟨dest, told⟩ := one last
      exact ⟨dest, List.mem_append_left _ told⟩
    · obtain ⟨one, more⟩ := (more (by omega)).round h' second
      by_cases last' : r.1.radio.txTicksLeft = 2
      · obtain ⟨dest, told⟩ := one (by omega)
        exact ⟨dest, List.mem_append_right _ (List.mem_append_left _ told)⟩
      · obtain ⟨one, _⟩ := (more (by omega)).round h'' third
        obtain ⟨dest, told⟩ := one (by omega)
        refine ⟨dest, List.mem_append_right _ (List.mem_append_right _ ?_)⟩
        exact List.mem_append_left _ told

end Simulator

end MeshPigeon
