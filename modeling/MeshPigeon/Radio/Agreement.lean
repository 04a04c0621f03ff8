import MeshPigeon.Core.Transmit
import MeshPigeon.Radio.Board

/-! What the processor and the port hold about the air, and the air itself. -/
namespace MeshPigeon

/-- The driver is told nothing while a transmission is running, and no packet is
reported as sent that was not. -/
def Sound (t : Traits) (past : List Seen) : Seen → Prop
  | .driver (.command _ _) => running past = false
  | .core (.frame _ ⟨_, .txResult seq true⟩) => Finished t seq past
  | _ => True

/-- An entry that starts, ends and reports no transmission; a command only when none
is running. -/
inductive Calm (idle : Prop) : Seen → Prop
  | core {a : Act} : a.reported = none → Calm idle (.core a)
  | command {c : Command} {state : Int16} : idle → (∀ raw, c ≠ .startTransmit raw) →
      Calm idle (.driver (.command c state))
  | irqFlags {irq : UInt32} : Calm idle (.driver (.getIrqFlags irq))
  | packetLength {len : Int} : Calm idle (.driver (.getPacketLength len))
  | rssi {dbm : Int8} : Calm idle (.driver (.getRssi dbm))
  | snr {db : Int8} : Calm idle (.driver (.getSnr db))

theorem Calm.running {idle : Prop} {entry : Seen} (h : Calm idle entry) (past : List Seen) :
    running (past ++ [entry]) = running past := by
  rw [MeshPigeon.running, List.foldl_append]
  cases h with
  | @command c state _ other =>
    cases c with
    | startTransmit raw => exact absurd rfl (other raw)
    | _ => rfl
  | _ => rfl

theorem Calm.sound {t : Traits} {idle : Prop} {entry : Seen} (h : Calm idle entry)
    {past : List Seen} (quiet : idle → MeshPigeon.running past = false) : Sound t past entry := by
  cases h with
  | @core a silent =>
    cases a with
    | frame dest msg =>
      obtain ⟨id, body⟩ := msg
      cases body with
      | txResult seq ok => cases silent
      | _ => trivial
    | _ => trivial
  | command now _ => exact quiet now
  | _ => trivial

theorem Calm.unstarted {idle : Prop} {log : List Seen} (h : ∀ entry ∈ log, Calm idle entry) :
    Unstarted log := by
  intro raw state started
  cases h _ started with
  | command _ other => exact other raw rfl

theorem running_calm {idle : Prop} {log new : List Seen} (h : ∀ entry ∈ new, Calm idle entry) :
    running (log ++ new) = running log :=
  Trace.view_append (fun entry hentry past => (h entry hentry).running past) log

theorem Unstarted.append {log new : List Seen} (h : Unstarted log) (h' : Unstarted new) :
    Unstarted (log ++ new) := by
  intro raw state started
  rcases List.mem_append.mp started with early | late
  · exact h raw state early
  · exact h' raw state late

theorem Keyed.append {seq : UInt32} {log new : List Seen} (h : Keyed seq log)
    (still : Unstarted new) : Keyed seq (log ++ new) := by
  obtain ⟨past, entry, sink, id, state, rest, rfl, same, unstarted⟩ := h
  exact ⟨past, entry, sink, id, state, rest ++ new, by rw [List.append_assoc], same,
    unstarted.append still⟩

theorem Keyed.finished {t : Traits} {seq irq : UInt32} {log : List Seen} (h : Keyed seq log)
    (ended : running log = false) (done : irq &&& t.irqTxDone ≠ 0) {rest : List Seen}
    (still : Unstarted rest) : Finished t seq (log ++ .driver (.getIrqFlags irq) :: rest) :=
  ⟨log, irq, rest, rfl, done, h, ended, still⟩

namespace RadioBoard

variable {σ : Type} {t : Traits}

/-- The processor, the port and the air agree. -/
structure Agreed (t : Traits) (b : RadioBoard σ) (log : List Seen) : Prop where
  lock : b.core.txPending = b.radio.txStarted
  air : running log = true → b.radio.txStarted = true
  flight : b.core.txPending = true → Keyed b.core.txPendingSeq log
  sound : Trace.Along (Sound t) log

/-- A call of the processor leaves the transmission in flight alone. -/
structure Aside (s : CommandProcessor σ) (o : Outcome σ) : Prop where
  acts : ∀ a ∈ o.acts, a.transmitted = none ∧ a.reported = none
  pending : o.state.txPending = s.txPending
  seq : o.state.txPendingSeq = s.txPendingSeq

theorem aside_quiet {s s' : CommandProcessor σ} (pending : s'.txPending = s.txPending)
    (seq : s'.txPendingSeq = s.txPendingSeq) : Aside s s'.quiet :=
  ⟨fun _ ha => (List.not_mem_nil ha).elim, pending, seq⟩

theorem aside_inert {s : CommandProcessor σ} {o : Outcome σ} (h : s.Inert o) : Aside s o :=
  ⟨fun a ha => ⟨(h.acts a ha).transmitted, (h.acts a ha).reported⟩, h.pending, h.seq⟩

theorem aside_stored {s : CommandProcessor σ} {o : Outcome σ} {entry : StoredPacket}
    (h : s.Stored o entry) : Aside s o := by
  refine ⟨fun a ha => ?_, h.pending, h.pendingSeq⟩
  obtain ⟨rest, acts, silent⟩ := h.acts
  rw [acts] at ha
  rcases List.mem_cons.mp ha with rfl | later
  · exact ⟨rfl, rfl⟩
  · exact ⟨(silent a later).transmitted, (silent a later).reported⟩

variable {b : RadioBoard σ} {log : List Seen}

theorem Agreed.idle (h : Agreed t b log) (free : b.radio.txStarted = false) :
    running log = false := by
  rw [Bool.eq_false_iff]
  intro on
  rw [h.air on] at free
  cases free

/-- Calm entries keep the agreement. -/
theorem Agreed.calm (h : Agreed t b log) {c : CommandProcessor σ} {new : List Seen}
    (entries : ∀ entry ∈ new, Calm (running log = false) entry)
    (pending : c.txPending = b.core.txPending) (seq : c.txPendingSeq = b.core.txPendingSeq) :
    Agreed t ⟨c, b.radio⟩ (log ++ new) := by
  constructor
  · exact pending.trans h.lock
  · intro on
    rw [running_calm entries] at on
    exact h.air on
  · intro flight
    dsimp only at flight ⊢
    rw [seq]
    exact (h.flight (pending ▸ flight)).append (Calm.unstarted entries)
  · refine Trace.along_append.mpr ⟨h.sound, ?_⟩
    apply Trace.alongFrom_of_still (f := running)
    · intro entry hentry past
      exact (entries entry hentry).running past
    · intro entry hentry past same
      exact (entries entry hentry).sound fun idle => same.trans idle

/-! ## What the port does to the log -/

theorem calm_calls {d : Driver} {idle : Prop} (now : idle) {cs : List Command}
    (others : ∀ c ∈ cs, ∀ raw, c ≠ .startTransmit raw) :
    ∀ c ∈ (d.calls cs).1, Calm idle (.driver c) := by
  induction cs with
  | nil => simp [Driver.calls]
  | cons c cs ih =>
    have first : Calm idle (.driver (d.call c)) := .command now (others c List.mem_cons_self)
    have later := ih fun c hc => others c (List.mem_cons_of_mem _ hc)
    intro c' hc'
    rw [Driver.calls] at hc'
    split at hc'
    · rw [List.mem_singleton.mp hc']
      exact first
    · rcases List.mem_cons.mp hc' with rfl | hc'
      · exact first
      · exact later c' hc'

/-- A tuning reaches the driver only while nothing is being sent. -/
theorem calm_apply {d : Driver} {p : LoraRadio} {idle : Prop} (now : p.txStarted = false → idle)
    (s : RadioSettings) : ∀ c ∈ (p.apply t d s).calls, Calm idle (.driver c) := by
  unfold LoraRadio.apply
  cases free : p.txStarted with
  | true => simp
  | false => exact calm_calls (now free) (by simp [LoraRadio.tuning])

theorem perform_aside {d : Driver} {p : LoraRadio} {q : Prop} {acts : List Act}
    (now : p.txStarted = false → q)
    (h : ∀ a ∈ acts, a.transmitted = none ∧ a.reported = none) :
    (perform t d p acts).1 = p ∧ ∀ entry ∈ (perform t d p acts).2, Calm q entry := by
  induction acts with
  | nil => exact ⟨rfl, fun _ hentry => (List.not_mem_nil hentry).elim⟩
  | cons a acts ih =>
    obtain ⟨port, later⟩ := ih fun a ha => h a (List.mem_cons_of_mem _ ha)
    obtain ⟨unsent, silent⟩ := h a List.mem_cons_self
    have called : (callRadio t d p a).1 = p ∧
        ∀ c ∈ (callRadio t d p a).2, Calm q (.driver c) := by
      cases a with
      | radioTransmit raw => cases unsent
      | radioApply s => exact ⟨LoraRadio.apply_port t d p s, calm_apply now s⟩
      | _ => exact ⟨rfl, fun _ hc => (List.not_mem_nil hc).elim⟩
    rw [perform, called.1]
    refine ⟨port, ?_⟩
    intro entry hentry
    rcases List.mem_append.mp hentry with first | hentry
    · rcases List.mem_cons.mp first with rfl | first
      · exact .core silent
      · obtain ⟨c, hc, rfl⟩ := List.mem_map.mp first
        exact called.2 c hc
    · exact later entry hentry

/-- What the port does to receive is done while nothing is being sent. -/
theorem calm_receive {d : Driver} {p : LoraRadio} {idle : Prop}
    (now : d.irqFlags &&& t.irqRxDone ≠ 0 → idle) :
    ∀ c ∈ (p.receive t d).calls, Calm idle (.driver c) := by
  have told {c : Command} (here : d.irqFlags &&& t.irqRxDone ≠ 0)
      (other : ∀ raw, c ≠ .startTransmit raw) : Calm idle (.driver (d.call c)) :=
    .command (now here) other
  unfold LoraRadio.receive
  split
  · intro c hc
    rw [List.mem_singleton.mp hc]
    exact .irqFlags
  rename_i here
  dsimp only
  generalize (t.headerErrQuirk && decide (d.irqFlags &&& t.irqHeaderErr ≠ 0)) = quirk
  have calmPeek : ∀ c ∈ if quirk then [DriverCall.getPacketLength d.headerLength] else [],
      Calm idle (.driver c) := by
    intro c hc
    split at hc
    · rw [List.mem_singleton.mp hc]
      exact .packetLength
    · cases hc
  split
  · intro c hc
    simp only [List.cons_append, List.mem_cons, List.mem_append, List.not_mem_nil, or_false] at hc
    rcases hc with rfl | hc | rfl | rfl
    · exact .irqFlags
    · exact calmPeek c hc
    · exact told here (by simp)
    · exact told here (by simp)
  · intro c hc
    simp only [List.cons_append, List.mem_cons, List.mem_append, or_assoc] at hc
    rcases hc with rfl | hc | rfl | hc | rfl | hc
    · exact .irqFlags
    · exact calmPeek c hc
    · exact .packetLength
    · split at hc
      · rw [List.mem_singleton.mp hc]
        exact told here (by simp)
      · cases hc
    · exact told here (by simp)
    · split at hc
      · simp only [List.mem_cons, List.not_mem_nil, or_false] at hc
        rcases hc with rfl | rfl
        · exact .rssi
        · exact .snr
      · cases hc

/-! ## One event -/

variable [SettingsStore σ] {pbDecode : List UInt8 → Option ClientToRadio}

theorem aside_link (s : CommandProcessor σ) (sink : Sink) :
    Aside s (s.step pbDecode (.connect sink)) ∧ Aside s (s.step pbDecode (.relink sink)) ∧
      Aside s (s.step pbDecode (.disconnect sink)) := by
  obtain ⟨_, added, _⟩ := (s.setAuthenticated sink false).addSink_eq sink
  refine ⟨aside_quiet ?_ ?_, aside_quiet rfl rfl, aside_quiet rfl rfl⟩ <;> rw [added] <;> rfl

theorem aside_wifi (s : CommandProcessor σ) (link : Option LinkReport) :
    Aside s (s.step pbDecode (.wifiStateChanged link)) := by
  rw [CommandProcessor.step, CommandProcessor.onWifiStateChanged_eq]
  exact aside_inert (s.inert_push 0 none false ⟨by simp, by simp⟩)

theorem aside_received (pbDecode : List UInt8 → Option ClientToRadio) (s : CommandProcessor σ)
    (rssi snr : Int8) (raw : Payload) :
    Aside s (s.step pbDecode (.packetReceived rssi snr raw)) := by
  cases s.step_stepped pbDecode (.packetReceived rssi snr raw) with
  | unheard e _ same =>
    rw [same]
    refine ⟨fun a ha => ?_, rfl, rfl⟩
    obtain ⟨_, _, rfl⟩ := List.mem_map.mp ha
    exact ⟨rfl, rfl⟩
  | heard e _ _ _ same =>
    rw [same]
    refine ⟨fun a ha => ?_, rfl, rfl⟩
    simp only [List.mem_cons, List.not_mem_nil, or_false] at ha
    rcases ha with rfl | rfl <;> exact ⟨rfl, rfl⟩
  | _ e => cases e

/-- An envelope leaves the transmission in flight alone, or sends a packet. -/
theorem envelope_cases (pbDecode : List UInt8 → Option ClientToRadio) (s : CommandProcessor σ)
    (env : Env) (data : List UInt8) (sink : Sink) :
    Aside s (s.step pbDecode (.envelope env data sink)) ∨
      ∃ req raw entry, s.Sent env req raw sink (s.step pbDecode (.envelope env data sink)) entry := by
  generalize step : s.step pbDecode (.envelope env data sink) = o
  cases step ▸ s.step_stepped pbDecode (.envelope env data sink) with
  | dropped _ _ same =>
    rw [same]
    exact .inl (aside_quiet rfl rfl)
  | requested event _ _ handled =>
    cases event
    rcases handled.packets with inert | ⟨entry, stored⟩ | ⟨raw, entry, _, sent⟩
    · exact .inl (aside_inert inert)
    · exact .inl (aside_stored stored)
    · exact .inr ⟨_, raw, entry, sent⟩
  | _ event => cases event

omit [SettingsStore σ] in
theorem Agreed.aside (h : Agreed t b log) {o : Outcome σ} (aside : Aside b.core o) :
    Agreed t (b.aside o).1 (log ++ (b.aside o).2) := by
  apply h.calm _ aside.pending aside.seq
  intro entry hentry
  obtain ⟨a, ha, rfl⟩ := List.mem_map.mp hentry
  exact .core (aside.acts a ha).2

theorem running_snoc (log : List Seen) (entry : Seen) :
    running (log ++ [entry]) = match entry with
      | .driver (.command (.startTransmit _) state) => running log || state = 0
      | .airEnds => false
      | _ => running log := by
  rw [running, List.foldl_append]
  rfl

omit [SettingsStore σ] in
/-- A packet goes to the radio, which starts sending it or refuses. -/
theorem Agreed.sent (h : Agreed t b log) {d : Driver} {env : Env} {id : UInt32} {raw : Payload}
    {sink : Sink} {o : Outcome σ} {entry : StoredPacket}
    (answer : env.transmitOk = b.radio.transmits d) (sent : b.core.Sent env id raw sink o entry) :
    Agreed t ⟨o.state, (perform t d b.radio o.acts).1⟩
      (log ++ (perform t d b.radio o.acts).2) := by
  have free : b.radio.txStarted = false := h.lock.symm.trans sent.idle
  have idle := h.idle free
  obtain rfl := sent.same
  cases ok : b.radio.transmits d with
  | true =>
    have ok' := answer.trans ok
    have performed : perform t d b.radio o.acts = (⟨true⟩, [.core (.storeAppend entry),
        .core (.frame [sink] ⟨id, .packetAccepted entry.seq⟩), .core (.radioTransmit entry.raw),
        .driver (.command .standby d.standby),
        .driver (.command (.startTransmit entry.raw) 0)]) := by
      rw [sent.acts, ok']
      simp [perform, callRadio, LoraRadio.transmit_started ok]
    rw [performed]
    constructor
    · exact sent.pending.trans ok'
    · exact fun _ => rfl
    · intro _
      rw [sent.pendingSeq ok']
      refine ⟨log, entry, sink, id, d.standby, [], by rw [List.append_nil], rfl, ?_⟩
      intro _ _ started
      cases started
    · refine Trace.along_append.mpr ⟨h.sound, ?_⟩
      simp only [Trace.AlongFrom, Sound, running_snoc, idle, and_self]
  | false =>
    have ok' := answer.trans ok
    obtain ⟨transmit, failed⟩ := LoraRadio.transmit_failed free ok entry.raw
    have performed : perform t d b.radio o.acts = (b.radio, [.core (.storeAppend entry),
        .core (.frame [sink] ⟨id, .packetAccepted entry.seq⟩), .core (.radioTransmit entry.raw),
        .driver (.command .standby d.standby),
        .driver (.command (.startTransmit entry.raw) d.startTransmit),
        .driver (.command .startReceive d.startReceive),
        .core (.frame b.core.sinks ⟨0, .txResult entry.seq false⟩)]) := by
      rw [sent.acts, ok']
      simp [perform, callRadio, transmit, Driver.call, Driver.status]
    have pending := sent.pending.trans ok'
    rw [performed]
    constructor
    · exact pending.trans free.symm
    · intro on
      simp [running, List.foldl_append, failed] at on
      exact h.air on
    · intro flight
      rw [pending] at flight
      cases flight
    · refine Trace.along_append.mpr ⟨h.sound, ?_⟩
      simp only [Trace.AlongFrom, Sound, running_snoc, idle, failed, decide_false, Bool.or_self,
        and_self]

/-- The board loop asks whether the transmission in flight is done. -/
theorem Agreed.polled (h : Agreed t b log) (millis : UInt32) (d : Driver)
    (honest : Trace.AlongFrom (Honest t) log (b.step pbDecode t (.poll millis d)).2) :
    Agreed t (b.step pbDecode t (.poll millis d)).1
      (log ++ (b.step pbDecode t (.poll millis d)).2) := by
  rw [step] at honest ⊢
  cases flight : b.core.txPending with
  | false =>
    simp only [Bool.false_eq_true, if_false]
    rw [CommandProcessor.step, CommandProcessor.poll_eq, Bool.and_false]
    exact h.aside (aside_quiet rfl rfl)
  | true =>
    have started : b.radio.txStarted = true := h.lock.symm.trans flight
    simp only [flight, if_true] at honest ⊢
    rw [CommandProcessor.step, CommandProcessor.poll_eq] at honest ⊢
    have flight' : (b.core.ticked millis).txPending = true := flight
    by_cases raised : d.irqFlags &&& t.irqTxDone = 0
    · have waits : b.radio.txDone t d = ⟨b.radio, [.getIrqFlags d.irqFlags], false⟩ := by
        simp [LoraRadio.txDone, started, raised]
      rw [waits, Bool.and_false]
      refine h.calm ?_ rfl rfl
      intro entry hentry
      rw [List.mem_singleton.mp hentry]
      exact .irqFlags
    · have done : b.radio.txDone t d = ⟨⟨false⟩, [.getIrqFlags d.irqFlags,
          d.call .finishTransmit, d.call .startReceive], true⟩ := by
        simp [LoraRadio.txDone, started, raised]
      rw [done, flight'] at honest ⊢
      have ended : running log = false := honest.1 (.inl raised)
      rw [Bool.and_self, if_pos rfl, CommandProcessor.onTxResult_mine _ flight'] at honest ⊢
      have calm : ∀ entry ∈ [Seen.driver (.getIrqFlags d.irqFlags),
          .driver (d.call .finishTransmit), .driver (d.call .startReceive)],
          Calm (running log = false) entry := by
        simp only [List.mem_cons, List.not_mem_nil, or_false]
        rintro entry (rfl | rfl | rfl)
        · exact .irqFlags
        · exact .command ended (by simp)
        · exact .command ended (by simp)
      have asked := h.calm (c := b.core) calm rfl rfl
      have reported : Finished t b.core.txPendingSeq (log ++ [.driver (.getIrqFlags d.irqFlags),
          .driver (d.call .finishTransmit), .driver (d.call .startReceive)]) :=
        (h.flight flight).finished ended raised
          (Calm.unstarted fun entry hentry => calm entry (List.mem_cons_of_mem _ hentry))
      simp only [List.map_cons, List.map_nil, CommandProcessor.push_all]
      rw [← List.append_assoc]
      constructor
      · rfl
      · intro on
        rw [running_snoc, running_calm calm, ended] at on
        cases on
      · intro pending
        cases pending
      · exact Trace.along_append.mpr ⟨asked.sound, reported, trivial⟩

/-- The board loop pulls what the radio caught. -/
theorem Agreed.received (h : Agreed t b log) (d : Driver)
    (honest : Trace.AlongFrom (Honest t) log (b.step pbDecode t (.receive d)).2) :
    Agreed t (b.step pbDecode t (.receive d)).1 (log ++ (b.step pbDecode t (.receive d)).2) := by
  have first : ∃ rest, (b.radio.receive t d).calls = .getIrqFlags d.irqFlags :: rest := by
    unfold LoraRadio.receive
    split
    · exact ⟨_, rfl⟩
    dsimp only
    split <;> exact ⟨_, rfl⟩
  have calls : ∀ entry ∈ (b.radio.receive t d).calls.map Seen.driver,
      Calm (running log = false) entry := by
    intro entry hentry
    obtain ⟨c, hc, rfl⟩ := List.mem_map.mp hentry
    apply calm_receive _ c hc
    intro raised
    obtain ⟨rest, first⟩ := first
    rw [step] at honest
    cases got : (b.radio.receive t d).result with
    | none =>
      simp only [got, first] at honest
      exact honest.1 (.inr raised)
    | some x =>
      simp only [got, first] at honest
      exact honest.1 (.inr raised)
  clear honest
  rw [step]
  cases got : (b.radio.receive t d).result with
  | none =>
    simp only [LoraRadio.receive_port]
    exact h.calm calls rfl rfl
  | some x =>
    have aside := aside_received pbDecode b.core x.rssi x.snr x.raw
    simp only [LoraRadio.receive_port]
    rw [← List.append_assoc]
    exact (h.calm (c := b.core) calls rfl rfl).aside aside

omit [SettingsStore σ] in
/-- A transmission ends. -/
theorem Agreed.ended (h : Agreed t b log) : Agreed t b (log ++ [.airEnds]) := by
  constructor
  · exact h.lock
  · intro on
    rw [running_snoc] at on
    cases on
  · intro flight
    exact (h.flight flight).append (by simp [Unstarted])
  · exact Trace.along_append.mpr ⟨h.sound, trivial, trivial⟩

/-- Every event keeps the agreement. -/
theorem Agreed.step (h : Agreed t b log) (e : RadioEvent)
    (honest : Trace.AlongFrom (Honest t) log (b.step pbDecode t e).2) :
    Agreed t (b.step pbDecode t e).1 (log ++ (b.step pbDecode t e).2) := by
  cases e with
  | connect sink => exact h.aside (aside_link b.core sink).1
  | relink sink => exact h.aside (aside_link b.core sink).2.1
  | disconnect sink => exact h.aside (aside_link b.core sink).2.2
  | wifiStateChanged link => exact h.aside (aside_wifi b.core link)
  | envelope hooks data sink d =>
    rcases envelope_cases pbDecode b.core
        ⟨hooks, b.radio.applies t d, b.radio.transmits d⟩ data sink with
      aside | ⟨id, raw, entry, sent⟩
    · obtain ⟨port, calm⟩ := perform_aside (t := t) (d := d) h.idle aside.acts
      simp only [RadioBoard.step, port]
      exact h.calm calm aside.pending aside.seq
    · exact h.sent rfl sent
  | poll millis d => exact h.polled millis d honest
  | receive d => exact h.received d honest
  | airEnds => exact h.ended

theorem boot_agreed {s : CommandProcessor σ} (idle : s.txPending = false) (beginOk : Bool)
    (d : Driver) : Agreed t (boot t s beginOk d).1 (boot t s beginOk d).2 := by
  have tuned : ∀ a ∈ (s.boot beginOk (({} : LoraRadio).applies t d)).acts,
      a.transmitted = none ∧ a.reported = none := by
    intro a ha
    rw [CommandProcessor.boot] at ha
    cases beginOk <;> simp at ha
    · rw [ha]
      exact ⟨rfl, rfl⟩
    · rcases ha with rfl | rfl <;> exact ⟨rfl, rfl⟩
  obtain ⟨port, calm⟩ := perform_aside (t := t) (d := d) (p := {}) (q := running [] = false)
    (fun _ => rfl) tuned
  have fresh : Agreed t ⟨s, {}⟩ [] := ⟨idle, nofun, fun on => absurd on (by simp [idle]), trivial⟩
  rw [boot, port]
  exact fresh.calm calm rfl rfl

theorem lifetime_agreed (pbDecode : List UInt8 → Option ClientToRadio) {s : CommandProcessor σ}
    (idle : s.txPending = false) (beginOk : Bool) (d : Driver) (events : List RadioEvent)
    (honest : Trace.Along (Honest t) (lifetime pbDecode t s beginOk d events).2) :
    Agreed t (lifetime pbDecode t s beginOk d events).1
      (lifetime pbDecode t s beginOk d events).2 := by
  induction events using List.reverseRecOn with
  | nil =>
    simp only [lifetime, run, List.append_nil]
    exact boot_agreed idle beginOk d
  | append_singleton es e ih =>
    simp only [lifetime, run_concat] at honest ih ⊢
    rw [← List.append_assoc] at honest ⊢
    obtain ⟨before, now⟩ := Trace.along_append.mp honest
    exact (ih before).step e now

/-- One waits for a result exactly while the other is sending; a packet is reported as
sent once the driver has reported its own transmission done; nothing is asked of the
driver while a transmission is running. -/
structure AirAgreed (t : Traits) (b : RadioBoard σ) (log : List Seen) : Prop where
  lock : b.core.txPending = true ↔ b.radio.txStarted = true
  reports : ∀ past dest id seq rest,
    log = past ++ .core (.frame dest ⟨id, .txResult seq true⟩) :: rest → Finished t seq past
  commands : ∀ past c state rest, log = past ++ .driver (.command c state) :: rest →
    running past = false

/-- **The processor and the port agree about the air.** -/
theorem air_agreed (pbDecode : List UInt8 → Option ClientToRadio) (t : Traits) (store : Store)
    (clock : UptimeClock) (settingsStore : σ) (boardName fwVersion : List UInt8)
    (response : RadioToClient) (beginOk : Bool) (d : Driver) (events : List RadioEvent)
    {b : RadioBoard σ} {log : List Seen}
    (ran : lifetime pbDecode t (CommandProcessor.new store clock settingsStore boardName fwVersion
      response) beginOk d events = (b, log))
    (honest : Trace.Along (Honest t) log) : AirAgreed t b log := by
  have agreed := lifetime_agreed pbDecode (t := t)
    (s := CommandProcessor.new store clock settingsStore boardName fwVersion response) rfl beginOk d
    events (by rw [ran]; exact honest)
  rw [ran] at agreed
  constructor
  · rw [agreed.lock]
  · intro past dest id seq rest split
    exact agreed.sound.at split
  · intro past c state rest split
    exact agreed.sound.at split

/-- An SX1262. -/
def sampleTraits : Traits := sx126xTraits 0x001 0x002 0x040 0x020

/-- A packet is sent, two polls wait for it, then one comes in. -/
def sampleEvents : List RadioEvent :=
  [.connect 7, .envelope none [0x08, 0x04, 0x32, 0x03, 0x0A, 0x01, 0xAA] 7 {}, .poll 10 {},
    .airEnds, .poll 20 { irqFlags := 0x001 }, .receive { irqFlags := 0x002, packetLength := 3 }]

def sampleLifetime : RadioBoard MemorySettingsStore × List Seen :=
  lifetime CommandProcessor.sampleDecode sampleTraits
    (CommandProcessor.new (Store.new 1000) {} {} [] [] ⟨0, .none⟩) true {} sampleEvents

theorem air_agreed_sent :
    AirAgreed sampleTraits sampleLifetime.1 sampleLifetime.2 ∧
      .core (.frame [7] ⟨0, .txResult 1 true⟩) ∈ sampleLifetime.2 :=
  ⟨air_agreed CommandProcessor.sampleDecode sampleTraits (Store.new 1000) {}
      ({} : MemorySettingsStore) [] [] ⟨0, .none⟩ true {} sampleEvents rfl (by decide +kernel),
    by decide +kernel⟩

end RadioBoard

end MeshPigeon
