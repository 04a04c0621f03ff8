import MeshPigeon.Core.Wire
import MeshPigeon.Framing.Drain
import MeshPigeon.Sim.SimRadio

/-!
# The simulator

`sim_main.cpp`: the processor over the simulated radio, behind sockets.

What it runs is a run of the processor (`run_core`), so what holds of those holds of it; one such
result is `sim_clients_read`.
-/
namespace MeshPigeon

/-- The command line. -/
structure SimOptions where
  trafficMs : UInt32 := 0
  storeBytes : UInt32 := 65536
  lossPct : UInt8 := 0
  dupPct : UInt8 := 0
  fakeWifi : Bool := false

/-- A client is the connection it is registered as. -/
structure Simulator where
  simClock : UInt32 := 0
  core : CommandProcessor MemorySettingsStore
  radio : SimRadio
  fakeState : WifiState := .off
  fakeChangedMs : UInt32 := 0
  lastTraffic : UInt32 := 0
  clients : List (Sink × FrameReader) := []
  tcpClients : Nat := 0
  /-- how many clients there have been -/
  opened : Nat := 0

/-- An entry of the simulator's log. -/
inductive SimSeen where
  | event (e : Event)
  | act (a : Act)
  /-- the radio takes a packet -/
  | keyed (raw : Payload)
  /-- so many copies of it go on the air -/
  | delivered (raw : Payload) (copies : Nat)
  | injected (raw : Payload)

abbrev Simulated := Simulator × List SimSeen

def Simulated.andThen (r : Simulated) (f : Simulator → Simulated) : Simulated :=
  ((f r.1).1, r.2 ++ (f r.1).2)

/-- What `select` finds: a new connection, and what each client's `recv` returns. -/
structure SimReady where
  accepted : Bool
  recvs : Sink → Recv

namespace Simulator

/-! ## What the board hooks answer -/

/-- "sim-net" -/
def kSimSsid : List UInt8 := [0x73, 0x69, 0x6D, 0x2D, 0x6E, 0x65, 0x74]

def fillStatus (sim : Simulator) (m : Status) : Status :=
  let m := { m with wifiState := sim.fakeState }
  if sim.fakeState = .connected then
    { m with
      wifiSsid := copyStr kSsidMax kSimSsid
      wifiIpv4 := [192, 168, 1, 50]
      wifiPort := 5000
      wifiRssi := -55 }
  else m

def linkReport (sim : Simulator) : LinkReport where
  fillStatus := sim.fillStatus
  bleClients := 0
  usbCdcClients := 0
  wifiTcpClients := UInt8.ofNat sim.tcpClients

/-- `SimHooks`, and `IBoardHooks` for what it leaves alone. -/
def hooks (sim : Simulator) : Hooks where
  batteryMv := 0xFFFF
  macSuffix := [0x41, 0x33, 0x46, 0x32, 0]
  link := sim.linkReport
  wifiSupported := true
  -- the one capability, CAPABILITY_WIFI_STA
  fillCapabilities out := (out.set 0 1, 1)
  applyWifi _ := []

/-! ## The core over the radio -/

/-- The radio after the core's calls of `transmit`, and the packets it took. -/
def transmits : SimRadio → List Payload → SimRadio × List SimSeen
  | r, [] => (r, [])
  | r, raw :: raws =>
    let t := r.transmit raw
    let rest := transmits t.2 raws
    (rest.1, if t.1 = 0 then .keyed raw :: rest.2 else rest.2)

def call (sim : Simulator) (e : Event) : Simulated :=
  let o := sim.core.step decodeRequest e
  let t := transmits sim.radio (transmittedIn o.acts)
  ({ sim with core := o.state, radio := t.1 }, .event e :: o.acts.map .act ++ t.2)

/-- What the radio will say to the tuning an envelope asks for. -/
def applies (data : List UInt8) : Bool :=
  match CommandProcessor.decodeEnvelope decodeRequest data with
  | some ⟨_, .setRadioSettings (some m)⟩ => SimRadio.apply (CommandProcessor.requestedTuning m)
  | _ => true

/-- `on_envelope`, for one of the clients. -/
def request (sim : Simulator) (client : Sink) (data : List UInt8) : Simulated :=
  sim.call (.envelope ⟨some sim.hooks, applies data, sim.radio.transmits⟩ data client)

/-! ## Clients -/

/-- The registry can say no: then the client is turned away. -/
def acceptClient (sim : Simulator) : Simulated :=
  let client := sim.opened
  let r := { sim with opened := client + 1 }.call (.connect client)
  if sim.core.sinks.length ≥ kMaxSinks then r
  else
    let clients := sim.clients ++ [(client, .new)]
    ({ r.1 with clients, tcpClients := clients.length }, r.2)

def keepReader (sim : Simulator) (client : Sink) (reader : FrameReader) : Simulator :=
  { sim with clients := sim.clients.map fun c => if c.1 = client then (client, reader) else c }

def hangUp (sim : Simulator) (client : Sink) : Simulated :=
  let r := sim.call (.disconnect client)
  let clients := sim.clients.filter fun c => c.1 ≠ client
  ({ r.1 with clients, tcpClients := clients.length }, r.2)

def pumpClient (sim : Simulator) (client : Sink) (reader : FrameReader) (recv : Recv) : Simulated :=
  let p := SimClient.pump (fun data (r : Simulated) => r.andThen fun sim => sim.request client data)
    recv reader (sim, [])
  if p.1 then (p.2.rest.1.keepReader client p.2.reader, p.2.rest.2)
  else p.2.rest.andThen fun sim => sim.hangUp client

def pumpClients (recvs : Sink → Recv) : List (Sink × FrameReader) → Simulator → Simulated
  | [], sim => (sim, [])
  | (client, reader) :: rest, sim =>
    (sim.pumpClient client reader (recvs client)).andThen (pumpClients recvs rest)

def serve (sim : Simulator) (ready : SimReady) : Simulated :=
  (if ready.accepted then sim.acceptClient else (sim, [])).andThen fun sim =>
    pumpClients ready.recvs sim.clients sim

/-! ## The tick -/

/-- `poll`, a millisecond later: it asks the radio only while a packet is pending. -/
def poll (sim : Simulator) : Simulated :=
  let sim := { sim with simClock := sim.simClock + 1 }
  let done := if sim.core.txPending then sim.radio.txDone else (false, sim.radio)
  let r := { sim with radio := done.2 }.call (.poll sim.simClock done.1)
  let copies := done.2.air.length - sim.radio.air.length
  (r.1, (if sim.core.txPending && done.1 then [.delivered sim.radio.lastTx copies] else []) ++ r.2)

/-- OFF to CONNECTING at once, to CONNECTED after 2 s. -/
def fakeWifiTick (o : SimOptions) (sim : Simulator) : Simulated :=
  let push (state : WifiState) : Simulated :=
    let sim := { sim with fakeState := state, fakeChangedMs := sim.simClock }
    sim.call (.wifiStateChanged (some sim.linkReport))
  if !o.fakeWifi then (sim, [])
  else if sim.fakeState = .off then push .connecting
  else if sim.fakeState = .connecting && sim.simClock - sim.fakeChangedMs ≥ 2000 then
    push .connected
  else (sim, [])

/-- "sim: hello from the desktop mesh", and the end of the string. -/
def kTrafficText : List UInt8 := [
  0x73, 0x69, 0x6D, 0x3A, 0x20, 0x68, 0x65, 0x6C, 0x6C, 0x6F, 0x20, 0x66, 0x72, 0x6F, 0x6D, 0x20,
  0x74, 0x68, 0x65, 0x20, 0x64, 0x65, 0x73, 0x6B, 0x74, 0x6F, 0x70, 0x20, 0x6D, 0x65, 0x73, 0x68, 0]

def trafficPacket (millis : UInt32) : Payload :=
  ⟨0x45 :: LittleEndian.put 4 millis.toNat ++ kTrafficText, by simp [kTrafficText]⟩

/-- Packets from elsewhere. -/
def traffic (o : SimOptions) (sim : Simulator) : Simulated :=
  if o.trafficMs > 0 && sim.simClock - sim.lastTraffic ≥ o.trafficMs then
    let pkt := trafficPacket sim.simClock
    ({ sim with lastTraffic := sim.simClock, radio := sim.radio.inject pkt }, [.injected pkt])
  else (sim, [])

/-- The radio loop. -/
def hear (sim : Simulator) : Simulated :=
  match sim.radio.receive with
  | (none, _) => (sim, [])
  | (some p, radio) => { sim with radio }.call (.packetReceived p.rssi p.snr p.raw)

def loopTick (o : SimOptions) (sim : Simulator) : Simulated :=
  ((sim.poll.andThen (fakeWifiTick o)).andThen (traffic o)).andThen hear

/-! ## The loop -/

def round (o : SimOptions) (sim : Simulator) (ready : Option SimReady) : Simulated :=
  Simulated.andThen (ready.elim (sim, []) sim.serve) (loopTick o)

def run (o : SimOptions) (sim : Simulator) : List (Option SimReady) → Simulated
  | [] => (sim, [])
  | ready :: rounds => (sim.round o ready).andThen fun sim => sim.run o rounds

/-- The simulator before its loop; `response` is what is in the memory of `response_`. -/
def start (o : SimOptions) (response : RadioToClient) : Simulator where
  core := ((CommandProcessor.new (Store.new o.storeBytes) {} {} [0x53, 0x49, 0x4D]
    [0x30, 0x2E, 0x31, 0x2E, 0x30] response).boot true (SimRadio.apply RadioSettings.unset)).state
  radio := { lossPct := o.lossPct, dupPct := o.dupPct }

/-! ## What is in a log -/

def events (log : List SimSeen) : List Event :=
  log.filterMap fun | .event e => some e | _ => none

def acts (log : List SimSeen) : List Act :=
  log.filterMap fun | .act a => some a | _ => none

def keyed (log : List SimSeen) : List Payload :=
  log.filterMap fun | .keyed raw => some raw | _ => none

def deliveries (log : List SimSeen) : List (Payload × Nat) :=
  log.filterMap fun | .delivered raw copies => some (raw, copies) | _ => none

/-- The packets that went on the air, in order. -/
def aired (log : List SimSeen) : List Payload :=
  log.flatMap fun
    | .delivered raw copies => List.replicate copies raw
    | .injected raw => [raw]
    | _ => []

/-- The packets that came from the air. -/
def heard (log : List SimSeen) : List Payload :=
  (events log).filterMap fun | .packetReceived _ _ raw => some raw | _ => none

section
variable (log log' : List SimSeen)

@[simp] theorem events_append : events (log ++ log') = events log ++ events log' :=
  List.filterMap_append

@[simp] theorem acts_append : acts (log ++ log') = acts log ++ acts log' := List.filterMap_append

@[simp] theorem keyed_append : keyed (log ++ log') = keyed log ++ keyed log' :=
  List.filterMap_append

@[simp] theorem deliveries_append :
    deliveries (log ++ log') = deliveries log ++ deliveries log' := List.filterMap_append

@[simp] theorem aired_append : aired (log ++ log') = aired log ++ aired log' :=
  List.flatMap_append

@[simp] theorem heard_append : heard (log ++ log') = heard log ++ heard log' := by
  rw [heard, events_append, List.filterMap_append]
  rfl

end

/-! ## What a call does -/

/-- A call leaves only these in the log. -/
theorem call_log (sim : Simulator) (e : Event) :
    let o := sim.core.step decodeRequest e
    let t := transmits sim.radio (transmittedIn o.acts)
    events (sim.call e).2 = [e] ++ events t.2 ∧ acts (sim.call e).2 = o.acts ++ acts t.2 ∧
      keyed (sim.call e).2 = keyed t.2 ∧ deliveries (sim.call e).2 = deliveries t.2 ∧
      aired (sim.call e).2 = aired t.2 ∧
      heard (sim.call e).2 = heard [.event e] ++ heard t.2 := by
  have silent (as : List Act) : events (as.map .act) = [] ∧ acts (as.map .act) = as ∧
      keyed (as.map .act) = [] ∧ deliveries (as.map .act) = [] ∧ aired (as.map .act) = [] := by
    induction as with
    | nil => exact ⟨rfl, rfl, rfl, rfl, rfl⟩
    | cons a as ih => exact ⟨ih.1, congrArg (a :: ·) ih.2.1, ih.2.2⟩
  intro o t
  obtain ⟨none, all, unkeyed, undelivered, unaired⟩ := silent o.acts
  have split : (sim.call e).2 = [.event e] ++ o.acts.map .act ++ t.2 := rfl
  have unheard : heard (o.acts.map .act) = [] := by rw [heard, none]; rfl
  rw [split]
  refine ⟨?_, ?_, ?_, ?_, ?_, ?_⟩
  · rw [events_append, events_append, none]
    rfl
  · rw [acts_append, acts_append, all]
    rfl
  · rw [keyed_append, keyed_append, unkeyed]
    rfl
  · rw [deliveries_append, deliveries_append, undelivered]
    rfl
  · rw [aired_append, aired_append, unaired]
    rfl
  · rw [heard_append, heard_append, unheard, List.append_nil]

/-- A call with which the core transmits nothing. -/
theorem call_mute (sim : Simulator) {e : Event}
    (mute : transmittedIn (sim.core.step decodeRequest e).acts = []) :
    (sim.call e).1.radio = sim.radio ∧
      (sim.call e).2 = .event e :: (sim.core.step decodeRequest e).acts.map .act := by
  rw [call, mute]
  exact ⟨rfl, List.append_nil _⟩

/-! ## Moves -/

/-- What the clients and the link bring; the radio's answer is its own. -/
inductive Brought (radio : SimRadio) : Event → Prop where
  | connect (c : Sink) : Brought radio (.connect c)
  | disconnect (c : Sink) : Brought radio (.disconnect c)
  | linkChanged (sim : Simulator) : Brought radio (.wifiStateChanged (some sim.linkReport))
  | envelope (sim : Simulator) (ok : Bool) (data : List UInt8) (c : Sink) :
      Brought radio (.envelope ⟨some sim.hooks, ok, radio.transmits⟩ data c)

/-- What everything but a poll does to the core and to the radio. -/
inductive Moved (o : SimOptions) (sim : Simulator) (r : Simulated) : Prop where
  | kept : r.1.core = sim.core → r.1.radio = sim.radio → r.2 = [] → Moved o sim r
  | called {e : Event} : Brought sim.radio e → r.1.core = (sim.call e).1.core →
      r.1.radio = (sim.call e).1.radio → r.2 = (sim.call e).2 → Moved o sim r
  | injected {raw : Payload} : o.trafficMs ≠ 0 → r.1.core = sim.core →
      r.1.radio = sim.radio.inject raw → r.2 = [.injected raw] → Moved o sim r
  | heard {p : Reception} : sim.radio.receive.1 = some p →
      r = { sim with radio := sim.radio.receive.2 }.call (.packetReceived p.rssi p.snr p.raw) →
      Moved o sim r

variable {o : SimOptions} {sim : Simulator}

theorem moved_accept : Moved o sim sim.acceptClient := by
  unfold acceptClient
  split
  · exact .called (.connect sim.opened) rfl rfl rfl
  · exact .called (.connect sim.opened) rfl rfl rfl

theorem moved_request (c : Sink) (data : List UInt8) : Moved o sim (sim.request c data) :=
  .called (.envelope sim _ data c) rfl rfl rfl

theorem moved_hangUp (c : Sink) : Moved o sim (sim.hangUp c) :=
  .called (.disconnect c) rfl rfl rfl

theorem moved_fakeWifi : Moved o sim (sim.fakeWifiTick o) := by
  have pushed (state : WifiState) :
      let sim' := { sim with fakeState := state, fakeChangedMs := sim.simClock }
      Moved o sim (sim'.call (.wifiStateChanged (some sim'.linkReport))) :=
    .called (.linkChanged _) rfl rfl rfl
  unfold fakeWifiTick
  split
  · exact .kept rfl rfl rfl
  · split
    · exact pushed _
    · split
      · exact pushed _
      · exact .kept rfl rfl rfl

theorem moved_traffic : Moved o sim (sim.traffic o) := by
  unfold traffic
  split
  · rename_i due
    have wanted : o.trafficMs > 0 := of_decide_eq_true (Bool.and_eq_true_iff.mp due).1
    refine .injected (fun none => ?_) rfl rfl rfl
    rw [none] at wanted
    exact absurd wanted UInt32.not_lt_zero
  · exact .kept rfl rfl rfl

theorem moved_hear : Moved o sim sim.hear := by
  unfold hear
  split
  · exact .kept rfl rfl rfl
  · rename_i p radio got
    refine .heard (p := p) (by rw [got]) ?_
    rw [got]

/-- What every move keeps, whatever was logged before. -/
def Kept (o : SimOptions) (P : Simulated → Prop) : Prop :=
  ∀ sim log r, P (sim, log) → Moved o sim r → P (r.1, log ++ r.2)

variable {P : Simulated → Prop}

theorem Kept.andThen (kept : Kept o P) {log : List SimSeen} {r : Simulated}
    {f : Simulator → Simulated} (h : P (r.1, log ++ r.2)) (moved : Moved o r.1 (f r.1)) :
    P ((r.andThen f).1, log ++ (r.andThen f).2) := by
  have next := kept _ _ _ h moved
  rwa [List.append_assoc] at next

/-- A drain keeps what its source and its core keep. -/
theorem drainLoop_keeps {ρ : Type} {p : Port ρ} {Q : ρ → Prop}
    (look : ∀ s, Q s → Q (p.available s).2) (read : ∀ s, Q s → Q (p.read s).2)
    (core : ∀ e s, Q s → Q (p.onEnvelope e s)) (budget : Nat) (reader : FrameReader) (s : ρ)
    (h : Q s) : Q (p.drainLoop budget reader s).rest := by
  induction budget generalizing reader s with
  | zero => exact h
  | succ budget ih =>
    by_cases found : (p.available s).1 > 0
    · rw [Port.drainLoop_read budget found]
      refine ih _ _ ?_
      generalize (reader.feed _).2 = fed
      cases fed with
      | none => exact read _ (look s h)
      | unusable => exact read _ (look s h)
      | envelope e => exact core e _ (read _ (look s h))
    · rw [Port.drainLoop_stop budget found]
      exact look s h

theorem Kept.pumpClient (kept : Kept o P) {log : List SimSeen} (h : P (sim, log)) (c : Sink)
    (reader : FrameReader) (recv : Recv) :
    P ((sim.pumpClient c reader recv).1, log ++ (sim.pumpClient c reader recv).2) := by
  have drained : let p := SimClient.pump (fun data (r : Simulated) => r.andThen fun sim =>
      sim.request c data) recv reader (sim, [])
      P (p.2.rest.1, log ++ p.2.rest.2) := by
    cases recv with
    | closed => rwa [← List.append_nil log] at h
    | failed again => rwa [← List.append_nil log] at h
    | data buf fits =>
      refine drainLoop_keeps (Q := fun s : BufferStream buf × Simulated =>
        P (s.2.1, log ++ s.2.2)) (fun _ h => h) (fun _ h => h) (fun e s h => ?_) _ reader _ ?_
      · exact kept.andThen h (moved_request c e)
      · rwa [← List.append_nil log] at h
  dsimp only [Simulator.pumpClient]
  generalize SimClient.pump _ recv reader (sim, []) = p at drained
  split
  · have same : Moved o p.2.rest.1 (p.2.rest.1.keepReader c p.2.reader, []) := .kept rfl rfl rfl
    have next := kept _ _ _ drained same
    rwa [List.append_nil] at next
  · exact kept.andThen drained (moved_hangUp c)

theorem Kept.pumpClients (kept : Kept o P) (recvs : Sink → Recv) (todo : List (Sink × FrameReader))
    {log : List SimSeen} (h : P (sim, log)) :
    P ((Simulator.pumpClients recvs todo sim).1,
      log ++ (Simulator.pumpClients recvs todo sim).2) := by
  induction todo generalizing sim log with
  | nil => rwa [← List.append_nil log] at h
  | cons client rest ih =>
    have next := ih (kept.pumpClient h client.1 client.2 (recvs client.1))
    rwa [List.append_assoc] at next

theorem Kept.serve (kept : Kept o P) (ready : Option SimReady) {log : List SimSeen}
    (h : P (sim, log)) :
    let r : Simulated := ready.elim (sim, []) sim.serve
    P (r.1, log ++ r.2) := by
  have same : P (sim, log ++ []) := by rwa [List.append_nil]
  cases ready with
  | none => exact same
  | some ready =>
    obtain ⟨accepted, recvs⟩ := ready
    cases accepted with
    | false =>
      have next := kept.pumpClients recvs sim.clients same
      rwa [List.append_assoc] at next
    | true =>
      have next := kept.pumpClients recvs (sim.acceptClient).1.clients
        (kept _ _ _ h moved_accept)
      rwa [List.append_assoc] at next

/-- The rest of a tick. -/
theorem Kept.afterPoll (kept : Kept o P) {log : List SimSeen} {r : Simulated}
    (h : P (r.1, log ++ r.2)) :
    let t := ((r.andThen (fakeWifiTick o)).andThen (Simulator.traffic o)).andThen hear
    P (t.1, log ++ t.2) :=
  kept.andThen (kept.andThen (kept.andThen h moved_fakeWifi) moved_traffic) moved_hear

theorem Kept.round (kept : Kept o P)
    (polled : ∀ sim log, P (sim, log) → P (sim.poll.1, log ++ sim.poll.2)) (ready : Option SimReady)
    {log : List SimSeen} (h : P (sim, log)) :
    P ((sim.round o ready).1, log ++ (sim.round o ready).2) := by
  have next := kept.afterPoll (polled _ _ (kept.serve ready h))
  dsimp only at next
  rwa [List.append_assoc] at next

/-- What the moves and the polls keep holds in every run. -/
theorem Kept.run (kept : Kept o P)
    (polled : ∀ sim log, P (sim, log) → P (sim.poll.1, log ++ sim.poll.2))
    (rounds : List (Option SimReady)) {log : List SimSeen} (h : P (sim, log)) :
    P ((sim.run o rounds).1, log ++ (sim.run o rounds).2) := by
  induction rounds generalizing sim log with
  | nil => rwa [← List.append_nil log] at h
  | cons ready rounds ih =>
    have next := ih (kept.round polled ready h)
    rwa [List.append_assoc] at next

/-! ## The core -/

theorem transmits_log (r : SimRadio) (raws : List Payload) :
    events (transmits r raws).2 = [] ∧ acts (transmits r raws).2 = [] := by
  induction raws generalizing r with
  | nil => exact ⟨rfl, rfl⟩
  | cons raw raws ih =>
    rw [transmits]
    dsimp only
    split
    · exact ih _
    · exact ih _

/-- The core does what the log says: nothing, or one event. -/
inductive Ran (sim : Simulator) (r : Simulated) : Prop where
  | idle : r.1.core = sim.core → events r.2 = [] → acts r.2 = [] → Ran sim r
  | stepped {e : Event} : r.1.core = (sim.core.step decodeRequest e).state → events r.2 = [e] →
      acts r.2 = (sim.core.step decodeRequest e).acts → Ran sim r

theorem ran_call (sim : Simulator) (e : Event) : Ran sim (sim.call e) := by
  obtain ⟨events_eq, acts_eq, _⟩ := sim.call_log e
  obtain ⟨eventless, actless⟩ := transmits_log sim.radio
    (transmittedIn (sim.core.step decodeRequest e).acts)
  rw [eventless, List.append_nil] at events_eq
  rw [actless, List.append_nil] at acts_eq
  exact .stepped rfl events_eq acts_eq

theorem ran_moved {r : Simulated} (h : Moved o sim r) : Ran sim r := by
  cases h with
  | kept core _ log => exact .idle core (by rw [log]; rfl) (by rw [log]; rfl)
  | injected _ core _ log => exact .idle core (by rw [log]; rfl) (by rw [log]; rfl)
  | called _ core _ log =>
    cases ran_call sim _ with
    | idle same none none' => exact .idle (core.trans same) (by rw [log, none]) (by rw [log, none'])
    | stepped next one all => exact .stepped (core.trans next) (by rw [log, one]) (by rw [log, all])
  | heard _ same =>
    rw [same]
    cases ran_call { sim with radio := sim.radio.receive.2 } _ with
    | idle same none none' => exact .idle same none none'
    | stepped next one all => exact .stepped next one all

/-- The answer of the radio at a poll, and the radio after it. -/
def polling (sim : Simulator) : Bool × SimRadio :=
  if sim.core.txPending then sim.radio.txDone else (false, sim.radio)

/-- A delivery is neither an event nor a call. -/
theorem delivered_log (c : Bool) (raw : Payload) (n : Nat) :
    events (if c then [.delivered raw n] else []) = [] ∧
      acts (if c then [.delivered raw n] else []) = [] := by
  cases c <;> exact ⟨rfl, rfl⟩

theorem ran_poll (sim : Simulator) : Ran sim sim.poll := by
  have ran := ran_call { sim with simClock := sim.simClock + 1, radio := sim.polling.2 }
    (.poll (sim.simClock + 1) sim.polling.1)
  cases ran with
  | idle same none none' =>
    refine .idle same ?_ ?_
    · exact (events_append ..).trans (by rw [(delivered_log ..).1]; exact none)
    · exact (acts_append ..).trans (by rw [(delivered_log ..).2]; exact none')
  | stepped next one all =>
    refine .stepped next ?_ ?_
    · exact (events_append ..).trans (by rw [(delivered_log ..).1]; exact one)
    · exact (acts_append ..).trans (by rw [(delivered_log ..).2]; exact all)

/-- The core after a log, and its calls. -/
def Replays (core : CommandProcessor MemorySettingsStore) (r : Simulated) : Prop :=
  r.1.core = (core.run decodeRequest (events r.2)).state ∧
    acts r.2 = (core.run decodeRequest (events r.2)).acts

theorem Replays.next {core : CommandProcessor MemorySettingsStore} {log : List SimSeen}
    {r : Simulated} (h : Replays core (sim, log)) (ran : Ran sim r) :
    Replays core (r.1, log ++ r.2) := by
  obtain ⟨state, all⟩ := h
  dsimp only [Replays] at state all ⊢
  cases ran with
  | idle same none none' =>
    rw [events_append, acts_append, none, none', List.append_nil, List.append_nil]
    exact ⟨same.trans state, all⟩
  | stepped next one acts' =>
    rw [events_append, acts_append, one, CommandProcessor.run_concat, acts', next, state, all]
    exact ⟨rfl, rfl⟩

theorem start_booted (o : SimOptions) (response : RadioToClient) :
    CommandProcessor.Booted (start o response).core :=
  ⟨o.storeBytes, {}, {}, _, _, response, true, _, rfl⟩

/-- Every run is one of the core. -/
theorem run_replays (o : SimOptions) (response : RadioToClient)
    (rounds : List (Option SimReady)) :
    Replays (start o response).core ((start o response).run o rounds) := by
  have kept : Kept o (Replays (start o response).core) := fun _ _ _ h moved =>
    h.next (ran_moved moved)
  have begins : Replays (start o response).core (start o response, []) := ⟨rfl, rfl⟩
  exact kept.run (fun _ _ h => h.next (ran_poll _)) rounds begins

/-- **The simulator runs the core.** Whatever the clients send, and whenever they come and go, the
core is where the events of the log take the booted one, and it made the calls they make it make. -/
theorem run_core (o : SimOptions) (response : RadioToClient) (rounds : List (Option SimReady)) :
    let r := (start o response).run o rounds
    let ran := (start o response).core.run decodeRequest (events r.2)
    CommandProcessor.Booted (start o response).core ∧ r.1.core = ran.state ∧
      acts r.2 = ran.acts :=
  ⟨start_booted o response, run_replays o response rounds⟩

/-! ## Its clients -/

theorem sane_linkReport (sim : Simulator) : sim.linkReport.Sane := by
  intro m short
  show (sim.fillStatus m).wifiIpv4.length ≤ 4
  unfold fillStatus
  dsimp only
  split
  · exact Nat.le_refl 4
  · exact short

theorem sane_hooks (sim : Simulator) : sim.hooks.Sane where
  link := sim.sane_linkReport
  capabilities _ full := List.length_set.trans full
  calls _ _ none := absurd none List.not_mem_nil

theorem Brought.sane {radio : SimRadio} {e : Event} (h : Brought radio e) : e.Sane := by
  cases h with
  | connect | disconnect => trivial
  | linkChanged sim =>
    rintro _ ⟨⟩
    exact sim.sane_linkReport
  | envelope sim =>
    rintro _ ⟨⟩
    exact sim.sane_hooks

/-- What a call adds to the events is the event. -/
theorem events_call (sim : Simulator) (e : Event) : events (sim.call e).2 = [e] := by
  rw [(sim.call_log e).1, (transmits_log ..).1, List.append_nil]

theorem moved_sane {r : Simulated} (h : Moved o sim r) : ∀ e ∈ events r.2, e.Sane := by
  cases h with
  | kept _ _ log | injected _ _ _ log =>
    rw [log]
    exact nofun
  | called brought _ _ log =>
    rw [log, events_call]
    intro e mine
    rw [List.mem_singleton.mp mine]
    exact brought.sane
  | heard _ same =>
    rw [same, events_call]
    intro e mine
    rw [List.mem_singleton.mp mine]
    trivial

theorem poll_sane (sim : Simulator) : ∀ e ∈ events sim.poll.2, e.Sane := by
  have one : events sim.poll.2 = [.poll (sim.simClock + 1) sim.polling.1] := by
    refine (events_append ..).trans ?_
    rw [(delivered_log ..).1]
    exact events_call { sim with simClock := sim.simClock + 1, radio := sim.polling.2 } _
  intro e mine
  rw [one] at mine
  rw [List.mem_singleton.mp mine]
  trivial

theorem run_sane (o : SimOptions) (response : RadioToClient) (rounds : List (Option SimReady)) :
    ∀ e ∈ events ((start o response).run o rounds).2, e.Sane := by
  have next {log log' : List SimSeen} (h : ∀ e ∈ events log, e.Sane)
      (h' : ∀ e ∈ events log', e.Sane) : ∀ e ∈ events (log ++ log'), e.Sane := by
    intro e mine
    rw [events_append] at mine
    exact (List.mem_append.mp mine).elim (h e) (h' e)
  have kept : Kept o fun r => ∀ e ∈ events r.2, e.Sane := fun _ _ _ h moved =>
    next h (moved_sane moved)
  have begins : ∀ e ∈ events (start o response, ([] : List SimSeen)).2, e.Sane := nofun
  exact kept.run (fun sim _ h => next h (poll_sane sim)) rounds begins

/-- **Every client of the simulator reads what it was sent.** Whatever the others send and whenever
they come and go, a client that puts the bytes it was sent through its frame reader has the
responses and pushes the core handed to its connection, in order; and of the bytes that have come so
far, a first part of them. -/
theorem sim_clients_read (o : SimOptions) (response : RadioToClient)
    (rounds : List (Option SimReady)) (c : Sink) :
    let sent := acts ((start o response).run o rounds).2
    clientReads (bytesTo c sent) = (CommandProcessor.framesTo c sent).map
        (fun r => some r.message.received) ∧
      ∀ front back, bytesTo c sent = front ++ back →
        clientReads front <+: (CommandProcessor.framesTo c sent).map
          fun r => some r.message.received := by
  intro sent
  have encodable : Encodable sent := by
    rw [show sent = _ from (run_replays o response rounds).2]
    exact CommandProcessor.encodable_run _ decodeRequest (run_sane o response rounds)
  exact reads_frames encodable c

end Simulator

end MeshPigeon
