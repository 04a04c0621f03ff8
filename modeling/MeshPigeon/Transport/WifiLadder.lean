import MeshPigeon.Transport.WifiBoard
import MeshPigeon.Transport.WifiSound

/-!
# The retry ladder of the Wi-Fi link

How long the link waits between two attempts, over the true time that
`millis()` shows modulo 2^32, and what the backoff can be.
-/
namespace MeshPigeon

namespace WifiTransport

/-! ## One `pump`, its readings of `millis()` apart -/

/-- Another attempt, when its time has come: whether it was made. One reading is
compared with the last attempt, and the next one kept. -/
def retryAt (now kept : UInt32) (w : WifiTransport) : WifiTransport × Bool :=
  if now - w.lastAttemptMs ≥ w.backoffMs then
    ({ w with lastAttemptMs := kept, backoffMs := nextBackoff w.backoffMs }, true)
  else (w, false)

/-- `pump` up to the sockets: the link it leaves, and whether it made another attempt. -/
def pumpAt (st : WlStatus) (a : Around) (kept : UInt32) (w : WifiTransport) :
    WifiTransport × Bool :=
  if !w.usable then (w, false)
  else if w.state = .connected ∧ st ≠ .connected then
    let w := (w.stopServer.andThen (setState a .connecting)).1
    ({ w with lastAttemptMs := a.millis, backoffMs := kBackoffStartMs }, false)
  else if w.state = .connecting ∨ w.state = .authFail ∨ w.state = .error then
    match st with
    | .connected =>
      let w := if !w.serverUp then w.startServer.1 else w
      (({ w with backoffMs := 0 }.setState a .connected).1, false)
    | .noSsidAvail => (w.setState a .error).1.retryAt a.millis kept
    | .connectFailed => (w.setState a .authFail).1.retryAt a.millis kept
    | .other => (w.setState a .connecting).1.retryAt a.millis kept
  else (w, false)

theorem retryAt_retry (a : Around) (w : WifiTransport) :
    (w.retryAt a.millis a.millis).1 = (w.retry a).1 := by
  unfold retryAt retry
  split <;> rfl

/-- With one reading for both this is the state machine of the board. -/
theorem pumpAt_drive (st : WlStatus) (a : Around) (w : WifiTransport) (usable : w.usable = true) :
    (w.pumpAt st a a.millis).1 = (w.drive st a).1 := by
  unfold pumpAt drive
  rw [usable, if_neg (by decide)]
  split
  · rfl
  split
  · cases st with
    | connected =>
      cases w.serverUp <;> rfl
    | noSsidAvail => exact retryAt_retry a _
    | connectFailed => exact retryAt_retry a _
    | other => exact retryAt_retry a _
  · rfl

/-! ## The waits -/

/-- The wait before the retry after `n` others, in milliseconds. -/
def waitMs (n : Nat) : Nat := min (5000 * 2 ^ n) 120000

theorem waitMs_le (n : Nat) : 5000 ≤ waitMs n ∧ waitMs n ≤ 120000 := by
  have grown : 1 ≤ 2 ^ n := Nat.one_le_two_pow
  unfold waitMs
  omega

/-- A seeded backoff doubles up to the cap. -/
theorem toNat_nextBackoff {ms : UInt32} (low : 5000 ≤ ms.toNat) (high : ms.toNat ≤ 120000) :
    (nextBackoff ms).toNat = min (2 * ms.toNat) 120000 := by
  have cap : (120000 : UInt32).toNat = 120000 := rfl
  have seeded : ms ≠ 0 := by
    intro zero
    rw [zero, UInt32.toNat_zero] at low
    omega
  have doubled : (ms * 2).toNat = 2 * ms.toNat := by
    rw [UInt32.toNat_mul]
    show ms.toNat * 2 % 2 ^ 32 = _
    omega
  unfold nextBackoff kBackoffMaxMs
  by_cases below : ms.toNat < 120000
  · simp only [UInt32.lt_iff_toNat_lt, cap, below, seeded, ne_eq, not_false_eq_true, if_true,
      gt_iff_lt, doubled]
    split
    · rw [cap]
      omega
    · rw [doubled]
      omega
  · simp only [UInt32.lt_iff_toNat_lt, cap, below, if_false, gt_iff_lt]
    split
    · rw [cap]
      omega
    · omega

theorem nextBackoff_wait {ms : UInt32} {n : Nat} (h : ms.toNat = waitMs n) :
    (nextBackoff ms).toNat = waitMs (n + 1) := by
  obtain ⟨low, high⟩ := waitMs_le n
  rw [toNat_nextBackoff (by rw [h]; exact low) (by rw [h]; exact high), h]
  unfold waitMs
  rw [Nat.pow_succ]
  omega

/-- The times of attempts after one at `last`, each its wait after the one before. -/
def Spaced : Nat → Nat → List Nat → Prop
  | _, _, [] => True
  | n, last, t :: ts => last + waitMs n ≤ t ∧ Spaced (n + 1) t ts

/-- One call of `pump`: what the driver answers, and the true times at which
`millis()` is read. -/
structure Tick where
  status : WlStatus
  around : Around := {}
  first : Nat
  second : Nat

def Tick.pump (k : Tick) (w : WifiTransport) : WifiTransport × Bool :=
  w.pumpAt k.status { k.around with millis := UInt32.ofNat k.first } (UInt32.ofNat k.second)

/-- The true time does not go back, over calls and within them. -/
def Timed : Nat → List Tick → Prop
  | _, [] => True
  | t, k :: ks => t ≤ k.first ∧ k.first ≤ k.second ∧ Timed k.second ks

/-- When the calls made further attempts. -/
def retries (w : WifiTransport) : List Tick → List Nat
  | [] => []
  | k :: ks =>
    let r := k.pump w
    if r.2 then k.second :: r.1.retries ks else r.1.retries ks

/-- The ladder begins at the true time `t`: with `connect_start`, or with a lost association. -/
inductive Begins (t : Nat) : WifiTransport → Prop
  | connectStart (a : Around) (w : WifiTransport) (read : a.millis = UInt32.ofNat t) :
      Begins t (w.connectStart a).1
  | lost (st : WlStatus) (a : Around) (kept : UInt32) (w : WifiTransport)
      (usable : w.usable = true) (connected : w.state = .connected) (gone : st ≠ .connected)
      (read : a.millis = UInt32.ofNat t) : Begins t (w.pumpAt st a kept).1

/-- `n` retries into the ladder, the last attempt was made at the true time `last`. -/
structure Climbing (w : WifiTransport) (n last : Nat) : Prop where
  waits : w.state = .connecting ∨ w.state = .authFail ∨ w.state = .error
  lastAttempt : w.lastAttemptMs = UInt32.ofNat last
  backoff : w.backoffMs.toNat = waitMs n

theorem Begins.climbing {w : WifiTransport} {t : Nat} (h : Begins t w) : Climbing w 0 t := by
  cases h with
  | connectStart a w read =>
    refine ⟨.inl ?_, read, rfl⟩
    rw [WifiTransport.connectStart, Linked.andThen, setState_fst]
  | lost st a kept w usable connected gone read =>
    unfold pumpAt
    rw [usable, if_neg (by decide), if_pos ⟨connected, gone⟩]
    refine ⟨.inl ?_, read, rfl⟩
    rw [Linked.andThen, setState_fst]

/-- What a reading of `millis()` is past another is no more than the true time between. -/
theorem elapsed_le {last now : Nat} (later : last ≤ now) :
    (UInt32.ofNat now - UInt32.ofNat last).toNat ≤ now - last := by
  have same : UInt32.ofNat now - UInt32.ofNat last = UInt32.ofNat (now - last) := by
    rw [show now = now - last + last by omega, UInt32.ofNat_add, UInt32.add_sub_cancel,
      Nat.add_sub_cancel]
  rw [same, UInt32.toNat_ofNat']
  exact Nat.mod_le _ _

/-- One step of the ladder: an attempt is made after its wait, or none is. -/
theorem Climbing.retryAt {w : WifiTransport} {n last first second : Nat} (h : Climbing w n last)
    (later : last ≤ first) :
    let r := w.retryAt (UInt32.ofNat first) (UInt32.ofNat second)
    (r.2 = true → last + waitMs n ≤ first ∧ Climbing r.1 (n + 1) second) ∧
      (r.2 = false → Climbing r.1 n last) := by
  unfold WifiTransport.retryAt
  dsimp only
  by_cases due : UInt32.ofNat first - w.lastAttemptMs ≥ w.backoffMs
  · rw [if_pos due]
    refine ⟨fun _ => ⟨?_, h.waits, rfl, nextBackoff_wait h.backoff⟩, nofun⟩
    have gap := elapsed_le later
    rw [ge_iff_le, h.lastAttempt, UInt32.le_iff_toNat_le, h.backoff] at due
    omega
  · rw [if_neg due]
    exact ⟨nofun, fun _ => h⟩

theorem Climbing.setState {w : WifiTransport} {n last : Nat} (h : Climbing w n last) (a : Around)
    {s : State} (waits : s = .connecting ∨ s = .authFail ∨ s = .error) :
    Climbing (w.setState a s).1 n last := by
  rw [setState_fst]
  exact ⟨waits, h.lastAttempt, h.backoff⟩

/-- A call that does not find the link associated takes one step of the ladder. -/
theorem Climbing.pump {w : WifiTransport} {n last : Nat} (h : Climbing w n last) {k : Tick}
    (later : last ≤ k.first) (waiting : k.status ≠ .connected) :
    ((k.pump w).2 = true → last + waitMs n ≤ k.first ∧ Climbing (k.pump w).1 (n + 1) k.second) ∧
      ((k.pump w).2 = false → Climbing (k.pump w).1 n last) := by
  unfold Tick.pump pumpAt
  have down : w.state ≠ .connected := by
    intro up
    have waits := h.waits
    rw [up] at waits
    obtain s | s | s := waits <;> cases s
  cases usable : w.usable with
  | false => exact ⟨nofun, fun _ => h⟩
  | true =>
    rw [if_neg (by decide), if_neg (fun both => down both.1), if_pos h.waits]
    cases status : k.status with
    | connected => exact absurd status waiting
    | noSsidAvail => exact (h.setState _ (.inr (.inr rfl))).retryAt later
    | connectFailed => exact (h.setState _ (.inr (.inl rfl))).retryAt later
    | other => exact (h.setState _ (.inl rfl)).retryAt later

theorem Climbing.spaced {w : WifiTransport} {n last t : Nat} {ticks : List Tick}
    (h : Climbing w n last) (before : last ≤ t) (timed : Timed t ticks)
    (waiting : ∀ k ∈ ticks, k.status ≠ .connected) : Spaced n last (w.retries ticks) := by
  induction ticks generalizing w n last t with
  | nil => trivial
  | cons k ks ih =>
    obtain ⟨later, within, rest⟩ := timed
    have step := h.pump (Nat.le_trans before later) (waiting k List.mem_cons_self)
    have others : ∀ j ∈ ks, j.status ≠ .connected := fun j hj => waiting j (List.mem_cons_of_mem k hj)
    rw [retries]
    cases made : (k.pump w).2 with
    | true =>
      obtain ⟨due, climbed⟩ := step.1 made
      simp only [if_true]
      exact ⟨Nat.le_trans due within, ih climbed (Nat.le_refl _) rest others⟩
    | false =>
      simp only [Bool.false_eq_true, if_false]
      exact ih (step.2 made) (by omega) rest others

/-! ## The backoff in every state -/

/-- The states the calls of the link lead to, whatever its sockets do. -/
inductive Reached : WifiTransport → Prop
  | begin (a : Around) : Reached (WifiTransport.begin a).1
  | apply (a : Around) (settings : DeviceSettings) {w : WifiTransport} : Reached w →
      Reached (w.apply a settings).1
  | pump (st : WlStatus) (a : Around) (kept : UInt32) {w : WifiTransport} : Reached w →
      Reached (w.pumpAt st a kept).1
  | slots (clients : Slot → TcpClient) (numClients : Nat) {w : WifiTransport} : Reached w →
      Reached { w with clients := clients, numClients := numClients }

/-- While the link waits for its network the backoff is between 5 s and 2 min. -/
def Bounded (w : WifiTransport) : Prop :=
  w.state ≠ .off → w.state ≠ .connected →
    kBackoffStartMs ≤ w.backoffMs ∧ w.backoffMs ≤ kBackoffMaxMs

theorem bounded_seeded {w : WifiTransport} (seeded : w.backoffMs = kBackoffStartMs) : Bounded w := by
  intro _ _
  rw [seeded]
  decide

theorem bounded_off {w : WifiTransport} (off : w.state = .off) : Bounded w :=
  fun on => absurd off on

theorem bounded_connected {w : WifiTransport} (connected : w.state = .connected) : Bounded w :=
  fun _ waits => absurd connected waits

theorem Bounded.retryAt {w : WifiTransport} (h : Bounded w) (on : w.state ≠ .off)
    (waits : w.state ≠ .connected) (now kept : UInt32) : Bounded (w.retryAt now kept).1 := by
  unfold WifiTransport.retryAt
  split
  · obtain ⟨low, high⟩ := h on waits
    have doubled := toNat_nextBackoff low high
    replace low : 5000 ≤ w.backoffMs.toNat := low
    intro _ _
    rw [UInt32.le_iff_toNat_le, UInt32.le_iff_toNat_le]
    show 5000 ≤ (nextBackoff w.backoffMs).toNat ∧ (nextBackoff w.backoffMs).toNat ≤ 120000
    omega
  · exact h

theorem Bounded.pumpAt {w : WifiTransport} (h : Bounded w) (st : WlStatus) (a : Around)
    (kept : UInt32) : Bounded (w.pumpAt st a kept).1 := by
  unfold WifiTransport.pumpAt
  split
  · exact h
  split
  · exact bounded_seeded rfl
  split
  · rename_i waiting
    have waits : w.state ≠ .off ∧ w.state ≠ .connected := by
      obtain s | s | s := waiting <;> rw [s] <;> exact ⟨nofun, nofun⟩
    have attempt {s : State} (on : s ≠ .off) (other : s ≠ .connected) :
        Bounded ((w.setState a s).1.retryAt a.millis kept).1 := by
      rw [setState_fst]
      exact Bounded.retryAt (w := { w with state := s }) (fun _ _ => h waits.1 waits.2) on other _ _
    cases st with
    | connected => exact bounded_connected (by rw [setState_fst])
    | noSsidAvail => exact attempt nofun nofun
    | connectFailed => exact attempt nofun nofun
    | other => exact attempt nofun nofun
  · exact h

theorem Bounded.apply {w : WifiTransport} (h : Bounded w) (a : Around) (settings : DeviceSettings) :
    Bounded (w.apply a settings).1 := by
  unfold WifiTransport.apply
  dsimp only
  split
  · split
    · exact bounded_off (by rw [Linked.andThen, disconnect, setState_fst])
    · exact h
  split
  · exact bounded_seeded rfl
  split
  · obtain ⟨clients, n, stopped⟩ := stopServer_frame (w.configured settings)
    rw [startServer, Linked.andThen, stopped]
    exact h
  · exact h

theorem Reached.bounded {w : WifiTransport} (h : Reached w) : Bounded w := by
  induction h with
  | begin a => exact bounded_off (by rw [WifiTransport.begin, Linked.andThen, setState_fst])
  | apply a settings _ ih => exact ih.apply a settings
  | pump st a kept _ ih => exact ih.pumpAt st a kept
  | slots clients numClients _ ih => exact ih

end WifiTransport

/-! ## The link on its board -/

namespace WifiBoard

open WifiTransport

variable {σ : Type}

theorem reached_dropClient {w : WifiTransport} (h : Reached w) (i : Slot) :
    Reached (w.dropClient i).1 := by
  obtain ⟨clients, n, dropped⟩ := dropClient_frame i w
  rw [dropped]
  exact h.slots clients n

theorem reached_setClient {b : WifiBoard σ} (h : Reached b.wifi) (i : Slot) (c : TcpClient) :
    Reached (b.setClient i c).wifi := h.slots _ _

theorem reached_acceptClients {b : WifiBoard σ} (h : Reached b.wifi) (incoming : Bool) :
    Reached (b.acceptClients incoming).1.wifi := by
  unfold acceptClients
  split
  · exact h
  split
  · exact h
  split
  · exact h
  · exact h.slots _ _

theorem reached_perform (a : Around) {w : WifiTransport} (h : Reached w) (acts : List Act) :
    Reached (perform a w acts).1 := by
  induction acts generalizing w with
  | nil => exact h
  | cons act acts ih =>
    cases act with
    | applyWifi settings => exact ih (h.apply a settings)
    | _ => exact ih h

variable [SettingsStore σ] {pbDecode : List UInt8 → Option ClientToRadio}

theorem reached_request {b : WifiBoard σ} (h : Reached b.wifi) (a : Answers) (data : List UInt8)
    (sink : Sink) : Reached (b.request pbDecode a data sink).1.wifi := reached_perform _ h _

theorem reached_drain {b : WifiBoard σ} (h : Reached b.wifi) (i : Slot)
    (bytes : List (UInt8 × Answers)) : Reached (b.drain pbDecode i bytes).1.wifi := by
  induction bytes generalizing b with
  | nil => exact h
  | cons received bytes ih =>
    unfold drain
    dsimp only
    split
    · exact ih (reached_request (reached_setClient h i _) _ _ _)
    · exact ih (reached_setClient h i _)

omit [SettingsStore σ] in
theorem reached_hangUp {b : WifiBoard σ} (h : Reached b.wifi) (i : Slot) (t : Turn) :
    Reached (b.hangUp i t).1.wifi := by
  have flagged : Reached (if t.writeFailed then
      b.setClient i { b.wifi.clients i with broken := true } else b).wifi := by
    split
    · exact reached_setClient h i _
    · exact h
  have closes {b : WifiBoard σ} (h : Reached b.wifi) :
      Reached (if (b.wifi.clients i).broken || !t.connected then
        b.settle (b.wifi.dropClient i) else (b, [])).1.wifi := by
    split
    · exact reached_dropClient h i
    · exact h
  exact closes flagged

theorem reached_turn {b : WifiBoard σ} (h : Reached b.wifi) (i : Slot) (t : Turn) :
    Reached (b.turn pbDecode i t).1.wifi := by
  unfold turn
  split
  · exact h
  apply reached_hangUp
  split
  · exact h
  · exact reached_drain h i _

theorem reached_pumpClients {b : WifiBoard σ} (h : Reached b.wifi) (turns : Slot → Turn)
    (is : List Slot) : Reached (b.pumpClients pbDecode turns is).1.wifi := by
  induction is generalizing b with
  | nil => exact h
  | cons i is ih => exact ih (reached_turn h i (turns i))

theorem reached_pump {b : WifiBoard σ} (h : Reached b.wifi) (p : Pumped) :
    Reached (b.pump pbDecode p).1.wifi := by
  unfold pump
  split
  · exact h
  rename_i usable
  apply reached_pumpClients
  apply reached_acceptClients
  show Reached (b.wifi.drive p.status p.around).1
  rw [← pumpAt_drive _ _ _ (by simpa using usable)]
  exact h.pump _ _ _

theorem reached_step {b : WifiBoard σ} (h : Reached b.wifi) (e : WifiEvent) :
    Reached (b.step pbDecode e).1.wifi := by
  cases e with
  | apply a settings => exact h.apply a settings
  | pump p => exact reached_pump h p
  | writeFailed i => exact reached_setClient h i _
  | envelope n a data => exact reached_request h a data _
  | connect | relink | disconnect | packetReceived | poll | txResult => exact h

theorem reached_run {b : WifiBoard σ} (h : Reached b.wifi) (events : List WifiEvent) :
    Reached (b.run pbDecode events).1.wifi := by
  induction events generalizing b with
  | nil => exact h
  | cons e events ih => exact ih (reached_step h e)

/-- The link of a board is always in one of these states. -/
theorem reached_lifetime (core : CommandProcessor σ) (a : Around) (events : List WifiEvent) :
    Reached (lifetime pbDecode core a events).1.wifi := reached_run (.begin a) events

variable (pbDecode) in
/-- Without a slot in use the sockets' half of `pump` does nothing. -/
theorem pumpClients_idle (b : WifiBoard σ) (idle : ∀ i, (b.wifi.clients i).inUse = false)
    (turns : Slot → Turn) (is : List Slot) : b.pumpClients pbDecode turns is = (b, []) := by
  induction is with
  | nil => rfl
  | cons i is ih =>
    have here : b.turn pbDecode i (turns i) = (b, []) := by
      rw [turn, idle i]
      rfl
    rw [pumpClients, here, Ran.andThen, ih]
    rfl

/-- While the link is not associated, a `pump` of the board is one of the link. -/
theorem pump_link {b : WifiBoard σ} (sound : WifiTransport.Sound b.wifi) (p : Pumped)
    (down : (b.wifi.pumpAt p.status p.around p.around.millis).1.state ≠ .connected) :
    (b.pump pbDecode p).1.wifi = (b.wifi.pumpAt p.status p.around p.around.millis).1 := by
  cases usable : b.wifi.usable with
  | false =>
    unfold pump pumpAt
    rw [usable]
    rfl
  | true =>
    rw [pumpAt_drive _ _ _ usable] at down ⊢
    have after := sound.drive p.status p.around
    have closed : (b.wifi.drive p.status p.around).1.serverUp = false := by
      rw [Bool.eq_false_iff, ne_eq, after.up]
      exact down
    let settled := (b.settle (b.wifi.drive p.status p.around)).1
    have refused : settled.acceptClients p.incoming = (settled, []) := by
      unfold acceptClients
      rw [show settled.wifi.serverUp = false from closed]
      rfl
    have unused := settled.pumpClients_idle pbDecode (after.idle closed) p.turns
      (List.finRange kMaxClients)
    rw [pump, usable, if_neg (by decide)]
    show ((settled.acceptClients p.incoming).1.pumpClients pbDecode p.turns _).1.wifi = _
    rw [refused, unused]
    rfl

end WifiBoard

namespace WifiTransport

/-- From an attempt or a loss on, each retry waits twice as long as the one
before, from 5 s up to 2 min, for as long as the link is not associated; and the
backoff stays in that range in every state that waits for the network. With its
two readings the same, `pumpAt` is the state machine and the link of the board. -/
theorem wifi_retry_ladder (σ : Type) [SettingsStore σ]
    (pbDecode : List UInt8 → Option ClientToRadio) :
    (∀ (w : WifiTransport) (start : Nat) (ticks : List Tick), Begins start w → Timed start ticks →
      (∀ k ∈ ticks, k.status ≠ .connected) → Spaced 0 start (w.retries ticks)) ∧
    (∀ w : WifiTransport, Reached w → w.state ≠ .off → w.state ≠ .connected →
      5000 ≤ w.backoffMs ∧ w.backoffMs ≤ 120000) ∧
    (∀ (core : CommandProcessor σ) (a : Around) (events : List WifiEvent),
      Reached (WifiBoard.lifetime pbDecode core a events).1.wifi) ∧
    (∀ (st : WlStatus) (a : Around) (w : WifiTransport), w.usable = true →
      (w.pumpAt st a a.millis).1 = (w.drive st a).1) ∧
    ∀ (b : WifiBoard σ) (p : Pumped), Sound b.wifi →
      (b.wifi.pumpAt p.status p.around p.around.millis).1.state ≠ .connected →
      (b.pump pbDecode p).1.wifi = (b.wifi.pumpAt p.status p.around p.around.millis).1 :=
  ⟨fun _ _ _ begins timed waiting => begins.climbing.spaced (Nat.le_refl _) timed waiting,
    fun _ reached => reached.bounded, fun core a events => WifiBoard.reached_lifetime core a events,
    pumpAt_drive, fun _ p sound down => WifiBoard.pump_link sound p down⟩

/-- Two retries after an attempt one second from the start. -/
theorem wifi_retry_ladder_two :
    Spaced 0 1000 ((connectStart { millis := 1000 }
      { settings := { DeviceSettings.defaults with
          wifiEnabled := true, wifiSsid := copyStr kSsidMax [0x41] } }).1.retries
      [{ status := .noSsidAvail, first := 6000, second := 6001 },
        { status := .other, first := 7000, second := 7000 },
        { status := .connectFailed, first := 16001, second := 16001 }]) := by
  refine (wifi_retry_ladder MemorySettingsStore fun _ => none).1 _ 1000 _ (.connectStart _ _ rfl) ?_ ?_
  · simp [Timed]
  · simp

end WifiTransport

end MeshPigeon
