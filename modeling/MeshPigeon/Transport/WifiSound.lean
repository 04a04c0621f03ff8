import Mathlib.Data.Fintype.Card
import MeshPigeon.Transport.WifiLink

/-! What every call of the Wi-Fi link keeps, and how it moves. -/
namespace MeshPigeon.WifiTransport

/-- The slots in use, counted. -/
def inUseCount (w : WifiTransport) : Nat :=
  (Finset.univ.filter fun i => (w.clients i).inUse = true).card

/-- The invariants of the link. -/
structure Sound (w : WifiTransport) : Prop where
  off : w.state = .off ↔ w.usable = false
  up : w.serverUp = true ↔ w.state = .connected
  server : w.server.isSome = w.serverUp
  count : w.numClients = w.inUseCount
  idle : w.serverUp = false → ∀ i, (w.clients i).inUse = false

/-- Whether a slot is in use, as a number. -/
def held (w : WifiTransport) (i : Slot) : Nat := if (w.clients i).inUse then 1 else 0

def Effect.drops (i : Slot) : Effect → Bool
  | .dropped j => j = i
  | .changed _ _ => false

def Effect.changes : Effect → Option State
  | .dropped _ => none
  | .changed s _ => some s

/-- The values given to `state_`, in order. -/
def changes (es : List Effect) : List State := es.filterMap Effect.changes

/-- Each value differs from the one before it, and the last is `t`. -/
def Path (s : State) : List State → State → Prop
  | [], t => s = t
  | x :: xs, t => x ≠ s ∧ Path x xs t

theorem Path.append {s t u : State} {xs ys : List State} (h : Path s xs t) (h' : Path t ys u) :
    Path s (xs ++ ys) u := by
  induction xs generalizing s with
  | nil =>
    rw [show s = t from h]
    exact h'
  | cons x xs ih => exact ⟨h.1, ih h.2⟩

/-- The processor is told the value just given to `state_`. -/
def Effect.Told : Effect → Prop
  | .dropped _ => True
  | .changed s link => ∀ m, (link.fillStatus m).wifiState = s.wire

/-- A call drops the slots it frees, each once, and tells of every change. -/
structure Moves (w : WifiTransport) (r : Linked) : Prop where
  slots : ∀ i, r.1.held i + r.2.countP (·.drops i) = w.held i
  path : Path w.state (changes r.2) r.1.state
  told : ∀ e ∈ r.2, e.Told

theorem Moves.andThen {w : WifiTransport} {r : Linked} {f : WifiTransport → Linked}
    (h : Moves w r) (h' : Moves r.1 (f r.1)) : Moves w (r.andThen f) := by
  constructor
  · intro i
    have first := h.slots i
    have second := h'.slots i
    rw [Linked.andThen, List.countP_append]
    dsimp only
    omega
  · rw [Linked.andThen, changes, List.filterMap_append]
    exact h.path.append h'.path
  · intro e he
    rcases List.mem_append.mp he with he | he
    · exact h.told e he
    · exact h'.told e he

/-- A call that touches neither the slots nor `state_`. -/
theorem moves_quiet {w w' : WifiTransport} (clients : w'.clients = w.clients)
    (state : w'.state = w.state) : Moves w (w', []) :=
  ⟨fun i => by simp [held, clients], state.symm, fun _ he => (List.not_mem_nil he).elim⟩

theorem moves_setState (a : Around) (s : State) (w : WifiTransport) : Moves w (w.setState a s) := by
  unfold setState
  split
  · exact moves_quiet rfl rfl
  · rename_i other
    refine ⟨fun i => rfl, ⟨Ne.symm other, rfl⟩, ?_⟩
    intro e he
    rw [List.mem_singleton.mp he]
    exact fun m => rfl

theorem moves_dropClient (i : Slot) (w : WifiTransport) : Moves w (w.dropClient i) := by
  unfold dropClient
  cases used : (w.clients i).inUse with
  | false => exact moves_quiet rfl rfl
  | true =>
    refine ⟨fun j => ?_, rfl, ?_⟩
    · by_cases same : i = j
      · subst same
        simp [held, Effect.drops, used]
      · simp [held, Effect.drops, same, Ne.symm same]
    · intro e he
      rw [List.mem_singleton.mp he]
      trivial

theorem moves_dropClients (is : List Slot) (w : WifiTransport) : Moves w (w.dropClients is) := by
  induction is generalizing w with
  | nil => exact moves_quiet rfl rfl
  | cons i is ih => exact (moves_dropClient i w).andThen (ih _)

theorem moves_stopServer (w : WifiTransport) : Moves w w.stopServer :=
  (moves_dropClients _ w).andThen (moves_quiet rfl rfl)

theorem moves_startServer (w : WifiTransport) : Moves w w.startServer :=
  (moves_stopServer w).andThen (moves_quiet rfl rfl)

theorem moves_connectStart (a : Around) (w : WifiTransport) : Moves w (w.connectStart a) :=
  (moves_setState a _ w).andThen (moves_quiet rfl rfl)

theorem moves_retry (a : Around) (w : WifiTransport) : Moves w (w.retry a) := by
  unfold retry
  split <;> exact moves_quiet rfl rfl

/-- What follows a change of the settings is all that moves. -/
theorem Moves.of_configured {w : WifiTransport} {d : DeviceSettings} {r : Linked}
    (h : Moves (w.configured d) r) : Moves w r := ⟨h.slots, h.path, h.told⟩

theorem moves_apply (a : Around) (settings : DeviceSettings) (w : WifiTransport) :
    Moves w (w.apply a settings) := by
  unfold apply
  dsimp only
  apply Moves.of_configured (d := settings)
  have stopped := (moves_stopServer (w.configured settings)).andThen (moves_setState a .off _)
  split
  · split
    · exact stopped
    · exact moves_quiet rfl rfl
  split
  · exact stopped.andThen (moves_connectStart a _)
  split
  · exact moves_startServer _
  · exact moves_quiet rfl rfl

theorem moves_drive (st : WlStatus) (a : Around) (w : WifiTransport) : Moves w (w.drive st a) := by
  have attempt (s : State) : Moves w ((w.setState a s).andThen (retry a)) :=
    (moves_setState a s w).andThen (moves_retry a _)
  unfold drive
  split
  · exact ((moves_stopServer w).andThen (moves_setState a _ _)).andThen (moves_quiet rfl rfl)
  split
  · cases st with
    | connected =>
      have served : Moves w (if !w.serverUp then w.startServer else (w, [])) := by
        split
        · exact moves_startServer w
        · exact moves_quiet rfl rfl
      have reset := served.andThen (f := fun w => ({ w with backoffMs := 0 }, []))
        (moves_quiet rfl rfl)
      exact reset.andThen (moves_setState a _ _)
    | noSsidAvail => exact attempt _
    | connectFailed => exact attempt _
    | other => exact attempt _
  · exact moves_quiet rfl rfl

/-! ## What a call leaves -/

@[simp] theorem setState_fst (a : Around) (s : State) (w : WifiTransport) :
    (w.setState a s).1 = { w with state := s } := by
  unfold setState
  split
  · rename_i same
    rw [← same]
  · rfl

theorem inUseCount_le (w : WifiTransport) : w.inUseCount ≤ kMaxClients :=
  (Finset.card_le_univ _).trans (Fintype.card_fin _).le

theorem inUseCount_zero {w : WifiTransport} (free : ∀ i, (w.clients i).inUse = false) :
    w.inUseCount = 0 := by
  simp [inUseCount, free]

theorem dropClient_inUse (i : Slot) (w : WifiTransport) (j : Slot) :
    ((w.dropClient i).1.clients j).inUse = if j = i then false else (w.clients j).inUse := by
  unfold dropClient
  cases used : (w.clients i).inUse with
  | false => by_cases same : j = i <;> simp [same, used]
  | true => by_cases same : j = i <;> simp [same]

theorem dropClients_inUse (is : List Slot) (w : WifiTransport) (j : Slot) :
    ((w.dropClients is).1.clients j).inUse = if j ∈ is then false else (w.clients j).inUse := by
  induction is generalizing w with
  | nil => simp [dropClients]
  | cons i is ih =>
    show (((w.dropClient i).1.dropClients is).1.clients j).inUse = _
    rw [ih, dropClient_inUse]
    by_cases here : j = i <;> by_cases later : j ∈ is <;> simp [here, later]

/-- No slot is left in use. -/
theorem stopServer_inUse (w : WifiTransport) (i : Slot) :
    (w.stopServer.1.clients i).inUse = false :=
  (dropClients_inUse (List.finRange kMaxClients) w i).trans (if_pos (List.mem_finRange i))

/-- Dropping a client touches nothing but the slots. -/
theorem dropClient_frame (i : Slot) (w : WifiTransport) :
    ∃ clients n, (w.dropClient i).1 = { w with clients := clients, numClients := n } := by
  unfold dropClient
  split
  · exact ⟨_, _, rfl⟩
  · exact ⟨_, _, rfl⟩

theorem dropClients_frame (is : List Slot) (w : WifiTransport) :
    ∃ clients n, (w.dropClients is).1 = { w with clients := clients, numClients := n } := by
  induction is generalizing w with
  | nil => exact ⟨_, _, rfl⟩
  | cons i is ih =>
    obtain ⟨_, _, first⟩ := dropClient_frame i w
    obtain ⟨clients, n, rest⟩ := ih (w.dropClient i).1
    refine ⟨clients, n, ?_⟩
    show ((w.dropClient i).1.dropClients is).1 = _
    rw [rest, first]

/-- Taking the server down leaves the ladder and the settings alone. -/
theorem stopServer_frame (w : WifiTransport) :
    ∃ clients n, w.stopServer.1 =
      { w with clients := clients, numClients := n, server := none, serverUp := false } := by
  obtain ⟨clients, n, dropped⟩ := dropClients_frame (List.finRange kMaxClients) w
  refine ⟨clients, n, ?_⟩
  rw [stopServer, Linked.andThen, dropped]

theorem dropClient_count (i : Slot) {w : WifiTransport} (count : w.numClients = w.inUseCount) :
    (w.dropClient i).1.numClients = (w.dropClient i).1.inUseCount := by
  unfold dropClient
  cases used : (w.clients i).inUse with
  | false => exact count
  | true =>
    have member : i ∈ Finset.univ.filter fun i => (w.clients i).inUse = true := by simp [used]
    show w.numClients - 1 = _
    rw [count, inUseCount, ← Finset.card_erase_of_mem member]
    apply congrArg Finset.card
    ext j
    by_cases same : j = i <;> simp [same, Function.update_apply]

theorem dropClients_count (is : List Slot) {w : WifiTransport} (count : w.numClients = w.inUseCount) :
    (w.dropClients is).1.numClients = (w.dropClients is).1.inUseCount := by
  induction is generalizing w with
  | nil => exact count
  | cons i is ih => exact ih (dropClient_count i count)

theorem stopServer_spec {w : WifiTransport} (count : w.numClients = w.inUseCount) :
    ∃ clients : Slot → TcpClient, (∀ i, (clients i).inUse = false) ∧ w.stopServer.1 =
      { w with clients := clients, numClients := 0, server := none, serverUp := false } := by
  obtain ⟨clients, n, dropped⟩ := dropClients_frame (List.finRange kMaxClients) w
  have free (i : Slot) :
      ((w.dropClients (List.finRange kMaxClients)).1.clients i).inUse = false := stopServer_inUse w i
  have counted := dropClients_count (List.finRange kMaxClients) count
  rw [inUseCount_zero free, dropped] at counted
  replace counted : n = 0 := counted
  rw [dropped] at free
  exact ⟨clients, free, by rw [stopServer, Linked.andThen, dropped, counted]⟩

variable {w : WifiTransport}

/-- A link taken down, in a state that serves no one. -/
theorem sound_stopped {w' : WifiTransport} (off : w'.state = .off ↔ w'.usable = false)
    (other : w'.state ≠ .connected) (server : w'.server = none) (down : w'.serverUp = false)
    (count : w'.numClients = 0) (free : ∀ i, (w'.clients i).inUse = false) : Sound w' where
  off := off
  up := by simp [down, other]
  server := by rw [server, down]; rfl
  count := by rw [count, inUseCount_zero free]
  idle := fun _ => free

theorem Sound.usable (h : Sound w) (on : w.state ≠ .off) : w.usable = true := by
  cases usable : w.usable with
  | true => rfl
  | false => exact absurd (h.off.mpr usable) on

theorem Sound.apply (h : Sound w) (a : Around) (settings : DeviceSettings) :
    Sound (w.apply a settings).1 := by
  have count : (w.configured settings).numClients = (w.configured settings).inUseCount := h.count
  obtain ⟨clients, free, stopped⟩ := stopServer_spec count
  unfold WifiTransport.apply
  dsimp only
  cases usable : (w.configured settings).usable with
  | false =>
    simp only [Bool.not_false, if_true]
    split
    · simp only [Linked.andThen, disconnect, setState_fst, stopped]
      exact sound_stopped (by simpa [WifiTransport.usable] using usable) nofun rfl rfl rfl free
    · rename_i disabled
      have unusable : w.usable = false := by
        simp only [WifiTransport.usable, Bool.eq_false_iff.mpr disabled, Bool.false_and]
      have isOff := h.off.mpr unusable
      exact ⟨by simp [usable]; exact isOff, h.up, h.server, h.count, h.idle⟩
  | true =>
    simp only [Bool.not_true, Bool.false_eq_true, if_false]
    split
    · simp only [Linked.andThen, disconnect, connectStart, setState_fst, stopped]
      have isUsable : (w.configured settings).usable = true := usable
      refine sound_stopped ?_ nofun rfl rfl rfl free
      simpa [WifiTransport.usable] using isUsable
    rename_i same
    simp only [Bool.or_eq_true, Bool.not_eq_true', not_or, Bool.not_eq_false,
      Bool.not_eq_true] at same
    obtain ⟨enabled, credentials⟩ := same
    simp only [credentialsChanged, Bool.or_eq_false_iff, Bool.not_eq_false', CharArray.strEq,
      decide_eq_true_eq] at credentials
    have wasUsable : w.usable = true := by
      have now : (settings.wifiEnabled && decide (settings.wifiSsid.str ≠ [])) = true := usable
      rw [WifiTransport.usable, enabled, credentials.1]
      exact (Bool.and_eq_true_iff.mp now).2
    have on : ¬w.state = .off := by
      rw [h.off, wasUsable]
      simp
    split
    · rename_i moved
      simp only [startServer, Linked.andThen, stopped]
      have connected := h.up.mp moved.2
      constructor
      · show w.state = .off ↔ (w.configured settings).usable = false
        simp [on, usable]
      · show true = true ↔ w.state = .connected
        simp [connected]
      · rfl
      · exact (inUseCount_zero free).symm
      · exact fun _ => free
    · refine ⟨?_, h.up, h.server, h.count, h.idle⟩
      show w.state = .off ↔ (w.configured settings).usable = false
      simp [on, usable]

/-- The retry ladder is no part of the invariants. -/
theorem Sound.attempted (h : Sound w) (lastAttemptMs backoffMs : UInt32) :
    Sound { w with lastAttemptMs := lastAttemptMs, backoffMs := backoffMs } :=
  ⟨h.off, h.up, h.server, h.count, h.idle⟩

theorem Sound.retry (h : Sound w) (a : Around) : Sound (w.retry a).1 := by
  unfold WifiTransport.retry
  split
  · exact h.attempted _ _
  · exact h

/-- Between two states that both wait for the network. -/
theorem Sound.waiting (h : Sound w) (waits : w.state ≠ .off ∧ w.state ≠ .connected) {s : State}
    (waits' : s ≠ .off ∧ s ≠ .connected) : Sound { w with state := s } := by
  have usable := h.usable waits.1
  refine ⟨?_, ?_, h.server, h.count, h.idle⟩
  · show s = .off ↔ w.usable = false
    simp [waits'.1, usable]
  · show w.serverUp = true ↔ s = .connected
    simp [waits'.2, h.up, waits.2]

theorem Sound.drive (h : Sound w) (st : WlStatus) (a : Around) : Sound (w.drive st a).1 := by
  obtain ⟨clients, free, stopped⟩ := stopServer_spec h.count
  unfold WifiTransport.drive
  split
  · rename_i lost
    have usable := h.usable (by rw [lost.1]; nofun)
    simp only [Linked.andThen, setState_fst, stopped]
    refine sound_stopped ?_ nofun rfl rfl rfl free
    simpa [WifiTransport.usable] using usable
  split
  · rename_i waiting
    have waits : w.state ≠ .off ∧ w.state ≠ .connected := by
      rcases waiting with s | s | s <;> rw [s] <;> exact ⟨nofun, nofun⟩
    have attempt {s : State} (waits' : s ≠ .off ∧ s ≠ .connected) :
        Sound ((w.setState a s).andThen (WifiTransport.retry a)).1 := by
      rw [Linked.andThen, setState_fst]
      exact (h.waiting waits waits').retry a
    cases st with
    | connected =>
      have down : w.serverUp = false := by
        rw [Bool.eq_false_iff, ne_eq, h.up]
        exact waits.2
      have usable := h.usable waits.1
      simp only [down, Bool.not_false, if_true, startServer, Linked.andThen, stopped, setState_fst]
      constructor
      · show State.connected = .off ↔ w.usable = false
        simp [usable]
      · exact ⟨fun _ => rfl, fun _ => rfl⟩
      · rfl
      · exact (inUseCount_zero free).symm
      · exact fun _ => free
    | noSsidAvail => exact attempt ⟨nofun, nofun⟩
    | connectFailed => exact attempt ⟨nofun, nofun⟩
    | other => exact attempt ⟨nofun, nofun⟩
  · exact h

theorem Sound.dropClient (h : Sound w) (i : Slot) : Sound (w.dropClient i).1 := by
  obtain ⟨clients, n, dropped⟩ := dropClient_frame i w
  have counted := dropClient_count i h.count
  have inUse := dropClient_inUse i w
  rw [dropped] at counted inUse ⊢
  refine ⟨h.off, h.up, h.server, counted, fun down j => ?_⟩
  rw [inUse j, h.idle down j, ite_self]

end MeshPigeon.WifiTransport
