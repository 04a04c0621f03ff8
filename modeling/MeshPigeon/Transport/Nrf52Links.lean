import MeshPigeon.Transport.Nrf52Ble

/-! What one central leaves for the next. -/
namespace MeshPigeon.Nrf52Ble.BleSink

/-- Every queued frame is for the link that is up. -/
def Fresh (s : BleSink) : Prop := ∀ q ∈ s.queue, s.central = some q.link

/-- Every frame went to the link it was queued for. -/
def OwnFrames (s : BleSink) : Prop := ∀ p ∈ s.passed, p.central = some p.frame

/-- No byte was read under the session of an earlier link than its writer. -/
def OwnSession (s : BleSink) : Prop := ∀ r ∈ s.reads, ∀ link, r.session = some link → ¬link < r.writer

/-- While no drop is pending, all there is belongs to the link that is up. -/
structure Clean (s : BleSink) : Prop where
  queue : Fresh s
  rx : ∀ p ∈ s.rx, s.central = some p.1
  session : ∀ link, s.session = some link → s.central = some link

structure Tidy (s : BleSink) : Prop where
  frames : OwnFrames s
  reads : OwnSession s
  clean : s.dropPending = false → Clean s

variable {s t u : BleSink}

/-! ## Transmission -/

/-- The step only moves frames, and moves them rightly if they are fresh. -/
structure Moves (s t : BleSink) : Prop where
  central : t.central = s.central
  dropPending : t.dropPending = s.dropPending
  rx : t.rx = s.rx
  session : t.session = s.session
  reads : t.reads = s.reads
  fresh : Fresh s → Fresh t
  frames : Fresh s → OwnFrames s → OwnFrames t

theorem Moves.refl (s : BleSink) : Moves s s := ⟨rfl, rfl, rfl, rfl, rfl, id, fun _ h => h⟩

theorem Moves.trans (h : Moves s t) (h' : Moves t u) : Moves s u := by
  constructor
  · exact h'.central.trans h.central
  · exact h'.dropPending.trans h.dropPending
  · exact h'.rx.trans h.rx
  · exact h'.session.trans h.session
  · exact h'.reads.trans h.reads
  · intro fresh
    exact h'.fresh (h.fresh fresh)
  · intro fresh own
    exact h'.frames (h.fresh fresh) (h.frames fresh own)

theorem moves_cleared (s : BleSink) : Moves s { s with queue := [] } := by
  refine ⟨rfl, rfl, rfl, rfl, rfl, ?_, fun _ own => own⟩
  intro _ q hq
  cases hq

theorem Fresh.sent {q : Queued} {rest : List Queued} (h : Fresh s) (hq : s.queue = q :: rest)
    (off : Nat) : ∀ p ∈ { q with off := off } :: rest, s.central = some p.link := by
  intro p hp
  rcases List.mem_cons.mp hp with rfl | later
  · exact h q (by simp [hq])
  · exact h p (by simp [hq, later])

theorem moves_drainStep (s : BleSink) (written : Nat) : Moves s (s.drainStep written).1 := by
  unfold drainStep
  split
  · exact Moves.refl s
  · split
    · exact Moves.refl s
    · rename_i q rest hq
      have passes (bytes : List UInt8) (taken : Nat) (done : Option (List UInt8)) :
          Fresh s → OwnFrames s → ∀ p ∈ s.passed ++ [⟨q.link, s.central, bytes, taken, done⟩],
          p.central = some p.frame := by
        intro fresh own p hp
        rcases List.mem_append.mp hp with before | now
        · exact own p before
        · obtain rfl := List.mem_singleton.mp now
          exact fresh q (by simp [hq])
      dsimp only
      split
      · exact ⟨rfl, rfl, rfl, rfl, rfl, fun fresh => fresh, passes _ _ _⟩
      · split
        · refine ⟨rfl, rfl, rfl, rfl, rfl, ?_, passes _ _ _⟩
          intro fresh p hp
          exact fresh.sent hq 0 p (List.mem_cons_of_mem _ hp)
        · refine ⟨rfl, rfl, rfl, rfl, rfl, ?_, passes _ _ _⟩
          intro fresh p hp
          exact fresh.sent hq _ p hp

theorem moves_makeRoomLoop (wait : Nat) (writes : List Nat) (s : BleSink) :
    Moves s (makeRoomLoop wait writes s) := by
  induction wait generalizing writes s with
  | zero =>
    unfold makeRoomLoop
    split
    · exact Moves.refl s
    · dsimp only
      split <;> exact moves_drainStep s _
  | succ wait ih =>
    unfold makeRoomLoop
    split
    · exact Moves.refl s
    · have drained := moves_drainStep s (writes.headD 0)
      dsimp only
      split
      · exact drained
      · split
        · exact drained.trans (moves_cleared _)
        · exact drained.trans (ih _ _)

theorem moves_makeRoom (s : BleSink) (writes : List Nat) : Moves s (s.makeRoom writes) := by
  have looped := moves_makeRoomLoop kDrainWaitMs writes s
  unfold makeRoom
  dsimp only
  split
  · exact looped.trans (moves_cleared _)
  · exact looped

theorem moves_sendFrame (s : BleSink) (decoded : List UInt8) (writes : List Nat) :
    Moves s (s.sendFrame decoded writes) := by
  unfold sendFrame
  split
  · exact Moves.refl s
  · split
    · exact Moves.refl s
    · rename_i link up
      have room := moves_makeRoom s writes
      dsimp only
      split
      · exact room
      · refine room.trans ⟨rfl, rfl, rfl, rfl, rfl, ?_, fun _ own => own⟩
        intro fresh q hq
        rcases List.mem_append.mp hq with before | now
        · exact fresh q before
        · obtain rfl := List.mem_singleton.mp now
          exact room.central.trans up

theorem moves_flushLoop (turns wait : Nat) (writes : List Nat) (s : BleSink) :
    Moves s (flushLoop turns wait writes s) := by
  apply flushLoop_rule (P := Moves s)
  · exact fun t written moved => moved.trans (moves_drainStep t written)
  · exact Moves.refl s

/-! ## While nobody is connected -/

theorem drainStep_idle (idle : s.connected = false) (written : Nat) :
    s.drainStep written = (s, false) := by
  simp [drainStep, idle]

theorem sendFrame_idle (idle : s.connected = false) (decoded : List UInt8) (writes : List Nat) :
    s.sendFrame decoded writes = s := by
  simp [sendFrame, idle]

theorem flushLoop_idle (idle : s.connected = false) (turns wait : Nat) (writes : List Nat) :
    flushLoop turns wait writes s = s := by
  apply flushLoop_rule (P := (· = s))
  · rintro _ written rfl
    rw [drainStep_idle idle]
  · rfl

/-! ## Runs -/

/-- The frames are handled rightly: nobody is connected, or no frame was queued
before the last disconnect. -/
def Sendable (s : BleSink) : Prop := s.dropPending = true → s.connected = true → Fresh s

/-- The byte to be read was not written after the link of the session left. -/
def Readable (s : BleSink) : Prop :=
  s.dropPending = true → ∀ link ∈ s.session, ∀ p ∈ s.rx.head?, ¬link < p.1

/-- While a drop is pending, no call of the board loop gets at what it is to drop. -/
def EventCalm (s : BleSink) : Event → Prop
  | .readByte _ => s.Readable
  | .sendFrame .. => s.Sendable
  | .drainStep _ => s.Sendable
  | .flush .. => s.Sendable
  | _ => True

def Calm (s : BleSink) : List Event → Prop
  | [] => True
  | e :: es => EventCalm s e ∧ Calm (s.step e) es

instance (s : BleSink) : Decidable (OwnFrames s) :=
  inferInstanceAs (Decidable (∀ p ∈ s.passed, p.central = some p.frame))

instance (s : BleSink) : Decidable s.Sendable :=
  inferInstanceAs (Decidable
    (s.dropPending = true → s.connected = true → ∀ q ∈ s.queue, s.central = some q.link))

instance (s : BleSink) : Decidable s.Readable :=
  inferInstanceAs (Decidable
    (s.dropPending = true → ∀ link ∈ s.session, ∀ p ∈ s.rx.head?, ¬link < p.1))

instance (s : BleSink) : (e : Event) → Decidable (EventCalm s e)
  | .onConnect => .isTrue trivial
  | .onDisconnect => .isTrue trivial
  | .onWrite _ => .isTrue trivial
  | .dropLost => .isTrue trivial
  | .readByte _ => inferInstanceAs (Decidable s.Readable)
  | .logOut => .isTrue trivial
  | .sendFrame .. => inferInstanceAs (Decidable s.Sendable)
  | .drainStep _ => inferInstanceAs (Decidable s.Sendable)
  | .flush .. => inferInstanceAs (Decidable s.Sendable)

instance decidableCalm (s : BleSink) : (events : List Event) → Decidable (Calm s events)
  | [] => .isTrue trivial
  | e :: es =>
    have := decidableCalm (s.step e) es
    inferInstanceAs (Decidable (EventCalm s e ∧ Calm (s.step e) es))

/-- A transmission, when the queue is fresh or nobody is connected. -/
theorem Tidy.moves (h : Tidy s) (calm : s.Sendable) (moves : Moves s t)
    (idle : s.connected = false → t = s) : Tidy t := by
  by_cases up : s.connected = true
  · have fresh : Fresh s := by
      cases pending : s.dropPending with
      | true => exact calm pending up
      | false => exact (h.clean pending).queue
    constructor
    · exact moves.frames fresh h.frames
    · unfold OwnSession
      rw [moves.reads]
      exact h.reads
    · rw [moves.dropPending]
      intro none'
      obtain ⟨_, rx, session⟩ := h.clean none'
      refine ⟨moves.fresh fresh, ?_, ?_⟩
      · rw [moves.rx, moves.central]
        exact rx
      · rw [moves.session, moves.central]
        exact session
  · rw [idle (Bool.eq_false_iff.mpr up)]
    exact h

/-- A byte of `writer` is read, and with it the flag may be set. -/
theorem readByte_state {writer : Link} {byte : UInt8} {rest : List (Link × UInt8)}
    (hrx : s.rx = (writer, byte) :: rest) (auth : Bool) : ∃ reader session,
    (session = s.session ∨ session = some writer) ∧ s.readByte auth = { s with
      rx := rest, reader := reader, session := session
      reads := s.reads ++ [⟨writer, s.session⟩] } := by
  unfold BleSink.readByte
  rw [hrx]
  dsimp only
  split
  · split
    · exact ⟨_, some writer, .inr rfl, rfl⟩
    · exact ⟨_, s.session, .inl rfl, rfl⟩
  · exact ⟨_, s.session, .inl rfl, rfl⟩

theorem Tidy.readByte (h : Tidy s) (calm : s.Readable) (auth : Bool) : Tidy (s.readByte auth) := by
  cases hrx : s.rx with
  | nil =>
    have same : s.readByte auth = s := by simp [BleSink.readByte, hrx]
    rw [same]
    exact h
  | cons p rest =>
    obtain ⟨writer, byte⟩ := p
    obtain ⟨reader, session, origin, state⟩ := readByte_state hrx auth
    rw [state]
    constructor
    · exact h.frames
    · intro r hr link held
      rcases List.mem_append.mp hr with before | now
      · exact h.reads r before link held
      · obtain rfl := List.mem_singleton.mp now
        cases pending : s.dropPending with
        | true => exact calm pending link held (writer, byte) (by rw [hrx]; rfl)
        | false =>
          obtain ⟨_, rx, flag⟩ := h.clean pending
          have mine : s.central = some writer := rx (writer, byte) (by simp [hrx])
          have same : writer = link := Option.some.inj (mine.symm.trans (flag link held))
          rw [same]
          exact Nat.lt_irrefl link
    · intro pending
      obtain ⟨queue, rx, flag⟩ := h.clean pending
      refine ⟨queue, ?_, ?_⟩
      · intro p hp
        exact rx p (by simp [hrx, List.mem_cons_of_mem _ hp])
      · intro link held
        rcases origin with same | set'
        · exact flag link (same ▸ held)
        · obtain rfl := Option.some.inj (set'.symm.trans held)
          exact rx (writer, byte) (by simp [hrx])

theorem Tidy.onConnect (h : Tidy s) : Tidy s.onConnect := by
  unfold BleSink.onConnect
  split
  · exact h
  · rename_i down
    have down : s.central = none := by simpa using down
    refine ⟨h.frames, h.reads, ?_⟩
    intro pending
    obtain ⟨queue, rx, session⟩ := h.clean pending
    -- without a central there was nothing to belong to one
    refine ⟨?_, ?_, ?_⟩
    · intro q hq
      have := queue q hq
      rw [down] at this
      cases this
    · intro p hp
      have := rx p hp
      rw [down] at this
      cases this
    · intro link held
      have := session link held
      rw [down] at this
      cases this

theorem Tidy.onDisconnect (h : Tidy s) : Tidy s.onDisconnect := by
  unfold BleSink.onDisconnect
  split
  · refine ⟨h.frames, h.reads, ?_⟩
    intro pending
    cases pending
  · exact h

theorem Tidy.onWrite (h : Tidy s) (data : List UInt8) : Tidy (s.onWrite data) := by
  unfold BleSink.onWrite
  split
  · exact h
  · rename_i link up
    refine ⟨h.frames, h.reads, ?_⟩
    intro pending
    obtain ⟨queue, rx, session⟩ := h.clean pending
    refine ⟨queue, ?_, session⟩
    intro p hp
    rcases List.mem_append.mp hp with before | now
    · exact rx p before
    · obtain ⟨_, _, rfl⟩ := List.mem_map.mp now
      exact up

theorem Tidy.dropLost (h : Tidy s) : Tidy s.dropLost := by
  unfold BleSink.dropLost
  split
  · refine ⟨h.frames, h.reads, ?_⟩
    intro _
    refine ⟨?_, ?_, ?_⟩
    · intro q hq
      cases hq
    · intro p hp
      cases hp
    · intro link held
      cases held
  · exact h

theorem Tidy.logOut (h : Tidy s) : Tidy { s with session := none } := by
  refine ⟨h.frames, h.reads, ?_⟩
  intro pending
  obtain ⟨queue, rx, _⟩ := h.clean pending
  exact ⟨queue, rx, fun link held => nomatch held⟩

theorem Tidy.step (h : Tidy s) {e : Event} (calm : EventCalm s e) : Tidy (s.step e) := by
  cases e with
  | onConnect => exact h.onConnect
  | onDisconnect => exact h.onDisconnect
  | onWrite data => exact h.onWrite data
  | dropLost => exact h.dropLost
  | readByte auth => exact h.readByte calm auth
  | logOut => exact h.logOut
  | sendFrame decoded writes =>
    exact h.moves calm (moves_sendFrame s decoded writes) fun idle => sendFrame_idle idle _ _
  | drainStep written =>
    exact h.moves calm (moves_drainStep s written) fun idle => by
      rw [BleSink.step, drainStep_idle idle]
  | flush timeoutMs writes =>
    exact h.moves calm (moves_flushLoop _ _ writes s) fun idle => flushLoop_idle idle _ _ _

theorem tidy_new : Tidy {} := by
  refine ⟨?_, ?_, ?_⟩
  · intro p hp
    cases hp
  · intro r hr
    cases hr
  · intro _
    refine ⟨?_, ?_, ?_⟩
    · intro q hq
      cases hq
    · intro p hp
      cases hp
    · intro link held
      cases held

theorem Tidy.run (h : Tidy s) {events : List Event} (calm : Calm s events) :
    Tidy (s.run events) := by
  induction events generalizing s with
  | nil => exact h
  | cons e es ih => exact ih (h.step calm.1) calm.2

/-- Nothing crosses from one central to the next, over a run. -/
structure NothingCrosses (events : List Event) : Prop where
  frames : OwnFrames (run {} events)
  reads : OwnSession (run {} events)

/-- **When nothing crosses from one central to the next.** In every run in which
nothing is sent to a new central while a frame for the last one is still queued,
and none of its bytes are read before the last one's session is dropped, every
frame goes to the central it was queued for and no byte is read under the
session of an earlier central. -/
theorem nothing_crosses (events : List Event) (calm : Calm {} events) : NothingCrosses events := by
  have tidy : Tidy (run {} events) := tidy_new.run calm
  exact ⟨tidy.frames, tidy.reads⟩

/-- A frame is queued, its central is replaced by another one, and the core
broadcasts; in between, possibly, a pump starts. -/
def replaced (between : List Event) : List Event :=
  [.onConnect, .sendFrame [0x08, 0x01] [], .onDisconnect, .onConnect] ++ between ++
    [.sendFrame [0x08, 0x02] [6]]

/-- With the pump in between, the queue is empty when the broadcast comes. -/
theorem nothing_crosses_pumped : NothingCrosses (replaced [.dropLost]) :=
  nothing_crosses (replaced [.dropLost]) (by decide)

set_option maxRecDepth 2000 in
/-- Without it, the first central's frame is written to the second central. -/
theorem replaced_crosses : ¬NothingCrosses (replaced []) := by
  intro nothing
  exact absurd nothing.frames (by decide)

end MeshPigeon.Nrf52Ble.BleSink
