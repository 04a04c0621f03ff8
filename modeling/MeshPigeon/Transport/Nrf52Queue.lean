import Mathlib.Data.List.Induction
import MeshPigeon.Transport.Nrf52Framed
import MeshPigeon.Transport.Nrf52Links

/-!
# The queue of a central that keeps reading

One central stays connected and every write takes something of what it is
given. Then a frame can be lost in two places only: where `make_room` throws a
full queue away, and where a pump makes up for an earlier disconnect.
-/
namespace MeshPigeon.Nrf52Ble

/-- What happens while one central stays connected and reads: any sends of
frames that fit, any pumps. -/
def Event.Reading : Event → Prop
  | .onDisconnect | .flush _ _ => False
  | .sendFrame decoded writes => decoded.length ≤ 512 ∧ writes.headD 0 ≠ 0
  | .drainStep written => written ≠ 0
  | _ => True

/-- The frame an event hands to the sink, as it goes on the wire. -/
def Event.wire (e : Event) : List UInt8 := e.sent.toList.flatMap frameEncodeEnvelope

/-- The bytes of every frame handed to `send_frame`. -/
def wires (events : List Event) : List UInt8 := events.flatMap Event.wire

/-- Pumps that find nothing to read, with what their writes take. -/
def pumps (ws : List Nat) : List Event := ws.flatMap (BleSink.pump [])

namespace BleSink

/-- The bytes of the queue that are still to be written. -/
def owed (s : BleSink) : List UInt8 := s.queue.flatMap fun q => q.buf.drop q.off

/-- What a link has got and is going to get. -/
def stream (s : BleSink) (link : Link) : List UInt8 := s.accepted link ++ s.owed

/-- `send_frame` finds the queue full, and its one write does not finish the head. -/
def Overflows (s : BleSink) (writes : List Nat) : Prop :=
  s.queue.length = kQueueDepth ∧ ∃ q ∈ s.queue.head?,
    q.off + min (writes.headD 0) (min (q.buf.length - q.off) kChunk) < q.buf.length

/-- No event throws away what is queued. -/
def EventKeeps (s : BleSink) : Event → Prop
  | .dropLost => s.dropPending = true → s.queue = []
  | .sendFrame _ writes => ¬s.Overflows writes
  | _ => True

def AllKept (s : BleSink) : List Event → Prop
  | [] => True
  | e :: es => EventKeeps s e ∧ AllKept (s.step e) es

instance (s : BleSink) (writes : List Nat) : Decidable (s.Overflows writes) :=
  inferInstanceAs (Decidable (s.queue.length = kQueueDepth ∧ ∃ q ∈ s.queue.head?,
    q.off + min (writes.headD 0) (min (q.buf.length - q.off) kChunk) < q.buf.length))

instance (s : BleSink) : (e : Event) → Decidable (EventKeeps s e)
  | .onConnect | .onDisconnect | .onWrite _ | .readByte _ | .logOut | .drainStep _ | .flush _ _ =>
    .isTrue trivial
  | .dropLost => inferInstanceAs (Decidable (s.dropPending = true → s.queue = []))
  | .sendFrame _ writes => inferInstanceAs (Decidable (¬s.Overflows writes))

instance decidableAllKept (s : BleSink) : (events : List Event) → Decidable (AllKept s events)
  | [] => .isTrue trivial
  | e :: es =>
    have := decidableAllKept (s.step e) es
    inferInstanceAs (Decidable (EventKeeps s e ∧ AllKept (s.step e) es))

/-- Every frame is written in full and in order, once the sends are over and the
pumps that follow have taken what was owed. -/
def Delivered (s : BleSink) (link : Link) (events : List Event) : Prop :=
  ∀ ws : List Nat, (∀ w ∈ ws, w ≠ 0) → (s.run events).owed.length ≤ ws.length →
    (s.run (events ++ pumps ws)).queue = [] ∧
      (s.run (events ++ pumps ws)).accepted link = s.stream link ++ wires events

variable {s t : BleSink} {link : Link}

/-! ## The sizes of the queue -/

/-- The queue holds no more than it can, and of every frame something to write. -/
structure Sized (s : BleSink) : Prop where
  up : s.connectedFlag = s.central.isSome
  depth : s.queue.length ≤ kQueueDepth
  unfinished : ∀ q ∈ s.queue, q.off < q.buf.length

theorem Sized.connected (h : Sized s) (up : s.central = some link) : s.connected = true := by
  simp [BleSink.connected, h.up, up]

theorem Quiet.sized (quiet : Quiet s t) (h : Sized s) : Sized t := by
  constructor
  · rw [quiet.connectedFlag, quiet.central]
    exact h.up
  · rw [quiet.queue]
    exact h.depth
  · rw [quiet.queue]
    exact h.unfinished

theorem Sized.cleared (h : Sized s) : Sized { s with queue := [] } :=
  ⟨h.up, Nat.zero_le _, fun _ hq => absurd hq List.not_mem_nil⟩

theorem Sized.queued (h : Sized s) (room : s.queue.length < kQueueDepth) {f : List UInt8}
    (nonempty : f ≠ []) (link : Link) : Sized { s with queue := s.queue ++ [⟨f, 0, link⟩] } := by
  refine ⟨h.up, ?_, ?_⟩
  · rw [List.length_append]
    exact room
  · intro q hq
    rcases List.mem_append.mp hq with before | now
    · exact h.unfinished q before
    · rw [List.mem_singleton.mp now]
      exact List.length_pos_iff.mpr nonempty

variable {q : Queued} {rest : List Queued} {n : Nat} {p : Passed}

theorem Writes.sized (w : Writes s q rest link n p t) (h : Sized s) : Sized t := by
  have depth := h.depth
  have unfinished := h.unfinished
  rw [w.head] at depth unfinished
  refine ⟨by rw [w.connectedFlag, w.central]; exact h.up, ?_, ?_⟩ <;> rw [w.queue] <;> split
  · exact Nat.le_of_succ_le depth
  · exact depth
  · exact fun q' hq => unfinished q' (List.mem_cons_of_mem q hq)
  · rename_i more
    intro q' hq
    rcases List.mem_cons.mp hq with rfl | later
    · exact Nat.lt_of_le_of_ne w.fits more
    · exact unfinished q' (List.mem_cons_of_mem q later)

theorem Sized.drainStep (h : Sized s) (written : Nat) : Sized (s.drainStep written).1 := by
  rcases drainStep_cases s written with ⟨quiet, _⟩ | ⟨_, _, _, _, _, _, writes⟩
  · exact quiet.sized h
  · exact writes.sized h

theorem Sized.makeRoomLoop (h : Sized s) (connected : s.connected = true) (wait : Nat)
    (writes : List Nat) : Sized (makeRoomLoop wait writes s) := by
  obtain ⟨u, before, after⟩ := makeRoomLoop_spec connected wait writes
  exact after.sized ((before.sized h).drainStep _)

theorem Sized.sendFrame (h : Sized s) {decoded : List UInt8} (fits : decoded.length ≤ 512)
    (writes : List Nat) : Sized (s.sendFrame decoded writes) := by
  unfold BleSink.sendFrame
  split
  · exact h
  rename_i connected
  split
  · exact h
  rename_i link _
  have looped := h.makeRoomLoop (by simpa using connected) kDrainWaitMs writes
  have nonempty := frameEncodeEnvelope_ne_nil.mpr fits
  unfold makeRoom
  dsimp only
  by_cases full : (BleSink.makeRoomLoop kDrainWaitMs writes s).queue.length = kQueueDepth
  · simp only [if_pos full]
    exact looped.cleared.queued (Nat.zero_lt_succ 15) nonempty link
  · simp only [if_neg full]
    exact looped.queued (Nat.lt_of_le_of_ne looped.depth full) nonempty link

theorem Sized.flushLoop (turns wait : Nat) (writes : List Nat) (h : Sized s) :
    Sized (flushLoop turns wait writes s) :=
  flushLoop_rule (fun _ written sized => sized.drainStep written) turns wait writes h

theorem Sized.step (h : Sized s) {e : Event} (fits : ∀ decoded ∈ e.sent, decoded.length ≤ 512) :
    Sized (s.step e) := by
  cases e with
  | onConnect =>
    simp only [BleSink.step, BleSink.onConnect]
    split
    · exact h
    · exact ⟨rfl, h.depth, h.unfinished⟩
  | onDisconnect =>
    simp only [BleSink.step, BleSink.onDisconnect]
    split
    · exact ⟨rfl, h.depth, h.unfinished⟩
    · exact h
  | onWrite data => exact (quiet_onWrite s data).sized h
  | dropLost =>
    simp only [BleSink.step, BleSink.dropLost]
    split
    · exact ⟨h.up, Nat.zero_le _, fun _ hq => absurd hq List.not_mem_nil⟩
    · exact h
  | readByte auth => exact (quiet_readByte s auth).sized h
  | logOut => exact ⟨h.up, h.depth, h.unfinished⟩
  | sendFrame decoded writes => exact h.sendFrame (fits decoded rfl) writes
  | drainStep written => exact h.drainStep written
  | flush timeoutMs writes => exact Sized.flushLoop _ _ _ h

theorem run_sized {events : List Event} (fits : ∀ decoded ∈ sent events, decoded.length ≤ 512) :
    Sized (run {} events) := by
  induction events using List.reverseRecOn with
  | nil => exact ⟨rfl, Nat.zero_le _, fun _ hq => absurd hq List.not_mem_nil⟩
  | append_singleton events e ih =>
    rw [sent, List.filterMap_append] at fits
    rw [run, List.foldl_concat]
    apply Sized.step
    · exact ih fun decoded hd => fits decoded (List.mem_append_left _ hd)
    · intro decoded hd
      refine fits decoded (List.mem_append_right _ ?_)
      simpa using hd

/-! ## Writes move bytes along the stream -/

theorem Quiet.stream (quiet : Quiet s t) (link : Link) : t.stream link = s.stream link := by
  rw [BleSink.stream, quiet.accepted, owed, quiet.queue]
  rfl

/-- A write takes no more than the head still owes. -/
theorem Writes.inside (w : Writes s q rest link n p t) : n ≤ (q.buf.drop q.off).length := by
  have fits := w.fits
  rw [List.length_drop]
  omega

theorem Writes.owed (w : Writes s q rest link n p t) : t.owed = s.owed.drop n := by
  rw [BleSink.owed, BleSink.owed, w.queue, w.head, List.flatMap_cons,
    List.drop_append_of_le_length w.inside, List.drop_drop]
  split
  · rename_i last
    rw [last, List.drop_length, List.nil_append]
  · rfl

theorem Writes.stream (w : Writes s q rest link n p t) : t.stream link = s.stream link := by
  have taken : (q.buf.drop q.off).take n = s.owed.take n := by
    rw [BleSink.owed, w.head, List.flatMap_cons, List.take_append_of_le_length w.inside]
  rw [BleSink.stream, accepted_passed w.passed link, if_pos w.dest, w.taken, w.owed, taken,
    List.append_assoc, List.take_append_drop]
  rfl

theorem Sized.owed_ne_nil (h : Sized s) (some : s.queue ≠ []) : 0 < s.owed.length := by
  obtain ⟨q, rest, head⟩ := List.exists_cons_of_ne_nil some
  have more := h.unfinished q (by rw [head]; exact List.mem_cons_self)
  rw [owed, head, List.flatMap_cons, List.length_append, List.length_drop]
  omega

/-- A write that takes something takes it of the head. -/
theorem drainStep_writes (h : Sized s) (up : s.central = some link) {written : Nat}
    (taken : written ≠ 0) (head : s.queue = q :: rest) :
    ∃ p, Writes s q rest link (min written (min (q.buf.length - q.off) kChunk)) p
      (s.drainStep written).1 := by
  have more := h.unfinished q (by rw [head]; exact List.mem_cons_self)
  rcases drainStep_cases s written with ⟨_, _, nothing⟩ | ⟨q', rest', link', p, _, _, writes⟩
  · have none' := nothing (h.connected up) q (by rw [head]; rfl)
    rw [kChunk] at none'
    omega
  · obtain ⟨rfl, rfl⟩ := List.cons.inj (head.symm.trans writes.head)
    obtain rfl := Option.some.inj (up.symm.trans writes.up)
    exact ⟨p, writes⟩

theorem drainStep_stream (up : s.central = some link) (written : Nat) :
    (s.drainStep written).1.stream link = s.stream link := by
  rcases drainStep_cases s written with ⟨quiet, _⟩ | ⟨_, _, link', _, _, _, writes⟩
  · exact quiet.stream link
  · obtain rfl := Option.some.inj (up.symm.trans writes.up)
    exact writes.stream

theorem drainStep_empty (none : s.queue = []) (written : Nat) : Quiet s (s.drainStep written).1 := by
  rcases drainStep_cases s written with ⟨quiet, _⟩ | ⟨_, _, _, _, _, _, w⟩
  · exact quiet
  · cases w.head.symm.trans none

/-- A write that takes something leaves less to write. -/
theorem drainStep_owed (h : Sized s) (up : s.central = some link) {written : Nat}
    (taken : written ≠ 0) : (s.drainStep written).1.owed.length ≤ s.owed.length - 1 := by
  cases head : s.queue with
  | nil =>
    rw [owed, (drainStep_empty head written).queue, head]
    exact Nat.zero_le _
  | cons q rest =>
    obtain ⟨p, writes⟩ := drainStep_writes h up taken head
    have positive := writes.positive
    rw [writes.owed, List.length_drop]
    omega

/-! ## One send -/

/-- What `make_room` comes to when its first write takes something: that write. -/
theorem makeRoomLoop_reading (h : Sized s) (up : s.central = some link) {writes : List Nat}
    (taken : writes.headD 0 ≠ 0) :
    (makeRoomLoop kDrainWaitMs writes s).stream link = s.stream link ∧
      ((makeRoomLoop kDrainWaitMs writes s).queue.length = kQueueDepth ↔ s.Overflows writes) := by
  obtain ⟨u, before, after⟩ := makeRoomLoop_spec (h.connected up) kDrainWaitMs writes
  rw [firstTaken_head taken] at after
  have up' : u.central = some link := before.central.trans up
  refine ⟨?_, ?_⟩
  · rw [after.stream, drainStep_stream up', before.stream]
  rw [after.queue]
  cases head : s.queue with
  | nil =>
    have idle := drainStep_empty (before.queue.trans head) (writes.headD 0)
    rw [idle.queue, before.queue, head]
    simp [Overflows, head]
  | cons q rest =>
    have depth := h.depth
    obtain ⟨p, w⟩ := drainStep_writes (before.sized h) up' taken (before.queue.trans head)
    have fits := w.fits
    rw [w.queue, Overflows, head]
    rw [head, List.length_cons] at depth
    simp only [List.head?_cons, Option.mem_some_iff, exists_eq_left']
    split
    · constructor
      · intro full
        omega
      · rintro ⟨_, short⟩
        omega
    · rename_i more
      simp only [List.length_cons]
      constructor
      · intro full
        exact ⟨full, Nat.lt_of_le_of_ne fits more⟩
      · exact fun overflow => overflow.1

/-- A frame handed over joins the stream, unless the queue is thrown away for it. -/
theorem sendFrame_reading (h : Sized s) (up : s.central = some link) {writes : List Nat}
    (taken : writes.headD 0 ≠ 0) (decoded : List UInt8) :
    (¬s.Overflows writes ∧
      (s.sendFrame decoded writes).stream link = s.stream link ++ frameEncodeEnvelope decoded) ∨
    (s.Overflows writes ∧ ((s.sendFrame decoded writes).stream link).length <
      (s.stream link ++ frameEncodeEnvelope decoded).length) := by
  have connected := h.connected up
  obtain ⟨same, full⟩ := makeRoomLoop_reading h up taken
  have looped := h.makeRoomLoop connected kDrainWaitMs writes
  unfold BleSink.sendFrame makeRoom
  simp only [connected, up, Bool.not_true, Bool.false_eq_true, if_false]
  generalize BleSink.makeRoomLoop kDrainWaitMs writes s = v at same full looped ⊢
  by_cases overflow : s.Overflows writes
  · right
    have length := full.mpr overflow
    have some : v.queue ≠ [] := by
      intro empty
      rw [empty] at length
      cases length
    have lost := looped.owed_ne_nil some
    refine ⟨overflow, ?_⟩
    rw [if_pos length, if_neg (by simp), ← same]
    simp only [BleSink.stream, owed, BleSink.accepted, List.nil_append, List.flatMap_cons,
      List.flatMap_nil, List.drop_zero, List.append_nil, List.length_append] at lost ⊢
    omega
  · left
    have room : ¬v.queue.length = kQueueDepth := fun length => overflow (full.mp length)
    refine ⟨overflow, ?_⟩
    rw [if_neg room, if_neg room, ← same]
    simp only [BleSink.stream, owed, BleSink.accepted, List.flatMap_append, List.flatMap_cons,
      List.flatMap_nil, List.drop_zero, List.append_nil, List.append_assoc]

/-! ## Runs -/

theorem Sized.reading (h : Sized s) {e : Event} (reading : e.Reading) : Sized (s.step e) := by
  apply h.step
  intro decoded hd
  cases e with
  | sendFrame => exact Option.some.inj hd ▸ reading.1
  | _ => cases hd

theorem central_reading (up : s.central = some link) {e : Event} (reading : e.Reading) :
    (s.step e).central = some link := by
  cases e with
  | onDisconnect | flush => exact reading.elim
  | onConnect =>
    simp only [BleSink.step, BleSink.onConnect, up, Option.isSome_some, if_true]
  | onWrite data => exact (quiet_onWrite s data).central.trans up
  | readByte auth => exact (quiet_readByte s auth).central.trans up
  | logOut => exact up
  | drainStep written => exact (moves_drainStep s written).central.trans up
  | dropLost =>
    simp only [BleSink.step, BleSink.dropLost]
    split <;> exact up
  | sendFrame decoded writes => exact (moves_sendFrame s decoded writes).central.trans up

/-- What a disconnect left behind is dropped, or there was nothing to drop. -/
theorem dropLost_reading (h : Sized s) (link : Link) :
    ((s.dropPending = true → s.queue = []) ∧ s.dropLost.queue = s.queue) ∨
      ¬(s.dropPending = true → s.queue = []) ∧
        (s.dropLost.stream link).length < (s.stream link).length := by
  unfold BleSink.dropLost
  by_cases pending : s.dropPending = true
  · rw [if_pos pending]
    by_cases empty : s.queue = []
    · exact .inl ⟨fun _ => empty, empty.symm⟩
    · right
      have lost := h.owed_ne_nil empty
      refine ⟨fun keeps => empty (keeps pending), ?_⟩
      simp only [stream, owed, accepted, List.flatMap_nil, List.append_nil,
        List.length_append] at lost ⊢
      omega
  · rw [if_neg pending]
    exact .inl ⟨fun now => absurd now pending, rfl⟩

theorem dropLost_accepted (s : BleSink) (link : Link) :
    s.dropLost.accepted link = s.accepted link := by
  unfold BleSink.dropLost
  split <;> rfl

theorem dropLost_stream (same : s.dropLost.queue = s.queue) (link : Link) :
    s.dropLost.stream link = s.stream link := by
  rw [stream, stream, owed, owed, same, dropLost_accepted]

theorem dropLost_settled (s : BleSink) : s.dropLost.dropPending = false := by
  unfold BleSink.dropLost
  split
  · rfl
  · rename_i settled
    exact Bool.eq_false_iff.mpr settled

/-- One event: the stream grows by what was handed over, or something was lost. -/
theorem step_reading (h : Sized s) (up : s.central = some link) {e : Event} (reading : e.Reading) :
    (EventKeeps s e ∧ (s.step e).stream link = s.stream link ++ e.wire) ∨
      (¬EventKeeps s e ∧ ((s.step e).stream link).length < (s.stream link ++ e.wire).length) := by
  have quietly (quiet : Quiet s (s.step e)) (silent : e.sent = none) :
      (s.step e).stream link = s.stream link ++ e.wire := by
    rw [quiet.stream, Event.wire, silent]
    exact (List.append_nil _).symm
  cases e with
  | onDisconnect | flush => exact reading.elim
  | onConnect =>
    have same : s.onConnect = s := by
      simp only [BleSink.onConnect, up, Option.isSome_some, if_true]
    refine .inl ⟨trivial, quietly ?_ rfl⟩
    rw [BleSink.step, same]
    exact Quiet.refl s
  | onWrite data => exact .inl ⟨trivial, quietly (quiet_onWrite s data) rfl⟩
  | readByte auth => exact .inl ⟨trivial, quietly (quiet_readByte s auth) rfl⟩
  | logOut =>
    exact .inl ⟨trivial, quietly
      ⟨rfl, rfl, rfl, rfl, fun _ => rfl, fun _ => rfl, fun _ hp => .inl hp⟩ rfl⟩
  | drainStep written =>
    exact .inl ⟨trivial, (drainStep_stream up written).trans (List.append_nil _).symm⟩
  | sendFrame decoded writes =>
    have wire : (Event.sendFrame decoded writes).wire = frameEncodeEnvelope decoded :=
      List.append_nil _
    rw [wire]
    rcases sendFrame_reading h up reading.2 decoded with kept | ⟨overflow, lost⟩
    · exact .inl kept
    · exact .inr ⟨not_not.mpr overflow, lost⟩
  | dropLost =>
    have wire : Event.dropLost.wire = [] := rfl
    rw [wire, List.append_nil]
    rcases dropLost_reading h link with ⟨keeps, same⟩ | lost
    · exact .inl ⟨keeps, dropLost_stream same link⟩
    · exact .inr lost

theorem allKept_append {es fs : List Event} :
    AllKept s (es ++ fs) ↔ AllKept s es ∧ AllKept (s.run es) fs := by
  induction es generalizing s with
  | nil => exact ⟨fun all => ⟨trivial, all⟩, fun both => both.2⟩
  | cons e es ih =>
    rw [List.cons_append, AllKept, AllKept, ih, and_assoc]
    rfl

/-- A run: the stream grows by all that was handed over, or something was lost. -/
theorem run_reading (h : Sized s) (up : s.central = some link) (events : List Event)
    (reading : ∀ e ∈ events, e.Reading) :
    Sized (s.run events) ∧ (s.run events).central = some link ∧
    ((AllKept s events ∧ (s.run events).stream link = s.stream link ++ wires events) ∨
      (¬AllKept s events ∧
        ((s.run events).stream link).length < (s.stream link ++ wires events).length)) := by
  induction events generalizing s with
  | nil => exact ⟨h, up, .inl ⟨trivial, (List.append_nil _).symm⟩⟩
  | cons e events ih =>
    have here := reading e List.mem_cons_self
    obtain ⟨sized, up', rest⟩ := ih (h.reading here) (central_reading up here) fun e' he =>
      reading e' (List.mem_cons_of_mem e he)
    have wire : wires (e :: events) = e.wire ++ wires events := List.flatMap_cons
    refine ⟨sized, up', ?_⟩
    rw [wire, AllKept, ← List.append_assoc]
    change _ ∧ (BleSink.run (s.step e) events).stream link = _ ∨
      _ ∧ ((BleSink.run (s.step e) events).stream link).length < _
    rcases step_reading h up here with ⟨keeps, same⟩ | ⟨throws, lost⟩
    · rw [same] at rest
      rcases rest with ⟨all, grown⟩ | ⟨some, lost⟩
      · exact .inl ⟨⟨keeps, all⟩, grown⟩
      · exact .inr ⟨fun both => some both.2, lost⟩
    · refine .inr ⟨fun both => throws both.1, ?_⟩
      have le : ((BleSink.run (s.step e) events).stream link).length ≤
          ((s.step e).stream link ++ wires events).length := by
        rcases rest with ⟨_, grown⟩ | ⟨_, less⟩
        · exact Nat.le_of_eq (congrArg List.length grown)
        · exact Nat.le_of_lt less
      rw [List.length_append] at le ⊢
      omega

/-! ## The pumps that follow -/

theorem pumps_reading {ws : List Nat} (nonzero : ∀ w ∈ ws, w ≠ 0) : ∀ e ∈ pumps ws, e.Reading := by
  intro e he
  obtain ⟨w, hw, here⟩ := List.mem_flatMap.mp he
  simp only [pump, List.cons_append, List.nil_append, List.mem_cons, List.not_mem_nil,
    or_false] at here
  rcases here with rfl | rfl
  · trivial
  · exact nonzero w hw

theorem wires_pumps (ws : List Nat) : wires (pumps ws) = [] := by
  induction ws with
  | nil => rfl
  | cons w ws ih => exact ih

theorem run_pumps_cons (s : BleSink) (w : Nat) (ws : List Nat) :
    s.run (pumps (w :: ws)) = (s.dropLost.drainStep w).1.run (pumps ws) := rfl

/-- Pumps take what is owed, unless the first of them throws it away. -/
theorem pumps_drain (h : Sized s) (up : s.central = some link)
    (keeps : s.dropPending = true → s.queue = []) {ws : List Nat} (nonzero : ∀ w ∈ ws, w ≠ 0)
    (enough : s.owed.length ≤ ws.length) :
    (s.run (pumps ws)).queue = [] ∧ (s.run (pumps ws)).accepted link = s.stream link := by
  induction ws generalizing s with
  | nil =>
    have empty : s.queue = [] := by
      by_contra some
      have owed := h.owed_ne_nil some
      rw [List.length_nil] at enough
      omega
    refine ⟨empty, ?_⟩
    rw [stream, owed, empty]
    exact (List.append_nil _).symm
  | cons w ws ih =>
    have taken := nonzero w List.mem_cons_self
    have sized : Sized s.dropLost := h.reading (e := .dropLost) trivial
    have up' : s.dropLost.central = some link := central_reading (e := .dropLost) up trivial
    -- the drop of a disconnect finds nothing to drop
    have queue : s.dropLost.queue = s.queue := by
      rcases dropLost_reading h link with ⟨_, same⟩ | ⟨drops, _⟩
      · exact same
      · exact absurd keeps drops
    have owed' : s.dropLost.owed = s.owed := by rw [owed, owed, queue]
    rw [run_pumps_cons, ← dropLost_stream queue, ← drainStep_stream up' w]
    apply ih (sized.drainStep w) ((moves_drainStep _ w).central.trans up')
    · intro pending
      rw [(moves_drainStep _ w).dropPending, dropLost_settled] at pending
      cases pending
    · exact fun w' hw => nonzero w' (List.mem_cons_of_mem w hw)
    · have less := drainStep_owed sized up' taken
      rw [owed'] at less
      rw [List.length_cons] at enough
      omega

/-- **When the queue of a central that keeps reading loses nothing.** From any
state of the sink with a central connected, for any sends and pumps during which
it stays connected and every write takes something: every frame is written in
full and in order if and only if no send finds the queue full with a head that
its one write does not finish, and no pump, the next one included, makes up for
an earlier disconnect while frames are queued. -/
theorem delivered_iff (past : List Event) (fits : ∀ decoded ∈ sent past, decoded.length ≤ 512)
    {link : Link} (up : (run {} past).central = some link) (events : List Event)
    (reading : ∀ e ∈ events, e.Reading) :
    Delivered (run {} past) link events ↔ AllKept (run {} past) (events ++ [.dropLost]) := by
  have sized := run_sized fits
  generalize run {} past = s at sized up ⊢
  obtain ⟨sized', up', grown⟩ := run_reading sized up events reading
  rw [allKept_append]
  constructor
  · intro delivered
    by_contra lost
    have nonzero : ∀ w ∈ List.replicate (s.run events).owed.length 1, w ≠ 0 := by
      intro w hw
      rw [List.eq_of_mem_replicate hw]
      exact Nat.one_ne_zero
    obtain ⟨_, all⟩ := delivered _ nonzero (Nat.le_of_eq List.length_replicate.symm)
    have thrown : ¬AllKept s (events ++ pumps (List.replicate (s.run events).owed.length 1)) := by
      intro kept
      rw [allKept_append] at kept
      refine lost ⟨kept.1, ?_, trivial⟩
      by_cases empty : (s.run events).queue = []
      · exact fun _ => empty
      · have more := sized'.owed_ne_nil empty
        obtain ⟨n, owed⟩ := Nat.exists_eq_succ_of_ne_zero (Nat.ne_of_gt more)
        rw [owed, List.replicate_succ] at kept
        exact kept.2.1
    obtain ⟨_, _, rest⟩ := run_reading sized up
      (events ++ pumps (List.replicate (s.run events).owed.length 1)) fun e he =>
        (List.mem_append.mp he).elim (reading e) (pumps_reading nonzero e)
    rcases rest with ⟨kept, _⟩ | ⟨_, less⟩
    · exact thrown kept
    · have wired : wires (events ++ pumps (List.replicate (s.run events).owed.length 1)) =
          wires events := by
        rw [wires, List.flatMap_append]
        exact (congrArg (wires events ++ ·) (wires_pumps _)).trans (List.append_nil _)
      rw [wired, ← all, stream, List.length_append] at less
      omega
  · rintro ⟨kept, last, _⟩ ws nonzero enough
    rcases grown with ⟨_, same⟩ | ⟨thrown, _⟩
    · have ran : s.run (events ++ pumps ws) = (s.run events).run (pumps ws) :=
        List.foldl_append
      rw [ran, ← same]
      exact pumps_drain sized' up' last nonzero enough
    · exact absurd kept thrown

/-- Packets as a fetch answers with them, every write taking what it is given. -/
def fetchedPage (n : Nat) : List Event :=
  List.replicate n (.sendFrame (List.replicate 60 7) [kChunk])

set_option maxRecDepth 100000 in
/-- The last of twenty-two packets finds the queue full and its head begun: the
sixteen that are queued are thrown away. -/
theorem fetched_page_lost : ¬Delivered (run {} [.onConnect]) 0 (fetchedPage 22) := by
  intro delivered
  obtain ⟨_, all⟩ := delivered (List.replicate 70 kChunk) (by decide +kernel) (by decide +kernel)
  exact absurd (congrArg List.length all) (by decide +kernel)

set_option maxRecDepth 100000 in
/-- Twenty-one are delivered. -/
theorem delivered_page : Delivered (run {} [.onConnect]) 0 (fetchedPage 21) := by
  refine (delivered_iff [.onConnect] ?_ rfl (fetchedPage 21) ?_).mpr (by decide +kernel)
  · decide
  · intro e he
    obtain rfl := List.eq_of_mem_replicate he
    exact ⟨by decide, by decide⟩

end BleSink

end MeshPigeon.Nrf52Ble
