import MeshPigeon.Framing.Stream
import MeshPigeon.Transport.Nrf52Ble

/-! The byte stream one central gets. -/
namespace MeshPigeon.Nrf52Ble

def Passed.taken (p : Passed) : List UInt8 := p.bytes.take p.written

namespace BleSink

/-- The bytes `bleuart.write` accepted while a link was up. -/
def accepted (s : BleSink) (link : Link) : List UInt8 :=
  (s.passed.filter fun p => p.central = some link).flatMap Passed.taken

/-- The frames that were written to a link to their last byte. -/
def completed (s : BleSink) (link : Link) : List (List UInt8) :=
  (s.passed.filter fun p => p.central = some link).filterMap Passed.done

/-- The link that is up has the beginning of a frame, and not its end. -/
def midFrame (s : BleSink) : Bool :=
  s.central.any fun link => (s.accepted link).getLast?.any (· ≠ 0)

/-- A frame begun on an earlier link is next to be written to this one. -/
def Leftover (s : BleSink) : Prop :=
  s.connected = true ∧ s.midFrame = false ∧ ∃ q ∈ s.queue.head?, q.off ≠ 0

/-- What the first write of `make_room` that takes anything may take. -/
def firstTaken (wait : Nat) (writes : List Nat) : Nat :=
  ((writes.take (wait + 1)).find? (· ≠ 0)).getD 0

/-- `send_frame` finds the queue full and cannot finish the frame the link is in. -/
def TearsBacklog (s : BleSink) (writes : List Nat) : Prop :=
  s.connected = true ∧ s.queue.length = kQueueDepth ∧
    (s.midFrame = true ∨ firstTaken kDrainWaitMs writes ≠ 0) ∧
    ∃ q ∈ s.queue.head?, q.off +
      min (firstTaken kDrainWaitMs writes) (min (q.buf.length - q.off) kChunk) < q.buf.length

/-- No event drops a frame the link is in, and none goes on with a frame begun on another link. -/
def EventWhole (s : BleSink) : Event → Prop
  | .dropLost => ¬(s.dropPending = true ∧ s.midFrame = true)
  | .sendFrame _ writes =>
    ¬(s.Leftover ∧ firstTaken kDrainWaitMs writes ≠ 0) ∧ ¬s.TearsBacklog writes
  | .drainStep written => ¬(s.Leftover ∧ written ≠ 0)
  | .flush timeoutMs writes => ¬(s.Leftover ∧ ∃ w ∈ writes.take timeoutMs, w ≠ 0)
  | _ => True

def Whole (s : BleSink) : List Event → Prop
  | [] => True
  | e :: es => EventWhole s e ∧ Whole (s.step e) es

instance (s : BleSink) : Decidable s.Leftover :=
  inferInstanceAs (Decidable
    (s.connected = true ∧ s.midFrame = false ∧ ∃ q ∈ s.queue.head?, q.off ≠ 0))

instance (s : BleSink) (writes : List Nat) : Decidable (s.TearsBacklog writes) :=
  inferInstanceAs (Decidable (s.connected = true ∧ s.queue.length = kQueueDepth ∧
    (s.midFrame = true ∨ firstTaken kDrainWaitMs writes ≠ 0) ∧
    ∃ q ∈ s.queue.head?, q.off +
      min (firstTaken kDrainWaitMs writes) (min (q.buf.length - q.off) kChunk) < q.buf.length))

instance (s : BleSink) : (e : Event) → Decidable (EventWhole s e)
  | .onConnect => .isTrue trivial
  | .onDisconnect => .isTrue trivial
  | .onWrite _ => .isTrue trivial
  | .dropLost => inferInstanceAs (Decidable (¬(s.dropPending = true ∧ s.midFrame = true)))
  | .readByte _ => .isTrue trivial
  | .logOut => .isTrue trivial
  | .sendFrame _ writes => inferInstanceAs (Decidable
      (¬(s.Leftover ∧ firstTaken kDrainWaitMs writes ≠ 0) ∧ ¬s.TearsBacklog writes))
  | .drainStep written => inferInstanceAs (Decidable (¬(s.Leftover ∧ written ≠ 0)))
  | .flush timeoutMs writes =>
    inferInstanceAs (Decidable (¬(s.Leftover ∧ ∃ w ∈ writes.take timeoutMs, w ≠ 0)))

instance decidableWhole (s : BleSink) : (events : List Event) → Decidable (Whole s events)
  | [] => .isTrue trivial
  | e :: es =>
    have := decidableWhole (s.step e) es
    inferInstanceAs (Decidable (EventWhole s e ∧ Whole (s.step e) es))

end BleSink

/-- The envelopes handed to `send_frame`. -/
def Event.sent : Event → Option (List UInt8)
  | .sendFrame decoded _ => some decoded
  | _ => none

def sent (events : List Event) : List (List UInt8) := events.filterMap Event.sent

namespace BleSink

/-- A link got whole frames, in the order they were sent, and a prefix of one
more; its reader returns the envelope of every one that was written in full. -/
structure Framed (s : BleSink) (sent : List (List UInt8)) (link : Link) : Prop where
  frames : ∃ es part, s.completed link = es.map frameEncodeEnvelope ∧
    s.accepted link = (es.map frameEncodeEnvelope).flatten ++ part ∧
    (part = [] ∧ es.Sublist sent ∨
      ∃ e, (es ++ [e]).Sublist sent ∧ part <+: frameEncodeEnvelope e) ∧
    FrameReader.envelopes .new (s.accepted link) = es.filter (· ≠ [])

variable {s t u : BleSink} {p : Passed} {frames : List (List UInt8)} {link : Link}

/-! ## The invariant -/

/-- `part` is what a link has of the frame after the completed ones. -/
structure Part (s : BleSink) (frames : List (List UInt8)) (link : Link) (part : List UInt8) :
    Prop where
  bytes : s.accepted link = (s.completed link).flatten ++ part
  begun : part = [] ∨ ∃ f n, (s.completed link ++ [f]).Sublist frames ∧
    0 < n ∧ n < f.length ∧ part = f.take n
  head : s.central = some link → part ≠ [] → ∃ q rest, s.queue = q :: rest ∧
    0 < q.off ∧ q.off < q.buf.length ∧ part = q.buf.take q.off

structure Got (s : BleSink) (frames : List (List UInt8)) (link : Link) : Prop where
  order : (s.completed link ++ s.queue.map Queued.buf).Sublist frames
  solid : [] ∉ s.completed link
  part : ∃ part, Part s frames link part

/-- The state of the queue against what the links got. -/
structure Woven (s : BleSink) (frames : List (List UInt8)) : Prop where
  up : s.connectedFlag = s.central.isSome
  past : ∀ p ∈ s.passed, ∀ link, p.central = some link → link < s.nextLink
  current : ∀ link, s.central = some link → link < s.nextLink
  depth : s.queue.length ≤ kQueueDepth
  started : ∀ q ∈ s.queue, q.off = 0 ∨ q.off < q.buf.length
  waiting : ∀ q ∈ s.queue.tail, q.off = 0
  got : ∀ link, Got s frames link

/-- Every frame is empty or ends in the only delimiter it has. -/
def Delimited (frames : List (List UInt8)) : Prop :=
  ∀ f ∈ frames, (f = [] ∨ f.getLast? = some 0) ∧ ∀ n, n < f.length → 0 ∉ f.take n

theorem delimited_frames (es : List (List UInt8)) : Delimited (es.map frameEncodeEnvelope) := by
  intro f hf
  obtain ⟨e, _, rfl⟩ := List.mem_map.mp hf
  refine ⟨?_, fun n short => clean_of_take short⟩
  by_cases fits : e.length ≤ 512
  · right
    rw [frameEncodeEnvelope_fits fits, List.getLast?_append]
    rfl
  · exact .inl (frameEncodeEnvelope_long (Nat.lt_of_not_le fits))

/-- Whole frames end where a frame ends. -/
theorem getLast?_flatten {fs : List (List UInt8)} (h : ∀ f ∈ fs, f = [] ∨ f.getLast? = some 0) :
    fs.flatten.getLast?.any (· ≠ 0) = false := by
  induction fs with
  | nil => rfl
  | cons f fs ih =>
    have rest := ih fun g hg => h g (List.mem_cons_of_mem f hg)
    rw [List.flatten_cons, List.getLast?_append]
    cases last : fs.flatten.getLast? with
    | some b =>
      rw [last] at rest
      exact rest
    | none =>
      rcases h f List.mem_cons_self with empty | ends
      · rw [empty]
        rfl
      · rw [ends]
        rfl

theorem Part.mid_iff (delimited : Delimited frames) {part : List UInt8}
    (h : Part s frames link part) (order : (s.completed link).Sublist frames)
    (up : s.central = some link) : s.midFrame = true ↔ part ≠ [] := by
  have mid : s.midFrame = (s.accepted link).getLast?.any (· ≠ 0) := by simp [midFrame, up]
  rw [mid, h.bytes]
  rcases h.begun with rfl | ⟨f, n, sub, positive, short, rfl⟩
  · rw [List.append_nil, getLast?_flatten fun f hf => (delimited f (order.subset hf)).1]
    simp
  · have member : f ∈ frames := sub.subset (by simp)
    have clean := (delimited f member).2 n short
    have nonempty : f.take n ≠ [] := by
      apply List.ne_nil_of_length_pos
      rw [List.length_take]
      omega
    have last := List.getLast_mem nonempty
    rw [List.getLast?_append, List.getLast?_eq_some_getLast nonempty]
    simp only [Option.some_or, Option.any_some, decide_eq_true_eq]
    refine ⟨fun _ => nonempty, fun _ zero => clean ?_⟩
    rw [← zero]
    exact last

/-! ## Steps that write nothing -/

theorem Part.congr {part : List UInt8} (h : Part s frames link part)
    (accepted : t.accepted link = s.accepted link) (completed : t.completed link = s.completed link)
    (central : t.central = s.central) (queue : t.queue = s.queue) : Part t frames link part := by
  constructor
  · rw [accepted, completed]
    exact h.bytes
  · rw [completed]
    exact h.begun
  · rw [central, queue]
    exact h.head

/-- The step leaves the queue alone, and no link gets anything. -/
structure Quiet (s t : BleSink) : Prop where
  queue : t.queue = s.queue
  central : t.central = s.central
  connectedFlag : t.connectedFlag = s.connectedFlag
  nextLink : t.nextLink = s.nextLink
  accepted : ∀ link, t.accepted link = s.accepted link
  completed : ∀ link, t.completed link = s.completed link
  passed : ∀ p ∈ t.passed, p ∈ s.passed ∨ p.central = s.central

theorem Quiet.refl (s : BleSink) : Quiet s s :=
  ⟨rfl, rfl, rfl, rfl, fun _ => rfl, fun _ => rfl, fun _ hp => .inl hp⟩

theorem Quiet.trans (h : Quiet s t) (h' : Quiet t u) : Quiet s u := by
  constructor
  · exact h'.queue.trans h.queue
  · exact h'.central.trans h.central
  · exact h'.connectedFlag.trans h.connectedFlag
  · exact h'.nextLink.trans h.nextLink
  · exact fun link => (h'.accepted link).trans (h.accepted link)
  · exact fun link => (h'.completed link).trans (h.completed link)
  · intro p hp
    rcases h'.passed p hp with before | now
    · exact h.passed p before
    · exact .inr (now.trans h.central)

theorem Quiet.connected (h : Quiet s t) : t.connected = s.connected := by
  rw [BleSink.connected, h.connectedFlag, h.central]
  rfl

theorem Quiet.midFrame (h : Quiet s t) : t.midFrame = s.midFrame := by
  simp only [BleSink.midFrame, h.central, h.accepted]

theorem Quiet.leftover (h : Quiet s t) : t.Leftover ↔ s.Leftover := by
  simp only [Leftover, h.connected, h.midFrame, h.queue]

theorem Woven.quiet (h : Woven s frames) (quiet : Quiet s t) : Woven t frames := by
  constructor
  · rw [quiet.connectedFlag, quiet.central]
    exact h.up
  · intro p hp link central
    rw [quiet.nextLink]
    rcases quiet.passed p hp with before | now
    · exact h.past p before link central
    · exact h.current link (now.symm.trans central)
  · rw [quiet.central, quiet.nextLink]
    exact h.current
  · rw [quiet.queue]
    exact h.depth
  · rw [quiet.queue]
    exact h.started
  · rw [quiet.queue]
    exact h.waiting
  · intro link
    obtain ⟨part, got⟩ := (h.got link).part
    constructor
    · rw [quiet.completed, quiet.queue]
      exact (h.got link).order
    · rw [quiet.completed]
      exact (h.got link).solid
    · exact ⟨part, got.congr (quiet.accepted link) (quiet.completed link) quiet.central quiet.queue⟩

/-! ## One write -/

theorem accepted_passed (h : t.passed = s.passed ++ [p]) (link : Link) :
    t.accepted link = s.accepted link ++ if p.central = some link then p.taken else [] := by
  unfold BleSink.accepted
  rw [h, List.filter_append, List.flatMap_append]
  by_cases here : p.central = some link <;> simp [here]

theorem completed_passed (h : t.passed = s.passed ++ [p]) (link : Link) :
    t.completed link = s.completed link ++ if p.central = some link then p.done.toList else [] := by
  unfold BleSink.completed
  rw [h, List.filter_append, List.filterMap_append]
  by_cases here : p.central = some link
  · cases last : p.done <;> simp [here, last]
  · simp [here]

/-- A write took `n` bytes, `n ≠ 0`, of the frame `q` at the head of the queue. -/
structure Writes (s : BleSink) (q : Queued) (rest : List Queued) (link : Link) (n : Nat)
    (p : Passed) (t : BleSink) : Prop where
  connected : s.connected = true
  up : s.central = some link
  head : s.queue = q :: rest
  positive : 0 < n
  fits : q.off + n ≤ q.buf.length
  dest : p.central = some link
  taken : p.taken = (q.buf.drop q.off).take n
  done : p.done = if q.off + n = q.buf.length then some q.buf else none
  passed : t.passed = s.passed ++ [p]
  queue : t.queue =
    if q.off + n = q.buf.length then rest else { q with off := q.off + n } :: rest
  central : t.central = s.central
  connectedFlag : t.connectedFlag = s.connectedFlag
  nextLink : t.nextLink = s.nextLink

/-- A call of `drain_step` either writes nothing or takes what it can. -/
theorem drainStep_cases (s : BleSink) (written : Nat) :
    (Quiet s (s.drainStep written).1 ∧ (s.drainStep written).2 = false ∧
      (s.connected = true → ∀ q ∈ s.queue.head?,
        min written (min (q.buf.length - q.off) kChunk) = 0)) ∨
    ∃ q rest link p, written ≠ 0 ∧ (s.drainStep written).2 = true ∧
      Writes s q rest link (min written (min (q.buf.length - q.off) kChunk)) p
        (s.drainStep written).1 := by
  unfold drainStep
  split
  · rename_i idle
    refine .inl ⟨Quiet.refl s, rfl, ?_⟩
    intro connected
    rw [connected] at idle
    cases idle
  rename_i connected
  have connected : s.connected = true := by simpa using connected
  split
  · rename_i empty
    refine .inl ⟨Quiet.refl s, rfl, ?_⟩
    intro _ q hq
    rw [empty] at hq
    cases hq
  rename_i q rest queue
  obtain ⟨link, up⟩ : ∃ link, s.central = some link :=
    Option.isSome_iff_exists.mp (Bool.and_eq_true_iff.mp connected).2
  dsimp only
  by_cases nothing : min written (min (q.buf.length - q.off) kChunk) = 0
  · simp only [nothing, ne_eq, not_true_eq_false, false_and, if_false, if_true]
    left
    refine ⟨⟨rfl, rfl, rfl, rfl, ?_, ?_, ?_⟩, trivial, ?_⟩
    · intro link
      rw [accepted_passed rfl]
      simp [Passed.taken]
    · intro link
      rw [completed_passed rfl]
      simp
    · intro p hp
      rcases List.mem_append.mp hp with before | now
      · exact .inl before
      · obtain rfl := List.mem_singleton.mp now
        exact .inr rfl
    · intro _ q' hq
      rw [queue] at hq
      obtain rfl := Option.some.inj hq
      exact nothing
  · simp only [nothing, ne_eq, not_false_eq_true, true_and, if_false]
    right
    have positive := Nat.pos_of_ne_zero nothing
    have asked : written ≠ 0 := by
      rintro rfl
      simp at nothing
    have fits : q.off + min written (min (q.buf.length - q.off) kChunk) ≤ q.buf.length := by omega
    have taken : ((q.buf.drop q.off).take (min (q.buf.length - q.off) kChunk)).take
        (min written (min (q.buf.length - q.off) kChunk)) =
        (q.buf.drop q.off).take (min written (min (q.buf.length - q.off) kChunk)) := by
      rw [List.take_take, Nat.min_assoc, Nat.min_self]
    refine ⟨q, rest, link, ?_⟩
    generalize (q.buf.drop q.off).take (min (q.buf.length - q.off) kChunk) = bytes at taken ⊢
    generalize min written (min (q.buf.length - q.off) kChunk) = n at *
    by_cases last : q.off + n = q.buf.length
    · simp only [if_pos last]
      exact ⟨⟨q.link, s.central, bytes, n, some q.buf⟩, asked, trivial, connected, up,
        queue, positive, fits, up, taken, (if_pos last).symm, rfl, (if_pos last).symm, rfl, rfl, rfl⟩
    · simp only [if_neg last]
      exact ⟨⟨q.link, s.central, bytes, n, none⟩, asked, trivial, connected, up,
        queue, positive, fits, up, taken, (if_neg last).symm, rfl, (if_neg last).symm, rfl, rfl, rfl⟩

/-- The link that is up has of its next frame what was taken of it. -/
theorem Part.at_head {part : List UInt8} (h : Part s frames link part) (delimited : Delimited frames)
    (order : (s.completed link).Sublist frames) (connected : s.connected = true)
    (up : s.central = some link) (settled : ¬s.Leftover) {q : Queued} {rest : List Queued}
    (queue : s.queue = q :: rest) : part = q.buf.take q.off := by
  by_cases empty : part = []
  · have outside : s.midFrame = false := by
      rw [Bool.eq_false_iff, ne_eq, h.mid_iff delimited order up]
      exact fun nonempty => nonempty empty
    have unread : q.off = 0 := by
      by_contra begun
      exact settled ⟨connected, outside, q, by rw [queue]; rfl, begun⟩
    rw [empty, unread]
    rfl
  · obtain ⟨q', rest', queue', _, _, same⟩ := h.head up empty
    obtain ⟨rfl, _⟩ := List.cons.inj (queue.symm.trans queue')
    exact same

variable {q : Queued} {rest : List Queued} {up : Link} {n : Nat}

theorem Writes.order (w : Writes s q rest up n p t) (got : Got s frames up) :
    (t.completed up ++ t.queue.map Queued.buf).Sublist frames := by
  have order := got.order
  rw [w.head] at order
  rw [completed_passed w.passed up, if_pos w.dest, w.done, w.queue]
  split
  · rw [List.append_assoc]
    exact order
  · rw [Option.toList_none, List.append_nil]
    exact order

theorem Writes.solid (w : Writes s q rest up n p t) (got : Got s frames up) :
    [] ∉ t.completed up := by
  rw [completed_passed w.passed up, if_pos w.dest, w.done, List.mem_append, not_or]
  refine ⟨got.solid, ?_⟩
  split
  · rename_i last
    have positive := w.positive
    rw [Option.toList_some, List.mem_singleton]
    intro empty
    rw [← empty, List.length_nil] at last
    omega
  · simp

theorem Writes.part (w : Writes s q rest up n p t) (delimited : Delimited frames)
    (settled : ¬s.Leftover) (got : Got s frames up) :
    Part t frames up (if q.off + n = q.buf.length then [] else q.buf.take (q.off + n)) := by
  have order := w.order got
  obtain ⟨before, _, part, hpart⟩ := got
  have head := hpart.at_head delimited ((List.sublist_append_left _ _).trans before) w.connected
    w.up settled w.head
  have accepted := accepted_passed w.passed up
  have completed := completed_passed w.passed up
  rw [if_pos w.dest, w.taken, hpart.bytes, head, List.append_assoc, ← List.take_add] at accepted
  rw [if_pos w.dest, w.done] at completed
  have queue := w.queue
  by_cases last : q.off + n = q.buf.length
  · rw [if_pos last] at completed ⊢
    rw [last, List.take_length] at accepted
    have whole : t.completed up = s.completed up ++ [q.buf] := completed
    refine ⟨?_, .inl rfl, fun _ nonempty => absurd rfl nonempty⟩
    rw [accepted, whole, List.flatten_append]
    simp
  · rw [if_neg last] at queue completed ⊢
    have same : t.completed up = s.completed up := completed.trans (List.append_nil _)
    have positive : 0 < q.off + n := Nat.lt_of_lt_of_le w.positive (Nat.le_add_left n q.off)
    have short : q.off + n < q.buf.length := Nat.lt_of_le_of_ne w.fits last
    refine ⟨?_, .inr ⟨q.buf, q.off + n, ?_, positive, short, rfl⟩, ?_⟩
    · rw [accepted, same]
    · rw [queue] at order
      refine List.Sublist.trans ?_ order
      simp
    · intro _ _
      exact ⟨_, rest, queue, positive, short, rfl⟩

/-- The other links see nothing of it. -/
theorem Writes.got_other (w : Writes s q rest up n p t) (other : link ≠ up)
    (got : Got s frames link) : Got t frames link := by
  obtain ⟨order, solid, part, hpart⟩ := got
  have elsewhere : p.central ≠ some link := by
    rw [w.dest]
    exact fun same => other (Option.some.inj same).symm
  have accepted := accepted_passed w.passed link
  have completed := completed_passed w.passed link
  rw [if_neg elsewhere, List.append_nil] at accepted completed
  rw [w.head] at order
  constructor
  · rw [completed, w.queue]
    refine List.Sublist.trans ?_ order
    apply List.Sublist.append_left
    split <;> simp
  · rw [completed]
    exact solid
  · refine ⟨part, ?_, ?_, ?_⟩
    · rw [accepted, completed]
      exact hpart.bytes
    · rw [completed]
      exact hpart.begun
    · rw [w.central, w.up]
      intro same
      exact absurd (Option.some.inj same).symm other

theorem Writes.woven (w : Writes s q rest up n p t) (delimited : Delimited frames)
    (settled : ¬s.Leftover) (h : Woven s frames) : Woven t frames := by
  have member : q ∈ s.queue := by simp [w.head]
  have waiting := h.waiting
  have depth := h.depth
  rw [w.head, List.tail_cons] at waiting
  rw [w.head, List.length_cons] at depth
  constructor
  · rw [w.connectedFlag, w.central]
    exact h.up
  · intro p' hp link central
    rw [w.nextLink]
    rw [w.passed] at hp
    rcases List.mem_append.mp hp with before | now
    · exact h.past p' before link central
    · obtain rfl := List.mem_singleton.mp now
      exact h.current link (w.up.trans (w.dest.symm.trans central))
  · rw [w.central, w.nextLink]
    exact h.current
  · rw [w.queue]
    split
    · exact Nat.le_of_succ_le depth
    · exact depth
  · intro q' hq
    rw [w.queue] at hq
    split at hq
    · exact .inl (waiting q' hq)
    · rename_i more
      rcases List.mem_cons.mp hq with rfl | later
      · exact .inr (Nat.lt_of_le_of_ne w.fits more)
      · exact .inl (waiting q' later)
  · intro q' hq
    rw [w.queue] at hq
    split at hq
    · exact waiting q' (List.mem_of_mem_tail hq)
    · exact waiting q' hq
  · intro link
    by_cases here : link = up
    · subst here
      exact ⟨w.order (h.got link), w.solid (h.got link), _, w.part delimited settled (h.got link)⟩
    · exact w.got_other here (h.got link)

/-- What is at the head after a write was begun on the link that is up. -/
theorem Writes.settled (w : Writes s q rest up n p t) (delimited : Delimited frames)
    (settled : ¬s.Leftover) (h : Woven s frames) : ¬t.Leftover := by
  have order := w.order (h.got up)
  have mid := (w.part delimited settled (h.got up)).mid_iff delimited
    ((List.sublist_append_left _ _).trans order) (w.central.trans w.up)
  have queue := w.queue
  have waiting := h.waiting
  rw [w.head, List.tail_cons] at waiting
  rintro ⟨_, outside, q', hq, begun⟩
  by_cases last : q.off + n = q.buf.length
  · rw [if_pos last] at queue
    rw [queue] at hq
    exact begun (waiting q' (List.mem_of_mem_head? hq))
  · rw [if_neg last, outside] at mid
    have positive := w.positive
    have fits := w.fits
    have nonempty : q.buf.take (q.off + n) ≠ [] := by
      apply List.ne_nil_of_length_pos
      rw [List.length_take]
      omega
    exact absurd (mid.mpr nonempty) Bool.false_ne_true

end BleSink

end MeshPigeon.Nrf52Ble
