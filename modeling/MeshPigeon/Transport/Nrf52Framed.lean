import MeshPigeon.Transport.Nrf52Stream

/-! When the byte stream of one central stays framed. -/
namespace MeshPigeon.Nrf52Ble.BleSink

variable {s t u : BleSink} {frames : List (List UInt8)} {link : Link}

/-! ## The calls of the board loop -/

theorem Woven.drainStep (h : Woven s frames) (delimited : Delimited frames) {written : Nat}
    (calm : ¬(s.Leftover ∧ written ≠ 0)) : Woven (s.drainStep written).1 frames := by
  rcases drainStep_cases s written with ⟨quiet, _, _⟩ | ⟨_, _, _, _, asked, _, writes⟩
  · exact h.quiet quiet
  · exact writes.woven delimited (fun leftover => calm ⟨leftover, asked⟩) h

theorem Woven.settled (h : Woven s frames) (delimited : Delimited frames) (settled : ¬s.Leftover)
    (written : Nat) : ¬(s.drainStep written).1.Leftover := by
  rcases drainStep_cases s written with ⟨quiet, _, _⟩ | ⟨_, _, _, _, _, _, writes⟩
  · exact mt quiet.leftover.mp settled
  · exact writes.settled delimited settled h

theorem firstTaken_zero {wait : Nat} {writes : List Nat} (zero : writes.headD 0 = 0) :
    firstTaken (wait + 1) writes = firstTaken wait writes.tail := by
  cases writes with
  | nil => rfl
  | cons w writes =>
    obtain rfl : w = 0 := zero
    rfl

theorem firstTaken_head {wait : Nat} {writes : List Nat} (nonzero : writes.headD 0 ≠ 0) :
    firstTaken wait writes = writes.headD 0 := by
  cases writes with
  | nil => exact absurd rfl nonzero
  | cons w writes =>
    have positive : w ≠ 0 := nonzero
    simp [firstTaken, positive]

theorem firstTaken_last {writes : List Nat} (zero : writes.headD 0 = 0) :
    firstTaken 0 writes = 0 := by
  cases writes with
  | nil => rfl
  | cons w writes =>
    obtain rfl : w = 0 := zero
    rfl

/-- Up to writes that take nothing, the loop of `make_room` is its one write that takes anything. -/
theorem makeRoomLoop_spec (connected : s.connected = true) (wait : Nat) (writes : List Nat) :
    ∃ u, Quiet s u ∧
      Quiet (u.drainStep (firstTaken wait writes)).1 (makeRoomLoop wait writes s) := by
  induction wait generalizing s writes with
  | zero =>
    refine ⟨s, Quiet.refl s, ?_⟩
    unfold makeRoomLoop
    by_cases empty : s.queue = []
    · rw [if_pos empty]
      simpa [BleSink.drainStep, connected, empty] using Quiet.refl s
    rw [if_neg empty]
    have last : firstTaken 0 writes = writes.headD 0 := by
      by_cases zero : writes.headD 0 = 0
      · rw [firstTaken_last zero, zero]
      · exact firstTaken_head zero
    rw [last]
    dsimp only
    split <;> exact Quiet.refl _
  | succ wait ih =>
    unfold makeRoomLoop
    by_cases empty : s.queue = []
    · refine ⟨s, Quiet.refl s, ?_⟩
      rw [if_pos empty]
      simpa [BleSink.drainStep, connected, empty] using Quiet.refl s
    rw [if_neg empty]
    rcases drainStep_cases s (writes.headD 0) with
      ⟨quiet, stuck, chunk⟩ | ⟨_, _, _, _, asked, drained, _⟩
    · have up : (s.drainStep (writes.headD 0)).1.connected = true := quiet.connected.trans connected
      obtain ⟨u, before, after⟩ := ih up writes.tail
      simp only [stuck, up, Bool.not_true, if_false, Bool.false_eq_true]
      by_cases zero : writes.headD 0 = 0
      · refine ⟨u, quiet.trans before, ?_⟩
        rw [firstTaken_zero zero]
        exact after
      · -- an empty frame heads the queue: nothing can be taken of it
        refine ⟨s, Quiet.refl s, ?_⟩
        rw [firstTaken_head zero]
        refine Quiet.trans before (Quiet.trans ?_ after)
        rcases drainStep_cases u (firstTaken wait writes.tail) with
          ⟨still, _, _⟩ | ⟨q, rest, _, _, _, _, w⟩
        · exact still
        · have head : s.queue = q :: rest := (quiet.trans before).queue.symm.trans w.head
          have none' := chunk connected q (by rw [head]; rfl)
          have positive := w.positive
          omega
    · refine ⟨s, Quiet.refl s, ?_⟩
      rw [firstTaken_head asked]
      simp only [drained, if_true]
      exact Quiet.refl _

theorem Woven.mono (h : Woven s frames) {frames' : List (List UInt8)}
    (more : frames.Sublist frames') : Woven s frames' := by
  refine ⟨h.up, h.past, h.current, h.depth, h.started, h.waiting, ?_⟩
  intro link
  obtain ⟨order, solid, part, hpart⟩ := h.got link
  refine ⟨order.trans more, solid, part, hpart.bytes, ?_, hpart.head⟩
  rcases hpart.begun with empty | ⟨f, n, sub, rest⟩
  · exact .inl empty
  · exact .inr ⟨f, n, sub.trans more, rest⟩

/-- Between two frames the queue can be dropped. -/
theorem Woven.cleared (h : Woven s frames) (delimited : Delimited frames)
    (outside : s.midFrame = false) : Woven { s with queue := [] } frames := by
  refine ⟨h.up, h.past, h.current, Nat.zero_le _, ?_, ?_, ?_⟩
  · intro q hq
    cases hq
  · intro q hq
    cases hq
  · intro link
    obtain ⟨order, solid, part, hpart⟩ := h.got link
    have before := (List.sublist_append_left _ _).trans order
    refine ⟨?_, solid, ?_⟩
    · rw [List.map_nil, List.append_nil]
      exact before
    · refine ⟨part, hpart.bytes, hpart.begun, ?_⟩
      intro up nonempty
      have mid := (hpart.mid_iff delimited before up).mpr nonempty
      rw [outside] at mid
      cases mid

theorem Woven.queued (h : Woven s frames) (room : s.queue.length < kQueueDepth) (f : List UInt8)
    (link : Link) : Woven { s with queue := s.queue ++ [⟨f, 0, link⟩] } (frames ++ [f]) := by
  refine ⟨h.up, h.past, h.current, ?_, ?_, ?_, ?_⟩
  · rw [List.length_append]
    exact room
  · intro q hq
    rcases List.mem_append.mp hq with before | now
    · exact h.started q before
    · obtain rfl := List.mem_singleton.mp now
      exact .inl rfl
  · intro q hq
    cases old : s.queue with
    | nil =>
      rw [old] at hq
      cases hq
    | cons head rest =>
      have waiting := h.waiting
      rw [old] at hq waiting
      rcases List.mem_append.mp hq with before | now
      · exact waiting q before
      · obtain rfl := List.mem_singleton.mp now
        rfl
  · intro link
    obtain ⟨order, solid, part, hpart⟩ := h.got link
    refine ⟨?_, solid, ?_⟩
    · rw [List.map_append, ← List.append_assoc]
      exact order.append (List.Sublist.refl _)
    · refine ⟨part, hpart.bytes, ?_, ?_⟩
      · rcases hpart.begun with empty | ⟨g, n, sub, rest⟩
        · exact .inl empty
        · exact .inr ⟨g, n, sub.trans (List.sublist_append_left _ _), rest⟩
      · intro up nonempty
        obtain ⟨q, rest, queue, begun⟩ := hpart.head up nonempty
        exact ⟨q, rest ++ [_], by rw [queue]; rfl, begun⟩

/-- A queue that is still full has its head unfinished. -/
theorem full_of_drained (h : Woven s frames) {written : Nat} {v : BleSink}
    (quiet : Quiet (s.drainStep written).1 v) (full : v.queue.length = kQueueDepth)
    (mid : v.midFrame = true) (delimited : Delimited frames) (connected : s.connected = true) :
    s.queue.length = kQueueDepth ∧ (s.midFrame = true ∨ written ≠ 0) ∧
      ∃ q ∈ s.queue.head?,
        q.off + min written (min (q.buf.length - q.off) kChunk) < q.buf.length := by
  rw [quiet.queue] at full
  rw [quiet.midFrame] at mid
  rcases drainStep_cases s written with ⟨still, _, nothing⟩ | ⟨q, rest, up, _, asked, _, w⟩
  · rw [still.queue] at full
    rw [still.midFrame] at mid
    obtain ⟨up, central⟩ : ∃ up, s.central = some up :=
      Option.isSome_iff_exists.mp (Bool.and_eq_true_iff.mp connected).2
    obtain ⟨order, _, part, hpart⟩ := h.got up
    have nonempty :=
      (hpart.mid_iff delimited ((List.sublist_append_left _ _).trans order) central).mp mid
    obtain ⟨q, rest, queue, _, short, _⟩ := hpart.head central nonempty
    have first : q ∈ s.queue.head? := by rw [queue]; rfl
    refine ⟨full, .inl mid, q, first, ?_⟩
    rw [nothing connected q first]
    exact short
  · have depth := h.depth
    rw [w.head, List.length_cons] at depth
    have queue := w.queue
    by_cases last : q.off + min written (min (q.buf.length - q.off) kChunk) = q.buf.length
    · rw [if_pos last] at queue
      rw [queue] at full
      omega
    · rw [if_neg last] at queue
      rw [queue, List.length_cons] at full
      refine ⟨by rw [w.head, List.length_cons]; exact full, .inr asked, q, ?_, ?_⟩
      · rw [w.head]
        rfl
      · exact Nat.lt_of_le_of_ne w.fits last

theorem Woven.sendFrame (h : Woven s frames) (delimited : Delimited frames) (decoded : List UInt8)
    {writes : List Nat} (calm : EventWhole s (.sendFrame decoded writes)) :
    Woven (s.sendFrame decoded writes) (frames ++ [frameEncodeEnvelope decoded]) := by
  have more : frames.Sublist (frames ++ [frameEncodeEnvelope decoded]) :=
    List.sublist_append_left _ _
  unfold BleSink.sendFrame
  split
  · exact h.mono more
  rename_i connected
  have connected : s.connected = true := by simpa using connected
  split
  · exact h.mono more
  rename_i link up
  obtain ⟨first, backlog⟩ := calm
  obtain ⟨u, before, after⟩ := makeRoomLoop_spec connected kDrainWaitMs writes
  have started : Woven u frames := h.quiet before
  have written : Woven (u.drainStep (firstTaken kDrainWaitMs writes)).1 frames :=
    started.drainStep delimited fun leftover => first ⟨before.leftover.mp leftover.1, leftover.2⟩
  have looped : Woven (makeRoomLoop kDrainWaitMs writes s) frames := written.quiet after
  unfold makeRoom
  dsimp only
  by_cases full : (makeRoomLoop kDrainWaitMs writes s).queue.length = kQueueDepth
  · have outside : (makeRoomLoop kDrainWaitMs writes s).midFrame = false := by
      by_contra inside
      obtain ⟨length, began, unfinished⟩ := full_of_drained started after full
        (Bool.not_eq_false _ ▸ inside) delimited (before.connected.trans connected)
      rw [before.queue] at length unfinished
      rw [before.midFrame] at began
      exact backlog ⟨connected, length, began, unfinished⟩
    simp only [if_pos full]
    exact (looped.cleared delimited outside).queued (Nat.zero_lt_succ 15) _ link
  · simp only [if_neg full]
    exact looped.queued (Nat.lt_of_le_of_ne looped.depth full) _ link

theorem Woven.flushLoop (delimited : Delimited frames) (turns wait : Nat) (writes : List Nat)
    (h : Woven s frames) (calm : ¬s.Leftover ∨ ∀ w ∈ writes.take wait, w = 0) :
    Woven (flushLoop turns wait writes s) frames := by
  induction turns generalizing s wait writes with
  | zero => exact h
  | succ turns ih =>
    unfold BleSink.flushLoop
    split
    · exact h
    rename_i busy
    obtain ⟨wait, rfl⟩ : ∃ w, wait = w + 1 :=
      Nat.exists_eq_succ_of_ne_zero fun zero => busy (.inr zero)
    rcases calm with settled | zeros
    · exact ih _ _ (h.drainStep delimited fun leftover => settled leftover.1)
        (.inl (h.settled delimited settled _))
    · have zero : writes.headD 0 = 0 := by
        cases writes with
        | nil => rfl
        | cons w writes => exact zeros w (by simp)
      rcases drainStep_cases s (writes.headD 0) with ⟨quiet, stuck, _⟩ | ⟨_, _, _, _, asked, _⟩
      · refine ih _ _ (h.quiet quiet) (.inr ?_)
        rw [stuck]
        intro w hw
        cases writes with
        | nil => simp at hw
        | cons w' writes => exact zeros w (List.mem_cons_of_mem w' hw)
      · exact absurd zero asked

/-! ## The other events -/

theorem Woven.onConnect (h : Woven s frames) : Woven s.onConnect frames := by
  unfold BleSink.onConnect
  split
  · exact h
  · refine ⟨rfl, ?_, ?_, h.depth, h.started, h.waiting, ?_⟩
    · intro p hp link central
      exact Nat.lt_succ_of_lt (h.past p hp link central)
    · intro link central
      obtain rfl := Option.some.inj central
      exact Nat.lt_succ_self _
    · intro link
      obtain ⟨order, solid, part, hpart⟩ := h.got link
      refine ⟨order, solid, part, hpart.bytes, hpart.begun, ?_⟩
      intro central nonempty
      obtain rfl := Option.some.inj central
      -- nothing was ever written to the link that comes up
      have unused : s.accepted s.nextLink = [] := by
        unfold accepted
        rw [List.filter_eq_nil_iff.mpr]
        · rfl
        · intro p hp central
          exact Nat.lt_irrefl _ (h.past p hp _ (of_decide_eq_true central))
      have bytes := hpart.bytes
      rw [unused] at bytes
      exact absurd (List.append_eq_nil_iff.mp bytes.symm).2 nonempty

theorem Woven.onDisconnect (h : Woven s frames) : Woven s.onDisconnect frames := by
  unfold BleSink.onDisconnect
  split
  · refine ⟨rfl, h.past, ?_, h.depth, h.started, h.waiting, ?_⟩
    · intro link central
      cases central
    · intro link
      obtain ⟨order, solid, part, hpart⟩ := h.got link
      exact ⟨order, solid, part, hpart.bytes, hpart.begun, nofun⟩
  · exact h

theorem quiet_onWrite (s : BleSink) (data : List UInt8) : Quiet s (s.onWrite data) := by
  unfold BleSink.onWrite
  split
  · exact Quiet.refl s
  · exact ⟨rfl, rfl, rfl, rfl, fun _ => rfl, fun _ => rfl, fun _ hp => .inl hp⟩

theorem quiet_readByte (s : BleSink) (auth : Bool) : Quiet s (s.readByte auth) := by
  unfold BleSink.readByte
  split
  · exact Quiet.refl s
  · dsimp only
    split
    · split <;> exact ⟨rfl, rfl, rfl, rfl, fun _ => rfl, fun _ => rfl, fun _ hp => .inl hp⟩
    · exact ⟨rfl, rfl, rfl, rfl, fun _ => rfl, fun _ => rfl, fun _ hp => .inl hp⟩

theorem Woven.dropLost (h : Woven s frames) (delimited : Delimited frames)
    (calm : EventWhole s .dropLost) : Woven s.dropLost frames := by
  unfold BleSink.dropLost
  split
  · rename_i pending
    have outside : s.midFrame = false := Bool.eq_false_iff.mpr fun mid => calm ⟨pending, mid⟩
    refine (h.cleared delimited outside).quiet ?_
    exact ⟨rfl, rfl, rfl, rfl, fun _ => rfl, fun _ => rfl, fun _ hp => .inl hp⟩
  · exact h

/-! ## Runs -/

theorem Woven.silent (h : Woven s frames) (delimited : Delimited frames) {e : Event}
    (calm : EventWhole s e) (silent : e.sent = none) : Woven (s.step e) frames := by
  cases e with
  | sendFrame => cases silent
  | onConnect => exact h.onConnect
  | onDisconnect => exact h.onDisconnect
  | onWrite data => exact h.quiet (quiet_onWrite s data)
  | dropLost => exact h.dropLost delimited calm
  | readByte auth => exact h.quiet (quiet_readByte s auth)
  | logOut =>
    exact h.quiet ⟨rfl, rfl, rfl, rfl, fun _ => rfl, fun _ => rfl, fun _ hp => .inl hp⟩
  | drainStep written => exact h.drainStep delimited calm
  | flush timeoutMs writes =>
    refine Woven.flushLoop delimited _ _ _ h ?_
    by_cases leftover : s.Leftover
    · right
      intro w hw
      by_contra taken
      exact calm ⟨leftover, w, hw, taken⟩
    · exact .inl leftover

theorem Woven.step {before : List (List UInt8)} (h : Woven s (before.map frameEncodeEnvelope))
    {e : Event} (calm : EventWhole s e) :
    Woven (s.step e) ((before ++ e.sent.toList).map frameEncodeEnvelope) := by
  have delimited := delimited_frames before
  cases out : e.sent with
  | none =>
    rw [Option.toList_none, List.append_nil]
    exact h.silent delimited calm out
  | some decoded =>
    cases e with
    | sendFrame decoded' writes =>
      obtain rfl := Option.some.inj out
      rw [Option.toList_some, List.map_append]
      exact h.sendFrame delimited decoded' calm
    | _ => cases out

theorem Woven.run {k : List (List UInt8)} (h : Woven s (k.map frameEncodeEnvelope))
    {events : List Event} (whole : Whole s events) :
    Woven (s.run events) ((k ++ sent events).map frameEncodeEnvelope) := by
  induction events generalizing s k with
  | nil =>
    rw [sent, List.filterMap_nil, List.append_nil]
    exact h
  | cons e es ih =>
    have more : sent (e :: es) = e.sent.toList ++ sent es := by
      cases out : e.sent <;> simp [sent, out]
    have rest := ih (h.step whole.1) whole.2
    rw [List.append_assoc, ← more] at rest
    exact rest

theorem woven_new : Woven {} [] := by
  refine ⟨rfl, ?_, ?_, Nat.zero_le _, ?_, ?_, ?_⟩
  · intro p hp
    cases hp
  · intro link central
    cases central
  · intro q hq
    cases hq
  · intro q hq
    cases hq
  · intro link
    have nothing : Part {} [] link [] := ⟨rfl, .inl rfl, fun _ nonempty => absurd rfl nonempty⟩
    exact ⟨List.Sublist.refl _, List.not_mem_nil, [], nothing⟩

/-- What the invariant says of the bytes and of their reader. -/
theorem Woven.framed {es : List (List UInt8)} (h : Woven s (es.map frameEncodeEnvelope))
    (link : Link) : Framed s es link := by
  obtain ⟨order, solid, part, hpart⟩ := h.got link
  have before : (s.completed link).Sublist (es.map frameEncodeEnvelope) :=
    (List.sublist_append_left _ _).trans order
  -- the envelopes of the completed frames, and of the one that was begun
  have envelopes : ∃ cs, s.completed link = cs.map frameEncodeEnvelope ∧ 0 ∉ part ∧
      (part = [] ∧ cs.Sublist es ∨
        ∃ e, (cs ++ [e]).Sublist es ∧ part <+: frameEncodeEnvelope e) := by
    rcases hpart.begun with rfl | ⟨f, n, sub, _, short, rfl⟩
    · obtain ⟨cs, sub, same⟩ := List.sublist_map_iff.mp before
      exact ⟨cs, same, List.not_mem_nil, .inl ⟨rfl, sub⟩⟩
    · obtain ⟨all, ordered, same⟩ := List.sublist_map_iff.mp sub
      obtain ⟨cs, last, rfl, completed, begun⟩ := List.append_eq_map_iff.mp same
      obtain ⟨e, rfl, rfl⟩ := List.map_eq_singleton_iff.mp begun
      exact ⟨cs, completed.symm, clean_of_take short, .inr ⟨e, ordered, List.take_prefix _ _⟩⟩
  obtain ⟨cs, completed, clean, begun⟩ := envelopes
  have bytes := hpart.bytes
  rw [completed] at bytes
  refine ⟨cs, part, completed, bytes, begun, ?_⟩
  rw [bytes, FrameReader.envelopes_frames ?_ clean]
  intro e he
  rw [← frameEncodeEnvelope_ne_nil]
  intro empty
  exact solid (completed ▸ empty ▸ List.mem_map_of_mem he)

/-- **When the stream of a central stays framed.** In every run in which no
frame is dropped that the link is in the middle of, and none is continued that
was begun on another link, every link gets whole frames and a prefix of one
more, and its reader returns every frame that was written in full. -/
theorem stream_framed (events : List Event) (whole : Whole {} events) (link : Link) :
    Framed (run {} events) (sent events) link :=
  Woven.framed (Woven.run (k := []) woven_new whole) link

/-- A frame of 24 bytes, fifteen short ones behind it, and a byte taken at every
send; then one more frame, and a pump. -/
def crowded (last : List Nat) : List Event :=
  [.onConnect, .sendFrame (List.replicate 20 7) []] ++
    List.replicate 15 (.sendFrame [1] [1]) ++ [.sendFrame [2] last, .drainStep 20]

/-- The last send lets the rest of the first frame go, and drops nothing. -/
theorem stream_framed_flushed : Framed (run {} (crowded [20])) (sent (crowded [20])) 0 :=
  stream_framed (crowded [20]) (by decide +kernel) 0

/-- With one byte more, the first frame is dropped at its sixteenth byte, and the
frame sent last is glued to it. -/
theorem crowded_torn : ¬Framed (run {} (crowded [1])) (sent (crowded [1])) 0 := by
  rintro ⟨es, part, completed, accepted, _⟩
  have begins : ((run {} (crowded [1])).completed 0).flatten <+: (run {} (crowded [1])).accepted 0 := by
    rw [completed, accepted]
    exact List.prefix_append _ _
  exact absurd begins (by decide +kernel)

end MeshPigeon.Nrf52Ble.BleSink
