import MeshPigeon.Transport.Wifi

/-! What the peer of a TCP client sees. -/
namespace MeshPigeon.WifiTransport

/-- The socket takes nothing before the loop gives up. -/
def NoRoom (start : UInt32) : List SendCall → Prop
  | [] => True
  | call :: calls => call.r ≤ 0 ∧ (call.breaks start = true ∨ NoRoom start calls)

/-- There is nothing to write, or no room for any of it. -/
def Sending.Mute (f : Sending) : Prop := f.wire = [] ∨ NoRoom f.start f.calls

theorem writeLoop_ge (n : Nat) (start : UInt32) (calls : List SendCall) (sent : Nat) :
    sent ≤ writeLoop n start calls sent := by
  induction calls generalizing sent with
  | nil => exact Nat.le_refl _
  | cons call calls ih =>
    rw [writeLoop]
    split
    · split
      · exact Nat.le_trans (Nat.le_add_right _ _) (ih _)
      · split
        · exact Nat.le_refl _
        · exact ih sent
    · exact Nat.le_refl _

theorem writeLoop_le {n : Nat} (start : UInt32) (calls : List SendCall) {sent : Nat}
    (le : sent ≤ n) : writeLoop n start calls sent ≤ n := by
  induction calls generalizing sent with
  | nil => exact le
  | cons call calls ih =>
    rw [writeLoop]
    split
    · split
      · exact ih (by omega)
      · split
        · exact le
        · exact ih le
    · exact le

theorem writeLoop_eq_zero_iff {n : Nat} (pos : 0 < n) (start : UInt32) (calls : List SendCall) :
    writeLoop n start calls 0 = 0 ↔ NoRoom start calls := by
  induction calls with
  | nil => simp [writeLoop, NoRoom]
  | cons call calls ih =>
    rw [writeLoop, if_pos pos, NoRoom]
    by_cases room : call.r > 0
    · rw [if_pos room]
      have taken := writeLoop_ge n start calls (0 + min call.r.toNat (n - 0))
      constructor
      · intro zero
        omega
      · rintro ⟨full, _⟩
        omega
    · rw [if_neg room]
      by_cases breaks : call.breaks start = true
      · simp [breaks, Int.not_lt.mp room]
      · simp [breaks, Int.not_lt.mp room, ih]

theorem Sending.sent_le (f : Sending) : f.sent ≤ f.wire.length :=
  writeLoop_le f.start f.calls (Nat.zero_le _)

theorem Sending.taken_eq_nil_iff (f : Sending) : f.wire.take f.sent = [] ↔ f.Mute := by
  rw [List.take_eq_nil_iff, Sending.Mute]
  by_cases empty : f.wire = []
  · simp [empty]
  · have pos : 0 < f.wire.length := List.length_pos_iff.mpr empty
    simp only [empty, or_false, false_or]
    exact writeLoop_eq_zero_iff pos f.start f.calls

theorem Sending.taken_eq_wire_iff (f : Sending) :
    f.wire.take f.sent = f.wire ↔ f.sent = f.wire.length := by
  constructor
  · intro whole
    have := congrArg List.length whole
    rw [List.length_take] at this
    have := f.sent_le
    omega
  · intro whole
    rw [whole, List.take_length]

/-! ## Logs -/

/-- A frame was cut short, and the socket has not been closed since. -/
def Truncated (log : List Entry) : Prop :=
  ∃ pre wire taken mid, log = pre ++ .frame wire taken :: mid ∧ taken ≠ wire ∧ .closed ∉ mid

/-- Between a truncated frame and the end of its connection the socket takes nothing. -/
def Silent (log : List Entry) : Prop :=
  ∀ pre wire taken mid wire' taken' post,
    log = pre ++ .frame wire taken :: mid ++ .frame wire' taken' :: post → .closed ∉ mid →
      taken ≠ wire → taken' = []

/-- An entry of a log is its last one, or one of those before. -/
theorem concat_split {log pre mid : List Entry} {e x : Entry} :
    log ++ [e] = pre ++ x :: mid ↔
      (e = x ∧ log = pre ∧ mid = []) ∨ ∃ mid', log = pre ++ x :: mid' ∧ mid = mid' ++ [e] := by
  constructor
  · intro eq
    rcases List.eq_nil_or_concat mid with rfl | ⟨mid, last, rfl⟩
    · obtain ⟨rfl, same⟩ := List.append_inj' eq rfl
      exact .inl ⟨(List.cons.inj same).1, rfl, rfl⟩
    · rw [List.concat_eq_append, ← List.cons_append, ← List.append_assoc] at eq
      obtain ⟨rfl, same⟩ := List.append_inj' eq rfl
      exact .inr ⟨mid, rfl, by rw [List.concat_eq_append, same]⟩
  · rintro (⟨rfl, rfl, rfl⟩ | ⟨mid', rfl, rfl⟩)
    · rfl
    · simp

theorem not_truncated_nil : ¬Truncated [] := by
  rintro ⟨pre, _, _, _, eq, _⟩
  simp at eq

theorem truncated_concat (log : List Entry) (e : Entry) :
    Truncated (log ++ [e]) ↔
      (Truncated log ∧ e ≠ .closed) ∨ ∃ wire taken, e = .frame wire taken ∧ taken ≠ wire := by
  constructor
  · rintro ⟨pre, wire, taken, mid, eq, short, live⟩
    rcases concat_split.mp eq with ⟨rfl, _, _⟩ | ⟨mid', rfl, rfl⟩
    · exact .inr ⟨wire, taken, rfl, short⟩
    · simp only [List.mem_append, List.mem_singleton, not_or] at live
      exact .inl ⟨⟨pre, wire, taken, mid', rfl, short, live.1⟩, Ne.symm live.2⟩
  · rintro (⟨⟨pre, wire, taken, mid, rfl, short, live⟩, other⟩ | ⟨wire, taken, rfl, short⟩)
    · exact ⟨pre, wire, taken, mid ++ [e], by simp, short, by simp [live, Ne.symm other]⟩
    · exact ⟨log, wire, taken, [], rfl, short, by simp⟩

theorem silent_nil : Silent [] := by
  intro pre wire taken mid wire' taken' post eq
  simp at eq

theorem silent_concat (log : List Entry) (e : Entry) :
    Silent (log ++ [e]) ↔
      Silent log ∧ ∀ wire taken, e = .frame wire taken → Truncated log → taken = [] := by
  constructor
  · intro silent
    constructor
    · intro pre wire taken mid wire' taken' post eq live short
      exact silent pre wire taken mid wire' taken' (post ++ [e]) (by simp [eq]) live short
    · rintro wire' taken' rfl ⟨pre, wire, taken, mid, rfl, short, live⟩
      exact silent pre wire taken mid wire' taken' [] rfl live short
  · rintro ⟨silent, last⟩ pre wire taken mid wire' taken' post eq live short
    rcases concat_split.mp eq with ⟨rfl, rfl, _⟩ | ⟨post', rfl, _⟩
    · exact last wire' taken' rfl ⟨pre, wire, taken, mid, rfl, short, live⟩
    · exact silent pre wire taken mid wire' taken' post' rfl live short

/-! ## What a run logs -/

/-- The flag of a slot in use says whether its stream has been cut short. -/
structure Tracks (c : Client) (log : List Entry) : Prop where
  takes : ∀ wire taken, .frame wire taken ∈ log → taken <+: wire
  live : c.inUse = true → (c.broken = true ↔ Truncated log)
  idle : c.inUse = false → ¬Truncated log

/-- No frame is sent on a broken socket that would find room. -/
def Call.Calm (c : Client) : Call → Prop
  | .send f => c.inUse = true → c.broken = true → f.Mute
  | .stopServer => True

def CallsCalm (c : Client) : List Call → Prop
  | [] => True
  | k :: ks => k.Calm c ∧ CallsCalm (c.call k).1 ks

def Event.Calm (c : Client) : Event → Prop
  | .accept _ => True
  | .call k => k.Calm c
  | .pump ks _ => c.inUse = true → c.broken = false → CallsCalm c ks

/-- Every frame that is sent while `broken` is set finds the window still full. -/
def Calm (c : Client) : List Event → Prop
  | [] => True
  | e :: es => e.Calm c ∧ Calm (c.step e).1 es

/-- The log stays in step, and stays silent exactly if the step is calm. -/
structure Extends (log : List Entry) (r : Client × List Entry) (calm : Prop) : Prop where
  tracks : Tracks r.1 (log ++ r.2)
  silent : Silent (log ++ r.2) ↔ Silent log ∧ calm

variable {c : Client} {log : List Entry}

theorem Extends.congr {r : Client × List Entry} {calm calm' : Prop} (h : Extends log r calm)
    (same : calm ↔ calm') : Extends log r calm' :=
  ⟨h.tracks, by rw [← same]; exact h.silent⟩

theorem Extends.andThen {r r' : Client × List Entry} {calm calm' : Prop} (h : Extends log r calm)
    (h' : Extends (log ++ r.2) r' calm') : Extends log (r'.1, r.2 ++ r'.2) (calm ∧ calm') := by
  obtain ⟨tracks, silent⟩ := h'
  rw [List.append_assoc] at tracks silent
  refine ⟨tracks, ?_⟩
  rw [silent, h.silent, and_assoc]

theorem Tracks.quiet (h : Tracks c log) : Extends log (c, []) True := by
  constructor
  · simpa using h
  · simp

theorem Tracks.drop (h : Tracks c log) : Extends log c.drop True := by
  unfold Client.drop
  split
  · constructor
    · constructor
      · simpa using h.takes
      · intro inUse
        cases inUse
      · intro _
        simp [truncated_concat]
    · simp [silent_concat]
  · exact h.quiet

theorem Tracks.opened (h : Tracks c log) (free : c.inUse = false) :
    Extends log ({ inUse := true, broken := false }, [.opened]) True := by
  constructor
  · constructor
    · simpa using h.takes
    · intro _
      simp [truncated_concat, h.idle free]
    · intro inUse
      cases inUse
  · simp [silent_concat]

theorem Tracks.accept (h : Tracks c log) (added : Bool) : Extends log (c.accept added) True := by
  unfold Client.accept
  split
  · exact h.quiet
  · rename_i free
    have opened := h.opened (Bool.eq_false_iff.mpr free)
    split
    · exact opened
    · exact (opened.andThen opened.tracks.drop).congr (by simp)

theorem Tracks.sendFrame (h : Tracks c log) (f : Sending) :
    Extends log (c.sendFrame f) (Call.Calm c (.send f)) := by
  unfold Client.sendFrame Call.Calm
  by_cases inUse : c.inUse = true
  · have live := h.live inUse
    rw [if_pos inUse]
    constructor
    · constructor
      · intro wire taken logged
        simp only [List.mem_append, List.mem_singleton, Entry.frame.injEq] at logged
        rcases logged with before | ⟨rfl, rfl⟩
        · exact h.takes wire taken before
        · exact List.take_prefix _ _
      · intro _
        rw [truncated_concat]
        simp [live, f.taken_eq_wire_iff]
      · intro idle
        rw [show c.inUse = false from idle] at inUse
        cases inUse
    · rw [silent_concat, live]
      simp [inUse, f.taken_eq_nil_iff]
  · rw [if_neg inUse]
    constructor
    · constructor
      · simpa using h.takes
      · intro live
        exact absurd live inUse
      · intro idle
        simpa using h.idle idle
    · simp [inUse]

theorem Tracks.call (h : Tracks c log) (k : Call) : Extends log (c.call k) (k.Calm c) := by
  cases k with
  | send f => exact h.sendFrame f
  | stopServer => exact h.drop

theorem Tracks.calls (h : Tracks c log) (ks : List Call) :
    Extends log (c.calls ks) (CallsCalm c ks) := by
  induction ks generalizing c log with
  | nil => exact h.quiet
  | cons k ks ih =>
    have first := h.call k
    exact first.andThen (ih first.tracks)

/-- The first half of a slot's turn. -/
def Client.drain (c : Client) (ks : List Call) : Client × List Entry :=
  if c.broken then (c, []) else c.calls ks

/-- The second half: hang up if the socket is broken or gone. -/
def Client.hangUp (c : Client) (connected : Bool) : Client × List Entry :=
  if c.broken || !connected then c.drop else (c, [])

theorem pump_eq (inUse : c.inUse = true) (ks : List Call) (connected : Bool) :
    c.pump ks connected =
      (((c.drain ks).1.hangUp connected).1,
        (c.drain ks).2 ++ ((c.drain ks).1.hangUp connected).2) := by
  unfold Client.pump Client.hangUp
  rw [if_pos inUse]
  change (if (c.drain ks).1.broken || !connected then _ else _) = _
  split
  · rfl
  · exact Prod.ext rfl (List.append_nil _).symm

theorem Tracks.drain (h : Tracks c log) (ks : List Call) :
    Extends log (c.drain ks) (c.broken = false → CallsCalm c ks) := by
  unfold Client.drain
  cases broken : c.broken with
  | true => exact h.quiet.congr (by simp)
  | false => exact (h.calls ks).congr (by simp)

theorem Tracks.hangUp (h : Tracks c log) (connected : Bool) :
    Extends log (c.hangUp connected) True := by
  unfold Client.hangUp
  split
  · exact h.drop
  · exact h.quiet

theorem Tracks.pump (h : Tracks c log) (ks : List Call) (connected : Bool) :
    Extends log (c.pump ks connected) (Event.Calm c (.pump ks connected)) := by
  by_cases inUse : c.inUse = true
  · have drained := h.drain ks
    rw [pump_eq inUse]
    exact (drained.andThen (drained.tracks.hangUp connected)).congr (by simp [Event.Calm, inUse])
  · unfold Client.pump
    rw [if_neg inUse]
    exact h.quiet.congr (by simp [Event.Calm, inUse])

theorem Tracks.step (h : Tracks c log) (e : Event) : Extends log (c.step e) (e.Calm c) := by
  cases e with
  | accept added => exact h.accept added
  | call k => exact h.call k
  | pump ks connected => exact h.pump ks connected

theorem Tracks.run (h : Tracks c log) (events : List Event) :
    Extends log (c.run events) (Calm c events) := by
  induction events generalizing c log with
  | nil => exact h.quiet
  | cons e es ih =>
    have first := h.step e
    exact first.andThen (ih first.tracks)

theorem tracks_new : Tracks {} [] := by
  constructor
  · intro _ _ logged
    cases logged
  · intro inUse
    cases inUse
  · intro _
    exact not_truncated_nil

/-! ## The stream of one connection -/

/-- The bytes the peer received, frame after frame. -/
def received (log : List Entry) : List UInt8 :=
  log.flatMap fun | .frame _ taken => taken | _ => []

/-- The wire forms of the frames sent. -/
def wires (log : List Entry) : List (List UInt8) :=
  log.filterMap fun | .frame wire _ => some wire | _ => none

/-- Whole frames, in order, then at most one that was cut short. -/
def WholeThenCut (seg : List Entry) : Prop :=
  ∃ n cut, received seg = ((wires seg).take n).flatten ++ cut ∧
    (cut = [] ∨ ∃ wire, (wires seg)[n]? = some wire ∧ cut <+: wire ∧ cut ≠ wire)

def Frames (seg : List Entry) : Prop := ∀ e ∈ seg, ∃ wire taken, e = .frame wire taken

theorem Frames.open' {seg : List Entry} (h : Frames seg) : .closed ∉ seg := by
  intro closed
  obtain ⟨_, _, eq⟩ := h _ closed
  cases eq

theorem received_nil_of_silent {seg : List Entry} {wire taken : List UInt8} (frames : Frames seg)
    (silent : Silent (.frame wire taken :: seg)) (short : taken ≠ wire) : received seg = [] := by
  apply List.flatMap_eq_nil_iff.mpr
  intro e he
  obtain ⟨wire', taken', rfl⟩ := frames e he
  obtain ⟨mid, post, rfl⟩ := List.append_of_mem he
  have live : Entry.closed ∉ mid := fun h => frames.open' (List.mem_append_left _ h)
  exact silent [] wire taken mid wire' taken' post (by simp) live short

theorem Silent.tail {e : Entry} {seg : List Entry} (h : Silent (e :: seg)) : Silent seg := by
  intro pre wire taken mid wire' taken' post eq
  exact h (e :: pre) wire taken mid wire' taken' post (by simp [eq])

theorem Silent.wholeThenCut {seg : List Entry} (h : Silent seg) (frames : Frames seg)
    (takes : ∀ wire taken, .frame wire taken ∈ seg → taken <+: wire) : WholeThenCut seg := by
  induction seg with
  | nil => exact ⟨0, [], rfl, .inl rfl⟩
  | cons e seg ih =>
    obtain ⟨wire, taken, rfl⟩ := frames e (by simp)
    have rest : Frames seg := fun e he => frames e (List.mem_cons_of_mem _ he)
    by_cases whole : taken = wire
    · obtain ⟨n, cut, bytes, last⟩ :=
        ih h.tail rest fun wire taken he => takes wire taken (List.mem_cons_of_mem _ he)
      refine ⟨n + 1, cut, ?_, ?_⟩
      · simp only [received, wires] at bytes ⊢
        simp [bytes, whole]
      · simpa [wires] using last
    · refine ⟨0, taken, ?_, .inr ⟨wire, by simp [wires], takes wire taken (by simp), whole⟩⟩
      have nothing := received_nil_of_silent rest h whole
      simp only [received] at nothing ⊢
      simp [nothing]

/-- What the peer of a slot may rely on, over a run. -/
structure StreamsWhole (events : List Event) : Prop where
  silent : Silent (Client.run {} events).2
  /-- every connection is whole frames and at most one truncated one -/
  stream : ∀ pre seg post, (Client.run {} events).2 = pre ++ seg ++ post → Frames seg →
    WholeThenCut seg
  /-- a frame that arrives whole comes after whole frames only -/
  terminated : ∀ pre wire taken mid last post,
    (Client.run {} events).2 = pre ++ .frame wire taken :: mid ++ .frame last last :: post →
      .closed ∉ mid → last ≠ [] → taken = wire
  /-- and a truncated one is followed by a disconnect, at the slot's next turn -/
  hangsUp : ∀ pre ks connected post, events = pre ++ .pump ks connected :: post →
    Truncated (Client.run {} pre).2 → ((Client.run {} pre).1.pump ks connected).2 = [.closed]

theorem Silent.infix {pre seg post : List Entry} (h : Silent (pre ++ seg ++ post)) : Silent seg := by
  intro pre' wire taken mid wire' taken' post' eq
  exact h (pre ++ pre') wire taken mid wire' taken' (post' ++ post) (by simp [eq])

theorem Tracks.hangsUp (h : Tracks c log) (cut : Truncated log) (ks : List Call) (connected : Bool) :
    (c.pump ks connected).2 = [.closed] := by
  have inUse : c.inUse = true := by
    apply Classical.byContradiction
    intro idle
    exact h.idle (Bool.eq_false_iff.mpr idle) cut
  have broken := (h.live inUse).mpr cut
  simp [Client.pump, Client.drop, inUse, broken]

/-- **When a TCP peer sees whole frames.** The stream of every connection in a
slot is whole frames, then at most one truncated frame and a disconnect, exactly
if no frame sent on a broken socket finds room again. -/
theorem streams_whole_iff (events : List Event) : StreamsWhole events ↔ Calm {} events := by
  have ran : Extends [] (Client.run {} events) (Calm {} events) := tracks_new.run events
  have silent : Silent (Client.run {} events).2 ↔ Calm {} events := by
    rw [← List.nil_append (Client.run {} events).2, ran.silent]
    exact and_iff_right silent_nil
  constructor
  · intro whole
    exact silent.mp whole.silent
  · intro calm
    have quiet := silent.mpr calm
    constructor
    · exact quiet
    · intro pre seg post eq frames
      rw [eq] at quiet
      refine quiet.infix.wholeThenCut frames fun wire taken logged => ?_
      apply ran.tracks.takes wire taken
      rw [List.nil_append, eq]
      simp [logged]
    · intro pre wire taken mid last post eq live some'
      apply Classical.byContradiction
      intro short
      exact some' (quiet pre wire taken mid last last post eq live short)
    · intro pre ks connected post _ cut
      exact (tracks_new.run pre).tracks.hangsUp cut ks connected

/-- Two answers in one turn: the first finds the window full after one byte, the
second finds it open again. -/
def reopened : List Event :=
  [.accept true,
    .pump [.send ⟨[0x08, 0x01], 0, [⟨1, false, 0⟩, ⟨-1, true, 250⟩]⟩,
      .send ⟨[0x08, 0x02], 251, [⟨6, false, 251⟩]⟩] true]

set_option maxRecDepth 2000 in
theorem reopened_log : (Client.run {} reopened).2 =
    [.opened, .frame [5, 8, 1, 135, 132, 0] [5],
      .frame [5, 8, 2, 228, 180, 0] [5, 8, 2, 228, 180, 0], .closed] := by
  have first : frameEncodeEnvelope [0x08, 0x01] = [5, 8, 1, 135, 132, 0] := by decide
  have second : frameEncodeEnvelope [0x08, 0x02] = [5, 8, 2, 228, 180, 0] := by decide
  simp [reopened, Client.run, Client.step, Client.accept, Client.pump, Client.calls, Client.call,
    Client.sendFrame, Client.drop, Sending.sent, Sending.wire, first, second, writeLoop,
    SendCall.breaks, kWriteBudgetMs]

/-- The second answer goes out whole, right behind one byte of the first. -/
theorem reopened_not_whole : ¬StreamsWhole reopened := by
  intro whole
  have nothing := whole.silent [.opened] _ _ [] _ _ [.closed] reopened_log (by decide) (by decide)
  cases nothing

end MeshPigeon.WifiTransport
