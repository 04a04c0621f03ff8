import MeshPigeon.Framing.Damage
import MeshPigeon.Transport.RxFifo

/-! The frames of one central through the receive FIFO, over any writes and reads. -/
namespace MeshPigeon.RxFifo

open LossyQueue FrameReader

/-- The bytes of the frames of `es`. -/
def wire (es : List (List UInt8)) : List UInt8 := (es.map frameEncodeEnvelope).flatten

section

variable (log : List (Did UInt8)) (before : List (List UInt8)) (e : List UInt8)

/-- The FIFO accepted every byte of the frame of `e`, which comes behind those of `before`. -/
def AcceptedWhole : Prop :=
  ((settled log).drop (wire before).length).take (frameEncodeEnvelope e).length =
    (frameEncodeEnvelope e).map (·, true)

/-- What the FIFO accepted of the frames of `before`. -/
def acceptedOf : List UInt8 := marked ((settled log).take (wire before).length)

/-- How many bytes the FIFO accepted before the delimiter of the frame. -/
def delimiterAt : Nat := (acceptedOf log before).length + (frameBody e).length

end

/-- What the reader that is fed all bytes read answers to the one with index `n`. -/
def answer (bytes : List UInt8) (n : Nat) : Fed :=
  ((feedAll .new (bytes.take n)).feed (bytes.getD n 0)).2

/-- Every frame that was accepted whole is returned when its delimiter is read. -/
def Recovered (es : List (List UInt8)) (log : List (Did UInt8)) : Prop :=
  ∀ before e after, es = before ++ e :: after → e ≠ [] → AcceptedWhole log before e →
    delimiterAt log before e < (delivered log).length →
    answer (delivered log) (delimiterAt log before e) = .envelope e

/-- No such frame comes right behind a part of another: of the frames before it,
the last one of which a byte was accepted has its delimiter accepted. -/
def Spaced (es : List (List UInt8)) (log : List (Did UInt8)) : Prop :=
  ∀ before e after, es = before ++ e :: after → e ≠ [] → AcceptedWhole log before e →
    delimiterAt log before e < (delivered log).length → Delimits (acceptedOf log before)

/-- What was accepted is, in order, what was accepted before a whole frame, the frame, and more. -/
theorem AcceptedWhole.split {log : List (Did UInt8)} {before : List (List UInt8)} {e : List UInt8}
    (whole : AcceptedWhole log before e) :
    ∃ later, accepted log = acceptedOf log before ++ frameEncodeEnvelope e ++ later := by
  refine ⟨marked (((settled log).drop (wire before).length).drop (frameEncodeEnvelope e).length), ?_⟩
  have parts : settled log = (settled log).take (wire before).length ++
      (frameEncodeEnvelope e).map (·, true) ++
      ((settled log).drop (wire before).length).drop (frameEncodeEnvelope e).length := by
    rw [← whole, List.append_assoc, List.take_append_drop, List.take_append_drop]
  rw [accepted_eq_marked]
  conv_lhs => rw [parts]
  rw [marked_append, marked_append, marked_all]
  rfl

/-- A stretch of bytes read up to the delimiter of a frame. -/
theorem answer_frame {bytes past e : List UInt8} (fits : e.length ≤ 512) (nonempty : e ≠ [])
    (read : past ++ frameEncodeEnvelope e <+: bytes) :
    answer bytes (past.length + (frameBody e).length) = .envelope e ↔ Delimits past := by
  obtain ⟨more, rfl⟩ := read
  obtain ⟨segment, open', none⟩ := pending_past past
  have clean := frameBody_clean e
  have front : (past ++ frameEncodeEnvelope e ++ more).take (past.length + (frameBody e).length) =
      past ++ frameBody e := by
    rw [frameEncodeEnvelope_fits fits, ← List.append_assoc, List.append_assoc]
    exact List.take_left' (List.length_append ..)
  have last : (past ++ frameEncodeEnvelope e ++ more).getD (past.length + (frameBody e).length) 0 = 0 := by
    rw [frameEncodeEnvelope_fits fits, ← List.append_assoc, List.append_assoc]
    rw [List.getD_append_right _ _ _ _ (by rw [List.length_append]), List.length_append, Nat.sub_self]
    rfl
  have ended := ((open'.feed_clean clean).feed_delimiter).2
  rw [answer, front, last, feedAll_append, ← none]
  constructor
  · intro returned
    rw [returned] at ended
    by_contra glued
    exact accept_glued open'.clean glued ended.symm
  · rintro rfl
    rw [List.nil_append, accept_frameBody fits, if_neg nonempty] at ended
    cases fed : ((feedAll (feedAll new past) (frameBody e)).feed 0).2 with
    | envelope payload =>
      rw [fed] at ended
      exact congrArg Fed.envelope (Option.some.inj ended)
    | none => rw [fed] at ended; cases ended
    | unusable => rw [fed] at ended; cases ended

/-- **When a hole costs only the frames it hits.** For every sequence of frames
written in any pieces, any reads between, and any indices the FIFO starts from:
every frame that was accepted whole is returned if and only if none of them comes
right behind a part of a frame that lost its delimiter. -/
theorem whole_frames_returned_iff (k : Nat) (small : k < 31) (buf : Fin (2 ^ k) → UInt8) (start : UInt32)
    (es : List (List UInt8)) (fits : ∀ e ∈ es, e.length ≤ 512) (acts : List (TaskStep UInt8))
    (reads : ∀ act ∈ acts, act ≠ .clear) :
    let log := (Shared.run ⟨⟨buf, start, start⟩, []⟩ acts).2
    written log <+: wire es → (Recovered es log ↔ Spaced es log) := by
  intro log _
  obtain ⟨_, same⟩ := Shared.run_simulates small acts (s := ⟨⟨buf, start, start⟩, []⟩) (q := {})
    ⟨represents_meet buf start, rfl⟩
  have balance := (Queue.run_balance (2 ^ k) acts ({} : Queue UInt8)).entries
  have uncleared := Queue.uncleared_run (N := 2 ^ k) reads {}
  rw [← same] at balance uncleared
  rw [departed_of_uncleared uncleared, List.nil_append] at balance
  have each : ∀ before e after, es = before ++ e :: after → e ≠ [] → AcceptedWhole log before e →
      delimiterAt log before e < (delivered log).length →
      (answer (delivered log) (delimiterAt log before e) = .envelope e ↔
        Delimits (acceptedOf log before)) := by
    intro before e after split nonempty whole read
    have here : e.length ≤ 512 := fits e (by rw [split]; simp)
    obtain ⟨later, accepted⟩ := whole.split
    have front : acceptedOf log before ++ frameEncodeEnvelope e <+: LossyQueue.accepted log :=
      ⟨later, accepted.symm⟩
    refine answer_frame here nonempty (List.prefix_of_prefix_length_le front ⟨_, balance.symm⟩ ?_)
    rw [delimiterAt] at read
    rw [frameEncodeEnvelope_fits here, List.length_append, List.length_append,
      List.length_singleton]
    omega
  constructor
  · intro recovered before e after split nonempty whole read
    exact (each before e after split nonempty whole read).mp
      (recovered before e after split nonempty whole read)
  · intro spaced before e after split nonempty whole read
    exact (each before e after split nonempty whole read).mpr
      (spaced before e after split nonempty whole read)

/-! ## A frame that takes the next one down -/

/-- A part of a frame with no delimiter in it. -/
theorem not_delimits_take {e : List UInt8} {n : Nat} (positive : 0 < n)
    (short : n < (frameEncodeEnvelope e).length) : ¬Delimits ((frameEncodeEnvelope e).take n) := by
  rintro (none | ⟨earlier, ended⟩)
  · have length := congrArg List.length none
    rw [List.length_take, List.length_nil] at length
    omega
  · exact clean_of_take short (ended ▸ List.mem_append_right _ List.mem_cons_self)

/-- Both tasks in turn: a frame in any pieces, everything read, another frame, everything read. -/
def inTurn (N : Nat) (pieces : List (List UInt8)) (e' : List UInt8) : List (TaskStep UInt8) :=
  pieces.flatMap Queue.call ++ List.replicate N .read ++
    (Queue.call (frameEncodeEnvelope e') ++ List.replicate (frameEncodeEnvelope e').length .read)

theorem inTurn_reads (N : Nat) (pieces : List (List UInt8)) (e' : List UInt8) :
    ∀ act ∈ inTurn N pieces e', act ≠ .clear := by
  rintro _ mem rfl
  simp [inTurn, Queue.call] at mem

theorem ran_inTurn {N : Nat} {e e' : List UInt8} {pieces : List (List UInt8)}
    (cut : pieces.flatten = frameEncodeEnvelope e) (long : N ≤ (frameEncodeEnvelope e).length)
    (room : (frameEncodeEnvelope e').length ≤ N) :
    Queue.Ran N {} (inTurn N pieces e') {}
      (((frameEncodeEnvelope e).take N).map (·, true) ++
        ((frameEncodeEnvelope e).drop N).map (·, false) ++ (frameEncodeEnvelope e').map (·, true))
      ((frameEncodeEnvelope e).take N ++ frameEncodeEnvelope e')
      (frameEncodeEnvelope e ++ frameEncodeEnvelope e') := by
  have first := Queue.ran_calls (N := N) [] pieces
  rw [cut, List.length_nil, Nat.sub_zero, List.nil_append] at first
  have drained := Queue.ran_read (N := N) ((frameEncodeEnvelope e).take N)
  rw [List.length_take, Nat.min_eq_left long] at drained
  have second := Queue.ran_call (N := N) [] (frameEncodeEnvelope e')
  rw [List.length_nil, Nat.sub_zero, List.nil_append, List.take_of_length_le room,
    List.drop_of_length_le room, List.map_nil, List.append_nil] at second
  have all := (first.append drained).append (second.append (Queue.ran_read (frameEncodeEnvelope e')))
  simp only [List.append_nil, List.nil_append] at all
  exact all

/-- The FIFO fills before the delimiter of a frame, and what was accepted of it
takes the next frame down. -/
theorem next_frame_lost (k : Nat) (small : k < 31) (buf : Fin (2 ^ k) → UInt8) (start : UInt32)
    (pieces : List (List UInt8)) (e e' : List UInt8) (cut : pieces.flatten = frameEncodeEnvelope e)
    (long : 2 ^ k < (frameEncodeEnvelope e).length) (fits : e'.length ≤ 512) (nonempty : e' ≠ [])
    (room : (frameEncodeEnvelope e').length ≤ 2 ^ k) :
    let log := (Shared.run ⟨⟨buf, start, start⟩, []⟩ (inTurn (2 ^ k) pieces e')).2
    written log = wire [e, e'] ∧ ¬Recovered [e, e'] log := by
  intro log
  have same : log = _ := (Shared.run_simulates small _ (s := ⟨⟨buf, start, start⟩, []⟩) (q := {})
    ⟨represents_meet buf start, rfl⟩).2
  obtain ⟨_, settled, delivered, called⟩ := ran_inTurn cut (Nat.le_of_lt long) room
  rw [← same] at settled delivered called
  have one : (wire [e]).length = (frameEncodeEnvelope e).length := by simp [wire]
  have sides : (((frameEncodeEnvelope e).take (2 ^ k)).map (·, true) ++
      ((frameEncodeEnvelope e).drop (2 ^ k)).map (·, false)).length = (wire [e]).length := by
    rw [List.length_append, List.length_map, List.length_map, ← List.length_append,
      List.take_append_drop, one]
  have whole : AcceptedWhole log [e] e' := by
    rw [AcceptedWhole, settled, List.drop_left' sides, List.take_of_length_le]
    rw [List.length_map]
  have before : acceptedOf log [e] = (frameEncodeEnvelope e).take (2 ^ k) := by
    rw [acceptedOf, settled, List.take_left' sides, marked_append, marked_all, marked_none,
      List.append_nil]
  have read : acceptedOf log [e] ++ frameEncodeEnvelope e' <+: LossyQueue.delivered log :=
    ⟨[], by rw [before, delivered, List.append_nil]⟩
  refine ⟨by rw [called]; simp [wire], fun recovered => ?_⟩
  have inside : delimiterAt log [e] e' < (LossyQueue.delivered log).length := by
    have length := read.length_le
    rw [List.length_append, frameEncodeEnvelope_fits fits, List.length_append,
      List.length_singleton] at length
    exact Nat.lt_of_succ_le length
  have returned := recovered [e] e' [] rfl nonempty whole inside
  have open' := (answer_frame fits nonempty read).mp returned
  rw [before] at open'
  exact not_delimits_take (Nat.two_pow_pos k) long open'

/-- In a FIFO of 512 bytes: an envelope of 509 bytes in two writes, then one of one byte. -/
theorem whole_frame_glued :
    let long := List.replicate 509 7
    let frame := frameEncodeEnvelope long
    let log := (Shared.run (N := 2 ^ 9) ⟨⟨fun _ => 0, 0, 0⟩, []⟩
      (inTurn 512 [frame.take 512, frame.drop 512] [2])).2
    written log = wire [long, [2]] ∧ ¬Recovered [long, [2]] log := by
  intro long frame log
  have length : long.length = 509 := List.length_replicate ..
  have body := Cobs.length_lt_encode (long ++ trailer long)
  refine next_frame_lost 9 (by decide) (fun _ => 0) 0 [frame.take 512, frame.drop 512] long [2]
    ?_ ?_ (by decide) (by decide) (by decide)
  · simp only [List.flatten_cons, List.flatten_nil, List.append_nil]
    exact List.take_append_drop 512 frame
  · rw [frameEncodeEnvelope_fits (by rw [length]; decide), List.length_append, frameBody,
      List.length_singleton]
    rw [List.length_append, length, length_trailer] at body
    omega

/-- Across the wrap of both indices: with room for both, the second frame is returned; in eight
bytes what was accepted of the first takes it down. -/
theorem whole_frames_returned_iff_eight :
    let roomy := (Shared.run (N := 2 ^ 4) ⟨⟨fun _ => 0, 0xFFFFFFFE, 0xFFFFFFFE⟩, []⟩
      (inTurn 9 [frameEncodeEnvelope [1, 2, 3, 4, 5]] [6])).2
    let log := (Shared.run (N := 2 ^ 3) ⟨⟨fun _ => 0, 0xFFFFFFFE, 0xFFFFFFFE⟩, []⟩
      (inTurn 8 [frameEncodeEnvelope [1, 2, 3, 4, 5]] [6])).2
    answer (delivered roomy) (delimiterAt roomy [[1, 2, 3, 4, 5]] [6]) = .envelope [6] ∧
      ¬Spaced [[1, 2, 3, 4, 5], [6]] log := by
  intro roomy log
  constructor
  · have recovered : Recovered [[1, 2, 3, 4, 5], [6]] roomy := by
      refine (whole_frames_returned_iff 4 (by decide) (fun _ => 0) 0xFFFFFFFE _ (by decide) _
        (inTurn_reads _ _ _) ?_).mpr ?_
      · exact ⟨[], by decide +kernel⟩
      · intro before e after split _ _ _
        rcases before with _ | ⟨first, _ | ⟨second, before⟩⟩
        · exact .inl (by decide +kernel)
        · obtain ⟨rfl, _⟩ := List.cons.inj split
          exact .inr ⟨frameBody [1, 2, 3, 4, 5], by decide +kernel⟩
        · simp at split
    have whole : AcceptedWhole roomy [[1, 2, 3, 4, 5]] [6] := by
      unfold AcceptedWhole
      decide +kernel
    exact recovered [[1, 2, 3, 4, 5]] [6] [] rfl (by decide) whole (by decide +kernel)
  · obtain ⟨called, lost⟩ := next_frame_lost 3 (by decide) (fun _ => 0) 0xFFFFFFFE
      [frameEncodeEnvelope [1, 2, 3, 4, 5]] [1, 2, 3, 4, 5] [6] (List.append_nil _)
      (by decide +kernel) (by decide) (by decide) (by decide +kernel)
    intro spaced
    refine lost ((whole_frames_returned_iff 3 (by decide) (fun _ => 0) 0xFFFFFFFE _ (by decide) _
      (inTurn_reads _ _ _) ?_).mpr spaced)
    exact called ▸ List.prefix_rfl

end MeshPigeon.RxFifo
