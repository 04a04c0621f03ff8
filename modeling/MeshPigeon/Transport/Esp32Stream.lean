import Mathlib.Data.List.Induction
import MeshPigeon.Framing.Stream
import MeshPigeon.Transport.Esp32Ble

/-! The byte stream of one subscribed central, over any sends and any answers of the host. -/
namespace MeshPigeon.Esp32Ble

/-- What the host answers to one notification. -/
inductive Answer where
  | accepted
  /-- BLE_HS_ENOMEM, or no buffer to put the chunk in -/
  | noMem
  | error
  deriving DecidableEq, Repr

def kNotifyWaitMs : Nat := 50

/-- The loop of `notify_chunk`, with the turns it has left. -/
def notifyLoop : Nat → List Answer → Bool
  | 0, _ => false
  | turns + 1, answers =>
    match answers.headD .noMem with
    | .accepted => true
    | .error => false
    | .noMem => notifyLoop turns answers.tail

def notifyChunk (answers : List Answer) : Bool := notifyLoop (kNotifyWaitMs + 1) answers

/-- A call of `send_frame`: the MTU of the link then, and the answers for each chunk. -/
structure Call where
  decoded : List UInt8
  mtu : UInt16
  answers : List (List Answer)
  deriving DecidableEq, Repr

/-- The host refuses a chunk, and the rest of the frame is abandoned. -/
def abandoned (maxChunk : Nat) : List UInt8 → List Bool → Bool
  | [], _ => false
  | _, [] => true
  | _, false :: _ => true
  | bytes, true :: oks => abandoned maxChunk (bytes.drop maxChunk) oks

namespace Call

def maxChunk (c : Call) : Nat := if c.mtu > 23 then (c.mtu - 3).toNat else 20

def oks (c : Call) : List Bool := c.answers.map notifyChunk

/-- The first chunk was accepted. -/
def begun (c : Call) : Bool := frameEncodeEnvelope c.decoded ≠ [] ∧ c.oks.headD false = true

/-- A chunk was not. -/
def cut (c : Call) : Bool := abandoned c.maxChunk (frameEncodeEnvelope c.decoded) c.oks

def chunks (c : Call) : List (List UInt8) :=
  BleSink.chunks c.maxChunk (frameEncodeEnvelope c.decoded) c.oks

/-- What the host takes of the call: from the slot of `owner`, to `dest`. -/
def notifications (owner : Option Link) (dest : Link) (c : Call) : List Notification :=
  c.chunks.map fun bytes => ⟨owner, dest, bytes⟩

end Call

namespace BleSink

def sends (s : BleSink) (i : Slot) (calls : List Call) : BleSink :=
  calls.foldl (fun s c => s.sendFrame i c.decoded c.mtu c.oks) s

/-- The chunks accepted in the calls, put together. -/
def accepted (s : BleSink) (i : Slot) (calls : List Call) : List UInt8 :=
  ((s.sends i calls).notified.drop s.notified.length).flatMap Notification.bytes

/-- Every frame all of whose chunks are accepted is returned by a reader that was
fed the chunks before, when it is fed those of the frame. -/
def Recovered (s : BleSink) (i : Slot) (calls : List Call) : Prop :=
  ∀ before c after, calls = before ++ c :: after → c.cut = false →
    1 ≤ c.decoded.length → c.decoded.length ≤ 512 →
    FrameReader.envelopes .new (s.accepted i (before ++ [c])) =
      FrameReader.envelopes .new (s.accepted i before) ++ [c.decoded]

/-- The last frame of which a chunk was accepted was cut. -/
def torn (calls : List Call) : Bool :=
  calls.foldl (fun torn c => if c.begun then c.cut else torn) false

/-- No frame is accepted whole right behind one that was cut. -/
def Spaced (calls : List Call) : Prop :=
  ∀ before c after, calls = before ++ c :: after → c.cut = false →
    1 ≤ c.decoded.length → c.decoded.length ≤ 512 → torn before = false

end BleSink

/-! ## The chunks of one frame -/

variable {maxChunk : Nat}

theorem chunks_prefix (positive : 0 < maxChunk) (bytes : List UInt8) (oks : List Bool) :
    ∃ n, (BleSink.chunks maxChunk bytes oks).flatten = bytes.take n ∧
      (abandoned maxChunk bytes oks = true → n < bytes.length) ∧
      (abandoned maxChunk bytes oks = false → bytes.length ≤ n) ∧
      (n = 0 ↔ bytes = [] ∨ oks.headD false = false) := by
  induction oks generalizing bytes with
  | nil =>
    cases bytes with
    | nil => exact ⟨0, rfl, by simp [abandoned], by simp, by simp⟩
    | cons b bytes => exact ⟨0, rfl, by simp, by simp [abandoned], by simp⟩
  | cons ok oks ih =>
    cases bytes with
    | nil => exact ⟨0, rfl, by simp [abandoned], by simp, by simp⟩
    | cons b bytes =>
      cases ok with
      | false => exact ⟨0, rfl, by simp, by simp [abandoned], by simp⟩
      | true =>
        obtain ⟨n, taken, short, long, _⟩ := ih ((b :: bytes).drop maxChunk)
        rw [List.length_drop] at short long
        refine ⟨maxChunk + n, ?_, ?_, ?_, ?_⟩
        · rw [BleSink.chunks, List.flatten_cons, taken, List.take_add]
          simp
        · intro given
          have := short given
          omega
        · intro given
          have := long given
          omega
        · simp
          omega

namespace Call

theorem maxChunk_pos (c : Call) : 0 < c.maxChunk := by
  unfold maxChunk
  split
  · rename_i large
    have large : (23 : UInt16).toNat < c.mtu.toNat := UInt16.lt_iff_toNat_lt.mp large
    have bound : (3 : UInt16) ≤ c.mtu := by
      rw [UInt16.le_iff_toNat_le]
      exact Nat.le_of_lt (Nat.lt_trans (by decide) large)
    rw [UInt16.toNat_sub_of_le _ _ bound]
    exact Nat.sub_pos_of_lt (Nat.lt_trans (by decide) large)
  · decide

theorem notifications_bytes (owner : Option Link) (dest : Link) (c : Call) :
    (c.notifications owner dest).flatMap Notification.bytes = c.chunks.flatten := by
  rw [notifications, List.flatMap_map, List.flatten_eq_flatMap]
  rfl

variable {c : Call}

theorem not_begun (h : c.begun = false) : c.chunks.flatten = [] := by
  obtain ⟨n, taken, _, _, zero⟩ :=
    chunks_prefix c.maxChunk_pos (frameEncodeEnvelope c.decoded) c.oks
  have nothing : n = 0 := by
    rw [zero]
    unfold begun at h
    by_cases empty : frameEncodeEnvelope c.decoded = []
    · exact .inl empty
    · exact .inr (by simpa [empty] using h)
  rw [chunks, taken, nothing, List.take_zero]

theorem cut_chunks (begun : c.begun = true) (cut : c.cut = true) :
    c.chunks.flatten ≠ [] ∧ 0 ∉ c.chunks.flatten := by
  obtain ⟨n, taken, short, _, zero⟩ :=
    chunks_prefix c.maxChunk_pos (frameEncodeEnvelope c.decoded) c.oks
  have short := short cut
  have positive : n ≠ 0 := by
    rw [ne_eq, zero]
    simpa [Call.begun] using begun
  rw [chunks, taken]
  refine ⟨?_, clean_of_take short⟩
  apply List.ne_nil_of_length_pos
  rw [List.length_take]
  omega

theorem whole_chunks (whole : c.cut = false) :
    c.chunks.flatten = frameEncodeEnvelope c.decoded := by
  obtain ⟨n, taken, _, long, _⟩ :=
    chunks_prefix c.maxChunk_pos (frameEncodeEnvelope c.decoded) c.oks
  rw [chunks, taken, List.take_of_length_le (long whole)]

end Call

/-! ## The stream -/

namespace BleSink

variable {s : BleSink} {i : Slot} {dest : Link}

theorem sendFrame_eq (subscribed : (s.conns i).subscribed = true)
    (up : s.linkOf (s.conns i).handle = some dest) (c : Call) :
    s.sendFrame i c.decoded c.mtu c.oks =
      { s with notified := s.notified ++ c.notifications (s.conns i).owner dest } := by
  simp only [sendFrame, subscribed, up, Bool.not_true, Bool.false_eq_true, if_false]
  rfl

theorem sends_eq (subscribed : (s.conns i).subscribed = true)
    (up : s.linkOf (s.conns i).handle = some dest) (calls : List Call) :
    s.sends i calls = { s with notified :=
      s.notified ++ calls.flatMap (Call.notifications (s.conns i).owner dest) } := by
  induction calls generalizing s with
  | nil => simp [sends]
  | cons c calls ih =>
    have rest := ih (s := s.sendFrame i c.decoded c.mtu c.oks)
    rw [sendFrame_eq subscribed up] at rest
    rw [sends, List.foldl_cons, sendFrame_eq subscribed up]
    refine (rest subscribed up).trans ?_
    rw [List.append_assoc]
    rfl

theorem accepted_eq (subscribed : (s.conns i).subscribed = true)
    (up : s.linkOf (s.conns i).handle = some dest) (calls : List Call) :
    s.accepted i calls = calls.flatMap fun c => c.chunks.flatten := by
  rw [accepted, sends_eq subscribed up, List.drop_left, List.flatMap_assoc]
  apply List.flatMap_congr
  intro c _
  exact Call.notifications_bytes _ _ c

theorem torn_append (calls : List Call) (c : Call) :
    torn (calls ++ [c]) = if c.begun then c.cut else torn calls := by
  simp [torn]

/-- The reader is between frames unless a frame was cut. -/
theorem pending_calls (calls : List Call) : ∃ segment,
    FrameReader.Pending
      (FrameReader.feedAll .new (calls.flatMap fun c => c.chunks.flatten)) segment ∧
    (segment = [] ↔ torn calls = false) := by
  induction calls using List.reverseRecOn with
  | nil => exact ⟨[], FrameReader.pending_reset, by simp [torn]⟩
  | append_singleton calls c ih =>
    obtain ⟨segment, pending, between⟩ := ih
    rw [List.flatMap_append, FrameReader.feedAll_append, List.flatMap_singleton, torn_append]
    cases begun : c.begun with
    | false =>
      rw [Call.not_begun begun]
      exact ⟨segment, pending, between⟩
    | true =>
      cases cut : c.cut with
      | true =>
        obtain ⟨nonempty, clean⟩ := Call.cut_chunks begun cut
        refine ⟨segment ++ c.chunks.flatten, pending.feed_clean clean, ?_⟩
        simp [nonempty]
      | false =>
        have fits : c.decoded.length ≤ 512 := by
          rw [← frameEncodeEnvelope_ne_nil]
          simp only [Call.begun, decide_eq_true_eq] at begun
          exact begun.1
        rw [Call.whole_chunks cut]
        exact ⟨[], pending.after_frame fits, by simp⟩

/-- **When every accepted frame is recovered.** For every sequence of sends on a
subscribed connection and every answer to every chunk: each frame all of whose
chunks are accepted is returned by the reader if and only if none of them comes
right behind a frame that was cut after its first chunk. -/
theorem recovered_iff_spaced (s : BleSink) (i : Slot) (calls : List Call)
    (subscribed : (s.conns i).subscribed = true)
    (up : (s.linkOf (s.conns i).handle).isSome = true) :
    s.Recovered i calls ↔ Spaced calls := by
  obtain ⟨dest, up⟩ := Option.isSome_iff_exists.mp up
  have each : ∀ before c, c.cut = false → 1 ≤ c.decoded.length → c.decoded.length ≤ 512 →
      (FrameReader.envelopes .new (s.accepted i (before ++ [c])) =
        FrameReader.envelopes .new (s.accepted i before) ++ [c.decoded] ↔
      torn before = false) := by
    intro before c whole nonempty fits
    obtain ⟨segment, pending, between⟩ := pending_calls before
    rw [accepted_eq subscribed up, accepted_eq subscribed up, List.flatMap_append,
      List.flatMap_singleton, Call.whole_chunks whole, FrameReader.envelopes_append,
      List.append_cancel_left_eq, pending.reads (List.length_pos_iff.mp nonempty) fits, between]
  constructor
  · intro recovered before c after split whole nonempty fits
    exact (each before c whole nonempty fits).mp (recovered before c after split whole nonempty fits)
  · intro spaced before c after split whole nonempty fits
    exact (each before c whole nonempty fits).mpr (spaced before c after split whole nonempty fits)

/-- A connection that is up and subscribed. -/
def subscribed : BleSink := BleSink.run {} [.onConnect 1, .onSubscribe 0 1]

/-- A frame of 24 bytes, in two chunks, and a short one. -/
def pair (answers : List (List Answer)) : List Call :=
  [⟨List.replicate 20 7, 23, answers⟩, ⟨[1], 23, [[.accepted]]⟩]

theorem recovered_iff_spaced_accepted :
    subscribed.Recovered 0 (pair [[.noMem, .accepted], [.accepted]]) ↔
      Spaced (pair [[.noMem, .accepted], [.accepted]]) :=
  recovered_iff_spaced subscribed 0 _ (by decide) (by decide)

/-- The host refuses the second chunk, and the short frame is lost with the long one. -/
theorem pair_torn : ¬subscribed.Recovered 0 (pair [[.accepted], [.error]]) := by
  intro recovered
  have second := recovered [⟨List.replicate 20 7, 23, [[.accepted], [.error]]⟩]
    ⟨[1], 23, [[.accepted]]⟩ [] rfl (by decide +kernel) (by decide) (by decide)
  exact absurd second (by decide +kernel)

end BleSink

end MeshPigeon.Esp32Ble
