import MeshPigeon.Framing.Stream

/-!
# Draining a transport

`frame_drain.h`: the bounded loop between a byte source and the core, and the
simulator's client, which drains a buffer it received.
-/
namespace MeshPigeon

/-- FRAME_MAX_DRAIN_PER_PUMP frames of the longest kind, in bytes. -/
def frameMaxDrainBytesPerPump : Nat := 16 * frameMaxWire

/-- What `drain_frames` has besides its reader: the two methods of `src` and the
core. All they can touch, arrivals included, is in `ρ`. -/
structure Port (ρ : Type) where
  available : ρ → Int × ρ
  read : ρ → Int × ρ
  onEnvelope : List UInt8 → ρ → ρ

/-- What a call leaves, and the bytes it read. -/
structure Drained (ρ : Type) where
  rest : ρ
  reader : FrameReader
  bytes : List UInt8

namespace Port

variable {ρ : Type}

/-- The reader's answer as the loop reads it: neither 0 nor -1 is an envelope. -/
def handOn (p : Port ρ) (fed : FrameReader.Fed) (s : ρ) : ρ :=
  match fed with
  | .envelope e => p.onEnvelope e s
  | _ => s

def drainLoop (p : Port ρ) : Nat → FrameReader → ρ → Drained ρ
  | 0, reader, s => { rest := s, reader, bytes := [] }
  | budget + 1, reader, s =>
    let look := p.available s
    if look.1 > 0 then
      let got := p.read look.2
      let byte := UInt8.ofInt got.1
      let res := reader.feed byte
      let d := drainLoop p budget res.1 (p.handOn res.2 got.2)
      { d with bytes := byte :: d.bytes }
    else { rest := look.2, reader, bytes := [] }

def drainFrames (p : Port ρ) (reader : FrameReader) (s : ρ) : Drained ρ :=
  p.drainLoop frameMaxDrainBytesPerPump reader s

theorem drainLoop_read {p : Port ρ} {reader : FrameReader} {s : ρ} (budget : Nat)
    (found : (p.available s).1 > 0) :
    p.drainLoop (budget + 1) reader s =
      let got := p.read (p.available s).2
      let res := reader.feed (UInt8.ofInt got.1)
      let d := p.drainLoop budget res.1 (p.handOn res.2 got.2)
      { d with bytes := UInt8.ofInt got.1 :: d.bytes } := by
  rw [drainLoop]
  exact if_pos found

theorem drainLoop_stop {p : Port ρ} {reader : FrameReader} {s : ρ} (budget : Nat)
    (nothing : ¬(p.available s).1 > 0) :
    p.drainLoop (budget + 1) reader s =
      { rest := (p.available s).2, reader, bytes := [] } := by
  rw [drainLoop]
  exact if_neg nothing

theorem drainLoop_bounded (p : Port ρ) (budget : Nat) (reader : FrameReader) (s : ρ) :
    (p.drainLoop budget reader s).bytes.length ≤ budget := by
  induction budget generalizing reader s with
  | zero => exact Nat.le_refl 0
  | succ budget ih =>
    by_cases found : (p.available s).1 > 0
    · rw [drainLoop_read budget found]
      exact Nat.succ_le_succ (ih _ _)
    · rw [drainLoop_stop budget found]
      exact Nat.zero_le _

/-- A drain that has budget left has looked and found nothing. -/
theorem drainLoop_stops (p : Port ρ) (budget : Nat) (reader : FrameReader) (s : ρ) :
    let d := p.drainLoop budget reader s
    d.bytes.length = budget ∨ ∃ s', (p.available s').1 ≤ 0 ∧ d.rest = (p.available s').2 := by
  induction budget generalizing reader s with
  | zero => exact .inl rfl
  | succ budget ih =>
    by_cases found : (p.available s).1 > 0
    · rw [drainLoop_read budget found]
      dsimp only
      rw [List.length_cons, Nat.add_right_cancel_iff]
      exact ih _ _
    · rw [drainLoop_stop budget found]
      exact .inr ⟨s, Int.not_lt.mp found, rfl⟩

/-- A drain feeds its reader what it read, and no more. -/
theorem drainLoop_feeds (p : Port ρ) (budget : Nat) (reader : FrameReader) (s : ρ) :
    let d := p.drainLoop budget reader s
    d.reader = reader.feedAll d.bytes := by
  induction budget generalizing reader s with
  | zero => rfl
  | succ budget ih =>
    by_cases found : (p.available s).1 > 0
    · rw [drainLoop_read budget found]
      exact ih _ _
    · rw [drainLoop_stop budget found]
      rfl

/-! ### The calls of the core -/

/-- The same port in front of a core that keeps what `on_envelope` is called with. -/
def recorded (p : Port ρ) : Port (ρ × List (List UInt8)) where
  available := fun s => ((p.available s.1).1, (p.available s.1).2, s.2)
  read := fun s => ((p.read s.1).1, (p.read s.1).2, s.2)
  onEnvelope := fun e s => (p.onEnvelope e s.1, s.2 ++ [e])

/-- One answer of the reader is one call of the core, or none. -/
theorem handOn_recorded (p : Port ρ) (fed : FrameReader.Fed) (s : ρ) (calls : List (List UInt8)) :
    p.recorded.handOn fed (s, calls) = (p.handOn fed s, calls ++ fed.received.toList) := by
  cases fed with
  | none => exact congrArg (Prod.mk s) (List.append_nil calls).symm
  | unusable => exact congrArg (Prod.mk s) (List.append_nil calls).symm
  | envelope e => rfl

/-- What a drain leaves behind the record. -/
def Drained.unrecorded (d : Drained (ρ × List (List UInt8))) : Drained ρ :=
  { rest := d.rest.1, reader := d.reader, bytes := d.bytes }

/-- The record changes nothing, and it has the envelopes of the bytes that were read. -/
theorem drainLoop_recorded (p : Port ρ) (budget : Nat) (reader : FrameReader) (s : ρ)
    (calls : List (List UInt8)) :
    let d := p.recorded.drainLoop budget reader (s, calls)
    Drained.unrecorded d = p.drainLoop budget reader s ∧
      d.rest.2 = calls ++ reader.envelopes d.bytes := by
  induction budget generalizing reader s calls with
  | zero => exact ⟨rfl, (List.append_nil calls).symm⟩
  | succ budget ih =>
    by_cases found : (p.available s).1 > 0
    · have found' : (p.recorded.available (s, calls)).1 > 0 := found
      rw [drainLoop_read budget found, drainLoop_read budget found']
      let byte := UInt8.ofInt (p.read (p.available s).2).1
      let res := reader.feed byte
      let after := p.handOn res.2 (p.read (p.available s).2).2
      obtain ⟨same, called⟩ := ih res.1 after (calls ++ res.2.received.toList)
      have hands : p.recorded.drainLoop budget res.1
          (p.recorded.handOn res.2 (p.recorded.read (p.recorded.available (s, calls)).2).2) =
            p.recorded.drainLoop budget res.1 (after, calls ++ res.2.received.toList) :=
        congrArg _ (handOn_recorded ..)
      refine ⟨?_, ?_⟩
      · exact congrArg (fun d : Drained ρ => { d with bytes := byte :: d.bytes })
          ((congrArg Drained.unrecorded hands).trans same)
      · refine (congrArg (fun d => d.rest.2) hands).trans (called.trans ?_)
        rw [List.append_assoc, ← hands]
        rfl
    · have nothing : ¬(p.recorded.available (s, calls)).1 > 0 := found
      rw [drainLoop_stop budget found, drainLoop_stop budget nothing]
      exact ⟨rfl, (List.append_nil calls).symm⟩

end Port

/-! ## A source that delivers a stream -/

/-- A source that delivers `stream` in order, whatever arrives meanwhile: a look
takes nothing, and what it found is the next byte. -/
structure ByteSource (ρ : Type) (stream : Nat → UInt8) extends Port ρ where
  /-- how many bytes have been read -/
  pos : ρ → Nat
  available_pos : ∀ s, pos (available s).2 = pos s
  read_byte : ∀ s, (available s).1 > 0 → (read (available s).2).1 = (stream (pos s)).toNat
  read_pos : ∀ s, (available s).1 > 0 → pos (read (available s).2).2 = pos s + 1
  onEnvelope_pos : ∀ e s, pos (onEnvelope e s) = pos s

/-- Whatever happens before a call, nothing else reads from the source. -/
def Interlude {ρ : Type} {stream : Nat → UInt8} (src : ByteSource ρ stream) : Type :=
  { m : ρ → ρ // ∀ s, src.pos (m s) = src.pos s }

namespace ByteSource

variable {ρ : Type} {stream : Nat → UInt8} (src : ByteSource ρ stream)

theorem handOn_pos (fed : FrameReader.Fed) (s : ρ) : src.pos (src.handOn fed s) = src.pos s := by
  cases fed with
  | none => rfl
  | unusable => rfl
  | envelope e => exact src.onEnvelope_pos e s

/-- A byte comes out of the `int` that `read` returns as it went in. -/
theorem ofInt_toNat (b : UInt8) : UInt8.ofInt (b.toNat : Int) = b := by
  have small : b.toNat % 256 = b.toNat := Nat.mod_eq_of_lt b.toNat_lt
  have whole : ((b.toNat : Int) % 256).toNat = b.toNat := by omega
  rw [UInt8.ofInt, show (2 : Int) ^ 8 = 256 from rfl, whole, UInt8.ofNat_toNat]

/-- What a drain reads is the next stretch of the stream. -/
theorem drainLoop_next (budget : Nat) (reader : FrameReader) (s : ρ) :
    let d := src.drainLoop budget reader s
    src.pos d.rest = src.pos s + d.bytes.length ∧
      d.bytes = (List.range' (src.pos s) d.bytes.length).map stream := by
  induction budget generalizing reader s with
  | zero => exact ⟨rfl, rfl⟩
  | succ budget ih =>
    by_cases found : (src.available s).1 > 0
    · rw [Port.drainLoop_read budget found]
      obtain ⟨moved, next⟩ := ih (reader.feed (UInt8.ofInt (src.read (src.available s).2).1)).1
        (src.handOn (reader.feed (UInt8.ofInt (src.read (src.available s).2).1)).2
          (src.read (src.available s).2).2)
      rw [handOn_pos, src.read_pos s found] at moved next
      have byte : UInt8.ofInt (src.read (src.available s).2).1 = stream (src.pos s) := by
        rw [src.read_byte s found]
        exact ofInt_toNat _
      refine ⟨?_, ?_⟩
      · dsimp only
        rw [moved, List.length_cons]
        omega
      · dsimp only
        rw [List.length_cons, List.range'_succ, List.map_cons, ← next, byte]
    · rw [Port.drainLoop_stop budget found]
      exact ⟨src.available_pos s, rfl⟩

/-- The source with the record beside it. -/
def recorded : ByteSource (ρ × List (List UInt8)) stream where
  toPort := src.toPort.recorded
  pos := fun s => src.pos s.1
  available_pos := fun s => src.available_pos s.1
  read_byte := fun s found => src.read_byte s.1 found
  read_pos := fun s found => src.read_pos s.1 found
  onEnvelope_pos := fun e s => src.onEnvelope_pos e s.1

/-! ### Calls in a row -/

/-- Successive calls on one reader, each after an interlude. -/
def drains : List (Interlude src) → FrameReader → ρ → List (Drained ρ)
  | [], _, _ => []
  | m :: moves, reader, s =>
    let d := src.drainFrames reader (m.1 s)
    d :: drains moves d.reader d.rest

/-- What the calls read, one after the other. -/
def bytes {ρ : Type} (calls : List (Drained ρ)) : List UInt8 := (calls.map Drained.bytes).flatten

/-- What the last of the calls leaves. -/
def left {ρ : Type} : ρ → List (Drained ρ) → ρ
  | s, [] => s
  | _, d :: calls => left d.rest calls

@[simp] theorem bytes_cons (d : Drained ρ) (calls : List (Drained ρ)) :
    bytes (d :: calls) = d.bytes ++ bytes calls := rfl

/-- What happens in an interlude is no call for this reader. -/
def unheard (m : Interlude src) : Interlude src.recorded :=
  ⟨fun s => (m.1 s.1, s.2), fun s => m.2 s.1⟩

/-- Each of the calls is one drain. -/
theorem drains_call (moves : List (Interlude src)) (reader : FrameReader) (s : ρ) :
    ∀ d ∈ src.drains moves reader s, ∃ r s', d = src.drainFrames r s' := by
  induction moves generalizing reader s with
  | nil => exact fun d mem => absurd mem List.not_mem_nil
  | cons m moves ih =>
    intro d mem
    rcases List.mem_cons.mp mem with rfl | mem
    · exact ⟨reader, m.1 s, rfl⟩
    · exact ih _ _ d mem

theorem drains_recorded (moves : List (Interlude src)) (reader : FrameReader) (s : ρ)
    (calls : List (List UInt8)) :
    let logged := src.recorded.drains (moves.map src.unheard) reader (s, calls)
    logged.map Port.Drained.unrecorded = src.drains moves reader s ∧
      (left (s, calls) logged).2 = calls ++ reader.envelopes (bytes logged) := by
  induction moves generalizing reader s calls with
  | nil => exact ⟨rfl, (List.append_nil calls).symm⟩
  | cons m moves ih =>
    let d := src.recorded.drainFrames reader (m.1 s, calls)
    obtain ⟨same, called⟩ :=
      src.toPort.drainLoop_recorded frameMaxDrainBytesPerPump reader (m.1 s) calls
    have called : d.rest.2 = calls ++ reader.envelopes d.bytes := called
    have fed : d.reader = reader.feedAll d.bytes :=
      src.recorded.drainLoop_feeds frameMaxDrainBytesPerPump reader (m.1 s, calls)
    obtain ⟨rest, more⟩ := ih d.reader d.rest.1 d.rest.2
    refine ⟨?_, ?_⟩
    · have next : src.drains (m :: moves) reader s = Port.Drained.unrecorded d ::
          src.drains moves d.reader d.rest.1 := by
        rw [drains, Port.drainFrames, ← same]
        rfl
      rw [next, ← rest]
      rfl
    · let later := src.recorded.drains (moves.map src.unheard) d.reader d.rest
      show (left d.rest later).2 = calls ++ reader.envelopes (d.bytes ++ bytes later)
      rw [FrameReader.envelopes_append, ← fed, ← List.append_assoc, ← called]
      exact more

/-- The calls read on from where the source is, and leave it behind what they read. -/
theorem drains_next (moves : List (Interlude src)) (reader : FrameReader) (s : ρ) :
    let calls := src.drains moves reader s
    src.pos (left s calls) = src.pos s + (bytes calls).length ∧
      bytes calls = (List.range' (src.pos s) (bytes calls).length).map stream := by
  induction moves generalizing reader s with
  | nil => exact ⟨rfl, rfl⟩
  | cons m moves ih =>
    obtain ⟨moved, next⟩ := src.drainLoop_next frameMaxDrainBytesPerPump reader (m.1 s)
    obtain ⟨later, rest⟩ := ih (src.drainFrames reader (m.1 s)).reader
      (src.drainFrames reader (m.1 s)).rest
    rw [m.2, ← Port.drainFrames] at moved next
    dsimp only at later rest ⊢
    rw [drains, bytes_cons, List.length_append, left, later, moved]
    refine ⟨by omega, ?_⟩
    rw [← List.range'_append_1, List.map_append, ← next, ← moved, ← rest]

end ByteSource

/-! ## The simulator's client -/

/-- A received buffer as a stream; the bytes stay, only `off` moves. -/
structure BufferStream (data : List UInt8) where
  off : Nat
  inside : off ≤ data.length

namespace BufferStream

variable {data : List UInt8} {π : Type}

def start (data : List UInt8) : BufferStream data := ⟨0, Nat.zero_le _⟩

def available (b : BufferStream data) : Int := (data.length - b.off : Nat)

def read (b : BufferStream data) : Int × BufferStream data :=
  if h : b.off < data.length then (data[b.off].toNat, ⟨b.off + 1, h⟩) else (-1, b)

/-- The buffer in front of a core with state `π`. -/
def port (data : List UInt8) (onEnvelope : List UInt8 → π → π) : Port (BufferStream data × π) where
  available := fun s => (s.1.available, s)
  read := fun s => (s.1.read.1, s.1.read.2, s.2)
  onEnvelope := fun e s => (s.1, onEnvelope e s.2)

theorem unread {b : BufferStream data} (found : b.available > 0) : b.off < data.length := by
  unfold available at found
  omega

/-- The buffer delivers its bytes in order. -/
def source (data : List UInt8) (onEnvelope : List UInt8 → π → π) :
    ByteSource (BufferStream data × π) (fun i => data.getD i 0) where
  toPort := port data onEnvelope
  pos := fun s => s.1.off
  available_pos := fun _ => rfl
  read_byte := by
    intro s found
    have h := unread found
    show s.1.read.1 = _
    rw [read, dif_pos h, List.getD_eq_getElem?_getD, List.getElem?_eq_getElem h]
    rfl
  read_pos := by
    intro s found
    show s.1.read.2.off = _
    rw [read, dif_pos (unread found)]
  onEnvelope_pos := fun _ _ => rfl

end BufferStream

/-- `recv` into a buffer of 1024 bytes. -/
inductive Recv where
  | closed
  /-- nothing now, or a dead socket -/
  | failed (again : Bool)
  | data (buf : List UInt8) (fits : buf.length ≤ 1024)

def Recv.bytes : Recv → List UInt8
  | .data buf _ => buf
  | _ => []

namespace SimClient

variable {π : Type}

/-- `Client::pump`: whether the client stays, and what was drained on the way. -/
def pump (onEnvelope : List UInt8 → π → π) (recv : Recv) (reader : FrameReader) (s : π) :
    Bool × Drained π :=
  match recv with
  | .closed => (false, { rest := s, reader, bytes := [] })
  | .failed again => (again, { rest := s, reader, bytes := [] })
  | .data buf _ =>
    let d := (BufferStream.port buf onEnvelope).drainFrames reader (BufferStream.start buf, s)
    (true, { rest := d.rest.2, reader := d.reader, bytes := d.bytes })

/-- A drain of a buffer calls the core with the envelopes of what it read, in order. -/
theorem drainLoop_folds {data : List UInt8} (onEnvelope : List UInt8 → π → π) (budget : Nat)
    (reader : FrameReader) (b : BufferStream data) (s : π) :
    let d := (BufferStream.port data onEnvelope).drainLoop budget reader (b, s)
    d.rest.2 = (reader.envelopes d.bytes).foldl (fun s e => onEnvelope e s) s := by
  induction budget generalizing reader b s with
  | zero => rfl
  | succ budget ih =>
    by_cases found : ((BufferStream.port data onEnvelope).available (b, s)).1 > 0
    · rw [Port.drainLoop_read budget found]
      let byte := UInt8.ofInt b.read.1
      have later := fun s => ih (reader.feed byte).1 b.read.2 s
      have first : ((BufferStream.port data onEnvelope).handOn (reader.feed byte).2
          (b.read.2, s)) = (b.read.2, (reader.feed byte).2.received.toList.foldl
            (fun s e => onEnvelope e s) s) := by
        cases (reader.feed byte).2 <;> rfl
      let d := (BufferStream.port data onEnvelope).drainLoop budget (reader.feed byte).1
        ((BufferStream.port data onEnvelope).handOn (reader.feed byte).2 (b.read.2, s))
      show d.rest.2 = ((reader.feed byte).2.received.toList ++
        (reader.feed byte).1.envelopes d.bytes).foldl (fun s e => onEnvelope e s) s
      rw [List.foldl_append, show d = _ from congrArg _ first]
      exact later _
    · rw [Port.drainLoop_stop budget found]
      rfl

/-- Everything received is read: the buffer is smaller than the budget. -/
theorem pump_feeds (onEnvelope : List UInt8 → π → π) (recv : Recv) (reader : FrameReader) (s : π) :
    let d := (pump onEnvelope recv reader s).2
    d.reader = reader.feedAll recv.bytes ∧
      d.rest = (reader.envelopes recv.bytes).foldl (fun s e => onEnvelope e s) s := by
  cases recv with
  | closed => exact ⟨rfl, rfl⟩
  | failed again => exact ⟨rfl, rfl⟩
  | data buf fits =>
    let src := BufferStream.source buf onEnvelope
    let d := src.drainFrames reader (BufferStream.start buf, s)
    have fed : d.reader = reader.feedAll d.bytes := src.drainLoop_feeds frameMaxDrainBytesPerPump
      reader (BufferStream.start buf, s)
    have folded : d.rest.2 = (reader.envelopes d.bytes).foldl (fun s e => onEnvelope e s) s :=
      drainLoop_folds onEnvelope frameMaxDrainBytesPerPump reader (BufferStream.start buf) s
    obtain ⟨moved, next⟩ := src.drainLoop_next frameMaxDrainBytesPerPump reader
      (BufferStream.start buf, s)
    have all : d.bytes.length = buf.length := by
      have room : buf.length < frameMaxDrainBytesPerPump := Nat.lt_of_le_of_lt fits (by decide)
      have inside : d.rest.1.off ≤ buf.length := d.rest.1.inside
      have moved : d.rest.1.off = 0 + d.bytes.length := moved
      rcases src.drainLoop_stops frameMaxDrainBytesPerPump reader (BufferStream.start buf, s) with
        spent | ⟨s', nothing, stopped⟩
      · have spent : d.bytes.length = frameMaxDrainBytesPerPump := spent
        omega
      · have stopped : d.rest = s' := stopped
        have nothing : s'.1.available ≤ 0 := nothing
        rw [← stopped, BufferStream.available] at nothing
        omega
    have whole : d.bytes = buf := by
      have next : d.bytes = (List.range' 0 d.bytes.length).map fun i => buf.getD i 0 := next
      rw [next, all]
      apply List.ext_getElem (by simp)
      intro i h h'
      simp [List.getElem?_eq_getElem h']
    rw [whole] at fed folded
    exact ⟨fed, folded⟩

/-- Successive calls: the reader they leave and what the core makes of the envelopes. -/
def pumps (onEnvelope : List UInt8 → π → π) : List Recv → FrameReader → π → List (Drained π)
  | [], _, _ => []
  | recv :: recvs, reader, s =>
    let d := (pump onEnvelope recv reader s).2
    d :: pumps onEnvelope recvs d.reader d.rest

theorem pumps_feeds (onEnvelope : List UInt8 → π → π) (recvs : List Recv) (reader : FrameReader)
    (s : π) :
    ByteSource.left s (pumps onEnvelope recvs reader s) =
      (reader.envelopes (recvs.map Recv.bytes).flatten).foldl (fun s e => onEnvelope e s) s := by
  induction recvs generalizing reader s with
  | nil => rfl
  | cons recv recvs ih =>
    obtain ⟨fed, folded⟩ := pump_feeds onEnvelope recv reader s
    rw [pumps, ByteSource.left, ih, List.map_cons, List.flatten_cons, FrameReader.envelopes_append,
      List.foldl_append, folded, fed]

end SimClient

/-- **Draining is bounded and does not see how the stream was cut.** For every
source, core and stream, and whatever arrives before, between and during the
calls: no call reads more than its budget, and one that reads less has found
nothing left; the calls together read one stretch of the stream, each byte once,
and leave the source right behind it; and the calls of `on_envelope`, as a core
keeps them that is called in place of the other and changes nothing else, are the
envelopes of feeding that stretch to one reader. The simulator's client calls its
core with the envelopes of all it receives, in whatever pieces. -/
theorem drainFrames_chunks {ρ : Type} {stream : Nat → UInt8} (src : ByteSource ρ stream)
    (moves : List (Interlude src)) (reader : FrameReader) (s : ρ) :
    let calls := src.drains moves reader s
    let logged := src.recorded.drains (moves.map src.unheard) reader (s, [])
    let read := ByteSource.bytes calls
    (∀ d ∈ calls, d.bytes.length ≤ frameMaxDrainBytesPerPump ∧
      (d.bytes.length < frameMaxDrainBytesPerPump →
        ∃ s', (src.available s').1 ≤ 0 ∧ d.rest = (src.available s').2)) ∧
      src.pos (ByteSource.left s calls) = src.pos s + read.length ∧
      read = (List.range' (src.pos s) read.length).map stream ∧
      logged.map Port.Drained.unrecorded = calls ∧
      (ByteSource.left (s, []) logged).2 = reader.envelopes read ∧
      ∀ (onEnvelope : List UInt8 → ρ → ρ) (recvs : List Recv),
        ByteSource.left s (SimClient.pumps onEnvelope recvs reader s) =
          (reader.envelopes (recvs.map Recv.bytes).flatten).foldl (fun s e => onEnvelope e s) s := by
  intro calls logged read
  obtain ⟨left_behind, stretch⟩ := src.drains_next moves reader s
  obtain ⟨same, called⟩ := src.drains_recorded moves reader s []
  refine ⟨?_, left_behind, stretch, same, ?_,
    fun onEnvelope recvs => SimClient.pumps_feeds onEnvelope recvs reader s⟩
  · intro d mem
    obtain ⟨r, s', rfl⟩ := src.drains_call moves reader s d mem
    refine ⟨src.drainLoop_bounded _ r s', fun short => ?_⟩
    rcases src.drainLoop_stops frameMaxDrainBytesPerPump r s' with spent | nothing
    · exact absurd spent (Nat.ne_of_lt short)
    · exact nothing
  · have bytes : ByteSource.bytes logged = read := by
      show _ = ByteSource.bytes calls
      rw [← show logged.map Port.Drained.unrecorded = calls from same]
      simp only [ByteSource.bytes, List.map_map]
      rfl
    rw [← bytes]
    exact called

end MeshPigeon
