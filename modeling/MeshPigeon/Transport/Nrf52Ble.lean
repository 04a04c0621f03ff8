import MeshPigeon.Framing.Reader

/-!
# BLE on the nRF52

`BleSink` of `transports.h` for a single central, with one queue, one reader and
one auth flag for whoever is connected. Callbacks fall between the calls of the
board loop. What is kept beside the members of the source: which link is up,
which link a queued frame, a received byte and the session belong to, and what
was passed to `bleuart.write` and read from the FIFO.
-/
namespace MeshPigeon.Nrf52Ble

abbrev kQueueDepth : Nat := 16
def kChunk : Nat := 20
def kDrainWaitMs : Nat := 50
def kRxFifoBytes : Nat := 512

/-- One link, from its connect to its disconnect, in the order they come up. -/
abbrev Link := Nat

structure Queued where
  buf : List UInt8
  off : Nat
  /-- the link that was up when the frame was queued -/
  link : Link
  deriving DecidableEq, Repr

/-- The bytes of a frame passed to `bleuart.write`, the link they went to, how
many of them it took, and the frame if these were its last. -/
structure Passed where
  frame : Link
  central : Option Link
  bytes : List UInt8
  written : Nat
  done : Option (List UInt8)
  deriving DecidableEq, Repr

/-- A byte read from the FIFO and fed to the reader: who wrote it, and whose
session it was read under. -/
structure Read where
  writer : Link
  session : Option Link
  deriving DecidableEq, Repr

structure BleSink where
  queue : List Queued := []
  rx : List (Link × UInt8) := []
  reader : FrameReader := FrameReader.new
  connectedFlag : Bool := false
  dropPending : Bool := false
  /-- the auth flag, as the link whose request set it -/
  session : Option Link := none
  /-- the link the stack has up -/
  central : Option Link := none
  nextLink : Link := 0
  passed : List Passed := []
  reads : List Read := []
  deriving DecidableEq, Repr

namespace BleSink

def connected (s : BleSink) : Bool := s.connectedFlag && s.central.isSome

/-! ## Callbacks -/

def onConnect (s : BleSink) : BleSink :=
  if s.central.isSome then s
  else { s with central := some s.nextLink, nextLink := s.nextLink + 1, connectedFlag := true }

def onDisconnect (s : BleSink) : BleSink :=
  if s.central.isSome then { s with central := none, connectedFlag := false, dropPending := true }
  else s

/-- The central writes; what the FIFO has no room for is lost. -/
def onWrite (s : BleSink) (data : List UInt8) : BleSink :=
  match s.central with
  | none => s
  | some link =>
    { s with rx := s.rx ++ (data.take (kRxFifoBytes - s.rx.length)).map fun b => (link, b) }

/-! ## The board loop -/

/-- The start of `pump`: what the link that went away left behind is dropped. -/
def dropLost (s : BleSink) : BleSink :=
  if s.dropPending then
    { s with
      dropPending := false, queue := [], session := none, rx := [], reader := FrameReader.reset }
  else s

/-- One turn of `drain_frames`: a byte is read, and a complete envelope goes to
the core, which may set the flag. -/
def readByte (s : BleSink) (auth : Bool) : BleSink :=
  match s.rx with
  | [] => s
  | (writer, byte) :: rx =>
    let fed := s.reader.feed byte
    let s := { s with rx, reader := fed.1, reads := s.reads ++ [⟨writer, s.session⟩] }
    match fed.2 with
    | .envelope _ => if auth then { s with session := some writer } else s
    | _ => s

/-- `drain_step`, with what `bleuart.write` answers; it takes no more than it is given. -/
def drainStep (s : BleSink) (written : Nat) : BleSink × Bool :=
  if !s.connected then (s, false)
  else match s.queue with
    | [] => (s, false)
    | q :: rest =>
      let chunk := min (q.buf.length - q.off) kChunk
      let written := min written chunk
      let off := q.off + written
      let done := if written ≠ 0 ∧ off = q.buf.length then some q.buf else none
      let s := { s with
        passed := s.passed ++
          [⟨q.link, s.central, (q.buf.drop q.off).take chunk, written, done⟩] }
      if written = 0 then (s, false)
      else
        if off = q.buf.length then ({ s with queue := rest }, true)
        else ({ s with queue := { q with off } :: rest }, true)

/-- The loop of `make_room`, with the milliseconds it may still wait. -/
def makeRoomLoop : Nat → List Nat → BleSink → BleSink
  | wait, writes, s =>
    if s.queue = [] then s
    else
      let r := s.drainStep (writes.headD 0)
      if r.2 then r.1
      else match wait with
        | 0 => r.1
        | wait + 1 =>
          if !r.1.connected then { r.1 with queue := [] }
          else makeRoomLoop wait writes.tail r.1

def makeRoom (s : BleSink) (writes : List Nat) : BleSink :=
  let s := makeRoomLoop kDrainWaitMs writes s
  -- still stuck: drop the backlog
  if s.queue.length = kQueueDepth then { s with queue := [] } else s

def sendFrame (s : BleSink) (decoded : List UInt8) (writes : List Nat) : BleSink :=
  if !s.connected then s
  else match s.central with
    | none => s
    | some link =>
      let s := s.makeRoom writes
      if s.queue.length = kQueueDepth then s
      else { s with queue := s.queue ++ [⟨frameEncodeEnvelope decoded, 0, link⟩] }

/-- The loop of `flush`. A turn takes a byte off the queue or a millisecond off
the wait, which bounds the turns. -/
def flushLoop : Nat → Nat → List Nat → BleSink → BleSink
  | 0, _, _, s => s
  | turns + 1, wait, writes, s =>
    if s.queue = [] ∨ wait = 0 then s
    else
      let r := s.drainStep (writes.headD 0)
      flushLoop turns (if r.2 then wait else wait - 1) writes.tail r.1

def flush (s : BleSink) (timeoutMs : Nat) (writes : List Nat) : BleSink :=
  flushLoop ((s.queue.map fun q => q.buf.length - q.off).sum + timeoutMs) timeoutMs writes s

/-- What every `drain_step` keeps, a flush keeps. -/
theorem flushLoop_rule {P : BleSink → Prop} (keeps : ∀ s written, P s → P (s.drainStep written).1)
    (turns wait : Nat) (writes : List Nat) {s : BleSink} (h : P s) :
    P (flushLoop turns wait writes s) := by
  induction turns generalizing wait writes s with
  | zero => exact h
  | succ turns ih =>
    unfold flushLoop
    split
    · exact h
    · exact ih _ _ (keeps s _ h)

end BleSink

inductive Event where
  | onConnect
  | onDisconnect
  | onWrite (data : List UInt8)
  /-- the start of a pump -/
  | dropLost
  | readByte (auth : Bool)
  /-- another connection rotates the PIN -/
  | logOut
  | sendFrame (decoded : List UInt8) (writes : List Nat)
  /-- the end of a pump -/
  | drainStep (written : Nat)
  | flush (timeoutMs : Nat) (writes : List Nat)
  deriving DecidableEq, Repr

namespace BleSink

def step (s : BleSink) : Event → BleSink
  | .onConnect => s.onConnect
  | .onDisconnect => s.onDisconnect
  | .onWrite data => s.onWrite data
  | .dropLost => s.dropLost
  | .readByte auth => s.readByte auth
  | .logOut => { s with session := none }
  | .sendFrame decoded writes => s.sendFrame decoded writes
  | .drainStep written => (s.drainStep written).1
  | .flush timeoutMs writes => s.flush timeoutMs writes

def run (s : BleSink) (events : List Event) : BleSink := events.foldl step s

/-- A pump: the bytes it reads and the frames the core answers with, between its two ends. -/
def pump (drained : List Event) (written : Nat) : List Event :=
  .dropLost :: drained ++ [.drainStep written]

end BleSink

end MeshPigeon.Nrf52Ble
