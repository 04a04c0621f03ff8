import Mathlib.Data.List.FinRange
import MeshPigeon.Framing.Reader

/-!
# BLE on the ESP32

`BleSink` of `transports.h` for several centrals. The callbacks of the host task
and the steps of the board loop are atomic and come in any order. What the host
stack knows of its links is kept beside the members of the source: `live`,
`nextLink`, `turnedAway`, `notified`, and the `owner` of a slot.
-/
namespace MeshPigeon.Esp32Ble

abbrev kMaxCentrals : Nat := 3
abbrev kRxFifoBytes : Nat := 512

/-- One link, from its connect to its disconnect. Handles come back, links do not. -/
abbrev Link := Nat

def RxFifo : Type := { bs : List UInt8 // bs.length ≤ kRxFifoBytes }

namespace RxFifo

def clear : RxFifo := ⟨[], Nat.zero_le _⟩

/-- What does not fit is dropped. -/
def write (f : RxFifo) (data : List UInt8) : RxFifo :=
  ⟨f.1 ++ data.take (kRxFifoBytes - f.1.length), by
    have := f.2
    simp only [List.length_append, List.length_take]
    omega⟩

/-- The FIFO once `n` bytes have been read. -/
def read (f : RxFifo) (n : Nat) : RxFifo :=
  ⟨f.1.drop n, by
    have := f.2
    simp only [List.length_drop]
    omega⟩

end RxFifo

structure Connection where
  handle : UInt16 := 0
  inUse : Bool := false
  subscribed : Bool := false
  registered : Bool := false
  pendingDisconnect : Bool := false
  authenticated : Bool := false
  rx : RxFifo := RxFifo.clear
  reader : FrameReader := FrameReader.new
  /-- the link the slot was claimed for -/
  owner : Option Link := none

/-- A notification the host took: from the slot of `owner`, to `dest`. -/
structure Notification where
  owner : Option Link
  dest : Link
  bytes : List UInt8
  deriving DecidableEq, Repr

abbrev Slot := Fin kMaxCentrals

structure BleSink where
  conns : Slot → Connection := fun _ => {}
  /-- the slots in the registry of the core -/
  sinks : List Slot := []
  live : List (Link × UInt16) := []
  nextLink : Link := 0
  /-- links the board asked the stack to disconnect -/
  turnedAway : List Link := []
  notified : List Notification := []

namespace BleSink

def set (s : BleSink) (i : Slot) (c : Connection) : BleSink :=
  { s with conns := fun j => if j = i then c else s.conns j }

def find (s : BleSink) (handle : UInt16) : Option Slot :=
  (List.finRange kMaxCentrals).find? fun i => (s.conns i).inUse && (s.conns i).handle = handle

def firstFree (s : BleSink) : Option Slot :=
  (List.finRange kMaxCentrals).find? fun i => !(s.conns i).inUse

/-- The slot `c` as `claim` hands it to a link. -/
def claimed (c : Connection) (handle : UInt16) (link : Link) : Connection :=
  { c with
    handle := handle
    inUse := true
    pendingDisconnect := false
    authenticated := false
    subscribed := false
    rx := RxFifo.clear
    reader := FrameReader.reset
    owner := some link }

def handleOf (s : BleSink) (link : Link) : Option UInt16 :=
  (s.live.find? fun p => p.1 = link).map Prod.snd

def linkOf (s : BleSink) (handle : UInt16) : Option Link :=
  (s.live.find? fun p => p.2 = handle).map Prod.fst

/-! ## Callbacks -/

/-- A central connects. The stack never gives two links one handle. -/
def onConnect (s : BleSink) (handle : UInt16) : BleSink :=
  if (s.linkOf handle).isSome then s
  else
    let link := s.nextLink
    let s := { s with live := (link, handle) :: s.live, nextLink := link + 1 }
    match s.firstFree with
    | none => { s with turnedAway := link :: s.turnedAway }
    | some i => s.set i (claimed (s.conns i) handle link)

def onDisconnect (s : BleSink) (link : Link) : BleSink :=
  match s.handleOf link with
  | none => s
  | some handle =>
    let s := { s with live := s.live.filter fun p => p.1 ≠ link }
    match s.find handle with
    | none => s
    | some i => s.set i { s.conns i with pendingDisconnect := true }

def onSubscribe (s : BleSink) (link : Link) (subValue : UInt16) : BleSink :=
  match (s.handleOf link).bind s.find with
  | none => s
  | some i => s.set i { s.conns i with subscribed := subValue ≠ 0 }

def onWrite (s : BleSink) (link : Link) (data : List UInt8) : BleSink :=
  match (s.handleOf link).bind s.find with
  | none => s
  | some i => s.set i { s.conns i with rx := (s.conns i).rx.write data }

/-! ## The board loop -/

/-- One turn of the loop of `pump`, up to the drain. -/
def turn (s : BleSink) (i : Slot) (added : Bool) : BleSink :=
  let c := s.conns i
  if c.pendingDisconnect then
    let s := if c.registered then { s with sinks := s.sinks.erase i } else s
    s.set i { c with
      pendingDisconnect := false
      registered := false
      rx := RxFifo.clear
      reader := FrameReader.reset
      inUse := false }
  else if !c.inUse then s
  else if !c.registered then
    if !added then
      { s with turnedAway := c.owner.toList ++ s.turnedAway }.set i
        { c with pendingDisconnect := true }
    else { s with sinks := s.sinks ++ [i] }.set i { c with registered := true }
  else s

/-- `n` bytes of the drain. -/
def drain (s : BleSink) (i : Slot) (n : Nat) : BleSink :=
  let c := s.conns i
  if c.registered then
    s.set i { c with rx := c.rx.read n, reader := FrameReader.feedAll c.reader (c.rx.1.take n) }
  else s

/-- The chunks the host takes, by what `notify_chunk` answers for each; one past
the end of the list is refused. -/
def chunks (maxChunk : Nat) : List UInt8 → List Bool → List (List UInt8)
  | [], _ => []
  | _, [] => []
  | _, false :: _ => []
  | bytes, true :: oks => bytes.take maxChunk :: chunks maxChunk (bytes.drop maxChunk) oks

/-- The host sends to the link the handle belongs to, and to no other. -/
def sendFrame (s : BleSink) (i : Slot) (decoded : List UInt8) (mtu : UInt16) (oks : List Bool) :
    BleSink :=
  let c := s.conns i
  if !c.subscribed then s
  else
    let maxChunk := if mtu > 23 then (mtu - 3).toNat else 20
    match s.linkOf c.handle with
    | none => s
    | some dest =>
      { s with notified := s.notified ++
          (chunks maxChunk (frameEncodeEnvelope decoded) oks).map fun bytes => ⟨c.owner, dest, bytes⟩ }

end BleSink

/-- What the core does with the slots it knows, in a drain or outside of one. -/
inductive Work where
  | drain (i : Slot) (n : Nat)
  | authenticate (i : Slot) (flag : Bool)
  | send (i : Slot) (decoded : List UInt8) (mtu : UInt16) (oks : List Bool)
  deriving DecidableEq, Repr

inductive Event where
  | onConnect (handle : UInt16)
  | onSubscribe (link : Link) (subValue : UInt16)
  | onWrite (link : Link) (data : List UInt8)
  | onDisconnect (link : Link)
  | turn (i : Slot) (added : Bool)
  | work (w : Work)
  deriving DecidableEq, Repr

namespace BleSink

def work (s : BleSink) : Work → BleSink
  | .drain i n => s.drain i n
  | .authenticate i flag => s.set i { s.conns i with authenticated := flag }
  | .send i decoded mtu oks => if i ∈ s.sinks then s.sendFrame i decoded mtu oks else s

def step (s : BleSink) : Event → BleSink
  | .onConnect handle => s.onConnect handle
  | .onSubscribe link subValue => s.onSubscribe link subValue
  | .onWrite link data => s.onWrite link data
  | .onDisconnect link => s.onDisconnect link
  | .turn i added => s.turn i added
  | .work w => s.work w

def run (s : BleSink) (events : List Event) : BleSink := events.foldl step s

/-- A pump no callback interrupts: for each slot in turn, whether the core had
room to register it, and what the core did then. -/
def pump (turns : Slot → Bool × List Work) : List Event :=
  (List.finRange kMaxCentrals).flatMap fun i =>
    .turn i (turns i).1 :: (turns i).2.map Event.work

end BleSink

end MeshPigeon.Esp32Ble
