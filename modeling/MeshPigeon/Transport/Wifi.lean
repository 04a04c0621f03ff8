import Mathlib.Data.List.Basic
import MeshPigeon.Framing.Framing

/-!
# TCP clients

`wifi_transport.cpp`: one slot of the client array, from the board loop's side.
What a socket answers to `::send` comes with each call. The log records what
the peer of the socket in the slot could see.
-/
namespace MeshPigeon.WifiTransport

def kWriteBudgetMs : UInt32 := 250

/-- One turn of the write loop: what `::send` answered, whether `errno` says to
try again, and `millis()` after it. -/
structure SendCall where
  r : Int
  wouldBlock : Bool
  now : UInt32
  deriving DecidableEq, Repr

/-- The loop gives up: the socket failed, or the budget is used up. -/
def SendCall.breaks (call : SendCall) (start : UInt32) : Bool :=
  (call.r < 0 && !call.wouldBlock) || call.now - start ≥ kWriteBudgetMs

/-- The loop of `send_frame`: how much of the `n` bytes was sent. A socket never
takes more than it is offered. Where the list ends early, the window stays full
until the budget is used up. -/
def writeLoop (n : Nat) (start : UInt32) : List SendCall → Nat → Nat
  | [], sent => sent
  | call :: calls, sent =>
    if sent < n then
      if call.r > 0 then writeLoop n start calls (sent + min call.r.toNat (n - sent))
      else if call.breaks start then sent
      else writeLoop n start calls sent
    else sent

/-- One call of `send_frame`, with the answers it gets. -/
structure Sending where
  decoded : List UInt8
  start : UInt32
  calls : List SendCall
  deriving DecidableEq, Repr

def Sending.wire (f : Sending) : List UInt8 := frameEncodeEnvelope f.decoded

def Sending.sent (f : Sending) : Nat := writeLoop f.wire.length f.start f.calls 0

structure Client where
  inUse : Bool := false
  broken : Bool := false
  deriving DecidableEq, Repr

inductive Entry where
  | opened
  /-- of the wire form of a frame, the socket took these bytes -/
  | frame (wire taken : List UInt8)
  | closed
  deriving DecidableEq, Repr

namespace Client

/-- A slot whose socket was stopped has no descriptor, so its `::send` fails. -/
def sendFrame (c : Client) (f : Sending) : Client × List Entry :=
  if c.inUse then
    ({ c with broken := c.broken || f.sent ≠ f.wire.length },
      [.frame f.wire (f.wire.take f.sent)])
  else ({ c with broken := c.broken || 0 ≠ f.wire.length }, [])

def drop (c : Client) : Client × List Entry :=
  if c.inUse then ({ c with inUse := false }, [.closed]) else (c, [])

/-- The slot's turn in `accept_clients`, once a socket has been accepted. -/
def accept (c : Client) (added : Bool) : Client × List Entry :=
  if c.inUse then (c, [])
  else if added then ({ inUse := true, broken := false }, [.opened])
  else ({ inUse := false, broken := false }, [.opened, .closed])

end Client

/-- What the processor makes of a slot: a frame to send, or `apply_wifi` and with it `stop_server`. -/
inductive Call where
  | send (f : Sending)
  | stopServer
  deriving DecidableEq, Repr

inductive Event where
  | accept (added : Bool)
  /-- from another connection's request, or from the radio -/
  | call (call : Call)
  /-- the slot's turn in `pump_clients`: what the bytes waiting lead to, and
  whether the peer is still there -/
  | pump (calls : List Call) (connected : Bool)
  deriving DecidableEq, Repr

namespace Client

def call (c : Client) : Call → Client × List Entry
  | .send f => c.sendFrame f
  | .stopServer => c.drop

def calls (c : Client) : List Call → Client × List Entry
  | [] => (c, [])
  | k :: ks =>
    let r := c.call k
    let r' := r.1.calls ks
    (r'.1, r.2 ++ r'.2)

/-- One turn of the loop of `pump_clients`. -/
def pump (c : Client) (ks : List Call) (connected : Bool) : Client × List Entry :=
  if c.inUse then
    let drained := if c.broken then (c, []) else c.calls ks
    if drained.1.broken || !connected then
      let dropped := drained.1.drop
      (dropped.1, drained.2 ++ dropped.2)
    else drained
  else (c, [])

def step (c : Client) : Event → Client × List Entry
  | .accept added => c.accept added
  | .call k => c.call k
  | .pump ks connected => c.pump ks connected

def run (c : Client) : List Event → Client × List Entry
  | [] => (c, [])
  | e :: es =>
    let r := c.step e
    let r' := r.1.run es
    (r'.1, r.2 ++ r'.2)

end Client

end MeshPigeon.WifiTransport
