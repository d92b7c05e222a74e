import Vortice.Foundation.Outcomes
import Vortice.Foundation.Runs
import Vortice.Proto.Boundary
import Vortice.Ws.Codec

/-!
# A WebSocket as a byte stream

The stream of `stream.rs` over a transport of any kind.  A call that has to wait, or that
fails, ends there and then, and leaves the stream as it is at that point.  The frames that
were queued and the octets that the transport took are kept beside the stream; no
definition of the source reads them.
-/

namespace Vortice.Ws

open Vortice.Foundation

/-- How much encoded output may pile up before a write waits for the socket to drain. -/
def outboundHighWater : Nat := 512 * 1024

/-- How much is read from the socket in one go. -/
def readChunk : Nat := 8 * 1024

/-- Which end of the connection this is, which decides whether frames are masked. -/
inductive Side where
  | client
  | server
  deriving DecidableEq, Repr

inductive IoError where
  | noRandomness
  | invalidData (error : ProtocolError)
  | writeZero
  | transport (kind : Nat)
  deriving DecidableEq

/-- What a call of the transport answers. -/
inductive Poll (α : Type) where
  | pending
  | ready (result : Except IoError α)

/-- The transport below, and the randomness of the operating system. -/
structure Host (T : Type) where
  pollRead : T → Nat → Poll Octets × T
  pollWrite : T → Octets → Poll Nat × T
  pollFlush : T → Poll Unit × T
  pollShutdown : T → Poll Unit × T
  maskingKey : T → Option Mask × T

structure WsStream (T : Type) where
  io : T
  side : Side
  inbound : Octets
  payload : Octets
  outbound : Octets
  partialTail : Octets
  finished : Bool
  closing : Bool
  /-- The frames queued so far. -/
  queued : List Framed
  /-- The octets that the transport has taken. -/
  drained : Octets

/-- Why a call returns before its end.  A loop of the model that runs out of rounds stops
with `exhausted`. -/
inductive Stop where
  | pending
  | failed (error : IoError)
  | exhausted
  deriving DecidableEq

abbrev StreamM (T : Type) := EStateM Stop (WsStream T)

/-- `ready!(answer)?` of an answer of the transport. -/
def ready {T α : Type} : Poll α → StreamM T α
  | .pending => throw .pending
  | .ready (.error error) => throw (.failed error)
  | .ready (.ok result) => return result

namespace WsStream

variable {T : Type} (host : Host T)

/-- Wraps a transport whose handshake has already been done. -/
def new (io : T) (side : Side) (taken : Octets) : WsStream T where
  io := io
  side := side
  inbound := taken
  payload := []
  outbound := []
  partialTail := []
  finished := false
  closing := false
  queued := []
  drained := []

/-- The key of the next frame, which only a client has. -/
def nextMask : StreamM T (Option Mask) := do
  let stream ← get
  match stream.side with
  | .client =>
      set { stream with io := (host.maskingKey stream.io).2 }
      match (host.maskingKey stream.io).1 with
      | some mask => return some mask
      | none => throw (.failed .noRandomness)
  | .server => return none

/-- Puts one frame into the outgoing buffer. -/
def queue (opcode : OpCode) (payload : Octets) : StreamM T Unit := do
  let mask ← nextMask host
  modify fun stream => { stream with
    outbound := stream.outbound ++ (encodeHeader opcode true payload.length mask ++
      masking mask payload)
    queued := stream.queued ++ [⟨opcode, true, mask, payload⟩] }

/-- The loop of `queue_whole_frames`, with the payload queued so far. -/
def queueWholeFramesLoop : Nat → Nat → StreamM T Nat
  | 0, _ => throw .exhausted
  | fuel + 1, queued => do
      let stream ← get
      match Proto.frameBoundary stream.partialTail with
      | none => return queued
      | some end' =>
          set { stream with partialTail := stream.partialTail.drop end' }
          queue host .binary (stream.partialTail.take end')
          queueWholeFramesLoop fuel (queued + end')

/-- Queues every whole BEEP frame held back so far, one WebSocket frame each. -/
def queueWholeFrames : StreamM T Nat := do
  queueWholeFramesLoop host ((← get).partialTail.length + 1) 0

/-- Puts whatever is still held back on the wire, whole frame or not. -/
def flushPartial : StreamM T Unit := do
  let _ ← queueWholeFrames host
  let stream ← get
  if stream.partialTail ≠ [] then
    set { stream with partialTail := [] }
    queue host .binary stream.partialTail

/-- The loop of `poll_drain`. -/
def pollDrainLoop : Nat → StreamM T Unit
  | 0 => throw .exhausted
  | fuel + 1 => do
      let stream ← get
      if stream.outbound = [] then return ()
      else
        let answer := host.pollWrite stream.io stream.outbound
        set { stream with io := answer.2 }
        let written ← ready answer.1
        if written = 0 then throw (.failed .writeZero)
        else
          modify fun stream => { stream with
            outbound := stream.outbound.drop written
            drained := stream.drained ++ stream.outbound.take written }
          pollDrainLoop fuel

/-- Pushes as much of the outgoing buffer into the transport as it will take. -/
def pollDrain : StreamM T Unit := do
  pollDrainLoop host ((← get).outbound.length + 1)

/-- `let _ = this.poll_drain(cx)`. -/
def tryDrain : StreamM T Unit := fun stream =>
  .ok () (Computation.final (pollDrain host) stream)

/-- `let _ = this.poll_drain(cx)?`, which goes on when the transport has to wait. -/
def drainOrWait : StreamM T Unit := fun stream =>
  match pollDrain host stream with
  | .error .pending stream => .ok () stream
  | result => result

/-! ## Reading -/

/-- The frame that the inbound octets begin with, once it is whole. -/
def nextEvent : StreamM T (Option Event) := do
  let stream ← get
  match Decoder.poll stream.inbound with
  | .error error => throw (.failed (.invalidData error))
  | .ok (event, inbound) =>
      set { stream with inbound }
      return event

/-- The status code of an orderly close. -/
def normalClosure : Octets := bigEndian 2 1000

def queueClose : StreamM T Unit := do
  modify ({ · with closing := true })
  queue host .close normalClosure

/-- The end of what the peer sends; its close is answered, unless ours has been queued. -/
def answerClose : StreamM T Unit := do
  modify ({ · with finished := true })
  if (← get).closing then return ()
  else
    queueClose host
    tryDrain host

/-- One read of the transport. -/
def fill : StreamM T Unit := do
  let stream ← get
  let answer := host.pollRead stream.io readChunk
  set { stream with io := answer.2 }
  let filled ← ready answer.1
  if filled = [] then modify ({ · with finished := true })
  else modify fun stream => { stream with inbound := stream.inbound ++ filled }

/-- What is done about a frame, or for want of one. -/
def react : Option Event → StreamM T Unit
  | some (.data data) => modify fun stream => { stream with payload := stream.payload ++ data }
  | some (.ping data) => do
      queue host .pong data
      tryDrain host
  | some (.pong _) => return ()
  | some (.close _ _) => answerClose host
  | none => fill host

/-- The loop of `poll_read` for a buffer with room for `remaining` octets.  It returns what
is put into the buffer; nothing is end of file. -/
def pollRead (remaining : Nat) : Nat → StreamM T Octets
  | 0 => throw .exhausted
  | fuel + 1 => do
      let stream ← get
      if stream.payload ≠ [] then
        set { stream with payload := stream.payload.drop remaining }
        return stream.payload.take remaining
      else if stream.finished then return []
      else
        let event ← nextEvent
        react host event
        pollRead remaining fuel

/-! ## Writing -/

/-- The loop that waits for room.  A drain that is ready has emptied the buffer. -/
def makeRoom : Nat → StreamM T Unit
  | 0 => throw .exhausted
  | fuel + 1 => do
      if (← get).outbound.length ≥ outboundHighWater then
        pollDrain host
        makeRoom fuel

/-- The loop of `poll_write` over what has not been taken yet. -/
def takeFrames (buf : Octets) : Nat → Nat → Nat → StreamM T Nat
  | 0, _, _ => throw .exhausted
  | fuel + 1, taken, queued => do
      if taken < buf.length ∧ queued < maxSendBatch then
        let rest := buf.drop taken
        match Proto.frameBoundary rest with
        | some end' =>
            queue host .binary (rest.take end')
            takeFrames buf fuel (taken + end') (queued + end')
        | none =>
            modify fun stream => { stream with partialTail := stream.partialTail ++ rest }
            takeFrames buf fuel buf.length queued
      else return taken

/-- What is held back is the head of the stream, and is completed first. -/
def takeBuffer (buf : Octets) : StreamM T Nat := do
  if (← get).partialTail = [] then takeFrames host buf (buf.length + 1) 0 0
  else
    modify fun stream => { stream with partialTail := stream.partialTail ++ buf }
    let queued ← queueWholeFrames host
    takeFrames host buf (buf.length + 1) buf.length queued

/-- Takes octets to be sent, and returns how many. -/
def pollWrite (buf : Octets) : StreamM T Nat := do
  if buf = [] then return 0
  else
    makeRoom host 2
    let taken ← takeBuffer host buf
    drainOrWait host
    return taken

def pollFlush : StreamM T Unit := do
  flushPartial host
  pollDrain host
  let stream ← get
  let answer := host.pollFlush stream.io
  set { stream with io := answer.2 }
  ready answer.1

def closeOnce : StreamM T Unit := do
  if (← get).closing then return ()
  else queueClose host

def pollShutdown : StreamM T Unit := do
  flushPartial host
  closeOnce host
  pollDrain host
  let stream ← get
  let answer := host.pollShutdown stream.io
  set { stream with io := answer.2 }
  ready answer.1

end WsStream

end Vortice.Ws
