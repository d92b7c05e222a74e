import Mathlib.Data.Finset.Insert
import Vortice.Foundation.Computation
import Vortice.Proto.Window

/-!
# Per-channel state

Message numbering, flow control and reassembly of one channel.  Sets of message
numbers are finite sets, the answer counters a partial map, and a payload the
window cannot take is handed back to the caller.
-/

namespace Vortice.Proto

open Vortice.Foundation

/-- A method on a mutable receiver, which an error leaves as it then is. -/
abbrev Op (σ α : Type) := EStateM Fault σ α

def raise {σ α : Type} (error : Error) : Op σ α := throw (.error error)

def liftError {σ α : Type} : Except Error α → Op σ α
  | .ok value => pure value
  | .error error => raise error

/-- What one call of `emit` produced. -/
structure Emitted where
  frames : List DataFrame
  remaining : Octets

def Emitted.isComplete (emitted : Emitted) : Bool := emitted.remaining = []

/-- A message reassembled from one or more frames. -/
structure Message where
  kind : FrameKind
  msgno : UInt32
  ansno : Option UInt32
  payload : Octets
  deriving DecidableEq

/-- A message being reassembled from continuation frames. -/
structure Partial where
  kind : FrameKind
  msgno : UInt32
  ansno : Option UInt32
  payload : Octets
  deriving DecidableEq

def Partial.matchesFrame (fragment : Partial) (frame : DataFrame) : Bool :=
  fragment.kind = frame.kind && fragment.msgno = frame.msgno &&
    fragment.ansno = frame.ansno

structure Channel where
  number : UInt32
  profile : String
  sendWindow : Window
  nextSeqno : SeqNo
  nextMsgno : UInt32
  outstanding : Finset UInt32
  nextAnsno : UInt32 → Option UInt32
  recvWindow : Window
  expectedSeqno : SeqNo
  awaitingReply : Finset UInt32
  partialMessage : Option Partial

namespace Channel

def withWindowSize (number : UInt32) (profile : String) (windowSize : UInt32) :
    Channel :=
  { number, profile
    sendWindow := ⟨0, initialWindowSize⟩
    nextSeqno := 0
    nextMsgno := 0
    outstanding := ∅
    nextAnsno := fun _ => none
    recvWindow := ⟨0, windowSize⟩
    expectedSeqno := 0
    awaitingReply := ∅
    partialMessage := none }

/-! ## Outgoing -/

def writable (channel : Channel) : UInt32 :=
  channel.sendWindow.remaining channel.nextSeqno

def isStalled (channel : Channel) : Bool := channel.writable = 0

def allocateMsgnoLoop : Nat → Op Channel UInt32
  | 0 => raise .msgNoExhausted
  | fuel + 1 => do
      let channel ← get
      let candidate := channel.nextMsgno
      set { channel with
        nextMsgno := if candidate = maxMsgNo then 0 else candidate + 1 }
      if candidate ∉ channel.outstanding then
        modify fun channel =>
          { channel with outstanding := insert candidate channel.outstanding }
        return candidate
      else allocateMsgnoLoop fuel

def allocateMsgno : Op Channel UInt32 := allocateMsgnoLoop (maxMsgNo.toNat + 1)

def reserveMsgno (msgno : UInt32) : Op Channel Unit := do
  if msgno > maxMsgNo then raise (.valueOutOfRange "msgno" maxMsgNo)
  else if msgno ∈ (← get).outstanding then raise (.msgNoInUse msgno)
  else
    modify fun channel =>
      { channel with
        outstanding := insert msgno channel.outstanding
        nextMsgno := if msgno = maxMsgNo then 0 else msgno + 1 }

def releaseMsgno (channel : Channel) (msgno : UInt32) : Channel :=
  { channel with outstanding := channel.outstanding.erase msgno }

def newFrame (channel : Channel) (kind : FrameKind) (msgno : UInt32)
    (ansno : Option UInt32) (payload : Octets) : Except Error DataFrame :=
  match ansno with
  | some ansno =>
      DataFrame.newAns channel.number msgno channel.nextSeqno ansno payload
  | none => DataFrame.new kind channel.number msgno channel.nextSeqno payload

/-- One frame, its payload charged against the outgoing counter. -/
def build (kind : FrameKind) (msgno : UInt32) (ansno : Option UInt32)
    (payload : Octets) (more : Bool) : Op Channel DataFrame := do
  if payload.length < 2 ^ 32 then
    let channel ← get
    let frame ← liftError (channel.newFrame kind msgno ansno payload)
    set { channel with
      nextSeqno := SeqNo.advance channel.nextSeqno (UInt32.ofNat payload.length) }
    return frame.withMore more
  else raise (.frameTooLarge maxFrameSize maxFrameSize)

/-- How many octets of `head` go into the next frame. -/
def chunkLen (chunkLimit : UInt32) (head : Octets) : Nat :=
  min chunkLimit.toNat (min head.length (2 ^ 32 - 1))

/-- The loop of `emit`, cutting `head` into frames of at most `chunkLimit` octets. -/
def emitLoop (kind : FrameKind) (msgno : UInt32) (ansno : Option UInt32)
    (chunkLimit : UInt32) (remaining : Octets) :
    Nat → Octets → Op Channel (List DataFrame)
  | 0, _ => throw .exhausted
  | fuel + 1, head =>
      if head = [] then return []
      else do
        let chunk := head.take (chunkLen chunkLimit head)
        let head := head.drop (chunkLen chunkLimit head)
        let more := head ≠ [] || remaining ≠ []
        let frame ← build kind msgno ansno chunk more
        let frames ← emitLoop kind msgno ansno chunkLimit remaining fuel head
        return frame :: frames

def clampChunk (size : UInt32) : UInt32 := max 1 (min size Proto.maxFrameSize)

def emit (kind : FrameKind) (msgno : UInt32) (ansno : Option UInt32)
    (payload : Octets) (maxFrameSize : UInt32) : Op Channel Emitted := do
  if kind.hasAnsno ≠ ansno.isSome then raise (.missingField "ansno")
  else if payload = [] then
    let frame ← build kind msgno ansno [] false
    return { frames := [frame], remaining := [] }
  else
    let budget := (← get).writable
    if budget = 0 then raise .channelStalled
    else
      let total := min payload.length (2 ^ 32 - 1)
      let head := payload.take (min budget.toNat total)
      let remaining := payload.drop (min budget.toNat total)
      let frames ← emitLoop kind msgno ansno (clampChunk maxFrameSize) remaining
        (head.length + 1) head
      return { frames, remaining }

def allocateAnsno (msgno : UInt32) : Op Channel UInt32 := do
  let channel ← get
  let ansno := (channel.nextAnsno msgno).getD 0
  set { channel with
    nextAnsno := Function.update channel.nextAnsno msgno (some (ansno + 1)) }
  return ansno

def finishAnswers (channel : Channel) (msgno : UInt32) : Channel :=
  { channel with nextAnsno := Function.update channel.nextAnsno msgno none }

def applySeq (channel : Channel) (seq : SeqFrame) : Channel :=
  { channel with sendWindow := channel.sendWindow.updated seq.ackno seq.window }

/-! ## Incoming -/

/-- A frame that continues the octet stream inside the offered window. -/
def admits (channel : Channel) (frame : DataFrame) : Bool :=
  frame.seqno = channel.expectedSeqno &&
    channel.recvWindow.accepts frame.seqno frame.size

def accept (frame : DataFrame) : Op Channel (Option Message) := do
  let channel ← get
  if frame.seqno ≠ channel.expectedSeqno then
    raise (.unexpectedSeqNo frame.seqno channel.expectedSeqno)
  else if !channel.recvWindow.accepts frame.seqno frame.size then
    raise (.outsideWindow frame.seqno frame.size channel.recvWindow.limit)
  else
    set { channel with
      expectedSeqno := SeqNo.advance frame.seqno frame.size
      awaitingReply :=
        if frame.kind = FrameKind.msg ∧ !frame.more then
          insert frame.msgno channel.awaitingReply
        else channel.awaitingReply
      partialMessage := none }
    match channel.partialMessage with
    | some fragment =>
        if !fragment.matchesFrame frame then raise .interleavedFragment
        else
          let fragment :=
            { fragment with payload := fragment.payload ++ frame.payload }
          if frame.more then
            modify fun channel => { channel with partialMessage := some fragment }
            return none
          else
            return some { kind := fragment.kind, msgno := fragment.msgno
                          ansno := fragment.ansno, payload := fragment.payload }
    | none =>
        if frame.more then
          modify fun channel =>
            { channel with
              partialMessage :=
                some { kind := frame.kind, msgno := frame.msgno
                       ansno := frame.ansno, payload := frame.payload } }
          return none
        else
          return some { kind := frame.kind, msgno := frame.msgno
                        ansno := frame.ansno, payload := frame.payload }

def replied (channel : Channel) (msgno : UInt32) : Channel :=
  { channel with awaitingReply := channel.awaitingReply.erase msgno }

def consume (octets : UInt32) : Op Channel SeqFrame := do
  modify fun channel =>
    { channel with recvWindow := channel.recvWindow.consumed octets }
  let channel ← get
  liftError (channel.recvWindow.toSeqFrame channel.number)

def setRecvWindowSize (channel : Channel) (size : UInt32) : Channel :=
  { channel with recvWindow := channel.recvWindow.resized size }

end Channel

end Vortice.Proto
