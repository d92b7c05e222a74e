import Vortice.Proto.Channel
import Vortice.Proto.Codec
import Vortice.Proto.Management

/-!
# The session state machine

One conversation, driven by method calls.  A `Session` is its decoder and
unread input together with a `SessionCore`, which holds the rest of the source's
fields.  `BTreeMap`s are partial functions and `VecDeque`s lists.

`history` is a history variable: it records, in order, what was handed over for
sending, queued, written, accepted from the peer, opened and dropped, and no
function reads it.
-/

namespace Vortice.Proto

open Vortice.Foundation

inductive Role where
  | initiator
  | listener
  deriving DecidableEq, Repr

namespace Role

def firstChannel : Role → UInt32
  | .initiator => 1
  | .listener => 2

def owns (role : Role) (channel : UInt32) : Bool :=
  match role with
  | .initiator => channel % 2 = 1
  | .listener => channel % 2 = 0 && channel ≠ 0

end Role

inductive State where
  | awaitingGreeting
  | ready
  | closed
  deriving DecidableEq, Repr

/-- Something the session observed, for the layer above to act on. -/
inductive Event where
  | greetingReceived (greeting : Greeting)
  | startRequested (channel msgno : UInt32) (start : Management.Start)
  | channelOpened (channel : UInt32) (profile : Management.Profile)
  | startRefused (channel : UInt32) (error : Management.ErrorReply)
  | closeRequested (channel msgno : UInt32) (close : Management.Close)
  | channelClosed (channel : UInt32)
  | closeRefused (channel : UInt32) (error : Management.ErrorReply)
  | sessionClosed
  | messageReceived (channel : UInt32) (message : Message)
  deriving DecidableEq

structure Config where
  role : Role
  greeting : Greeting
  windowSize : UInt32
  maxFrameSize : UInt32

def defaultWindowSize : UInt32 := 32768

def Config.new (role : Role) : Config :=
  { role, greeting := Greeting.new, windowSize := defaultWindowSize
    maxFrameSize := initialWindowSize }

/-- A payload waiting for window space. -/
structure Queued where
  kind : FrameKind
  msgno : UInt32
  ansno : Option UInt32
  payload : Octets
  deriving DecidableEq

/-- What a message number on channel 0 was asking for. -/
inductive Pending where
  | start (number : UInt32)
  | close (number : UInt32)
  deriving DecidableEq

/-- An entry of the history of a session. -/
inductive Action where
  | handed (channel : UInt32) (message : Queued)
  | queued (channel : UInt32) (message : Queued)
  | wrote (frame : Frame)
  | accepted (frame : DataFrame)
  | opened (channel : UInt32)
  | dropped (channel : UInt32)
  deriving DecidableEq

/-- Everything a session holds besides its decoder and unread input. -/
structure SessionCore where
  config : Config
  state : State
  peerGreeting : Option Greeting
  zero : Channel
  channels : UInt32 → Option Channel
  queues : UInt32 → Option (List Queued)
  pending : UInt32 → Option Pending
  replyOrder : UInt32 → Option (List UInt32)
  heldReplies : UInt32 → Option (UInt32 → Option (List Queued))
  halfOpen : UInt32 → Option Management.Profile
  unacked : UInt32 → Option UInt32
  serverName : Option String
  authenticated : Option String
  nextChannel : UInt32
  outbound : Octets
  events : List Event
  history : List Action

abbrev SessionM := Op SessionCore

def isReply : FrameKind → Bool
  | .rpy | .err | .ans | .nul => true
  | .msg => false

def completesReply : FrameKind → Bool
  | .rpy | .err | .nul => true
  | .msg | .ans => false

/-- The loop of `flush`: what it leaves of the queue and the channel, and writes. -/
def flushLoop (maxFrameSize : UInt32) : List Queued → Channel →
    List Queued × Channel × List DataFrame × Except Fault Unit
  | [], channel => ([], channel, [], .ok ())
  | front :: queue, channel =>
      if channel.isStalled ∧ front.payload ≠ [] then
        (front :: queue, channel, [], .ok ())
      else
        match Channel.emit front.kind front.msgno front.ansno front.payload
            maxFrameSize channel with
        | .error fault channel => (front :: queue, channel, [], .error fault)
        | .ok emitted channel =>
            if emitted.isComplete then
              let (queue, channel, frames, result) :=
                flushLoop maxFrameSize queue channel
              (queue, channel, emitted.frames ++ frames, result)
            else
              ({ front with payload := emitted.remaining } :: queue, channel,
                emitted.frames, .ok ())

def saturatingAdd (first second : UInt32) : UInt32 :=
  if first.toNat + second.toNat < 2 ^ 32 then first + second else 4294967295

/-- How many unacknowledged octets make `acknowledge` send a `SEQ`. -/
def ackThreshold (windowSize : UInt32) : UInt32 :=
  max 1 (min (windowSize / 2) (initialWindowSize / 2))

namespace SessionCore

/-- The fields a session starts with, before its greeting is queued. -/
def fresh (config : Config) : SessionCore :=
  { config
    state := .awaitingGreeting
    peerGreeting := none
    zero := Channel.withWindowSize greetingChannel "" config.windowSize
    channels := fun _ => none
    queues := fun _ => none
    pending := fun _ => none
    replyOrder := fun _ => none
    heldReplies := fun _ => none
    halfOpen := fun _ => none
    unacked := fun _ => none
    serverName := none
    authenticated := none
    nextChannel := config.role.firstChannel
    outbound := []
    events := []
    history := [] }

/-- Channel 0, or an open channel. -/
def channelAt (s : SessionCore) (number : UInt32) : Option Channel :=
  if number = greetingChannel then some s.zero else s.channels number

def setChannel (s : SessionCore) (number : UInt32) (channel : Channel) :
    SessionCore :=
  if number = greetingChannel then { s with zero := channel }
  else { s with channels := Function.update s.channels number (some channel) }

def record (s : SessionCore) (action : Action) : SessionCore :=
  { s with history := s.history ++ [action] }

/-- Run a method of an entry of the channel table. -/
def onOpen {α : Type} (number : UInt32) (method : Op Channel α) :
    SessionM α := fun s =>
  match s.channels number with
  | none => .error (.error (.noSuchChannel number)) s
  | some channel =>
      match method channel with
      | .ok value channel =>
          .ok value { s with
            channels := Function.update s.channels number (some channel) }
      | .error fault channel =>
          .error fault { s with
            channels := Function.update s.channels number (some channel) }

/-- Run a method of channel 0. -/
def onZero {α : Type} (method : Op Channel α) : SessionM α := fun s =>
  match method s.zero with
  | .ok value zero => .ok value { s with zero }
  | .error fault zero => .error fault { s with zero }

/-- Run a method of channel 0 or of an open channel. -/
def onChannel {α : Type} (number : UInt32) (method : Op Channel α) :
    SessionM α :=
  if number = greetingChannel then onZero method else onOpen number method

def note (action : Action) : SessionM Unit := modify fun s => s.record action

/-- `Channel::accept` on the channel of a frame, which is noted when it is in turn. -/
def accept (frame : DataFrame) : SessionM (Option Message) := do
  let s ← get
  if (s.channelAt frame.channel).any fun channel => channel.admits frame then
    note (.accepted frame)
  onChannel frame.channel (Channel.accept frame)

def liftFault {α : Type} : Except Fault α → SessionM α
  | .ok value => pure value
  | .error fault => throw fault

def emitEvent (event : Event) : SessionM Unit :=
  modify fun s => { s with events := s.events ++ [event] }

/-- Append the encoding of a frame to the outbound octets. -/
def write (frame : Frame) : SessionM Unit :=
  modify fun s =>
    record { s with outbound := s.outbound ++ frame.encode } (.wrote frame)

def openChannel (number : UInt32) (profile : String) : SessionM Unit :=
  modify fun s =>
    record { s with
      channels := Function.update s.channels number
        (some (Channel.withWindowSize number profile s.config.windowSize)) }
      (.opened number)

/-! ## Queues and flow control -/

def enqueue (number : UInt32) (kind : FrameKind) (msgno : UInt32)
    (ansno : Option UInt32) (payload : Octets) : SessionM Unit :=
  modify fun s =>
    record { s with
      queues := Function.update s.queues number
        (some ((s.queues number).getD [] ++ [⟨kind, msgno, ansno, payload⟩])) }
      (.queued number ⟨kind, msgno, ansno, payload⟩)

/-- Write as much of a channel's queue as its window allows. -/
def flush (number : UInt32) : SessionM Unit := fun s =>
  match s.queues number with
  | none => .ok () s
  | some queue =>
      match s.channelAt number with
      | none => .ok () s
      | some channel =>
          let (queue, channel, frames, result) :=
            flushLoop s.config.maxFrameSize queue channel
          let s := { s.setChannel number channel with
            queues := Function.update s.queues number (some queue)
            outbound := s.outbound ++ encodeAll (frames.map .data)
            history := s.history ++ frames.map (.wrote <| .data ·) }
          match result with
          | .ok () => .ok () s
          | .error fault => .error fault s

/-- Charge received octets, reopening the window once enough have accumulated. -/
def acknowledge (number : UInt32) (octets : UInt32) : SessionM Unit := do
  let s ← get
  match s.channelAt number with
  | none => return ()
  | some channel =>
      let pending := saturatingAdd ((s.unacked number).getD 0) octets
      set { s with unacked := Function.update s.unacked number (some pending) }
      if pending ≥ ackThreshold channel.recvWindow.size then
        let seq ← onChannel number (Channel.consume pending)
        modify fun s =>
          { s with unacked := Function.update s.unacked number (some 0) }
        write (.seq seq)
      else return ()

/-- Announce a window wider than the initial one, as far as a `SEQ` can. -/
def advertiseWindow (number : UInt32) : SessionM Unit := do
  let s ← get
  if s.config.windowSize ≤ initialWindowSize then return ()
  else
    match s.channelAt number with
    | none => return ()
    | some channel =>
        match channel.recvWindow.toSeqFrame number with
        | .ok seq => write (.seq seq)
        | .error _ => return ()

def finishClose (channel : UInt32) : SessionM Unit :=
  if channel = greetingChannel then
    modify fun s =>
      record { s with
        state := .closed
        channels := fun _ => none
        queues := fun _ => none
        unacked := fun _ => none
        replyOrder := fun _ => none
        heldReplies := fun _ => none
        events := s.events ++ [.sessionClosed] } (.dropped greetingChannel)
  else
    modify fun s =>
      record { s with
        channels := Function.update s.channels channel none
        queues := Function.update s.queues channel none
        unacked := Function.update s.unacked channel none
        replyOrder := Function.update s.replyOrder channel none
        heldReplies := Function.update s.heldReplies channel none
        events := s.events ++ [.channelClosed channel] } (.dropped channel)

/-! ## Incoming frames -/

def handleSeq (seq : SeqFrame) : SessionM Unit := do
  onChannel seq.channel (modify (·.applySeq seq))
  flush seq.channel

def dispatchManagement (kind : FrameKind) (msgno : UInt32)
    (management : Management.Message) : SessionM Unit := do
  match kind, management with
  | .msg, .start start =>
      modify fun s =>
        { s with serverName := s.serverName.or start.serverName }
      emitEvent (.startRequested start.number msgno start)
  | .msg, .close close => emitEvent (.closeRequested close.number msgno close)
  | .rpy, .profile profile =>
      let s ← get
      set { s with pending := Function.update s.pending msgno none }
      match s.pending msgno with
      | some (.start number) =>
          onZero (modify (·.releaseMsgno msgno))
          modify fun s =>
            { s with halfOpen := Function.update s.halfOpen number none }
          openChannel number profile.uri
          emitEvent (.channelOpened number profile)
      | _ => raise (.unknownMsgNo msgno)
  | .rpy, .ok =>
      let s ← get
      set { s with pending := Function.update s.pending msgno none }
      match s.pending msgno with
      | some (.close number) =>
          onZero (modify (·.releaseMsgno msgno))
          finishClose number
      | _ => raise (.unknownMsgNo msgno)
  | .err, .error error =>
      let s ← get
      set { s with pending := Function.update s.pending msgno none }
      match s.pending msgno with
      | none => raise (.unknownMsgNo msgno)
      | some (.start number) =>
          onZero (modify (·.releaseMsgno msgno))
          modify fun s =>
            { s with halfOpen := Function.update s.halfOpen number none }
          emitEvent (.startRefused number error)
      | some (.close number) =>
          onZero (modify (·.releaseMsgno msgno))
          emitEvent (.closeRefused number error)
  | _, _ => raise .unexpectedElement

def handleGreeting (frame : DataFrame) : SessionM Unit := do
  let greeting ← liftFault (Greeting.fromFrame frame)
  let _ ← accept frame
  acknowledge greetingChannel frame.size
  modify fun s => { s with peerGreeting := some greeting, state := .ready }
  emitEvent (.greetingReceived greeting)

def handleChannelZero (frame : DataFrame) : SessionM Unit := do
  if (← get).state = .awaitingGreeting then handleGreeting frame
  else
    let complete ← accept frame
    acknowledge greetingChannel frame.size
    match complete with
    | none => return ()
    | some message =>
        let management ← liftFault (Management.Message.fromPayload message.payload)
        dispatchManagement message.kind message.msgno management

/-- Report a complete message, in the order of arrival when it expects a reply. -/
def deliver (number : UInt32) (message : Message) : SessionM Unit := do
  if message.kind = .msg then
    modify fun s =>
      { s with
        replyOrder := Function.update s.replyOrder number
          (some ((s.replyOrder number).getD [] ++ [message.msgno])) }
  emitEvent (.messageReceived number message)

def handleData (frame : DataFrame) : SessionM Unit := do
  if frame.channel = greetingChannel then handleChannelZero frame
  else
    let complete ← accept frame
    acknowledge frame.channel frame.size
    match complete with
    | none => return ()
    | some message => deliver frame.channel message

def handleFrame (frame : Frame) : SessionM Unit :=
  match frame with
  | .seq seq => handleSeq seq
  | .data data => handleData data

/-! ## Requests and replies on channel 0 -/

def requireReady : SessionM Unit := do
  if (← get).state = .ready then return ()
  else raise (.channelNumber "greetings have not been exchanged yet")

def writeZero (kind : FrameKind) (msgno : UInt32)
    (management : Management.Message) : SessionM Unit := do
  note (.handed greetingChannel ⟨kind, msgno, none, management.toPayload⟩)
  enqueue greetingChannel kind msgno none management.toPayload
  flush greetingChannel

def request (management : Management.Message) (pending : Pending) :
    SessionM Unit := do
  let msgno ← onZero Channel.allocateMsgno
  modify fun s =>
    { s with pending := Function.update s.pending msgno (some pending) }
  writeZero .msg msgno management

def reply (kind : FrameKind) (msgno : UInt32)
    (management : Management.Message) : SessionM Unit := do
  onZero (modify (·.replied msgno))
  writeZero kind msgno management

def startChannel (profile : Management.Profile) : SessionM UInt32 := do
  requireReady
  let number := (← get).nextChannel
  modify fun s =>
    { s with
      nextChannel := s.nextChannel + 2
      halfOpen := Function.update s.halfOpen number (some profile) }
  request (.start (Management.Start.new number profile)) (.start number)
  return number

def acceptStart (channel msgno : UInt32) (profile : Management.Profile) :
    SessionM Unit := do
  let s ← get
  if channel = greetingChannel ∨ s.config.role.owns channel then
    raise (.channelNumber "the peer may not allocate that number")
  else if (s.channels channel).isSome then
    raise (.channelNumber "already open")
  else
    openChannel channel profile.uri
    reply .rpy msgno (.profile profile)

def refuseStart (msgno : UInt32) (error : Management.ErrorReply) :
    SessionM Unit :=
  reply .err msgno (.error error)

def closeChannel (channel : UInt32) : SessionM Unit := do
  requireReady
  if channel ≠ greetingChannel ∧ ((← get).channels channel).isNone then
    raise (.noSuchChannel channel)
  else request (.close (Management.Close.new channel)) (.close channel)

def acceptClose (channel msgno : UInt32) : SessionM Unit := do
  reply .rpy msgno .ok
  finishClose channel

def refuseClose (msgno : UInt32) (error : Management.ErrorReply) :
    SessionM Unit :=
  reply .err msgno (.error error)

/-! ## Sending -/

def isNextReply (s : SessionCore) (channel msgno : UInt32) : Bool :=
  match (s.replyOrder channel).bind List.head? with
  | none => true
  | some next => next = msgno

/-- An `ANS` without an answer number is given the next one of its exchange. -/
def resolveAnsno (channel : UInt32) (kind : FrameKind) (msgno : UInt32)
    (ansno : Option UInt32) : SessionM (Option UInt32) := do
  match kind, ansno with
  | .ans, none =>
      let ansno ← onOpen channel (Channel.allocateAnsno msgno)
      return some ansno
  | .nul, ansno =>
      onOpen channel (modify (·.finishAnswers msgno))
      return ansno
  | _, ansno => return ansno

/-- Keep a reply whose turn has not come. -/
def hold (channel : UInt32) (queued : Queued) : SessionM Unit :=
  modify fun s =>
    let held := (s.heldReplies channel).getD fun _ => none
    { s with
      heldReplies := Function.update s.heldReplies channel
        (some (Function.update held queued.msgno
          (some ((held queued.msgno).getD [] ++ [queued])))) }

def popReplyOrder (channel : UInt32) : SessionM Unit :=
  modify fun s =>
    { s with
      replyOrder := Function.update s.replyOrder channel
        ((s.replyOrder channel).map List.tail) }

def takeHeld (channel next : UInt32) : SessionM Unit :=
  modify fun s =>
    { s with
      heldReplies := Function.update s.heldReplies channel
        ((s.heldReplies channel).map fun held =>
          Function.update held next none) }

def enqueueAll (channel : UInt32) : List Queued → SessionM Unit
  | [] => return ()
  | queued :: held => do
      enqueue channel queued.kind queued.msgno queued.ansno queued.payload
      enqueueAll channel held

/-- The loop of `reply_finished`, one round per message whose turn has come. -/
def releaseHeld (channel : UInt32) : Nat → SessionM Unit
  | 0 => throw .exhausted
  | fuel + 1 => do
      let s ← get
      match (s.replyOrder channel).bind List.head? with
      | none => return ()
      | some next =>
          match (s.heldReplies channel).bind (· next) with
          | none => return ()
          | some held =>
              takeHeld channel next
              enqueueAll channel held
              flush channel
              if held.any fun queued => completesReply queued.kind then
                popReplyOrder channel
                releaseHeld channel fuel
              else return ()

def replyFinished (channel msgno : UInt32) : SessionM Unit := do
  if ((← get).replyOrder channel).bind List.head? = some msgno then
    popReplyOrder channel
  releaseHeld channel ((((← get).replyOrder channel).getD []).length + 1)

def send (channel : UInt32) (kind : FrameKind) (msgno : UInt32)
    (ansno : Option UInt32) (payload : Octets) : SessionM Unit := do
  if ((← get).channels channel).isNone then raise (.noSuchChannel channel)
  else
    let ansno ← resolveAnsno channel kind msgno ansno
    note (.handed channel ⟨kind, msgno, ansno, payload⟩)
    if isReply kind && !(← get).isNextReply channel msgno then
      hold channel ⟨kind, msgno, ansno, payload⟩
    else
      enqueue channel kind msgno ansno payload
      flush channel
      if completesReply kind then replyFinished channel msgno
      else return ()

def sendMsg (channel : UInt32) (payload : Octets) : SessionM UInt32 := do
  let msgno ← onOpen channel Channel.allocateMsgno
  send channel .msg msgno none payload
  return msgno

def setWindowSize (channel size : UInt32) : SessionM Unit :=
  onOpen channel (modify (·.setRecvWindowSize size))

def pollTransmit : SessionM (Option Octets) := do
  let s ← get
  if s.outbound = [] then return none
  else
    set { s with outbound := [] }
    return some s.outbound

def pollEvent : SessionM (Option Event) := do
  let s ← get
  match s.events with
  | [] => return none
  | event :: events =>
      set { s with events }
      return some event

def setAuthenticated (identity : String) : SessionM Unit :=
  modify fun s => { s with authenticated := some identity }

def setServerName (name : String) : SessionM Unit :=
  modify fun s => { s with serverName := some name }

/-- Queue and write the greeting, then announce the window. -/
def greet : SessionM Unit := do
  let greeting := (← get).config.greeting
  note (.handed greetingChannel ⟨.rpy, 0, none, greeting.toPayload⟩)
  enqueue greetingChannel .rpy 0 none greeting.toPayload
  flush greetingChannel
  advertiseWindow greetingChannel

end SessionCore

/-! ## The session -/

structure Session where
  core : SessionCore
  decoder : Decoder
  inbound : Octets

namespace Session

def new (config : Config) : Except Fault Session :=
  match SessionCore.greet (SessionCore.fresh config) with
  | .ok () core => .ok { core, decoder := Decoder.new, inbound := [] }
  | .error _ _ => .error .panic

/-- The loop of `handle_input` over the frames the decoder yields. -/
def handleFrames : Nat → Session → Session × Except Fault Unit
  | 0, session => (session, .error .exhausted)
  | fuel + 1, session =>
      match session.decoder.decode session.inbound with
      | (decoder, inbound, .error error) =>
          ({ session with decoder, inbound }, .error (.error error))
      | (decoder, inbound, .ok none) => ({ session with decoder, inbound }, .ok ())
      | (decoder, inbound, .ok (some frame)) =>
          match SessionCore.handleFrame frame session.core with
          | .error fault core => ({ core, decoder, inbound }, .error fault)
          | .ok () core => handleFrames fuel { core, decoder, inbound }

def handleInput (session : Session) (input : Octets) :
    Session × Except Fault Unit :=
  let session := { session with inbound := session.inbound ++ input }
  handleFrames (session.inbound.length + 1) session

def bufferedInput (session : Session) : Nat := session.inbound.length

end Session

end Vortice.Proto
