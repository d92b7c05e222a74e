import Vortice.Foundation.Runs
import Vortice.Foundation.Tables
import Vortice.Proto.Answers

/-!
# The task that drives a session

The driver of `connection.rs` with the session it owns, the callers it has to answer and the
octets it has to write.  A `oneshot` sender is a ticket, and what it is completed with is
kept beside the driver, as are the octets that the transport has taken and the queues that
the readers of channels hold the other end of.

`callers`, `journal` and what an `Inbound` reports are history variables: no function reads
them.
-/

namespace Vortice.Conn

open Vortice.Foundation Vortice.Proto

/-- How many messages may pile up on a channel before the driver stops accepting more. -/
def inboundQueue : Nat := 64

abbrev Ticket := Nat

/-- Tells one inbound queue from another, by its place. -/
abbrev Pipe := Nat

inductive Failure where
  | io (kind : Nat)
  | protocol (fault : Fault)
  | refused (error : Management.ErrorReply)
  | closed

/-- What whoever waits for the greeting is told when the loop comes to its end. -/
def Failure.ofEnd : Except Failure Unit → Failure
  | .ok () => .closed
  | .error failure => failure

inductive Reply where
  | rpy (body : Octets)
  | err (body : Octets)
  | answers (bodies : List Octets)
  deriving DecidableEq

inductive Answer where
  | greeting (result : Except Failure Greeting)
  | channel (result : Except Failure (UInt32 × Management.Profile × Pipe))
  | done (result : Except Failure Unit)
  | reply (result : Except Failure Reply)
  | name (name : Option String)
  /-- The sender was dropped, which its receiver takes for the end of the session. -/
  | dropped

/-- How it goes to write out what is left, of which `count` octets are taken when it fails,
and to replace the transport. -/
structure Swap where
  count : Nat
  written : Except Failure Unit
  swapped : Except Failure Unit

inductive Command where
  | openChannel (profile : Management.Profile)
  | closeChannel (number : UInt32)
  | request (channel : UInt32) (payload : Octets)
  | send (channel : UInt32) (kind : FrameKind) (msgno : UInt32) (ansno : Option UInt32)
      (payload : Octets)
  | closeSession
  | serverName
  | authenticated
  | authenticate (identity : String)
  | setWindowSize (channel size : UInt32)
  | upgrade (lastReply : Option (UInt32 × UInt32 × Octets)) (swap : Swap) (config : Config)

structure PendingRequest where
  reply : Ticket
  answers : List Octets

/-- Everything the driver has to route replies and messages back to. -/
structure Routes where
  /-- Whether a handle is left that commands may come from. -/
  commands : Bool
  opens : Table UInt32 Ticket
  closes : Table UInt32 Ticket
  sessionClose : Option Ticket
  requests : Table (UInt32 × UInt32) PendingRequest
  inbound : Table UInt32 Pipe

def Routes.new : Routes :=
  { commands := true, opens := ∅, closes := ∅, sessionClose := none, requests := ∅
    inbound := ∅ }

structure Inbound where
  channel : UInt32
  /-- Whether the reader still holds its end. -/
  alive : Bool
  waiting : List Message
  /-- What the reader has taken. -/
  taken : List Message
  /-- What has been reported for it. -/
  reported : List Message

/-- The profiles served, and what their handlers decide; a decision may depend on how many
were asked for before. -/
structure Router (H : Type) where
  profiles : String → Option H
  accept : H → Nat → Option String → String → Management.Start →
    Except Management.ErrorReply Management.Profile
  upgradesTransport : H → Bool

def Router.choose {H : Type} (router : Router H) (start : Management.Start) :
    Option (String × H) :=
  start.profiles.findSome? fun offered =>
    (router.profiles offered.uri).map fun handler => (offered.uri, handler)

inductive Task where
  | onOpen (channel : UInt32)
  | handle (channel : UInt32) (message : Message)

inductive Note where
  | requested (ticket : Ticket) (channel msgno : UInt32)
  | received (channel : UInt32) (message : Message)
  /-- A start or a close that the peer asked for, and whether it is answered. -/
  | wanted (msgno : UInt32) (answered : Bool)
  /-- A session that was replaced, and what its transport had taken. -/
  | swapped (trace : Proto.Trace) (written : Octets)

/-- Where the loop of `pump` is: it polls the session for octets and for events, until there
are none, and then waits for something to happen. -/
inductive Stage where
  | transmitting (progressed : Bool)
  | handling (progressed : Bool)
  | waiting
  | returned (result : Except Failure Unit)
  | ended

structure Driver (H : Type) where
  /-- The session, and what `poll_transmit` has returned of it. -/
  trace : Proto.Trace
  out : Octets
  routes : Routes
  served : Table UInt32 H
  awaitingUpgrade : Bool
  ready : Option Ticket
  stage : Stage
  asked : Nat
  pipes : List Inbound
  tasks : List Task
  written : Octets
  answered : List (Ticket × Answer)
  /-- Everyone who is owed an answer, or was. -/
  callers : List Ticket
  journal : List Note

def withMime (payload : Octets) : Octets := octets "\r\n" ++ payload

def bodyOf (payload : Octets) : Octets := (Mime.split payload).2

namespace Driver

variable {H : Type} (router : Router H)

def new (session : Session) (ready : Ticket) : Driver H where
  trace := ⟨session, []⟩
  out := []
  routes := Routes.new
  served := ∅
  awaitingUpgrade := false
  ready := some ready
  stage := .transmitting false
  asked := 0
  pipes := []
  tasks := []
  written := []
  answered := []
  callers := [ready]
  journal := []

def session {α : Type} (d : Driver H) (method : SessionM α) : Driver H × Except Fault α :=
  let outcome := Computation.outcome method d.trace.core
  ({ d with trace := { d.trace with session := { d.trace.session with core := outcome.1 } } },
    outcome.2)

def answer (d : Driver H) (ticket : Ticket) (answer : Answer) : Driver H :=
  { d with answered := d.answered ++ [(ticket, answer)] }

def answerAny (d : Driver H) (ticket : Option Ticket) (answer : Answer) : Driver H :=
  match ticket with
  | some ticket => d.answer ticket answer
  | none => d

def note (d : Driver H) (entry : Note) : Driver H := { d with journal := d.journal ++ [entry] }

/-- Completes everything still waiting, so no caller is left hanging. -/
def shutdown (d : Driver H) : Driver H :=
  { d with
    answered := d.answered ++
      (Table.values d.routes.opens).map (fun ticket => (ticket, .channel (.error .closed))) ++
      (Table.values d.routes.closes).map (fun ticket => (ticket, .done (.error .closed))) ++
      d.routes.sessionClose.toList.map (fun ticket => (ticket, .done (.ok ()))) ++
      (Table.values d.routes.requests).map
        (fun pending => (pending.reply, .reply (.error .closed)))
    routes := { Routes.new with commands := d.routes.commands } }

/-! ## Commands -/

/-- Enters a caller in a table, which drops whoever was entered under the same key. -/
def awaitOpen (d : Driver H) (number : UInt32) (ticket : Ticket) : Driver H :=
  { d with routes := { d.routes with opens := d.routes.opens.insert number ticket } }.answerAny
    (d.routes.opens.lookup number) .dropped

def awaitClose (d : Driver H) (number : UInt32) (ticket : Ticket) : Driver H :=
  { d with routes := { d.routes with closes := d.routes.closes.insert number ticket } }.answerAny
    (d.routes.closes.lookup number) .dropped

def awaitReply (d : Driver H) (channel msgno : UInt32) (ticket : Ticket) : Driver H :=
  { d with routes := { d.routes with
    requests := d.routes.requests.insert (channel, msgno) ⟨ticket, []⟩ } }.answerAny
      ((d.routes.requests.lookup (channel, msgno)).map PendingRequest.reply) .dropped

def awaitEnd (d : Driver H) (ticket : Ticket) : Driver H :=
  { d with routes := { d.routes with sessionClose := some ticket } }.answerAny
    d.routes.sessionClose .dropped

def apply (d : Driver H) (ticket : Ticket) : Command → Driver H
  | .openChannel profile =>
      match d.session (SessionCore.startChannel profile) with
      | (d, .ok number) => d.awaitOpen number ticket
      | (d, .error fault) => d.answer ticket (.channel (.error (.protocol fault)))
  | .closeChannel number =>
      match d.session (SessionCore.closeChannel number) with
      | (d, .ok ()) => d.awaitClose number ticket
      | (d, .error fault) => d.answer ticket (.done (.error (.protocol fault)))
  | .request channel payload =>
      match d.session (SessionCore.sendMsg channel (withMime payload)) with
      | (d, .ok msgno) =>
          (d.awaitReply channel msgno ticket).note (.requested ticket channel msgno)
      | (d, .error fault) => d.answer ticket (.reply (.error (.protocol fault)))
  | .send channel kind msgno ansno payload =>
      let (d, result) := d.session (SessionCore.send channel kind msgno ansno (withMime payload))
      d.answer ticket (.done (result.mapError .protocol))
  | .serverName => d.answer ticket (.name d.trace.core.serverName)
  | .authenticated => d.answer ticket (.name d.trace.core.authenticated)
  | .authenticate identity =>
      (d.session (SessionCore.setAuthenticated identity)).1.answer ticket (.done (.ok ()))
  | .setWindowSize channel size =>
      let (d, result) := d.session (SessionCore.setWindowSize channel size)
      d.answer ticket (.done (result.mapError .protocol))
  | .closeSession =>
      match d.session (SessionCore.closeChannel greetingChannel) with
      | (d, .ok ()) => d.awaitEnd ticket
      | (d, .error fault) => d.answer ticket (.done (.error (.protocol fault)))
  | .upgrade _ _ _ => d.answer ticket (.greeting (.error .closed))

def drainTransmit (d : Driver H) : Driver H :=
  { d with
    trace := d.trace.act .pollTransmit
    out := d.out ++ d.trace.core.outbound }

def replace (d : Driver H) (config : Config) (ticket : Ticket) : Driver H :=
  match Session.new config with
  | .error fault =>
      { d.answer ticket .dropped with stage := .returned (.error (.protocol fault)) }
  | .ok session =>
      let core := d.trace.core.serverName.elim session.core fun name =>
        Computation.final (SessionCore.setServerName name) session.core
      { (d.shutdown.answerAny d.ready .dropped).note (.swapped d.trace d.written) with
        trace := ⟨{ session with core }, []⟩
        served := ∅
        awaitingUpgrade := false
        ready := some ticket
        written := []
        stage := .transmitting false }

/-- What is left is written to the old transport, which is then swapped. -/
def swapOut (d : Driver H) (ticket : Ticket) (swap : Swap) (config : Config) : Driver H :=
  match swap.written with
  | .error failure =>
      { d.answer ticket .dropped with
        written := d.written ++ d.out.take swap.count
        stage := .returned (.error failure) }
  | .ok () =>
      let d := { d with written := d.written ++ d.out, out := [] }
      match swap.swapped with
      | .error failure =>
          { d.answer ticket (.greeting (.error failure)) with
            awaitingUpgrade := false
            stage := .returned (.error .closed) }
      | .ok () => d.replace config ticket

/-- Replaces the transport and starts a fresh session over it. -/
def upgrade (d : Driver H) (ticket : Ticket) (lastReply : Option (UInt32 × UInt32 × Octets))
    (swap : Swap) (config : Config) : Driver H :=
  match lastReply with
  | none => d.drainTransmit.swapOut ticket swap config
  | some (channel, msgno, payload) =>
      match d.session (SessionCore.send channel .rpy msgno none (withMime payload)) with
      | (d, .error fault) =>
          { d.answer ticket .dropped with stage := .returned (.error (.protocol fault)) }
      | (d, .ok ()) => d.drainTransmit.swapOut ticket swap config

def dispatch (d : Driver H) (ticket : Ticket) (command : Command) : Driver H :=
  let d := { d with callers := d.callers ++ [ticket] }
  match command with
  | .upgrade lastReply swap config => d.upgrade ticket lastReply swap config
  | command => { d.apply ticket command with stage := .transmitting false }

/-! ## Events -/

def notSupported : Management.ErrorReply :=
  ⟨554, none, some "profile not supported"⟩

def startRequested (d : Driver H) (channel msgno : UInt32) (start : Management.Start) :
    Driver H :=
  match router.choose start with
  | none => (d.session (SessionCore.refuseStart msgno notSupported)).1
  | some (uri, handler) =>
      let verdict := router.accept handler d.asked d.trace.core.serverName uri start
      let d := { d with asked := d.asked + 1 }
      match verdict with
      | .error error => (d.session (SessionCore.refuseStart msgno error)).1
      | .ok profile =>
          match d.session (SessionCore.acceptStart channel msgno profile) with
          | (d, .error _) => d
          | (d, .ok ()) =>
              { d with
                awaitingUpgrade := d.awaitingUpgrade || router.upgradesTransport handler
                served := d.served.insert channel handler
                tasks := if d.routes.commands then d.tasks ++ [.onOpen channel] else d.tasks }

/-- Whether a start is answered: a handler that agrees to one the session does not take has
nothing put in the place of its answer. -/
def answers (d : Driver H) (channel : UInt32) (start : Management.Start) : Bool :=
  match router.choose start with
  | none => true
  | some (uri, handler) =>
      match router.accept handler d.asked d.trace.core.serverName uri start with
      | .error _ => true
      | .ok _ => d.trace.core.opensAt channel

def push (d : Driver H) (pipe : Pipe) (message : Message) : Driver H :=
  { d with pipes := d.pipes.modify pipe fun inbound =>
      { inbound with
        reported := inbound.reported ++ [message]
        waiting :=
          if inbound.alive ∧ inbound.waiting.length < inboundQueue then
            inbound.waiting ++ [message]
          else inbound.waiting } }

def answerRequest (d : Driver H) (key : UInt32 × UInt32) (pending : PendingRequest)
    (kind : FrameKind) (body : Octets) : Driver H :=
  let d := { d with routes := { d.routes with requests := d.routes.requests.erase key } }
  match kind with
  | .rpy => d.answer pending.reply (.reply (.ok (.rpy body)))
  | .err => d.answer pending.reply (.reply (.ok (.err body)))
  | .ans =>
      { d with routes := { d.routes with
        requests := d.routes.requests.insert key
          { pending with answers := pending.answers ++ [body] } } }
  | .nul => d.answer pending.reply (.reply (.ok (.answers pending.answers)))
  | .msg => d

def deliver (d : Driver H) (channel : UInt32) (message : Message) : Driver H :=
  let delivered := { message with payload := bodyOf message.payload }
  let waiting := if message.kind = .msg then none
    else d.routes.requests.lookup (channel, message.msgno)
  match waiting with
  | some pending =>
      d.answerRequest (channel, message.msgno) pending message.kind delivered.payload
  | none =>
      if message.kind = .msg ∧ (d.served.lookup channel).isSome ∧ d.routes.commands then
        { d with tasks := d.tasks ++ [.handle channel delivered] }
      else
        match d.routes.inbound.lookup channel with
        | some pipe => d.push pipe delivered
        | none => d

def channelOpened (d : Driver H) (channel : UInt32) (profile : Management.Profile) : Driver H :=
  let pipe := d.pipes.length
  let asked := d.routes.opens.lookup channel
  let d := { d with
    pipes := d.pipes ++ [Inbound.mk channel (asked.isSome && d.routes.commands) [] [] []]
    routes := { d.routes with
      inbound := d.routes.inbound.insert channel pipe
      opens := d.routes.opens.erase channel } }
  d.answerAny asked
    (.channel (if d.routes.commands then .ok (channel, profile, pipe) else .error .closed))

def handleEvent (d : Driver H) : Event → Driver H
  | .greetingReceived greeting =>
      { d with ready := none }.answerAny d.ready (.greeting (.ok greeting))
  | .channelOpened channel profile => d.channelOpened channel profile
  | .startRefused channel error =>
      { d with routes := { d.routes with opens := d.routes.opens.erase channel } }.answerAny
        (d.routes.opens.lookup channel) (.channel (.error (.refused error)))
  | .channelClosed channel =>
      { d with
        served := d.served.erase channel
        routes := { d.routes with
          inbound := d.routes.inbound.erase channel
          closes := d.routes.closes.erase channel } }.answerAny
        (d.routes.closes.lookup channel) (.done (.ok ()))
  | .closeRefused channel error =>
      { d with routes := { d.routes with closes := d.routes.closes.erase channel } }.answerAny
        (d.routes.closes.lookup channel) (.done (.error (.refused error)))
  | .startRequested channel msgno start =>
      (d.note (.wanted msgno (d.answers router channel start))).startRequested router channel
        msgno start
  | .closeRequested channel msgno _ =>
      ((d.note (.wanted msgno true)).session (SessionCore.acceptClose channel msgno)).1
  | .sessionClosed =>
      { d with routes := { d.routes with sessionClose := none } }.answerAny
        d.routes.sessionClose (.done (.ok ()))
  | .messageReceived channel message =>
      (d.note (.received channel message)).deliver channel message

/-! ## The loop -/

/-- The next step of the loop while it need not wait, or of `run` once it has returned. -/
def tick (d : Driver H) : Driver H :=
  match d.stage with
  | .transmitting progressed =>
      if d.trace.core.outbound = [] then { d with stage := .handling progressed }
      else { d.drainTransmit with stage := .transmitting true }
  | .handling progressed =>
      match d.trace.core.events with
      | event :: _ =>
          { ({ d with trace := d.trace.act .pollEvent }).handleEvent router event with
            stage := .handling true }
      | [] =>
          if progressed then { d with stage := .transmitting false }
          else if d.trace.core.state = .closed then { d with stage := .returned (.ok ()) }
          else { d with stage := .waiting }
  | .returned result =>
      { ({ d with ready := none }.answerAny d.ready
          (.greeting (.error (Failure.ofEnd result)))).shutdown with
        stage := .ended }
  | .waiting | .ended => d

def read (d : Driver H) (chunk : Octets) : Driver H :=
  match d.trace.session.handleInput chunk with
  | (session, .ok ()) =>
      { d with trace := { d.trace with session }, stage := .transmitting false }
  | (session, .error fault) =>
      { d with trace := { d.trace with session }, stage := .returned (.error (.protocol fault)) }

/-- The transport has taken some octets, and is flushed after the last of them. -/
def wrote (d : Driver H) (count : Nat) (flushed : Except Failure Unit) : Driver H :=
  let d := { d with
    out := d.out.drop count
    written := d.written ++ d.out.take count
    stage := .transmitting false }
  match flushed with
  | .error failure => if d.out = [] then { d with stage := .returned (.error failure) } else d
  | .ok () => d

end Driver

/-- What can happen to a driver: a step of its own, what it waits for, or what the holders of
its handles do in the meantime. -/
inductive Act where
  | tick
  | command (ticket : Ticket) (command : Command)
  | noCommands
  | read (chunk : Octets)
  | failed (failure : Failure)
  | wrote (count : Nat) (flushed : Except Failure Unit)
  | dropHandles
  | receive (pipe : Pipe)
  | dropReader (pipe : Pipe)

namespace Driver

variable {H : Type} (router : Router H)

/-- What happens is what the driver is waiting for, if it is waiting. -/
def wait (d : Driver H) : Act → Driver H
  | .command ticket command => d.dispatch ticket command
  | .noCommands => if d.routes.commands then d else { d with stage := .returned (.ok ()) }
  | .read chunk =>
      if d.awaitingUpgrade then d
      else if chunk = [] then { d with stage := .returned (.ok ()) }
      else d.read chunk
  | .failed failure =>
      if d.awaitingUpgrade then d else { d with stage := .returned (.error failure) }
  | .wrote count flushed =>
      if d.awaitingUpgrade ∨ d.out = [] ∨ d.out.length < count then d else d.wrote count flushed
  | _ => d

/-- Nothing is heard of outside but where the loop waits. -/
def attend (d : Driver H) (act : Act) : Driver H :=
  match d.stage with
  | .waiting => d.wait act
  | _ => d

def act (d : Driver H) : Act → Driver H
  | .tick => d.tick router
  | .dropHandles => { d with routes := { d.routes with commands := false } }
  | .receive pipe =>
      { d with pipes := d.pipes.modify pipe fun inbound =>
          if inbound.alive then
            { inbound with
              waiting := inbound.waiting.drop 1
              taken := inbound.taken ++ inbound.waiting.take 1 }
          else inbound }
  | .dropReader pipe =>
      { d with pipes := d.pipes.modify pipe fun inbound => { inbound with alive := false } }
  | act => d.attend act

end Driver

end Vortice.Conn
