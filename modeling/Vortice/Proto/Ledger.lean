import Vortice.Proto.Calls

/-!
# The books of a session

A `Ledger` is a session without its payloads: which channels are open, which
exchanges and requests are under way, what waits for its turn, what has been
reported and what has been entered in the history.  `Ledger.Step` is an abstract
session that keeps such books, one entry at a time.
-/

namespace Vortice.Proto

open Vortice.Foundation

/-- The exchanges of one channel, and the message it is putting together. -/
structure Book where
  outstanding : Finset UInt32
  awaitingReply : Finset UInt32
  partialMessage : Option Partial

def Channel.book (channel : Channel) : Book :=
  ⟨channel.outstanding, channel.awaitingReply, channel.partialMessage⟩

/-- What a channel makes of the fragments it holds and a frame that is in turn. -/
def Book.joined (book : Book) (frame : DataFrame) : Option Partial :=
  match book.partialMessage with
  | some fragment =>
      if fragment.matchesFrame frame then
        some { fragment with payload := fragment.payload ++ frame.payload }
      else none
  | none => some ⟨frame.kind, frame.msgno, frame.ansno, frame.payload⟩

/-- The book of a channel that has accepted a frame. -/
def Book.accept (book : Book) (frame : DataFrame) : Book :=
  { book with
    awaitingReply :=
      if frame.kind = FrameKind.msg ∧ !frame.more then
        insert frame.msgno book.awaitingReply
      else book.awaitingReply
    partialMessage := if frame.more then book.joined frame else none }

def Book.blank : Book := ⟨∅, ∅, none⟩

/-- The history apart from the frames put out. -/
def entered (history : List Action) : List Action :=
  history.filter fun
    | .wrote _ => false
    | _ => true

@[simp] theorem entered_append (first second : List Action) :
    entered (first ++ second) = entered first ++ entered second :=
  List.filter_append ..

@[simp] theorem entered_wrote (frames : List DataFrame) :
    entered (Lane.wrote frames) = [] := by
  simp [entered, Lane.wrote]

structure Ledger where
  role : Role
  state : State
  nextChannel : UInt32
  pending : UInt32 → Option Pending
  halfOpen : UInt32 → Option Management.Profile
  zero : Book
  table : UInt32 → Option Book
  queued : UInt32 → Bool
  counted : UInt32 → Bool
  replyOrder : UInt32 → Option (List UInt32)
  heldReplies : UInt32 → Option (UInt32 → Option (List Queued))
  events : List Event
  entries : List Action

namespace Ledger

/-- Channel 0, or an open channel. -/
def bookAt (l : Ledger) (number : UInt32) : Option Book :=
  if number = greetingChannel then some l.zero else l.table number

def setBook (l : Ledger) (number : UInt32) (book : Book) : Ledger :=
  if number = greetingChannel then { l with zero := book }
  else { l with table := Function.update l.table number (some book) }

def enter (l : Ledger) (action : Action) : Ledger :=
  { l with entries := l.entries ++ [action] }

def report (l : Ledger) (event : Event) : Ledger :=
  { l with events := l.events ++ [event] }

/-- A message number of channel 0 is taken for a request. -/
def ask (l : Ledger) (msgno : UInt32) (pending : Pending) : Ledger :=
  { l with
    zero := { l.zero with outstanding := insert msgno l.zero.outstanding }
    pending := Function.update l.pending msgno (some pending) }

/-- The answer to a request has come, and its message number is free again. -/
def settle (l : Ledger) (msgno : UInt32) : Ledger :=
  { l with
    zero := { l.zero with outstanding := l.zero.outstanding.erase msgno }
    pending := Function.update l.pending msgno none }

def reserve (l : Ledger) (profile : Management.Profile) : Ledger :=
  { l with
    nextChannel := l.nextChannel + 2
    halfOpen := Function.update l.halfOpen l.nextChannel (some profile) }

def forget (l : Ledger) (number : UInt32) : Ledger :=
  { l with halfOpen := Function.update l.halfOpen number none }

def openChannel (l : Ledger) (number : UInt32) : Ledger :=
  { l with
    table := Function.update l.table number (some .blank)
    entries := l.entries ++ [.opened number] }

def closeChannel (l : Ledger) (number : UInt32) : Ledger :=
  { l with
    table := Function.update l.table number none
    queued := Function.update l.queued number false
    counted := Function.update l.counted number false
    replyOrder := Function.update l.replyOrder number none
    heldReplies := Function.update l.heldReplies number none
    events := l.events ++ [.channelClosed number]
    entries := l.entries ++ [.dropped number] }

def closeSession (l : Ledger) : Ledger :=
  { l with
    state := .closed
    table := fun _ => none
    queued := fun _ => false
    counted := fun _ => false
    replyOrder := fun _ => none
    heldReplies := fun _ => none
    events := l.events ++ [.sessionClosed]
    entries := l.entries ++ [.dropped greetingChannel] }

/-- Closing channel 0 closes the session. -/
def close (l : Ledger) (number : UInt32) : Ledger :=
  if number = greetingChannel then l.closeSession else l.closeChannel number

def deliver (l : Ledger) (number : UInt32) (message : Message) : Ledger :=
  { l with
    replyOrder :=
      if message.kind = .msg then
        Function.update l.replyOrder number
          (some ((l.replyOrder number).getD [] ++ [message.msgno]))
      else l.replyOrder
    events := l.events ++ [.messageReceived number message] }

end Ledger

/-- What the peer asks of the application. -/
def Event.isRequest : Event → Bool
  | .startRequested .. | .closeRequested .. => true
  | _ => false

/-- What can be entered in the books. -/
inductive Entry where
  | idle
  | counted (number : UInt32)
  | handed (number : UInt32) (message : Queued)
  | queued (number : UInt32) (message : Queued)
  | held (number : UInt32) (message : Queued)
  | released (number msgno : UInt32)
  | popped (number : UInt32)
  | allocated (number msgno : UInt32)
  | accepted (frame : DataFrame)
  | delivered (number : UInt32) (message : Message)
  | told (event : Event)
  | greeted (greeting : Greeting)
  | reserved (number : UInt32) (profile : Management.Profile)
  | askedStart (msgno number : UInt32) (profile : Management.Profile)
  | askedClose (msgno number : UInt32)
  | dismissed (msgno : UInt32)
  | answered (msgno number : UInt32) (profile : Management.Profile)
  | startRefused (msgno number : UInt32) (error : Management.ErrorReply)
  | closeRefused (msgno number : UInt32) (error : Management.ErrorReply)
  | agreed (msgno number : UInt32)
  | replied (msgno : UInt32)
  | welcomed (number : UInt32)
  | closed (number : UInt32)
  | polled

/-- One entry in the books. -/
inductive Ledger.Step : Ledger → Entry → Ledger → Prop where
  | idle {l : Ledger} : Step l .idle l
  | counted {l : Ledger} {number : UInt32} :
      (l.bookAt number).isSome →
      Step l (.counted number)
        { l with counted := Function.update l.counted number true }
  | handed {l : Ledger} {number : UInt32} {message : Queued} :
      (l.bookAt number).isSome →
      Step l (.handed number message) (l.enter (.handed number message))
  | queued {l : Ledger} {number : UInt32} {message : Queued} :
      (l.bookAt number).isSome →
      Step l (.queued number message)
        (enter { l with queued := Function.update l.queued number true }
          (.queued number message))
  | held {l : Ledger} {number : UInt32} {message : Queued}
      {waiting : UInt32 → Option (List Queued)} :
      (l.bookAt number).isSome →
      Step l (.held number message)
        { l with
          heldReplies := Function.update l.heldReplies number (some waiting) }
  | released {l : Ledger} {number msgno : UInt32}
      {waiting : UInt32 → Option (List Queued)} :
      l.heldReplies number = some waiting →
      Step l (.released number msgno)
        { l with
          heldReplies := Function.update l.heldReplies number
            (some (Function.update waiting msgno none)) }
  | popped {l : Ledger} {number : UInt32} :
      Step l (.popped number)
        { l with
          replyOrder := Function.update l.replyOrder number
            ((l.replyOrder number).map List.tail) }
  | allocated {l : Ledger} {number msgno : UInt32} {book : Book} :
      l.table number = some book → msgno ∉ book.outstanding →
      Step l (.allocated number msgno)
        { l with
          table := Function.update l.table number
            (some { book with outstanding := insert msgno book.outstanding }) }
  | accepted {l : Ledger} {frame : DataFrame} {book : Book} :
      l.bookAt frame.channel = some book →
      Step l (.accepted frame)
        ((l.setBook frame.channel (book.accept frame)).enter (.accepted frame))
  | delivered {l : Ledger} {number : UInt32} {message : Message} :
      number ≠ greetingChannel → (l.table number).isSome →
      Step l (.delivered number message) (l.deliver number message)
  | told {l : Ledger} {event : Event} :
      event.isRequest → Step l (.told event) (l.report event)
  | greeted {l : Ledger} {greeting : Greeting} :
      l.state = .awaitingGreeting →
      Step l (.greeted greeting)
        (report { l with state := .ready } (.greetingReceived greeting))
  | reserved {l : Ledger} {profile : Management.Profile} :
      l.state = .ready →
      Step l (.reserved l.nextChannel profile) (l.reserve profile)
  | askedStart {l : Ledger} {msgno : UInt32} {profile : Management.Profile} :
      l.state = .ready → msgno ∉ l.zero.outstanding →
      Step l (.askedStart msgno l.nextChannel profile)
        ((l.reserve profile).ask msgno (.start l.nextChannel))
  | askedClose {l : Ledger} {msgno number : UInt32} :
      l.state = .ready → msgno ∉ l.zero.outstanding →
      (l.bookAt number).isSome →
      Step l (.askedClose msgno number) (l.ask msgno (.close number))
  | dismissed {l : Ledger} {msgno : UInt32} :
      Step l (.dismissed msgno)
        { l with pending := Function.update l.pending msgno none }
  | answered {l : Ledger} {msgno number : UInt32} {profile : Management.Profile} :
      l.pending msgno = some (.start number) →
      Step l (.answered msgno number profile)
        ((((l.settle msgno).forget number).openChannel number).report
          (.channelOpened number profile))
  | startRefused {l : Ledger} {msgno number : UInt32}
      {error : Management.ErrorReply} :
      l.pending msgno = some (.start number) →
      Step l (.startRefused msgno number error)
        (((l.settle msgno).forget number).report (.startRefused number error))
  | closeRefused {l : Ledger} {msgno number : UInt32}
      {error : Management.ErrorReply} :
      l.pending msgno = some (.close number) →
      Step l (.closeRefused msgno number error)
        ((l.settle msgno).report (.closeRefused number error))
  | agreed {l : Ledger} {msgno number : UInt32} :
      l.pending msgno = some (.close number) →
      Step l (.agreed msgno number) ((l.settle msgno).close number)
  | replied {l : Ledger} {msgno : UInt32} :
      Step l (.replied msgno)
        { l with
          zero := { l.zero with
            awaitingReply := l.zero.awaitingReply.erase msgno } }
  | welcomed {l : Ledger} {number : UInt32} :
      number ≠ greetingChannel → l.role.owns number = false →
      l.table number = none →
      Step l (.welcomed number) (l.openChannel number)
  | closed {l : Ledger} {number : UInt32} :
      Step l (.closed number) (l.close number)
  | polled {l : Ledger} : Step l .polled { l with events := l.events.tail }

/-- The books of a session. -/
def SessionCore.ledger (s : SessionCore) : Ledger :=
  { role := s.config.role
    state := s.state
    nextChannel := s.nextChannel
    pending := s.pending
    halfOpen := s.halfOpen
    zero := s.zero.book
    table := Option.map Channel.book ∘ s.channels
    queued := Option.isSome ∘ s.queues
    counted := Option.isSome ∘ s.unacked
    replyOrder := s.replyOrder
    heldReplies := s.heldReplies
    events := s.events
    entries := entered s.history }

/-- One entry in the books of a session. -/
def SessionCore.Books (s : SessionCore) (entry : Entry) (s' : SessionCore) : Prop :=
  Ledger.Step s.ledger entry s'.ledger

end Vortice.Proto
