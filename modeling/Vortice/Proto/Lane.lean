import Mathlib.Logic.Function.Basic
import Vortice.Proto.Emit

/-!
# Lanes

Flow control, queueing and reassembly concern one channel number at a time.  A
`Lane` is what a session keeps for one number, in the terms these need, and
`Lane.Step` is everything that can happen to it.  Every invariant about
queues, windows and messages is an invariant of these steps.
-/

namespace Vortice.Proto

open Vortice.Foundation

/-- What flow control and reassembly keep of a channel. -/
structure Flow where
  number : UInt32
  sendWindow : Window
  nextSeqno : SeqNo
  recvWindow : Window
  expectedSeqno : SeqNo
  held : Option (Whole Tag UInt8)
  deriving DecidableEq

namespace Flow

def fresh (number windowSize : UInt32) : Flow :=
  { number
    sendWindow := ⟨0, initialWindowSize⟩
    nextSeqno := 0
    recvWindow := ⟨0, windowSize⟩
    expectedSeqno := 0
    held := none }

def writable (flow : Flow) : UInt32 := flow.sendWindow.remaining flow.nextSeqno

def advance (flow : Flow) (count : Nat) : Flow :=
  { flow with nextSeqno := flow.nextSeqno + UInt32.ofNat count }

def applySeq (flow : Flow) (seq : SeqFrame) : Flow :=
  { flow with sendWindow := ⟨seq.ackno, seq.window⟩ }

def admits (flow : Flow) (frame : DataFrame) : Bool :=
  frame.seqno = flow.expectedSeqno &&
    flow.recvWindow.accepts frame.seqno frame.size

/-- The flow once a frame has been admitted, whether or not it joins up. -/
def taken (flow : Flow) (frame : DataFrame) : Flow :=
  { flow with
    expectedSeqno := flow.expectedSeqno + frame.size
    held := (Fragment.absorb flow.held frame.fragment).bind Prod.fst }

def consumed (flow : Flow) (octets : UInt32) : Flow :=
  { flow with recvWindow := flow.recvWindow.consumed octets }

def resized (flow : Flow) (size : UInt32) : Flow :=
  { flow with recvWindow := flow.recvWindow.resized size }

end Flow

def Channel.flow (channel : Channel) : Flow :=
  { number := channel.number
    sendWindow := channel.sendWindow
    nextSeqno := channel.nextSeqno
    recvWindow := channel.recvWindow
    expectedSeqno := channel.expectedSeqno
    held := channel.partialMessage.map Partial.whole }

@[ext]
structure Lane where
  flow : Option Flow
  queue : List Queued
  held : UInt32 → List Queued
  unacked : UInt32

/-! ## Writing -/

namespace Flow

/-- The window has no room for the message. -/
def Waits (flow : Flow) (front : Queued) : Prop :=
  front.payload ≠ [] ∧ flow.writable = 0

/-- No frame can carry the message, whatever the window. -/
def Refuses (flow : Flow) (front : Queued) : Prop :=
  ¬ Frameable flow.number front.tag ∧ (front.payload = [] ∨ flow.writable ≠ 0)

/-- A queue that is empty, or whose first message waits or is refused. -/
def Stopped (flow : Flow) (queue : List Queued) : Prop :=
  ∀ front ∈ queue.head?, flow.Waits front ∨ flow.Refuses front

end Flow

/-- Frames of `count` octets written from a queue, and what they leave of it. -/
structure Flow.Writes (flow : Flow) (queue : List Queued)
    (frames : List DataFrame) (queue' : List Queued) (count : Nat) : Prop where
  fits : count ≤ flow.writable.toNat
  spans : ∀ first, flow.nextSeqno = UInt32.ofNat first →
    Spans first frames (first + count)
  confined : ∀ frame ∈ frames, frame.channel = flow.number
  tags : ∀ left ∈ queue', ∃ queued ∈ queue, left.tag = queued.tag
  joins : ∀ {held pending},
    Fragment.Continues held (queue.map Queued.whole) pending →
    ∃ held' done rest,
      Fragment.assemble held (frames.map DataFrame.fragment) =
        some (held', done) ∧
      Fragment.Continues held' (queue'.map Queued.whole) rest ∧
      pending = done ++ rest
  conserves : waiting queue = count + waiting queue'
  stops : (flow.advance count).Stopped queue'
  stays : flow.Stopped queue → frames = [] ∧ queue' = queue ∧ count = 0
  last : ∀ message ∈ queue.getLast?,
    queue' = [] ∨ ∃ left ∈ queue'.getLast?, left.tag = message.tag ∧
      left.payload <:+ message.payload

theorem Flow.advance_zero (flow : Flow) : flow.advance 0 = flow := by
  simp [advance]

theorem Flow.writes_nothing {flow : Flow} {queue : List Queued}
    (h : flow.Stopped queue) : flow.Writes queue [] queue 0 where
  fits := Nat.zero_le _
  spans := fun _ _ => rfl
  confined := by simp
  tags := fun left hmem => ⟨left, hmem, rfl⟩
  joins := fun {held pending} h => ⟨held, [], pending, rfl, h, rfl⟩
  conserves := (Nat.zero_add _).symm
  stops := by rwa [advance_zero]
  stays := fun _ => ⟨rfl, rfl, rfl⟩
  last := fun message hmessage => .inr ⟨message, hmessage, rfl, List.suffix_rfl⟩

theorem Stops.ok_iff {queue : List Queued} {channel : Channel}
    {result : Except Fault Unit} (h : Stops queue channel result) :
    result = .ok () ↔ ∀ front ∈ queue.head?, channel.flow.Waits front := by
  rcases h with ⟨hok, hwaits⟩ | ⟨found, hfound, hrefuses, herror⟩
  · exact ⟨fun _ => hwaits, fun _ => hok⟩
  · constructor
    · intro hok
      rw [herror] at hok
      cases hok
    · intro hwaits
      obtain ⟨hpayload, hzero⟩ := hwaits found hfound
      exact absurd hrefuses.2 (not_or.mpr ⟨hpayload, not_not_intro hzero⟩)

theorem flushLoop_writes (maxFrameSize : UInt32) (queue : List Queued)
    (channel : Channel) :
    ∃ queue' channel' frames result count,
      flushLoop maxFrameSize queue channel = (queue', channel', frames, result) ∧
      channel' = channel.advance count ∧
      channel.flow.Writes queue frames queue' count ∧
      (result = .ok () ↔
        ∀ front ∈ queue'.head?, (channel.flow.advance count).Waits front) := by
  by_cases hstopped : channel.flow.Stopped queue
  · obtain ⟨result, hloop, hstops⟩ := flushLoop_stays maxFrameSize hstopped
    refine ⟨queue, channel, [], result, 0, hloop, channel.advance_zero.symm,
      Flow.writes_nothing hstopped, ?_⟩
    rw [Flow.advance_zero]
    exact hstops.ok_iff
  obtain ⟨queue', channel', frames, result, hloop, hflushes, hstops⟩ :=
    flushLoop_flushes maxFrameSize queue channel
  obtain ⟨count, rfl, hfits, hconserves, hspans⟩ := hflushes.exists_count
  refine ⟨queue', _, frames, result, count, hloop, rfl, ?_, hstops.ok_iff⟩
  refine ⟨hfits, hspans, hflushes.confined, hflushes.tags, hflushes.joins,
    hconserves, fun front hfront => ?_, fun h => absurd h hstopped,
    fun message => hflushes.getLast⟩
  rcases hstops with ⟨-, hwaits⟩ | ⟨found, hfound, hrefuses, -⟩
  · exact .inl (hwaits front hfront)
  · rw [hfound] at hfront
    cases hfront
    exact .inr hrefuses

theorem flushLoop_error {maxFrameSize : UInt32} {queue queue' : List Queued}
    {channel channel' : Channel} {frames : List DataFrame} {fault : Fault}
    (h : flushLoop maxFrameSize queue channel = (queue', channel', frames, .error fault)) :
    ∃ front ∈ queue'.head?, ¬ Frameable channel.number front.tag ∧
      fault = .error (refusal channel.number front.tag) := by
  obtain ⟨_, _, _, _, hloop, hflushes, hstops⟩ := flushLoop_flushes maxFrameSize queue channel
  rw [h] at hloop
  cases hloop
  obtain ⟨count, rfl, -⟩ := hflushes.exists_count
  rcases hstops with ⟨hok, -⟩ | ⟨front, hfront, hrefuses, herror⟩
  · cases hok
  · cases herror
    exact ⟨front, hfront, hrefuses.1, rfl⟩

theorem Flow.Writes.waits {flow : Flow} {queue queue' : List Queued}
    {frames : List DataFrame} {count : Nat}
    (h : flow.Writes queue frames queue' count)
    (hqueue : ∀ queued ∈ queue, Frameable flow.number queued.tag) :
    ∀ front ∈ queue'.head?, (flow.advance count).Waits front := by
  intro front hfront
  refine (h.stops front hfront).resolve_right fun hrefuses => hrefuses.1 ?_
  obtain ⟨queued, hmem, htag⟩ := h.tags front (List.mem_of_mem_head? hfront)
  rw [htag]
  exact hqueue queued hmem

/-- No frame can carry the first message of a queue. -/
def Stuck (number : UInt32) (queue : List Queued) : Prop :=
  ∃ front ∈ queue.head?, ¬ Frameable number front.tag

theorem Stuck.append {number : UInt32} {queue : List Queued} (h : Stuck number queue)
    (messages : List Queued) : Stuck number (queue ++ messages) := by
  obtain ⟨front, hfront, hframeable⟩ := h
  refine ⟨front, ?_, hframeable⟩
  cases queue with
  | nil => cases hfront
  | cons first queue => exact hfront

theorem Flow.Writes.stuck {flow : Flow} {queue queue' : List Queued}
    {frames : List DataFrame} {count : Nat}
    (h : flow.Writes queue frames queue' count) (hstuck : Stuck flow.number queue) :
    frames = [] ∧ queue' = queue := by
  obtain ⟨first, hfirst, hframeable⟩ := hstuck
  have hstopped : flow.Stopped queue := by
    intro front hfront
    rw [Option.mem_unique hfront hfirst]
    by_cases hpayload : first.payload = []
    · exact .inr ⟨hframeable, .inl hpayload⟩
    · by_cases hzero : flow.writable = 0
      · exact .inl ⟨hpayload, hzero⟩
      · exact .inr ⟨hframeable, .inr hzero⟩
  obtain ⟨hframes, hqueue, -⟩ := h.stays hstopped
  exact ⟨hframes, hqueue⟩

/-- The loop of `flush` succeeds, or ends at a message that no frame can carry. -/
theorem Flow.Writes.ok_or_stuck {flow : Flow} {queue queue' : List Queued}
    {frames : List DataFrame} {count : Nat} {result : Except Fault Unit}
    (h : flow.Writes queue frames queue' count)
    (hok : result = .ok () ↔ ∀ front ∈ queue'.head?, (flow.advance count).Waits front) :
    result = .ok () ∨ Stuck flow.number queue' := by
  cases hqueue : queue'.head? with
  | none =>
      refine .inl (hok.mpr fun front hfront => ?_)
      rw [hqueue] at hfront
      cases hfront
  | some front =>
      rcases h.stops front hqueue with hwaits | hrefuses
      · refine .inl (hok.mpr fun other hother => ?_)
        rwa [Option.mem_unique hother hqueue]
      · exact .inr ⟨front, hqueue, hrefuses.1⟩

/-! ## Steps -/

/-- What can happen to a lane. -/
inductive Lane.Effect where
  | push (message : Queued)
  | hold (message : Queued)
  | release (msgno : UInt32)
  | react (seq : SeqFrame)
  | take (frame : DataFrame)
  | reject (frame : DataFrame)
  | opened (windowSize : UInt32)
  | closed
  | resize (size : UInt32)
  | advertise (seq : SeqFrame)

namespace Lane

def shut : Lane := ⟨none, [], fun _ => [], 0⟩

def wrote (frames : List DataFrame) : List Action :=
  frames.map fun frame => .wrote (.data frame)

/-- A lane's octets counted, and what is put out for them. -/
inductive Counts : Lane → Flow → UInt32 → List Action → Lane → Prop where
  | charge {lane : Lane} {flow : Flow} {octets : UInt32} :
      saturatingAdd lane.unacked octets < ackThreshold flow.recvWindow.size →
      Counts lane flow octets [] { lane with
        flow := some flow, unacked := saturatingAdd lane.unacked octets }
  | acknowledge {lane : Lane} {flow : Flow} {octets : UInt32} {seq : SeqFrame} :
      ackThreshold flow.recvWindow.size ≤ saturatingAdd lane.unacked octets →
      (flow.consumed (saturatingAdd lane.unacked octets)).recvWindow.toSeqFrame
        flow.number = .ok seq →
      Counts lane flow octets [.wrote (.seq seq)] { lane with
        flow := some (flow.consumed (saturatingAdd lane.unacked octets))
        unacked := 0 }
  | stumble {lane : Lane} {flow : Flow} {octets : UInt32} {error : Error} :
      ackThreshold flow.recvWindow.size ≤ saturatingAdd lane.unacked octets →
      (flow.consumed (saturatingAdd lane.unacked octets)).recvWindow.toSeqFrame
        flow.number = .error error →
      Counts lane flow octets [] { lane with
        flow := some (flow.consumed (saturatingAdd lane.unacked octets))
        unacked := saturatingAdd lane.unacked octets }

theorem Counts.of_flow {lane lane' : Lane} {flow : Flow} {found : Option Flow}
    {octets : UInt32} {actions : List Action}
    (h : Counts { lane with flow := found } flow octets actions lane') :
    Counts lane flow octets actions lane' := by
  cases h with
  | charge hlt => exact .charge hlt
  | acknowledge hle hseq => exact .acknowledge hle hseq
  | stumble hle hseq => exact .stumble hle hseq

/-- One step of the lane of a channel number, with what it adds to the history. -/
inductive Step (number : UInt32) :
    Lane → Effect → List Action → Lane → Prop where
  | push {lane : Lane} {flow : Flow} {frames : List DataFrame}
      {queue' : List Queued} {count : Nat} {message : Queued} :
      lane.flow = some flow →
      flow.Writes (lane.queue ++ [message]) frames queue' count →
      Step number lane (.push message)
        ([.handed number message, .queued number message] ++ wrote frames)
        { lane with flow := some (flow.advance count), queue := queue' }
  | hold {lane : Lane} {message : Queued} :
      lane.flow.isSome →
      Step number lane (.hold message) [.handed number message]
        { lane with
          held := Function.update lane.held message.msgno
            (lane.held message.msgno ++ [message]) }
  | release {lane : Lane} {flow : Flow} {frames : List DataFrame}
      {queue' : List Queued} {count : Nat} {msgno : UInt32} :
      lane.flow = some flow →
      flow.Writes (lane.queue ++ lane.held msgno) frames queue' count →
      Step number lane (.release msgno)
        ((lane.held msgno).map (.queued number) ++ wrote frames)
        { lane with
          flow := some (flow.advance count)
          queue := queue'
          held := Function.update lane.held msgno [] }
  | react {lane : Lane} {flow : Flow} {frames : List DataFrame}
      {queue' : List Queued} {count : Nat} {seq : SeqFrame} :
      lane.flow = some flow → seq.channel = number →
      (flow.applySeq seq).Writes lane.queue frames queue' count →
      Step number lane (.react seq) (wrote frames)
        { lane with
          flow := some ((flow.applySeq seq).advance count), queue := queue' }
  | take {lane lane' : Lane} {flow : Flow} {frame : DataFrame}
      {actions : List Action} :
      lane.flow = some flow → frame.channel = number → flow.admits frame →
      (Fragment.absorb flow.held frame.fragment).isSome →
      Counts lane (flow.taken frame) frame.size actions lane' →
      Step number lane (.take frame) (.accepted frame :: actions) lane'
  | reject {lane : Lane} {flow : Flow} {frame : DataFrame} :
      lane.flow = some flow → frame.channel = number → flow.admits frame →
      Fragment.absorb flow.held frame.fragment = none →
      Step number lane (.reject frame) [.accepted frame]
        { lane with flow := some (flow.taken frame) }
  | opened {lane : Lane} {windowSize : UInt32} :
      number ≠ greetingChannel →
      Step number lane (.opened windowSize) [.opened number]
        { lane with flow := some (Flow.fresh number windowSize) }
  | closed {lane : Lane} :
      number ≠ greetingChannel →
      Step number lane .closed [.dropped number] shut
  | resize {lane : Lane} {flow : Flow} {size : UInt32} :
      number ≠ greetingChannel → lane.flow = some flow →
      Step number lane (.resize size) [] { lane with
        flow := some (flow.resized size) }
  | advertise {lane : Lane} {flow : Flow} {seq : SeqFrame} :
      lane.flow = some flow → flow.recvWindow.toSeqFrame number = .ok seq →
      Step number lane (.advertise seq) [.wrote (.seq seq)] lane

end Lane

end Vortice.Proto
