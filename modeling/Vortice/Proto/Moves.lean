import Vortice.Foundation.Labelled
import Vortice.Proto.Lane

/-!
# What a session does, move by move

Every method is a path of moves.  A move steps one lane, or changes only what no
lane sees.  `Effect` names the moves, and each method is given the effects it
may have, so a property of runs has to be checked for one move of each kind.
-/

namespace Vortice.Proto

open Vortice.Foundation

/-- The frames put out, in the history. -/
def written (history : List Action) : List Frame :=
  history.filterMap fun
    | .wrote frame => some frame
    | _ => none

@[simp] theorem written_nil : written [] = [] := rfl

@[simp] theorem written_append (first second : List Action) :
    written (first ++ second) = written first ++ written second := by
  simp [written]

@[simp] theorem written_wrote (frames : List DataFrame) :
    written (Lane.wrote frames) = frames.map .data := by
  induction frames with
  | nil => rfl
  | cons frame frames ih => simp_all [written, Lane.wrote]

namespace SessionCore

/-- What a session keeps for one channel number. -/
def lane (s : SessionCore) (number : UInt32) : Lane :=
  { flow := (s.channelAt number).map Channel.flow
    queue := (s.queues number).getD []
    held := fun msgno => ((s.heldReplies number).bind (· msgno)).getD []
    unacked := (s.unacked number).getD 0 }

/-- The next message number of every channel is one a frame can carry. -/
def Numbered (s : SessionCore) : Prop :=
  s.zero.nextMsgno ≤ maxMsgNo ∧
    ∀ number channel, s.channels number = some channel →
      channel.nextMsgno ≤ maxMsgNo

/-- How the history and the octets put out grow. -/
structure Logs (s : SessionCore) (actions : List Action) (s' : SessionCore) :
    Prop where
  config : s'.config = s.config
  history : s'.history = s.history ++ actions
  outbound : s'.outbound = s.outbound ++ encodeAll (written actions)
  numbered : s.Numbered → s'.Numbered

/-- The requests that are waiting for an answer, and the next number to ask for. -/
structure SameRequests (s s' : SessionCore) : Prop where
  pending : s'.pending = s.pending
  nextChannel : s'.nextChannel = s.nextChannel

/-- What the application can see of a session. -/
structure SameView (s s' : SessionCore) : Prop where
  state : s'.state = s.state
  peerGreeting : s'.peerGreeting = s.peerGreeting
  events : s'.events = s.events

inductive Effect where
  | idle
  | tell
  | number
  | ask (msgno : UInt32) (pending : Pending)
  | settle (msgno : UInt32)
  | lane (number : UInt32) (effect : Lane.Effect)
  | accept (number : UInt32)
  | answer (msgno number : UInt32)
  | shut

/-- One move of a session. -/
inductive Move : SessionCore → Effect → SessionCore → Prop where
  | idle {s s' : SessionCore} :
      s'.lane = s.lane → Logs s [] s' → SameRequests s s' → SameView s s' →
      Move s .idle s'
  | tell {s s' : SessionCore} :
      s'.lane = s.lane → Logs s [] s' → SameRequests s s' → Move s .tell s'
  | number {s s' : SessionCore} :
      s'.lane = s.lane → Logs s [] s' → s'.pending = s.pending →
      s'.nextChannel = s.nextChannel + 2 → SameView s s' → Move s .number s'
  | ask {s s' : SessionCore} {msgno : UInt32} {pending : Pending} :
      s'.lane = s.lane → Logs s [] s' →
      s'.pending = Function.update s.pending msgno (some pending) →
      s'.nextChannel = s.nextChannel → SameView s s' →
      Move s (.ask msgno pending) s'
  | settle {s s' : SessionCore} {msgno : UInt32} :
      s'.lane = s.lane → Logs s [] s' →
      s'.pending = Function.update s.pending msgno none →
      s'.nextChannel = s.nextChannel → SameView s s' →
      Move s (.settle msgno) s'
  | lane {s s' : SessionCore} {number : UInt32} {effect : Lane.Effect}
      {actions : List Action} {lane' : Lane} :
      (∀ windowSize, effect ≠ .opened windowSize) →
      Lane.Step number (s.lane number) effect actions lane' →
      s'.lane = Function.update s.lane number lane' → Logs s actions s' →
      SameRequests s s' → SameView s s' → Move s (.lane number effect) s'
  | accept {s s' : SessionCore} {number : UInt32} {lane' : Lane} :
      s.config.role.owns number = false → (s.lane number).flow = none →
      Lane.Step number (s.lane number) (.opened s.config.windowSize)
        [.opened number] lane' →
      s'.lane = Function.update s.lane number lane' →
      Logs s [.opened number] s' → SameRequests s s' → SameView s s' →
      Move s (.accept number) s'
  | answer {s s' : SessionCore} {msgno number : UInt32} {lane' : Lane} :
      s.pending msgno = some (.start number) →
      Lane.Step number (s.lane number) (.opened s.config.windowSize)
        [.opened number] lane' →
      s'.lane = Function.update s.lane number lane' →
      Logs s [.opened number] s' →
      s'.pending = Function.update s.pending msgno none →
      s'.nextChannel = s.nextChannel → SameView s s' →
      Move s (.answer msgno number) s'
  | answerZero {s s' : SessionCore} {msgno : UInt32} :
      s.pending msgno = some (.start greetingChannel) →
      s'.lane = s.lane → Logs s [.opened greetingChannel] s' →
      s'.pending = Function.update s.pending msgno none →
      s'.nextChannel = s.nextChannel → SameView s s' →
      Move s (.answer msgno greetingChannel) s'
  | shut {s s' : SessionCore} :
      (∀ number, s'.lane number =
        if number = greetingChannel then
          { Lane.shut with flow := (s.lane greetingChannel).flow }
        else Lane.shut) →
      Logs s [.dropped greetingChannel] s' → SameRequests s s' → SameView s s' →
      Move s .shut s'

/-! ## Lanes of updated sessions -/

theorem lane_setChannel (s : SessionCore) (number : UInt32) (channel : Channel) :
    (s.setChannel number channel).lane =
      Function.update s.lane number
        { s.lane number with flow := some channel.flow } := by
  funext other
  by_cases hzero : number = greetingChannel
  · subst hzero
    by_cases hother : other = greetingChannel
    · subst hother
      simp [lane, setChannel, channelAt]
    · simp [lane, setChannel, channelAt, hother]
  · by_cases hother : other = number
    · subst hother
      simp [lane, setChannel, channelAt, hzero]
    · simp [lane, setChannel, channelAt, hzero, hother]

theorem lane_queues (s : SessionCore) (number : UInt32) (queue : List Queued) :
    SessionCore.lane { s with
      queues := Function.update s.queues number (some queue) } =
      Function.update s.lane number { s.lane number with queue } := by
  funext other
  by_cases hother : other = number
  · subst hother
    simp [lane, channelAt]
  · simp [lane, channelAt, hother]

theorem lane_unacked (s : SessionCore) (number octets : UInt32) :
    SessionCore.lane { s with
      unacked := Function.update s.unacked number (some octets) } =
      Function.update s.lane number
        { s.lane number with unacked := octets } := by
  funext other
  by_cases hother : other = number
  · subst hother
    simp [lane, channelAt]
  · simp [lane, channelAt, hother]

theorem Numbered.update {s : SessionCore} (h : s.Numbered) (number : UInt32)
    {channel : Channel} (hchannel : channel.nextMsgno ≤ maxMsgNo) :
    Numbered { s with
      channels := Function.update s.channels number (some channel) } := by
  refine ⟨h.1, fun other found hfound => ?_⟩
  by_cases hother : other = number
  · subst hother
    simp only [Function.update_self, Option.some.injEq] at hfound
    rwa [← hfound]
  · simp only [ne_eq, hother, not_false_eq_true, Function.update_of_ne] at hfound
    exact h.2 other found hfound

theorem Numbered.setChannel {s : SessionCore} (h : s.Numbered) (number : UInt32)
    {channel : Channel} (hchannel : channel.nextMsgno ≤ maxMsgNo) :
    (s.setChannel number channel).Numbered := by
  unfold SessionCore.setChannel
  split
  · exact ⟨hchannel, h.2⟩
  · exact h.update number hchannel

theorem Numbered.channelAt {s : SessionCore} (h : s.Numbered) {number : UInt32}
    {channel : Channel} (hchannel : s.channelAt number = some channel) :
    channel.nextMsgno ≤ maxMsgNo := by
  unfold SessionCore.channelAt at hchannel
  split at hchannel
  · cases hchannel
    exact h.1
  · exact h.2 number channel hchannel

theorem lane_of_flow_eq {s : SessionCore} {number : UInt32} {channel channel' : Channel}
    (hchannel : s.channels number = some channel)
    (hflow : channel'.flow = channel.flow) :
    SessionCore.lane { s with
      channels := Function.update s.channels number (some channel') } =
      s.lane := by
  funext other
  by_cases hzero : other = greetingChannel
  · simp [lane, channelAt, hzero]
  · by_cases hother : other = number
    · subst hother
      simp [lane, channelAt, hzero, hchannel, hflow]
    · simp [lane, channelAt, hzero, hother]

end SessionCore

end Vortice.Proto
