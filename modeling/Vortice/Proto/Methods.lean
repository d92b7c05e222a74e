import Vortice.Proto.Moves

/-!
# The moves each method makes

One lemma for each method, built from those of the methods it calls.  What a
method may do is a set of effects; `flush` and the methods that end in it also
say when they succeed.
-/

namespace Vortice.Proto

open Vortice.Foundation

namespace SessionCore

section Logs

variable {s t u : SessionCore} {first second : List Action}

theorem Logs.refl (s : SessionCore) : Logs s [] s :=
  ⟨rfl, by simp, by simp, id⟩

theorem Logs.of_same (hconfig : t.config = s.config) (hhistory : t.history = s.history)
    (houtbound : t.outbound = s.outbound) (hnumbered : s.Numbered → t.Numbered) :
    Logs s [] t :=
  ⟨hconfig, by simp [hhistory], by simp [houtbound], hnumbered⟩

theorem Logs.trans (hfirst : Logs s first t) (hsecond : Logs t second u) :
    Logs s (first ++ second) u where
  config := hsecond.config.trans hfirst.config
  history := by rw [hsecond.history, hfirst.history, List.append_assoc]
  outbound := by
    rw [hsecond.outbound, hfirst.outbound, written_append, encodeAll_append,
      List.append_assoc]
  numbered := fun h => hsecond.numbered (hfirst.numbered h)

theorem SameRequests.refl (s : SessionCore) : SameRequests s s := ⟨rfl, rfl⟩

theorem SameRequests.trans (hfirst : SameRequests s t) (hsecond : SameRequests t u) :
    SameRequests s u :=
  ⟨hsecond.pending.trans hfirst.pending,
    hsecond.nextChannel.trans hfirst.nextChannel⟩

theorem SameView.refl (s : SessionCore) : SameView s s := ⟨rfl, rfl, rfl⟩

theorem SameView.trans (hfirst : SameView s t) (hsecond : SameView t u) :
    SameView s u :=
  ⟨hsecond.state.trans hfirst.state,
    hsecond.peerGreeting.trans hfirst.peerGreeting,
    hsecond.events.trans hfirst.events⟩

end Logs

/-! ## Methods that leave every lane as it is -/

abbrev Does {α : Type} (allowed : Effect → Prop) (method : SessionM α) : Prop :=
  Makes Move allowed method

variable {allowed : Effect → Prop}

theorem Does.modify {f : SessionCore → SessionCore} {effect : Effect}
    (hallowed : allowed effect) (h : ∀ s, Move s effect (f s)) :
    Does allowed (modify f : SessionM Unit) :=
  fun s => Walk.single hallowed (h s)

/-- The method of a channel leaves its flow as it is. -/
def KeepsFlow {α : Type} (method : Op Channel α) : Prop :=
  Computation.Relates (fun channel channel' => channel'.flow = channel.flow ∧
    (channel.nextMsgno ≤ maxMsgNo → channel'.nextMsgno ≤ maxMsgNo)) method

theorem final_onZero {α : Type} (method : Op Channel α) (s : SessionCore) :
    Computation.final (onZero method) s =
      { s with zero := Computation.final method s.zero } := by
  cases hrun : method s.zero <;> simp only [Computation.final, onZero, hrun]

theorem final_onOpen {α : Type} (number : UInt32) (method : Op Channel α)
    {s : SessionCore} {channel : Channel}
    (h : s.channels number = some channel) :
    Computation.final (onOpen number method) s =
      { s with
        channels := Function.update s.channels number
          (some (Computation.final method channel)) } := by
  cases hrun : method channel <;> simp only [Computation.final, onOpen, h, hrun]

theorem final_onOpen_none {α : Type} (number : UInt32) (method : Op Channel α)
    {s : SessionCore} (h : s.channels number = none) :
    Computation.final (onOpen number method) s = s := by
  simp only [Computation.final, onOpen, h]

theorem does_onZero {α : Type} {method : Op Channel α} (hmethod : KeepsFlow method)
    (hallowed : allowed .idle) : Does allowed (onZero method) := by
  intro s
  rw [final_onZero]
  obtain ⟨hflow, hnext⟩ := hmethod s.zero
  refine Walk.single hallowed (.idle ?_
    ⟨rfl, by simp, by simp, fun h => ⟨hnext h.1, h.2⟩⟩ ⟨rfl, rfl⟩ ⟨rfl, rfl, rfl⟩)
  funext number
  by_cases hzero : number = greetingChannel
  · simp [lane, channelAt, hzero, hflow]
  · simp [lane, channelAt, hzero]

theorem keepsFlow_modify {f : Channel → Channel}
    (h : ∀ channel, (f channel).flow = channel.flow ∧
      (f channel).nextMsgno = channel.nextMsgno) :
    KeepsFlow (modify f : Op Channel Unit) :=
  fun channel => ⟨(h channel).1, fun hle => (h channel).2 ▸ hle⟩

/-- The next candidate is taken, or the search goes on behind it. -/
theorem allocateMsgnoLoop_succ (fuel : Nat) (channel : Channel) :
    Channel.allocateMsgnoLoop (fuel + 1) channel =
      let next := { channel with
        nextMsgno :=
          if channel.nextMsgno = maxMsgNo then 0 else channel.nextMsgno + 1 }
      if channel.nextMsgno ∉ channel.outstanding then
        .ok channel.nextMsgno { next with
          outstanding := insert channel.nextMsgno channel.outstanding }
      else Channel.allocateMsgnoLoop fuel next := by
  by_cases hused : channel.nextMsgno ∈ channel.outstanding
  · simp only [hused, not_true, if_false]
    rw [Channel.allocateMsgnoLoop]
    change (if channel.nextMsgno ∉ channel.outstanding then _ else _ :
      Op Channel UInt32) _ = _
    rw [if_neg (not_not_intro hused)]
  · simp only [hused, not_false_eq_true, if_true]
    rw [Channel.allocateMsgnoLoop]
    change (if channel.nextMsgno ∉ channel.outstanding then _ else _ :
      Op Channel UInt32) _ = _
    rw [if_pos hused]
    rfl

theorem next_msgno_le {candidate : UInt32} (h : candidate ≤ maxMsgNo) :
    (if candidate = maxMsgNo then 0 else candidate + 1) ≤ maxMsgNo := by
  split
  · decide
  · rename_i hne
    rw [UInt32.le_iff_toNat_le, toNat_maxMsgNo] at h ⊢
    have hlt : candidate.toNat ≠ 2147483647 := fun heq =>
      hne (UInt32.toNat_inj.mp heq)
    have hone : (1 : UInt32).toNat = 1 := rfl
    rw [UInt32.toNat_add, hone]
    omega

theorem keepsFlow_allocateMsgnoLoop (fuel : Nat) :
    KeepsFlow (Channel.allocateMsgnoLoop fuel) := by
  induction fuel with
  | zero => exact fun _ => ⟨rfl, id⟩
  | succ fuel ih =>
      intro channel
      rw [Computation.final, allocateMsgnoLoop_succ]
      by_cases hused : channel.nextMsgno ∈ channel.outstanding
      · simp only [hused, not_true, if_false]
        obtain ⟨hflow, hnext⟩ := ih { channel with
          nextMsgno :=
            if channel.nextMsgno = maxMsgNo then 0 else channel.nextMsgno + 1 }
        exact ⟨hflow, fun hle => hnext (next_msgno_le hle)⟩
      · simp only [hused, not_false_eq_true, if_true]
        exact ⟨rfl, next_msgno_le⟩

theorem allocateMsgnoLoop_le {fuel : Nat} {channel channel' : Channel}
    {msgno : UInt32} (hle : channel.nextMsgno ≤ maxMsgNo)
    (h : Channel.allocateMsgnoLoop fuel channel = .ok msgno channel') :
    msgno ≤ maxMsgNo := by
  induction fuel generalizing channel with
  | zero => cases h
  | succ fuel ih =>
      rw [allocateMsgnoLoop_succ] at h
      by_cases hused : channel.nextMsgno ∈ channel.outstanding
      · simp only [hused, not_true, if_false] at h
        refine ih ?_ h
        exact next_msgno_le hle
      · simp only [hused, not_false_eq_true, if_true] at h
        cases h
        exact hle

theorem keepsFlow_allocateAnsno (msgno : UInt32) :
    KeepsFlow (Channel.allocateAnsno msgno) :=
  fun _ => ⟨rfl, id⟩

/-! ## Flushing -/

/-- What one flush of a lane does. -/
structure Flushed (s : SessionCore) (number : UInt32) (flow : Flow)
    (frames : List DataFrame) (queue' : List Queued) (count : Nat)
    (s' : SessionCore) : Prop where
  writes : flow.Writes (s.lane number).queue frames queue' count
  lane : s'.lane = Function.update s.lane number
    { s.lane number with flow := some (flow.advance count), queue := queue' }
  logs : Logs s (Lane.wrote frames) s'
  requests : SameRequests s s'
  view : SameView s s'

theorem flow_of_lane {s : SessionCore} {number : UInt32} {flow : Flow}
    (h : (s.lane number).flow = some flow) :
    ∃ channel, s.channelAt number = some channel ∧ channel.flow = flow :=
  Option.map_eq_some_iff.mp h

theorem flush_run {s : SessionCore} {number : UInt32} {flow : Flow}
    (hflow : (s.lane number).flow = some flow) :
    ∃ s' result frames queue' count,
      Computation.outcome (flush number) s = (s', result) ∧
      Flushed s number flow frames queue' count s' ∧
      (result = .ok () ↔
        ∀ front ∈ queue'.head?, (flow.advance count).Waits front) := by
  obtain ⟨channel, hchannel, rfl⟩ := flow_of_lane hflow
  cases hqueue : s.queues number with
  | none =>
      have hempty : (s.lane number).queue = [] := by simp [lane, hqueue]
      refine ⟨s, .ok (), [], [], 0, ?_, ?_, by simp⟩
      · simp only [Computation.outcome, flush, hqueue]
      · refine ⟨?_, ?_, .refl s, .refl s, .refl s⟩
        · rw [hempty]
          exact Flow.writes_nothing (by rintro _ ⟨⟩)
        · rw [Flow.advance_zero, ← hflow, ← hempty]
          exact (Function.update_eq_self number s.lane).symm
  | some queue =>
      have hsame : (s.lane number).queue = queue := by simp [lane, hqueue]
      obtain ⟨queue', _, frames, result, count, hloop, rfl, hwrites, hok⟩ :=
        flushLoop_writes s.config.maxFrameSize queue channel
      refine ⟨{ s.setChannel number (channel.advance count) with
          queues := Function.update s.queues number (some queue')
          outbound := s.outbound ++ encodeAll (frames.map .data)
          history := s.history ++ frames.map (.wrote <| .data ·) },
        result, frames, queue', count, ?_, ?_, ?_⟩
      · simp only [Computation.outcome, flush, hqueue, hchannel, hloop]
        cases result <;> rfl
      · refine ⟨by rw [hsame]; exact hwrites, ?_, ⟨?_, rfl, ?_, ?_⟩, ⟨?_, ?_⟩,
          ⟨?_, ?_, ?_⟩⟩
        · have hlane := lane_queues (s.setChannel number (channel.advance count))
            number queue'
          rw [lane_setChannel] at hlane
          simp only [Function.update_idem, Function.update_self] at hlane
          have hqueues : (s.setChannel number (channel.advance count)).queues =
              s.queues := by
            unfold setChannel
            split <;> rfl
          rw [hqueues] at hlane
          exact hlane
        · unfold setChannel
          split <;> rfl
        · rw [written_wrote]
        · intro h
          have hnext : channel.nextMsgno ≤ maxMsgNo := h.channelAt hchannel
          refine h.setChannel number ?_
          exact hnext
        all_goals
          unfold setChannel
          split <;> rfl
      · exact hok

/-- A flush that fails names what is wrong with the message it leaves at the head. -/
theorem flush_error {s t : SessionCore} {number : UInt32} {channel : Channel} {fault : Fault}
    (hchannel : s.channelAt number = some channel) (h : flush number s = .error fault t) :
    ∃ front ∈ (t.lane number).queue.head?, ¬ Frameable channel.number front.tag ∧
      fault = .error (refusal channel.number front.tag) := by
  unfold flush at h
  cases hqueue : s.queues number with
  | none =>
      rw [hqueue] at h
      cases h
  | some queue =>
      obtain ⟨⟨queue', channel', frames, result⟩, hloop⟩ :
          ∃ loop, flushLoop s.config.maxFrameSize queue channel = loop := ⟨_, rfl⟩
      simp only [hqueue, hchannel, hloop] at h
      cases result with
      | ok => cases h
      | error found =>
          cases h
          have hleft := flushLoop_error hloop
          simpa [lane] using hleft

/-! ## Handing over messages -/

/-- The session once a message has been queued. -/
def enqueued (s : SessionCore) (number : UInt32) (message : Queued) :
    SessionCore :=
  record { s with
    queues := Function.update s.queues number
      (some ((s.queues number).getD [] ++ [message])) }
    (.queued number message)

theorem lane_enqueued (s : SessionCore) (number : UInt32) (message : Queued) :
    (s.enqueued number message).lane = Function.update s.lane number
      { s.lane number with queue := (s.lane number).queue ++ [message] } :=
  lane_queues s number _

theorem logs_enqueued (s : SessionCore) (number : UInt32) (message : Queued) :
    Logs s [.queued number message] (s.enqueued number message) :=
  ⟨rfl, rfl, by simp [enqueued, record, written], id⟩

/-- The session once a message has been handed over and queued. -/
def submitted (s : SessionCore) (number : UInt32) (message : Queued) :
    SessionCore :=
  (s.record (.handed number message)).enqueued number message

theorem lane_submitted (s : SessionCore) (number : UInt32) (message : Queued) :
    (s.submitted number message).lane = Function.update s.lane number
      { s.lane number with queue := (s.lane number).queue ++ [message] } :=
  (s.record (.handed number message)).lane_enqueued number message

theorem logs_submitted (s : SessionCore) (number : UInt32) (message : Queued) :
    Logs s [.handed number message, .queued number message]
      (s.submitted number message) := by
  have hhanded : Logs s [.handed number message]
      (s.record (.handed number message)) :=
    ⟨rfl, rfl, by simp [record, written], id⟩
  exact hhanded.trans (logs_enqueued _ number message)

/-- What handing over a message, queueing it and one flush do. -/
structure Pushed (s : SessionCore) (number : UInt32) (message : Queued) (flow : Flow)
    (frames : List DataFrame) (queue' : List Queued) (count : Nat)
    (s' : SessionCore) : Prop where
  writes : flow.Writes ((s.lane number).queue ++ [message]) frames queue' count
  lane : s'.lane = Function.update s.lane number
    { s.lane number with flow := some (flow.advance count), queue := queue' }
  logs : Logs s
    ([.handed number message, .queued number message] ++ Lane.wrote frames) s'
  requests : SameRequests s s'
  view : SameView s s'

theorem Pushed.move {s s' : SessionCore} {number : UInt32} {message : Queued}
    {flow : Flow} {frames : List DataFrame} {queue' : List Queued} {count : Nat}
    (h : Pushed s number message flow frames queue' count s')
    (hflow : (s.lane number).flow = some flow) :
    Move s (.lane number (.push message)) s' :=
  .lane (by rintro _ ⟨⟩) (.push hflow h.writes) h.lane h.logs h.requests h.view

/-- A message is handed over, queued and written as far as the window allows. -/
theorem push_run {s : SessionCore} {number : UInt32} {flow : Flow}
    (message : Queued) (hflow : (s.lane number).flow = some flow) :
    ∃ s' result frames queue' count,
      Computation.outcome (flush number) (s.submitted number message) =
        (s', result) ∧
      Pushed s number message flow frames queue' count s' ∧
      (result = .ok () ↔
        ∀ front ∈ queue'.head?, (flow.advance count).Waits front) := by
  have hlane := s.lane_submitted number message
  have hnumber := congrFun hlane number
  rw [Function.update_self] at hnumber
  have hflow' : ((s.submitted number message).lane number).flow = some flow := by
    rw [hnumber]
    exact hflow
  obtain ⟨s', result, frames, queue', count, hrun, hflushed, hok⟩ :=
    flush_run hflow'
  have hwrites := hflushed.writes
  rw [hnumber] at hwrites
  have hrequests : SameRequests s (s.submitted number message) := ⟨rfl, rfl⟩
  have hview : SameView s (s.submitted number message) := ⟨rfl, rfl, rfl⟩
  refine ⟨s', result, frames, queue', count, hrun, ⟨hwrites, ?_, ?_,
    hrequests.trans hflushed.requests, hview.trans hflushed.view⟩, hok⟩
  · rw [hflushed.lane, hlane, Function.update_self, Function.update_idem]
  · exact (logs_submitted s number message).trans hflushed.logs

theorem final_of_outcome {α : Type} {method : SessionM α} {s s' : SessionCore}
    {result : Except Fault α}
    (h : Computation.outcome method s = (s', result)) :
    Computation.final method s = s' := by
  rw [← Computation.outcome_fst, h]

/-- What writing a message on channel 0 does. -/
def Effect.writesZero (messages : Queued → Prop) : Effect → Prop
  | .idle => True
  | .lane other (.push message) => other = greetingChannel ∧ messages message
  | _ => False

theorem Effect.writesZero_of {messages : Queued → Prop} :
    ∀ effect : Effect, effect.writesZero messages →
      effect.writesZero fun _ => True := by
  intro effect h
  cases effect with
  | lane other effect =>
      cases effect with
      | push => exact ⟨h.1, trivial⟩
      | _ => exact h
  | _ => exact h

theorem flow_zero (s : SessionCore) :
    (s.lane greetingChannel).flow = some s.zero.flow := by
  simp [lane, channelAt]

theorem does_writeZero (kind : FrameKind) (msgno : UInt32)
    (management : Management.Message) :
    Does (Effect.writesZero (· = ⟨kind, msgno, none, management.toPayload⟩))
      (writeZero kind msgno management) := by
  intro s
  obtain ⟨s', result, _, _, _, hrun, hpushed, -⟩ :=
    push_run ⟨kind, msgno, none, management.toPayload⟩ s.flow_zero
  have hfinal : Computation.final (writeZero kind msgno management) s = s' :=
    final_of_outcome hrun
  rw [hfinal]
  refine Walk.single ?_ (hpushed.move s.flow_zero)
  exact ⟨rfl, rfl⟩

theorem does_reply (kind : FrameKind) (msgno : UInt32)
    (management : Management.Message) :
    Does (Effect.writesZero (· = ⟨kind, msgno, none, management.toPayload⟩))
      (reply kind msgno management) := by
  have hreplied : KeepsFlow (modify (·.replied msgno)) :=
    keepsFlow_modify fun _ => ⟨rfl, rfl⟩
  exact (does_onZero hreplied trivial).bind
    fun _ => does_writeZero kind msgno management

/-! ## Replies held back and released -/

/-- What `send` does: push, hold or release messages. -/
def Effect.sends (number : UInt32) (messages : Queued → Prop) : Effect → Prop
  | .idle => True
  | .lane other (.push message) => other = number ∧ messages message
  | .lane other (.hold message) => other = number ∧ messages message
  | .lane other (.release _) => other = number
  | _ => False

theorem lane_held (s : SessionCore) (number : UInt32)
    (held : UInt32 → Option (List Queued)) :
    SessionCore.lane { s with
      heldReplies := Function.update s.heldReplies number (some held) } =
      Function.update s.lane number
        { s.lane number with held := fun msgno => (held msgno).getD [] } := by
  funext other
  by_cases hother : other = number
  · subst hother
    simp [lane, channelAt]
  · simp [lane, channelAt, hother]

/-- The session once a reply has been handed over and kept. -/
def withheld (s : SessionCore) (number : UInt32) (message : Queued) :
    SessionCore :=
  Computation.final (do note (.handed number message); hold number message) s

theorem withheld_move {s : SessionCore} {number : UInt32} (message : Queued)
    (hflow : (s.lane number).flow.isSome) :
    Move s (.lane number (.hold message)) (s.withheld number message) := by
  refine .lane (by rintro _ ⟨⟩) (.hold hflow) ?_ ⟨rfl, rfl, ?_, id⟩ ⟨rfl, rfl⟩
    ⟨rfl, rfl, rfl⟩
  · refine (lane_held s number _).trans ?_
    refine congrArg (Function.update s.lane number)
      (Lane.ext rfl rfl (funext fun msgno => ?_) rfl)
    by_cases hmsgno : msgno = message.msgno
    · subst hmsgno
      cases hheld : s.heldReplies number <;> simp [lane, record, hheld]
    · cases hheld : s.heldReplies number <;> simp [lane, record, hheld, hmsgno]
  · change s.outbound = s.outbound ++ encodeAll (written [.handed number message])
    simp [written]

/-- The messages held for a number, moved to the queue. -/
theorem enqueueAll_run (number : UInt32) (held : List Queued) (s : SessionCore) :
    ∃ s', enqueueAll number held s = .ok () s' ∧
      s'.lane = Function.update s.lane number
        { s.lane number with queue := (s.lane number).queue ++ held } ∧
      Logs s (held.map (.queued number)) s' ∧
      SameRequests s s' ∧ SameView s s' := by
  induction held generalizing s with
  | nil =>
      refine ⟨s, rfl, ?_, .refl s, .refl s, .refl s⟩
      rw [List.append_nil]
      exact (Function.update_eq_self number s.lane).symm
  | cons queued held ih =>
      obtain ⟨s', hrun, hlane, hlogs, hrequests, hview⟩ :=
        ih (s.enqueued number queued)
      refine ⟨s', hrun, ?_, (logs_enqueued s number queued).trans hlogs,
        ⟨hrequests.pending, hrequests.nextChannel⟩,
        ⟨hview.state, hview.peerGreeting, hview.events⟩⟩
      rw [hlane, lane_enqueued, Function.update_idem, Function.update_self,
        List.append_assoc, List.singleton_append]

/-- The replies held for a message, queued and written. -/
theorem release_run {s : SessionCore} {number next : UInt32} {flow : Flow}
    {held : UInt32 → Option (List Queued)} {messages : List Queued}
    (hflow : (s.lane number).flow = some flow)
    (hheld : s.heldReplies number = some held) (hnext : held next = some messages) :
    ∃ s' result,
      Computation.outcome (do
        takeHeld number next
        enqueueAll number messages
        flush number) s = (s', result) ∧
      Move s (.lane number (.release next)) s' ∧
      (result = .ok () ∨ Stuck flow.number (s'.lane number).queue) := by
  have hmessages : (s.lane number).held next = messages := by
    simp [lane, hheld, hnext]
  have htake : Computation.final (takeHeld number next) s =
      { s with
        heldReplies := Function.update s.heldReplies number
          (some (Function.update held next none)) } := by
    change ({ s with heldReplies := _ } : SessionCore) = _
    rw [hheld]
    rfl
  have hlane := lane_held s number (Function.update held next none)
  rw [← htake] at hlane
  obtain ⟨t, hqueue, hlane', hlogs, hrequests, hview⟩ :=
    enqueueAll_run number messages (Computation.final (takeHeld number next) s)
  rw [hlane, Function.update_idem, Function.update_self] at hlane'
  have hnumber := congrFun hlane' number
  rw [Function.update_self] at hnumber
  have hflow' : (t.lane number).flow = some flow := by
    rw [hnumber]
    exact hflow
  obtain ⟨s', result, frames, queue', count, hrun, hflushed, hok⟩ := flush_run hflow'
  have hwrites := hflushed.writes
  have hstuck := hwrites.ok_or_stuck hok
  have hqueue' := congrFun hflushed.lane number
  rw [Function.update_self] at hqueue'
  rw [hnumber] at hwrites
  rw [← hmessages] at hwrites hlogs
  refine ⟨s', result, ?_, ?_, by rwa [hqueue']⟩
  · have htaken : takeHeld number next s =
        .ok () (Computation.final (takeHeld number next) s) := rfl
    have hsteps := (Computation.bind_of_ok htaken
      (fun _ => do enqueueAll number messages; flush number)).trans
      (Computation.bind_of_ok hqueue (fun _ => flush number))
    rw [Computation.outcome, hsteps, ← Computation.outcome]
    exact hrun
  · have hfirst : Logs s [] (Computation.final (takeHeld number next) s) := by
      rw [htake]
      exact ⟨rfl, by simp, by simp, id⟩
    have hrequests' : SameRequests s (Computation.final (takeHeld number next) s) := by
      rw [htake]
      exact ⟨rfl, rfl⟩
    have hview' : SameView s (Computation.final (takeHeld number next) s) := by
      rw [htake]
      exact ⟨rfl, rfl, rfl⟩
    refine .lane (by rintro _ ⟨⟩) (.release hflow hwrites) ?_
      ((hfirst.trans hlogs).trans hflushed.logs)
      ((hrequests'.trans hrequests).trans hflushed.requests)
      ((hview'.trans hview).trans hflushed.view)
    rw [hflushed.lane, hlane', Function.update_self, Function.update_idem]
    refine congrArg (Function.update s.lane number)
      (Lane.ext rfl rfl (funext fun msgno => ?_) rfl)
    by_cases hmsgno : msgno = next
    · subst hmsgno
      simp
    · simp [lane, hheld, hmsgno]

/-! ## Sending -/

variable {number : UInt32} {messages : Queued → Prop}

theorem Effect.sends_of {messages : Queued → Prop} :
    ∀ effect : Effect, effect.sends number messages →
      effect.sends number fun _ => True := by
  intro effect h
  cases effect with
  | lane other effect =>
      cases effect with
      | push => exact ⟨h.1, trivial⟩
      | hold => exact ⟨h.1, trivial⟩
      | _ => exact h
  | _ => exact h

theorem Move.path {s s' : SessionCore} {effect : Effect} (h : Move s effect s')
    (hallowed : allowed effect) : Walk Move allowed s s' :=
  Walk.single hallowed h

theorem Move.logs {s s' : SessionCore} {effect : Effect} (h : Move s effect s') :
    ∃ actions, Logs s actions s' := by
  cases h <;> exact ⟨_, ‹Logs _ _ _›⟩

theorem logs_of_path {s s' : SessionCore} (h : Walk Move allowed s s') :
    ∃ actions, Logs s actions s' := by
  refine h.preserves (I := fun t => ∃ actions, Logs s actions t) ?_ ⟨[], .refl s⟩
  rintro t u effect - hmove ⟨actions, hlogs⟩
  obtain ⟨more, hmore⟩ := hmove.logs
  exact ⟨actions ++ more, hlogs.trans hmore⟩

/-- A channel stays open until it is closed. -/
theorem Move.flow_isSome {s s' : SessionCore} {effect : Effect}
    (h : Move s effect s') (hclosed : effect ≠ .lane number .closed)
    (hshut : effect ≠ .shut) (hflow : (s.lane number).flow.isSome) :
    (s'.lane number).flow.isSome := by
  have hstep : ∀ {other : UInt32} {effect : Lane.Effect} {actions : List Action}
      {lane' : Lane}, (number = other → effect ≠ .closed) →
      Lane.Step other (s.lane other) effect actions lane' →
      s'.lane = Function.update s.lane other lane' →
      (s'.lane number).flow.isSome := by
    intro other effect actions lane' hopen hstep hlane
    rw [hlane]
    by_cases hother : number = other
    · subst hother
      rw [Function.update_self]
      cases hstep with
      | hold => exact hflow
      | advertise => exact hflow
      | closed => exact absurd rfl (hopen rfl)
      | take _ _ _ _ hcounts => cases hcounts <;> rfl
      | _ => rfl
    · rwa [Function.update_of_ne hother]
  cases h with
  | @lane _ other effect actions lane' _ hlaneStep hlane =>
      refine hstep ?_ hlaneStep hlane
      rintro rfl rfl
      exact hclosed rfl
  | accept _ _ hlaneStep hlane => exact hstep (by rintro _ ⟨⟩) hlaneStep hlane
  | answer _ hlaneStep hlane => exact hstep (by rintro _ ⟨⟩) hlaneStep hlane
  | shut => exact absurd rfl hshut
  | idle hlane => rwa [hlane]
  | tell hlane => rwa [hlane]
  | number hlane => rwa [hlane]
  | ask hlane => rwa [hlane]
  | settle hlane => rwa [hlane]
  | answerZero _ hlane => rwa [hlane]

theorem does_popReplyOrder :
    Does (Effect.sends number messages) (popReplyOrder number) := by
  have hidle : ∀ s : SessionCore, Move s .idle
      (Computation.final (popReplyOrder number) s) :=
    fun s => .idle rfl (.of_same rfl rfl rfl id) ⟨rfl, rfl⟩ ⟨rfl, rfl, rfl⟩
  exact fun s => (hidle s).path trivial

/-- Nobody's turn has come, or nothing is held for the message whose turn it is. -/
theorem releaseHeld_succ (fuel : Nat) (s : SessionCore) :
    releaseHeld number (fuel + 1) s = (match (s.replyOrder number).bind List.head? with
      | none => pure ()
      | some next =>
          match (s.heldReplies number).bind (· next) with
          | none => pure ()
          | some waiting => do
              takeHeld number next
              enqueueAll number waiting
              flush number
              if waiting.any fun queued => completesReply queued.kind then
                popReplyOrder number
                releaseHeld number fuel
              else return () : SessionM Unit) s := rfl

theorem releaseHeld_waits (fuel : Nat) {s : SessionCore}
    (h : ∀ next, (s.replyOrder number).bind List.head? = some next →
      (s.heldReplies number).bind (· next) = none) :
    releaseHeld number (fuel + 1) s = .ok () s := by
  rw [releaseHeld_succ]
  cases hnext : (s.replyOrder number).bind List.head? with
  | none => rfl
  | some next =>
      simp only [h next hnext]
      rfl

/-- The replies held for the message whose turn it is are queued and written. -/
theorem releaseHeld_next (fuel : Nat) {s : SessionCore} {next : UInt32}
    {waiting : List Queued} (hnext : (s.replyOrder number).bind List.head? = some next)
    (hheld : (s.heldReplies number).bind (· next) = some waiting) :
    releaseHeld number (fuel + 1) s = ((do
        takeHeld number next
        enqueueAll number waiting
        flush number : SessionM Unit) >>= fun _ =>
        if waiting.any fun queued => completesReply queued.kind then do
          popReplyOrder number
          releaseHeld number fuel
        else return ()) s := by
  rw [releaseHeld_succ]
  simp only [hnext, hheld, bind_assoc]

theorem path_releaseHeld (fuel : Nat) {s : SessionCore}
    (hflow : (s.lane number).flow.isSome) :
    Walk Move (Effect.sends number messages) s
      (Computation.final (releaseHeld number fuel) s) := by
  induction fuel generalizing s with
  | zero => exact Walk.refl
  | succ fuel ih =>
      by_cases hwaits : ∀ next, (s.replyOrder number).bind List.head? = some next →
          (s.heldReplies number).bind (· next) = none
      · rw [Computation.final_of_ok (releaseHeld_waits fuel hwaits)]
        exact Walk.refl
      · obtain ⟨next, hnext⟩ := not_forall.mp hwaits
        obtain ⟨horder, hsome⟩ := Classical.not_imp.mp hnext
        obtain ⟨waiting, hwaiting⟩ := Option.ne_none_iff_exists'.mp hsome
        obtain ⟨held, hheld, hfound⟩ := Option.bind_eq_some_iff.mp hwaiting
        obtain ⟨flow, hflow'⟩ := Option.isSome_iff_exists.mp hflow
        obtain ⟨t, result, hrun, hmove, -⟩ := release_run hflow' hheld hfound
        have hstep : Walk Move (Effect.sends number messages) s t := hmove.path rfl
        rw [Computation.final, releaseHeld_next fuel horder hwaiting,
          ← Computation.final]
        refine Makes.path_bind (by rwa [final_of_outcome hrun]) ?_
        intro _ s' hok
        have hsame : s' = t := by
          have := final_of_outcome hrun
          rwa [Computation.final_of_ok hok] at this
        subst hsame
        have hflow'' := hmove.flow_isSome (by simp) (by simp) hflow
        split
        · refine Makes.path_bind (does_popReplyOrder s') fun _ u hpop => ?_
          refine ih ?_
          cases hpop
          exact hflow''
        · exact Walk.refl

theorem path_replyFinished (msgno : UInt32) {s : SessionCore}
    (hflow : (s.lane number).flow.isSome) :
    Walk Move (Effect.sends number messages) s
      (Computation.final (replyFinished number msgno) s) := by
  unfold replyFinished
  change Walk _ _ s (Computation.final
    (if (s.replyOrder number).bind List.head? = some msgno then _ else _ :
      SessionM Unit) s)
  split
  · refine Makes.path_bind (does_popReplyOrder s) fun _ t hpop => ?_
    refine path_releaseHeld _ ?_
    cases hpop
    exact hflow
  · exact path_releaseHeld _ hflow

/-- The answer number a message goes out with. -/
def answerNumber (s : SessionCore) (number : UInt32) (kind : FrameKind)
    (msgno : UInt32) (ansno : Option UInt32) : Option UInt32 :=
  match kind, ansno with
  | .ans, none =>
      some (((s.channels number).bind (·.nextAnsno msgno)).getD 0)
  | _, ansno => ansno

theorem resolveAnsno_run (kind : FrameKind) (msgno : UInt32) (ansno : Option UInt32)
    {s : SessionCore} {channel : Channel}
    (hchannel : s.channels number = some channel) :
    ∃ s', resolveAnsno number kind msgno ansno s =
        .ok (s.answerNumber number kind msgno ansno) s' ∧
      Move s .idle s' ∧ s'.replyOrder = s.replyOrder := by
  have hidle : ∀ {α : Type} (method : Op Channel α), KeepsFlow method →
      Move s .idle { s with
        channels := Function.update s.channels number
          (some (Computation.final method channel)) } := by
    intro α method hmethod
    obtain ⟨hflow, hnext⟩ := hmethod channel
    exact .idle (lane_of_flow_eq hchannel hflow)
      ⟨rfl, by simp, by simp,
        fun h => h.update number (hnext (h.2 number channel hchannel))⟩
      ⟨rfl, rfl⟩ ⟨rfl, rfl, rfl⟩
  have hstay : Move s .idle s :=
    .idle rfl (.refl s) (.refl s) (.refl s)
  have hallocate : resolveAnsno number .ans msgno none s =
      .ok (s.answerNumber number .ans msgno none) { s with
        channels := Function.update s.channels number
          (some (Computation.final (Channel.allocateAnsno msgno) channel)) } := by
    have hopen : onOpen number (Channel.allocateAnsno msgno) s =
        .ok ((channel.nextAnsno msgno).getD 0) { s with
          channels := Function.update s.channels number
            (some (Computation.final (Channel.allocateAnsno msgno) channel)) } := by
      simp only [onOpen, hchannel]
      rfl
    simp only [answerNumber, hchannel, Option.bind_some]
    exact Computation.bind_of_ok hopen _
  have hfinish : resolveAnsno number .nul msgno ansno s =
      .ok (s.answerNumber number .nul msgno ansno) { s with
        channels := Function.update s.channels number
          (some (channel.finishAnswers msgno)) } := by
    have hopen : onOpen number (modify (·.finishAnswers msgno)) s =
        .ok () { s with
          channels := Function.update s.channels number
            (some (channel.finishAnswers msgno)) } := by
      simp only [onOpen, hchannel]
      rfl
    exact Computation.bind_of_ok hopen _
  cases kind with
  | nul =>
      refine ⟨_, hfinish, ?_, rfl⟩
      exact hidle (modify (·.finishAnswers msgno))
        (keepsFlow_modify fun _ => ⟨rfl, rfl⟩)
  | ans =>
      cases ansno with
      | none => exact ⟨_, hallocate, hidle _ (keepsFlow_allocateAnsno msgno), rfl⟩
      | some n => exact ⟨s, rfl, hstay, rfl⟩
  | msg => exact ⟨s, rfl, hstay, rfl⟩
  | rpy => exact ⟨s, rfl, hstay, rfl⟩
  | err => exact ⟨s, rfl, hstay, rfl⟩

theorem flow_isSome_of_open {s : SessionCore} (h : (s.channels number).isSome) :
    (s.lane number).flow.isSome := by
  by_cases hzero : number = greetingChannel
  · simp [lane, channelAt, hzero]
  · simpa [lane, channelAt, hzero] using h

/-- Whether `send` keeps a message because its turn to be answered has not come. -/
def holdsBack (s : SessionCore) (number : UInt32) (kind : FrameKind)
    (msgno : UInt32) : Bool :=
  isReply kind && !s.isNextReply number msgno

/-- What `send` does once the answer number is known. -/
def submit (number : UInt32) (message : Queued) : SessionM Unit := do
  note (.handed number message)
  if isReply message.kind && !(← get).isNextReply number message.msgno then
    hold number message
  else
    enqueue number message.kind message.msgno message.ansno message.payload
    flush number
    if completesReply message.kind then replyFinished number message.msgno
    else return ()

theorem submit_held {message : Queued} {s : SessionCore}
    (h : s.holdsBack number message.kind message.msgno) :
    submit number message s = .ok () (s.withheld number message) := by
  have hcond : (isReply message.kind &&
      !(s.record (.handed number message)).isNextReply number message.msgno) =
      s.holdsBack number message.kind message.msgno := rfl
  change (if (isReply message.kind && !(s.record (.handed number message)).isNextReply
    number message.msgno) = true then _ else _ : SessionM Unit) _ = _
  rw [hcond, if_pos h]
  rfl

theorem submit_pushed {message : Queued} {s : SessionCore}
    (h : ¬ s.holdsBack number message.kind message.msgno) :
    submit number message s = (do
      flush number
      if completesReply message.kind then replyFinished number message.msgno
      else return () : SessionM Unit) (s.submitted number message) := by
  have hcond : (isReply message.kind &&
      !(s.record (.handed number message)).isNextReply number message.msgno) =
      s.holdsBack number message.kind message.msgno := rfl
  change (if (isReply message.kind && !(s.record (.handed number message)).isNextReply
    number message.msgno) = true then _ else _ : SessionM Unit) _ = _
  rw [hcond, if_neg h]
  rfl

theorem submit_cases (message : Queued) {s : SessionCore}
    (hflow : (s.lane number).flow.isSome) :
    let last := Computation.final (submit number message) s
    s.holdsBack number message.kind message.msgno ∧
        Move s (.lane number (.hold message)) last ∨
      ¬ s.holdsBack number message.kind message.msgno ∧
        ∃ t, Move s (.lane number (.push message)) t ∧
          Walk Move (Effect.sends number fun _ => False) t last := by
  intro last
  by_cases hheld : s.holdsBack number message.kind message.msgno
  · refine .inl ⟨hheld, ?_⟩
    have hlast : last = s.withheld number message :=
      Computation.final_of_ok (submit_held hheld)
    rw [hlast]
    exact withheld_move message hflow
  · obtain ⟨flow, hflow'⟩ := Option.isSome_iff_exists.mp hflow
    obtain ⟨t, result, _, _, _, hrun, hpushed, -⟩ := push_run message hflow'
    have hmove := hpushed.move hflow'
    refine .inr ⟨hheld, t, hmove, ?_⟩
    have hlast : last = Computation.final (do
        flush number
        if completesReply message.kind then replyFinished number message.msgno
        else return () : SessionM Unit) (s.submitted number message) := by
      change Computation.final (submit number message) s = _
      rw [Computation.final, submit_pushed hheld, ← Computation.final]
    rw [hlast]
    cases hflush : flush number (s.submitted number message) with
    | error fault u =>
        have hsame : u = t := by
          have := final_of_outcome hrun
          rwa [Computation.final_of_error hflush] at this
        subst hsame
        rw [Computation.final_of_error (Computation.bind_of_error hflush _)]
        exact Walk.refl
    | ok _ u =>
        have hsame : u = t := by
          have := final_of_outcome hrun
          rwa [Computation.final_of_ok hflush] at this
        subst hsame
        have hbind := Computation.bind_of_ok hflush fun _ =>
          if completesReply message.kind then replyFinished number message.msgno
          else return ()
        rw [Computation.final, hbind, ← Computation.final]
        split
        · refine path_replyFinished message.msgno ?_
          exact hmove.flow_isSome (by simp) (by simp) hflow
        · exact Walk.refl

/-- Sending on an open channel is fixing the answer number and submitting. -/
theorem send_open {channel : Channel} (kind : FrameKind) (msgno : UInt32)
    (ansno : Option UInt32) (payload : Octets) {s : SessionCore}
    (hchannel : s.channels number = some channel) :
    ∃ t, resolveAnsno number kind msgno ansno s =
        .ok (s.answerNumber number kind msgno ansno) t ∧
      Move s .idle t ∧ t.replyOrder = s.replyOrder ∧
      send number kind msgno ansno payload s =
        submit number ⟨kind, msgno, s.answerNumber number kind msgno ansno, payload⟩ t := by
  obtain ⟨t, hresolve, hidle, horder⟩ := resolveAnsno_run kind msgno ansno hchannel
  refine ⟨t, hresolve, hidle, horder, ?_⟩
  unfold send
  change (if (s.channels number).isNone then _ else _ : SessionM Unit) s = _
  rw [hchannel, if_neg (by simp), Computation.bind_of_ok hresolve]
  rfl

/-- What `send` does to an open channel, in the order in which it does it. -/
theorem send_cases {channel : Channel} (kind : FrameKind) (msgno : UInt32)
    (ansno : Option UInt32) (payload : Octets) {s : SessionCore}
    (hchannel : s.channels number = some channel) :
    let message : Queued :=
      ⟨kind, msgno, s.answerNumber number kind msgno ansno, payload⟩
    let last := Computation.final (send number kind msgno ansno payload) s
    ∃ t, Move s .idle t ∧
      (s.holdsBack number kind msgno ∧ Move t (.lane number (.hold message)) last ∨
        ¬ s.holdsBack number kind msgno ∧
          ∃ u, Move t (.lane number (.push message)) u ∧
            Walk Move (Effect.sends number fun _ => False) u last) := by
  intro message last
  obtain ⟨t, -, hidle, horder, hsend⟩ := send_open kind msgno ansno payload hchannel
  have hopen : (s.channels number).isSome := by
    rw [hchannel]
    rfl
  have hflow := hidle.flow_isSome (by simp) (by simp) (flow_isSome_of_open hopen)
  have hcases := submit_cases message hflow
  have hlast : last = Computation.final (submit number message) t := by
    change Computation.final (send number kind msgno ansno payload) s = _
    rw [Computation.final, hsend, ← Computation.final]
  have hholds : t.holdsBack number message.kind message.msgno =
      s.holdsBack number kind msgno := by
    simp only [holdsBack, isNextReply, horder, message]
  rw [hlast]
  refine ⟨t, hidle, ?_⟩
  rw [← hholds]
  exact hcases

theorem send_closed (kind : FrameKind) (msgno : UInt32) (ansno : Option UInt32)
    (payload : Octets) {s : SessionCore} (hchannel : s.channels number = none) :
    send number kind msgno ansno payload s =
      .error (.error (.noSuchChannel number)) s := by
  unfold send
  change (if (s.channels number).isNone then _ else _ : SessionM Unit) s = _
  rw [hchannel]
  rfl

theorem Effect.sends_of_none : ∀ effect : Effect,
    effect.sends number (fun _ => False) → effect.sends number messages := by
  intro effect h
  cases effect with
  | lane other effect =>
      cases effect with
      | push => exact h.2.elim
      | hold => exact h.2.elim
      | _ => exact h
  | _ => exact h

theorem path_send (number : UInt32) (kind : FrameKind) (msgno : UInt32) (ansno : Option UInt32)
    (payload : Octets) (s : SessionCore) :
    Walk Move (Effect.sends number
        (· = ⟨kind, msgno, s.answerNumber number kind msgno ansno, payload⟩)) s
      (Computation.final (send number kind msgno ansno payload) s) := by
  cases hchannel : s.channels number with
  | none =>
      rw [Computation.final_of_error (send_closed kind msgno ansno payload hchannel)]
      exact Walk.refl
  | some channel =>
      obtain ⟨t, hidle, ⟨-, hhold⟩ | ⟨-, u, hpush, hrest⟩⟩ :=
        send_cases kind msgno ansno payload hchannel
      · exact (hidle.path trivial).trans (hhold.path ⟨rfl, rfl⟩)
      · refine (hidle.path trivial).trans (Walk.trans (hpush.path ⟨rfl, rfl⟩) ?_)
        exact hrest.mono Effect.sends_of_none

/-- A message number is allocated, or the channel has none left. -/
theorem allocate_cases {channel : Channel} {s : SessionCore}
    (hchannel : s.channels number = some channel) :
    ∃ t, Move s .idle t ∧
      ((∃ fault, onOpen number Channel.allocateMsgno s = .error fault t) ∨
        ∃ msgno, onOpen number Channel.allocateMsgno s = .ok msgno t ∧
          (t.channels number).isSome ∧ (s.Numbered → msgno ≤ maxMsgNo)) := by
  obtain ⟨hflow, hnext⟩ := keepsFlow_allocateMsgnoLoop (maxMsgNo.toNat + 1) channel
  have hidle : Move s .idle { s with
      channels := Function.update s.channels number
        (some (Computation.final Channel.allocateMsgno channel)) } :=
    .idle (lane_of_flow_eq hchannel hflow)
      ⟨rfl, by simp, by simp,
        fun h => h.update number (hnext (h.2 number channel hchannel))⟩
      ⟨rfl, rfl⟩ ⟨rfl, rfl, rfl⟩
  refine ⟨_, hidle, ?_⟩
  cases hrun : Channel.allocateMsgno channel with
  | error fault channel' =>
      refine .inl ⟨fault, ?_⟩
      simp only [onOpen, hchannel, hrun, Computation.final]
  | ok msgno channel' =>
      refine .inr ⟨msgno, ?_, by simp, fun h => ?_⟩
      · simp only [onOpen, hchannel, hrun, Computation.final]
      · exact allocateMsgnoLoop_le (h.2 number channel hchannel) hrun

/-- What `sendMsg` does to an open channel, in the order in which it does it. -/
theorem sendMsg_cases {channel : Channel} (payload : Octets) {s : SessionCore}
    (hchannel : s.channels number = some channel) :
    let last := Computation.final (sendMsg number payload) s
    ∃ t, Move s .idle t ∧ (t = last ∨ ∃ msgno u v,
      (s.Numbered → msgno ≤ maxMsgNo) ∧ Move t .idle u ∧
        Move u (.lane number (.push ⟨.msg, msgno, none, payload⟩)) v ∧
        Walk Move (Effect.sends number fun _ => False) v last) := by
  intro last
  obtain ⟨t, hidle, ⟨fault, hrun⟩ | ⟨msgno, hrun, hopen, hle⟩⟩ :=
    allocate_cases hchannel
  · refine ⟨t, hidle, .inl ?_⟩
    exact (Computation.final_of_error (Computation.bind_of_error hrun _)).symm
  · refine ⟨t, hidle, .inr ⟨msgno, ?_⟩⟩
    obtain ⟨found, hfound⟩ := Option.isSome_iff_exists.mp hopen
    obtain ⟨u, hidle', ⟨hheld, -⟩ | ⟨-, v, hpush, hrest⟩⟩ :=
      send_cases .msg msgno none payload hfound
    · cases hheld
    · have hlast : last = Computation.final (send number .msg msgno none payload) t := by
        change Computation.final (sendMsg number payload) s = _
        unfold sendMsg
        rw [Computation.final, Computation.bind_of_ok hrun]
        exact Computation.final_drop _ _ t
      rw [hlast]
      exact ⟨u, v, hle, hidle', hpush, hrest⟩

theorem sendMsg_closed (payload : Octets) {s : SessionCore}
    (hchannel : s.channels number = none) :
    sendMsg number payload s = .error (.error (.noSuchChannel number)) s := by
  have hrun : onOpen number Channel.allocateMsgno s =
      .error (.error (.noSuchChannel number)) s := by
    simp only [onOpen, hchannel]
  unfold sendMsg
  rw [Computation.bind_of_error hrun]

theorem path_sendMsg (payload : Octets) (s : SessionCore) :
    Walk Move (Effect.sends number fun message =>
        message.kind = .msg ∧ message.ansno = none ∧ message.payload = payload ∧
          (s.Numbered → message.msgno ≤ maxMsgNo)) s
      (Computation.final (sendMsg number payload) s) := by
  cases hchannel : s.channels number with
  | none =>
      rw [Computation.final_of_error (sendMsg_closed payload hchannel)]
      exact Walk.refl
  | some channel =>
      obtain ⟨t, hidle, rfl | ⟨msgno, u, v, hle, hidle', hpush, hrest⟩⟩ :=
        sendMsg_cases payload hchannel
      · exact hidle.path trivial
      · refine ((hidle.path trivial).trans (hidle'.path trivial)).trans ?_
        refine Walk.trans (hpush.path ⟨rfl, rfl, rfl, rfl, hle⟩) ?_
        exact hrest.mono Effect.sends_of_none

/-! ## Channels -/

theorem onChannel_run {α : Type} {s : SessionCore} {channel : Channel}
    (method : Op Channel α) (hchannel : s.channelAt number = some channel) :
    onChannel number method s =
      match method channel with
      | .ok value channel => .ok value (s.setChannel number channel)
      | .error fault channel => .error fault (s.setChannel number channel) := by
  by_cases hzero : number = greetingChannel
  · subst hzero
    cases hchannel
    cases hmethod : method s.zero <;>
      simp only [onChannel, if_true, onZero, setChannel, hmethod]
  · simp only [channelAt, hzero, if_false] at hchannel
    cases hmethod : method channel <;>
      simp only [onChannel, hzero, if_false, onOpen, hchannel, setChannel, hmethod]

theorem onChannel_none {α : Type} {s : SessionCore} (method : Op Channel α)
    (hchannel : s.channelAt number = none) :
    onChannel number method s = .error (.error (.noSuchChannel number)) s := by
  by_cases hzero : number = greetingChannel
  · simp [channelAt, hzero] at hchannel
  · simp only [channelAt, hzero, if_false] at hchannel
    simp only [onChannel, hzero, if_false, onOpen, hchannel]

section SetChannel

variable (s : SessionCore) (number : UInt32) (channel : Channel)

theorem logs_setChannel {channel' : Channel}
    (hchannel : s.channelAt number = some channel')
    (hnext : channel'.nextMsgno ≤ maxMsgNo → channel.nextMsgno ≤ maxMsgNo) :
    Logs s [] (s.setChannel number channel) := by
  refine ⟨?_, ?_, ?_, fun h => h.setChannel number (hnext (h.channelAt hchannel))⟩
  all_goals
    unfold setChannel
    split <;> simp

theorem sameRequests_setChannel :
    SameRequests s (s.setChannel number channel) := by
  unfold setChannel
  split <;> exact ⟨rfl, rfl⟩

theorem sameView_setChannel : SameView s (s.setChannel number channel) := by
  unfold setChannel
  split <;> exact ⟨rfl, rfl, rfl⟩

end SetChannel

end SessionCore

end Vortice.Proto
