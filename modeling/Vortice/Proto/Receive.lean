import Vortice.Proto.Methods

/-!
# What an incoming frame does

A data frame that is in turn is joined to what its channel holds and its octets
are counted; a `SEQ` frame moves the window and writes the queue.  Management
messages then open and close channels.
-/

namespace Vortice.Proto

open Vortice.Foundation

namespace Channel

theorem flow_admits (channel : Channel) (frame : DataFrame) :
    channel.flow.admits frame = channel.admits frame := rfl

theorem matchesFrame_iff {fragment : Partial} {frame : DataFrame} :
    fragment.matchesFrame frame ↔ fragment.whole.tag = frame.fragment.tag := by
  simp [Partial.matchesFrame, Partial.whole, DataFrame.fragment, and_assoc]

/-- The channel once a frame has been admitted. -/
def stepped (channel : Channel) (frame : DataFrame)
    (partialMessage : Option Partial) : Channel :=
  { channel with
      expectedSeqno := SeqNo.advance frame.seqno frame.size
      awaitingReply :=
        if frame.kind = FrameKind.msg ∧ !frame.more then
          insert frame.msgno channel.awaitingReply
        else channel.awaitingReply
      partialMessage }

theorem accept_eq {channel : Channel} {frame : DataFrame}
    (h : channel.admits frame) :
    accept frame channel =
      match channel.partialMessage with
      | some fragment =>
          if fragment.matchesFrame frame then
            if frame.more then
              .ok none (channel.stepped frame
                (some { fragment with payload := fragment.payload ++ frame.payload }))
            else .ok (some ⟨fragment.kind, fragment.msgno, fragment.ansno,
                fragment.payload ++ frame.payload⟩) (channel.stepped frame none)
          else .error (.error .interleavedFragment) (channel.stepped frame none)
      | none =>
          if frame.more then
            .ok none (channel.stepped frame
              (some ⟨frame.kind, frame.msgno, frame.ansno, frame.payload⟩))
          else .ok (some ⟨frame.kind, frame.msgno, frame.ansno, frame.payload⟩)
            (channel.stepped frame none) := by
  obtain ⟨hseqno, haccepts⟩ := Bool.and_eq_true_iff.mp h
  have hseqno : frame.seqno = channel.expectedSeqno := of_decide_eq_true hseqno
  unfold accept
  change (if frame.seqno ≠ channel.expectedSeqno then _ else
    if !channel.recvWindow.accepts frame.seqno frame.size then _ else _ :
      Op Channel _) channel = _
  rw [if_neg (not_not_intro hseqno), haccepts, if_neg (by simp)]
  unfold stepped
  cases hreading : channel.partialMessage with
  | none => cases hmore : frame.more <;> rfl
  | some fragment =>
      dsimp only
      cases hmatches : fragment.matchesFrame frame <;> cases hmore : frame.more <;> rfl

theorem accept_refused {channel : Channel} {frame : DataFrame}
    (h : ¬ channel.admits frame) :
    ∃ fault, accept frame channel = .error fault channel := by
  unfold accept
  change ∃ fault, (if frame.seqno ≠ channel.expectedSeqno then _ else
    if !channel.recvWindow.accepts frame.seqno frame.size then _ else _ :
      Op Channel _) channel = _
  by_cases hseqno : frame.seqno = channel.expectedSeqno
  · have haccepts : channel.recvWindow.accepts frame.seqno frame.size = false := by
      simpa [admits, hseqno] using h
    rw [if_neg (not_not_intro hseqno), haccepts, if_pos (by simp)]
    exact ⟨_, rfl⟩
  · rw [if_pos hseqno]
    exact ⟨_, rfl⟩

theorem accept_run {channel : Channel} {frame : DataFrame}
    (h : channel.admits frame) :
    ∃ channel', channel'.flow = channel.flow.taken frame ∧
      channel'.nextMsgno = channel.nextMsgno ∧
      match Fragment.absorb channel.flow.held frame.fragment with
      | none => accept frame channel = .error (.error .interleavedFragment) channel'
      | some (_, whole) =>
          ∃ message, accept frame channel = .ok message channel' ∧
            message.map Message.whole = whole := by
  have hseqno : frame.seqno = channel.expectedSeqno :=
    of_decide_eq_true (Bool.and_eq_true_iff.mp h).1
  rw [accept_eq h]
  cases hreading : channel.partialMessage with
  | none =>
      cases hmore : frame.more with
      | false =>
          refine ⟨channel.stepped frame none, ?_, rfl, ?_⟩
          · simp [flow, Flow.taken, stepped, hreading, Fragment.absorb,
              DataFrame.fragment, hmore, hseqno, SeqNo.advance]
          · simp [flow, hreading, Fragment.absorb, DataFrame.fragment, hmore,
              Message.whole]
      | true =>
          refine ⟨channel.stepped frame
            (some ⟨frame.kind, frame.msgno, frame.ansno, frame.payload⟩), ?_, rfl, ?_⟩
          · simp [flow, Flow.taken, stepped, hreading, Fragment.absorb,
              DataFrame.fragment, hmore, hseqno, SeqNo.advance, Partial.whole]
          · simp [flow, hreading, Fragment.absorb, DataFrame.fragment, hmore]
  | some fragment =>
      by_cases hmatches : fragment.matchesFrame frame
      · have htag : fragment.kind = frame.kind ∧ fragment.msgno = frame.msgno ∧
            fragment.ansno = frame.ansno := by
          simpa [Partial.whole, DataFrame.fragment] using
            matchesFrame_iff.mp hmatches
        cases hmore : frame.more with
        | false =>
            refine ⟨channel.stepped frame none, ?_, rfl, ?_⟩
            · simp [flow, Flow.taken, stepped, hreading, Fragment.absorb, htag,
                hseqno, SeqNo.advance, DataFrame.fragment, hmore, Partial.whole]
            · simp [hmatches, flow, hreading, Fragment.absorb, htag,
                DataFrame.fragment, hmore, Message.whole, Partial.whole]
        | true =>
            refine ⟨channel.stepped frame
              (some { fragment with
                payload := fragment.payload ++ frame.payload }), ?_, rfl, ?_⟩
            · simp [flow, Flow.taken, stepped, hreading, Fragment.absorb, htag,
                hseqno, SeqNo.advance, DataFrame.fragment, hmore, Partial.whole]
            · simp [flow, hreading, Fragment.absorb, htag, DataFrame.fragment,
                hmore, hmatches, Partial.whole]
      · have htag : fragment.whole.tag ≠ frame.fragment.tag :=
          fun htag => hmatches (matchesFrame_iff.mpr htag)
        refine ⟨channel.stepped frame none, ?_, rfl, ?_⟩
        · simp [flow, Flow.taken, stepped, hreading, Fragment.absorb, htag,
            hseqno, SeqNo.advance]
        · simp [flow, hreading, Fragment.absorb, htag, hmatches]

end Channel

namespace SessionCore

/-! ## Acknowledging -/

theorem consume_eq (octets : UInt32) (channel : Channel) :
    Channel.consume octets channel =
      match (channel.recvWindow.consumed octets).toSeqFrame channel.number with
      | .ok seq =>
          .ok seq { channel with recvWindow := channel.recvWindow.consumed octets }
      | .error error =>
          .error (.error error)
            { channel with recvWindow := channel.recvWindow.consumed octets } := by
  change liftError
    ((channel.recvWindow.consumed octets).toSeqFrame channel.number) _ = _
  cases (channel.recvWindow.consumed octets).toSeqFrame channel.number <;> rfl

theorem toSeqFrame_ok {window : Window} {number : UInt32}
    (hsize : window.size ≤ maxFrameSize) (hnumber : number ≤ maxChannelNo) :
    ∃ seq, window.toSeqFrame number = .ok seq := by
  rw [Window.toSeqFrame, SeqFrame.new, dif_pos hnumber, dif_pos hsize]
  exact ⟨_, rfl⟩

/-- The session with `octets` counted for a channel number. -/
def counted (s : SessionCore) (number octets : UInt32) : SessionCore :=
  { s with unacked := Function.update s.unacked number (some octets) }

theorem counted_frame (s : SessionCore) (number octets : UInt32) :
    Logs s [] (s.counted number octets) ∧ SameRequests s (s.counted number octets) ∧
      SameView s (s.counted number octets) :=
  ⟨⟨rfl, by simp [counted], by simp [counted], id⟩, ⟨rfl, rfl⟩, ⟨rfl, rfl, rfl⟩⟩

/-- The session once what was counted for a channel number is acknowledged. -/
def acknowledged (s : SessionCore) (number : UInt32) (seq : SeqFrame) :
    SessionCore :=
  record { s.counted number 0 with
    outbound := s.outbound ++ (Frame.seq seq).encode } (.wrote (.seq seq))

theorem acknowledge_eq (number octets : UInt32) (s : SessionCore) :
    acknowledge number octets s = (match s.channelAt number with
      | none => pure ()
      | some channel => do
          set (s.counted number (saturatingAdd ((s.unacked number).getD 0) octets))
          if saturatingAdd ((s.unacked number).getD 0) octets ≥
              ackThreshold channel.recvWindow.size then
            let seq ← onChannel number
              (Channel.consume (saturatingAdd ((s.unacked number).getD 0) octets))
            modify fun s => s.counted number 0
            write (.seq seq)
          else return () : SessionM Unit) s := rfl

theorem acknowledge_of_none {s : SessionCore} {number octets : UInt32}
    (hchannel : s.channelAt number = none) : acknowledge number octets s = .ok () s := by
  rw [acknowledge_eq, hchannel]
  rfl

theorem acknowledge_of_lt {s : SessionCore} {number octets : UInt32}
    {channel : Channel} (hchannel : s.channelAt number = some channel)
    (h : ¬ saturatingAdd ((s.unacked number).getD 0) octets ≥
      ackThreshold channel.recvWindow.size) :
    acknowledge number octets s = .ok () (s.counted number
      (saturatingAdd ((s.unacked number).getD 0) octets)) := by
  rw [acknowledge_eq, hchannel]
  change (if _ then _ else _ : SessionM Unit) _ = _
  rw [if_neg h]
  rfl

theorem acknowledge_of_ge {s : SessionCore} {number octets : UInt32}
    {channel : Channel} (hchannel : s.channelAt number = some channel)
    (h : saturatingAdd ((s.unacked number).getD 0) octets ≥
      ackThreshold channel.recvWindow.size) :
    acknowledge number octets s =
      (onChannel number (Channel.consume
        (saturatingAdd ((s.unacked number).getD 0) octets)) >>= fun seq => do
          modify fun s => s.counted number 0
          write (.seq seq))
        (s.counted number (saturatingAdd ((s.unacked number).getD 0) octets)) := by
  rw [acknowledge_eq, hchannel]
  change (if _ then _ else _ : SessionM Unit) _ = _
  rw [if_pos h]

theorem acknowledge_run {s : SessionCore} {number : UInt32} {channel : Channel}
    (octets : UInt32) (hchannel : s.channelAt number = some channel) :
    ∃ s' result actions lane',
      Computation.outcome (acknowledge number octets) s = (s', result) ∧
      Lane.Counts (s.lane number) channel.flow octets actions lane' ∧
      s'.lane = Function.update s.lane number lane' ∧
      Logs s actions s' ∧ SameRequests s s' ∧ SameView s s' ∧
      (channel.recvWindow.size ≤ maxFrameSize → channel.number ≤ maxChannelNo →
        result = .ok ()) := by
  obtain ⟨pending, hpending⟩ :
      ∃ pending, pending = saturatingAdd (s.lane number).unacked octets := ⟨_, rfl⟩
  have hlane : (s.counted number pending).lane = Function.update s.lane number
      { s.lane number with unacked := pending } := lane_unacked s number pending
  obtain ⟨hlogs, hrequests, hview⟩ := s.counted_frame number pending
  by_cases hge : pending ≥ ackThreshold channel.recvWindow.size
  · have hcounted : (s.counted number pending).channelAt number = some channel :=
      hchannel
    have heq : acknowledge number octets s =
        (onChannel number (Channel.consume pending) >>= fun seq => do
          modify fun s => s.counted number 0
          write (.seq seq)) (s.counted number pending) := by
      subst hpending
      exact acknowledge_of_ge hchannel hge
    have hconsume := onChannel_run (Channel.consume pending) hcounted
    rw [consume_eq] at hconsume
    obtain ⟨channel', hchannel'⟩ : ∃ channel', channel' =
      { channel with recvWindow := channel.recvWindow.consumed pending } := ⟨_, rfl⟩
    rw [← hchannel'] at hconsume
    have hflow : channel'.flow = channel.flow.consumed pending := by
      rw [hchannel']
      rfl
    have hlane' := (s.counted number pending).lane_setChannel number channel'
    rw [hlane, Function.update_idem, Function.update_self, hflow] at hlane'
    have hlogs' := hlogs.trans (logs_setChannel _ number channel'
      hcounted (by rw [hchannel']; exact id))
    have hrequests' := hrequests.trans
      (sameRequests_setChannel _ number channel')
    have hview' := hview.trans (sameView_setChannel _ number channel')
    obtain ⟨t, ht⟩ : ∃ t, t = (s.counted number pending).setChannel number channel' :=
      ⟨_, rfl⟩
    rw [← ht] at hlane' hlogs' hrequests' hview'
    cases hseq : (channel.recvWindow.consumed pending).toSeqFrame
        channel.number with
    | error error =>
        simp only [hseq, ← ht] at hconsume
        subst hpending
        refine ⟨t, .error (.error error), [], _, ?_, .stumble hge hseq, hlane',
          hlogs', hrequests', hview', ?_⟩
        · rw [Computation.outcome, heq, Computation.bind_of_error hconsume]
        · intro hsize hnumber
          have hconsumed : (channel.recvWindow.consumed (saturatingAdd
            (s.lane number).unacked octets)).size ≤ maxFrameSize := hsize
          obtain ⟨seq, hok⟩ := toSeqFrame_ok hconsumed hnumber
          rw [hok] at hseq
          cases hseq
    | ok seq =>
        simp only [hseq, ← ht] at hconsume
        subst hpending
        have hlogs'' : Logs t [.wrote (.seq seq)] (t.acknowledged number seq) :=
          ⟨rfl, rfl, by simp [acknowledged, record, written], id⟩
        refine ⟨t.acknowledged number seq, .ok (), [.wrote (.seq seq)], _, ?_,
          .acknowledge hge hseq, ?_, hlogs'.trans hlogs'',
          hrequests'.trans ⟨rfl, rfl⟩, hview'.trans ⟨rfl, rfl, rfl⟩, fun _ _ => rfl⟩
        · rw [Computation.outcome, heq, Computation.bind_of_ok hconsume]
          rfl
        · refine (lane_unacked t number 0).trans ?_
          rw [hlane', Function.update_idem, Function.update_self]
  · have heq : acknowledge number octets s = .ok () (s.counted number pending) := by
      subst hpending
      exact acknowledge_of_lt hchannel hge
    have hflow : (s.lane number).flow = some channel.flow := by
      simp [lane, hchannel]
    subst hpending
    refine ⟨_, .ok (), [], _, ?_, .charge (UInt32.not_le.mp hge), ?_, hlogs,
      hrequests, hview, fun _ _ => rfl⟩
    · rw [Computation.outcome, heq]
    · rw [hlane, ← hflow]

/-! ## Data frames -/

/-- Accepting a frame and counting its octets. -/
def receive (frame : DataFrame) : SessionM (Option Message) := do
  let complete ← accept frame
  acknowledge frame.channel frame.size
  return complete

theorem setChannel_self {s : SessionCore} {number : UInt32} {channel : Channel}
    (h : s.channelAt number = some channel) : s.setChannel number channel = s := by
  by_cases hzero : number = greetingChannel
  · subst hzero
    cases h
    rfl
  · simp only [channelAt, hzero, if_false] at h
    simp only [setChannel, hzero, if_false, ← h, Function.update_eq_self]

theorem accept_refused {s : SessionCore} {frame : DataFrame}
    (h : ∀ channel, s.channelAt frame.channel = some channel →
      ¬ channel.admits frame) :
    ∃ fault, accept frame s = .error fault s := by
  unfold accept
  change ∃ fault, (if (s.channelAt frame.channel).any fun channel =>
    channel.admits frame then _ else _ : SessionM _) s = _
  cases hchannel : s.channelAt frame.channel with
  | none =>
      rw [Option.any_none, if_neg (by simp)]
      exact ⟨_, onChannel_none _ hchannel⟩
  | some channel =>
      have hadmits := h channel hchannel
      obtain ⟨fault, hrefused⟩ := Channel.accept_refused hadmits
      rw [Option.any_some, if_neg hadmits]
      have hrun := onChannel_run (Channel.accept frame) hchannel
      simp only [hrefused, setChannel_self hchannel] at hrun
      exact ⟨fault, hrun⟩

theorem receive_refused {s : SessionCore} {frame : DataFrame}
    (h : ∀ channel, s.channelAt frame.channel = some channel →
      ¬ channel.admits frame) :
    ∃ fault, receive frame s = .error fault s := by
  obtain ⟨fault, haccept⟩ := accept_refused h
  exact ⟨fault, Computation.bind_of_error haccept _⟩

section Admitted

variable {s : SessionCore} {frame : DataFrame} {channel : Channel}

theorem accept_admitted (hchannel : s.channelAt frame.channel = some channel)
    (hadmits : channel.admits frame) :
    accept frame s = onChannel frame.channel (Channel.accept frame)
      (s.record (.accepted frame)) := by
  unfold accept
  change (if (s.channelAt frame.channel).any fun channel =>
    channel.admits frame then _ else _ : SessionM _) s = _
  rw [hchannel, Option.any_some, if_pos hadmits]
  rfl

theorem accepted_frame (hchannel : s.channelAt frame.channel = some channel)
    {channel' : Channel} (hnext : channel'.nextMsgno = channel.nextMsgno) :
    let t := (s.record (.accepted frame)).setChannel frame.channel channel'
    Logs s [.accepted frame] t ∧ SameRequests s t ∧ SameView s t := by
  have hlogs : Logs s [.accepted frame] (s.record (.accepted frame)) :=
    ⟨rfl, rfl, by simp [record, written], id⟩
  have hrequests : SameRequests s (s.record (.accepted frame)) := ⟨rfl, rfl⟩
  have hview : SameView s (s.record (.accepted frame)) := ⟨rfl, rfl, rfl⟩
  have hrecorded : (s.record (.accepted frame)).channelAt frame.channel =
      some channel := hchannel
  exact ⟨hlogs.trans (logs_setChannel _ _ channel' hrecorded (by rw [hnext]; exact id)),
    hrequests.trans (sameRequests_setChannel _ _ channel'),
    hview.trans (sameView_setChannel _ _ channel')⟩

theorem receive_rejected (hchannel : s.channelAt frame.channel = some channel)
    (hadmits : channel.admits frame)
    (habsorb : Fragment.absorb channel.flow.held frame.fragment = none) :
    ∃ s', receive frame s = .error (.error .interleavedFragment) s' ∧
      Move s (.lane frame.channel (.reject frame)) s' := by
  obtain ⟨channel', hflow, hnext, hrun⟩ := Channel.accept_run hadmits
  simp only [habsorb] at hrun
  have hrecorded : (s.record (.accepted frame)).channelAt frame.channel =
      some channel := hchannel
  have haccept := onChannel_run (Channel.accept frame) hrecorded
  simp only [hrun] at haccept
  rw [← accept_admitted hchannel hadmits] at haccept
  have hlane := (s.record (.accepted frame)).lane_setChannel frame.channel channel'
  rw [hflow] at hlane
  have hfound : (s.lane frame.channel).flow = some channel.flow := by
    simp [lane, hchannel]
  obtain ⟨hlogs, hrequests, hview⟩ := accepted_frame hchannel hnext
  exact ⟨_, Computation.bind_of_error haccept _, .lane (by rintro _ ⟨⟩)
    (.reject hfound rfl hadmits habsorb) hlane hlogs hrequests hview⟩

theorem receive_taken {held whole : Option (Whole Tag UInt8)}
    (hchannel : s.channelAt frame.channel = some channel)
    (hadmits : channel.admits frame)
    (habsorb : Fragment.absorb channel.flow.held frame.fragment =
      some (held, whole)) :
    ∃ s' result, Computation.outcome (receive frame) s = (s', result) ∧
      Move s (.lane frame.channel (.take frame)) s' ∧
      (∀ message, result = .ok message → message.map Message.whole = whole) ∧
      (channel.recvWindow.size ≤ maxFrameSize → channel.number ≤ maxChannelNo →
        ∃ message, result = .ok message) := by
  obtain ⟨channel', hflow, hnext, hrun⟩ := Channel.accept_run hadmits
  simp only [habsorb] at hrun
  obtain ⟨message, hrun, hmessage⟩ := hrun
  have hrecorded : (s.record (.accepted frame)).channelAt frame.channel =
      some channel := hchannel
  have haccept := onChannel_run (Channel.accept frame) hrecorded
  simp only [hrun] at haccept
  rw [← accept_admitted hchannel hadmits] at haccept
  have hlane := (s.record (.accepted frame)).lane_setChannel frame.channel channel'
  obtain ⟨t, ht⟩ : ∃ t, t =
    (s.record (.accepted frame)).setChannel frame.channel channel' := ⟨_, rfl⟩
  have htchannel : t.channelAt frame.channel = some channel' := by
    rw [ht]
    by_cases hzero : frame.channel = greetingChannel <;>
      simp [channelAt, setChannel, hzero]
  obtain ⟨hlogs, hrequests, hview⟩ := accepted_frame hchannel hnext
  rw [← ht] at haccept hlane hlogs hrequests hview
  obtain ⟨u, result, actions, lane', hack, hcounts, hlane', hlogs', hrequests',
    hview', hok⟩ := acknowledge_run frame.size htchannel
  have hnumber := congrFun hlane frame.channel
  rw [Function.update_self] at hnumber
  rw [hnumber, hflow] at hcounts
  have hfound : (s.lane frame.channel).flow = some channel.flow := by
    simp [lane, hchannel]
  refine ⟨u, result.map fun _ => message, ?_, ?_, ?_, ?_⟩
  · rw [Computation.outcome, receive, Computation.bind_of_ok haccept]
    unfold Computation.outcome at hack
    cases hrun : acknowledge frame.channel frame.size t with
    | ok _ _ =>
        rw [hrun] at hack
        cases hack
        rw [Computation.bind_of_ok hrun]
        rfl
    | error _ _ =>
        rw [hrun] at hack
        cases hack
        rw [Computation.bind_of_error hrun]
        rfl
  · refine .lane (by rintro _ ⟨⟩)
      (.take hfound rfl hadmits ?_ hcounts.of_flow) ?_ (hlogs.trans hlogs')
      (hrequests.trans hrequests') (hview.trans hview')
    · rw [habsorb]
      rfl
    · rw [hlane', hlane]
      exact Function.update_idem ..
  · intro found hfound
    cases result with
    | error _ => cases hfound
    | ok _ =>
        cases hfound
        exact hmessage
  · intro hsize hnumber
    have hsame : channel'.recvWindow = channel.recvWindow ∧
        channel'.number = channel.number :=
      ⟨congrArg Flow.recvWindow hflow, congrArg Flow.number hflow⟩
    rw [hok (by rwa [hsame.1]) (by rwa [hsame.2])]
    exact ⟨message, rfl⟩

end Admitted

/-! ## SEQ frames -/

/-- The window of a `SEQ` frame is taken over and the queue written into it. -/
theorem react_run {s : SessionCore} {seq : SeqFrame} {channel : Channel}
    (hchannel : s.channelAt seq.channel = some channel) :
    ∃ s' result, Computation.outcome (handleSeq seq) s = (s', result) ∧
      Move s (.lane seq.channel (.react seq)) s' ∧
      (result = .ok () ∨ Stuck channel.number (s'.lane seq.channel).queue) := by
  have happly := onChannel_run (modify (·.applySeq seq)) hchannel
  change onChannel seq.channel (modify (·.applySeq seq)) s =
    .ok () (s.setChannel seq.channel (channel.applySeq seq)) at happly
  have hlane := s.lane_setChannel seq.channel (channel.applySeq seq)
  have hlogs := s.logs_setChannel seq.channel (channel.applySeq seq) hchannel id
  have hrequests := s.sameRequests_setChannel seq.channel (channel.applySeq seq)
  have hview := s.sameView_setChannel seq.channel (channel.applySeq seq)
  obtain ⟨t, ht⟩ : ∃ t, t = s.setChannel seq.channel (channel.applySeq seq) :=
    ⟨_, rfl⟩
  rw [← ht] at happly hlane hlogs hrequests hview
  have hnumber := congrFun hlane seq.channel
  rw [Function.update_self] at hnumber
  have hflow : (t.lane seq.channel).flow = some (channel.applySeq seq).flow := by
    rw [hnumber]
  obtain ⟨u, result, frames, queue', count, hrun, hflushed, hok⟩ := flush_run hflow
  have hwrites := hflushed.writes
  have hstuck := hwrites.ok_or_stuck hok
  rw [hnumber] at hwrites
  have hnumber' := congrFun hflushed.lane seq.channel
  rw [Function.update_self] at hnumber'
  have hfound : (s.lane seq.channel).flow = some channel.flow := by
    simp [lane, hchannel]
  refine ⟨u, result, ?_, ?_, by rw [hnumber']; exact hstuck⟩
  · rw [handleSeq, Computation.outcome, Computation.bind_of_ok happly]
    exact hrun
  · refine .lane (by rintro _ ⟨⟩) (.react hfound rfl hwrites) ?_
      (hlogs.trans hflushed.logs) (hrequests.trans hflushed.requests)
      (hview.trans hflushed.view)
    rw [hflushed.lane, hlane, Function.update_self]
    exact Function.update_idem ..

/-- The window of a `SEQ` frame lets a message be written that no frame can carry. -/
theorem react_error {s t : SessionCore} {seq : SeqFrame} {channel : Channel} {fault : Fault}
    (hchannel : s.channelAt seq.channel = some channel)
    (h : handleSeq seq s = .error fault t) :
    ∃ front ∈ (t.lane seq.channel).queue.head?, ¬ Frameable channel.number front.tag ∧
      fault = .error (refusal channel.number front.tag) := by
  have happly := onChannel_run (modify (·.applySeq seq)) hchannel
  change onChannel seq.channel (modify (·.applySeq seq)) s =
    .ok () (s.setChannel seq.channel (channel.applySeq seq)) at happly
  rw [handleSeq, Computation.bind_of_ok happly] at h
  have hfound : (s.setChannel seq.channel (channel.applySeq seq)).channelAt seq.channel =
      some (channel.applySeq seq) := by
    unfold setChannel channelAt
    by_cases hzero : seq.channel = greetingChannel <;> simp [hzero]
  have hfails := flush_error hfound h
  exact hfails

theorem react_refused {s : SessionCore} {seq : SeqFrame}
    (hchannel : s.channelAt seq.channel = none) :
    handleSeq seq s = .error (.error (.noSuchChannel seq.channel)) s :=
  Computation.bind_of_error (onChannel_none _ hchannel) _

/-! ## The effects of a frame -/

/-- What an incoming frame may do. -/
def Effect.handles (frame : Frame) : Effect → Prop
  | .idle | .tell | .settle _ | .answer _ _ | .shut => True
  | .lane _ .closed => True
  | .lane other (.react seq) => frame = .seq seq ∧ other = seq.channel
  | .lane other (.take data) => frame = .data data ∧ other = data.channel
  | .lane other (.reject data) => frame = .data data ∧ other = data.channel
  | _ => False

theorem does_receive (frame : DataFrame) :
    Does (Effect.handles (.data frame)) (receive frame) := by
  intro s
  by_cases hadmits : ∃ channel, s.channelAt frame.channel = some channel ∧
      channel.admits frame
  · obtain ⟨channel, hchannel, hadmits⟩ := hadmits
    cases habsorb : Fragment.absorb channel.flow.held frame.fragment with
    | none =>
        obtain ⟨s', hrun, hmove⟩ := receive_rejected hchannel hadmits habsorb
        rw [Computation.final_of_error hrun]
        exact hmove.path ⟨rfl, rfl⟩
    | some step =>
        obtain ⟨s', result, hrun, hmove, -⟩ := receive_taken hchannel hadmits habsorb
        rw [final_of_outcome hrun]
        exact hmove.path ⟨rfl, rfl⟩
  · have hrefused : ∀ channel, s.channelAt frame.channel = some channel →
        ¬ channel.admits frame :=
      fun channel hchannel h => hadmits ⟨channel, hchannel, h⟩
    obtain ⟨fault, hrun⟩ := receive_refused hrefused
    rw [Computation.final_of_error hrun]
    exact Walk.refl

theorem does_handleSeq (seq : SeqFrame) :
    Does (Effect.handles (.seq seq)) (handleSeq seq) := by
  intro s
  cases hchannel : s.channelAt seq.channel with
  | none =>
      rw [Computation.final_of_error (react_refused hchannel)]
      exact Walk.refl
  | some channel =>
      obtain ⟨s', result, hrun, hmove, -⟩ := react_run hchannel
      rw [final_of_outcome hrun]
      exact hmove.path ⟨rfl, rfl⟩

theorem handleData_eq {frame : DataFrame} (h : frame.channel ≠ greetingChannel) :
    handleData frame = (do
      let complete ← receive frame
      match complete with
      | none => return ()
      | some message => deliver frame.channel message) := by
  rw [handleData, if_neg h, receive, bind_assoc]
  refine bind_congr fun complete => ?_
  rw [bind_assoc]
  refine bind_congr fun _ => ?_
  cases complete with
  | none => rfl
  | some => rfl

theorem handleChannelZero_eq {frame : DataFrame}
    (h : frame.channel = greetingChannel) :
    handleChannelZero frame = (do
      if (← get).state = .awaitingGreeting then handleGreeting frame
      else
        let complete ← receive frame
        match complete with
        | none => return ()
        | some message =>
            let management ←
              liftFault (Management.Message.fromPayload message.payload)
            dispatchManagement message.kind message.msgno management) := by
  rw [handleChannelZero]
  refine bind_congr fun s => ?_
  by_cases hstate : s.state = .awaitingGreeting
  · rw [if_pos hstate, if_pos hstate]
  · rw [if_neg hstate, if_neg hstate, receive, h, bind_assoc]
    refine bind_congr fun complete => ?_
    rw [bind_assoc]
    refine bind_congr fun _ => ?_
    cases complete with
    | none => rfl
    | some => rfl

theorem handleGreeting_eq {frame : DataFrame}
    (h : frame.channel = greetingChannel) :
    handleGreeting frame = (do
      let greeting ← liftFault (Greeting.fromFrame frame)
      let _ ← receive frame
      modify fun s => { s with peerGreeting := some greeting, state := .ready }
      emitEvent (.greetingReceived greeting)) := by
  simp only [handleGreeting, receive, h, bind_assoc, pure_bind]

/-! ## Opening and closing -/

theorem path_tell {allowed : Effect → Prop} {s s' : SessionCore}
    (hallowed : allowed .tell) (hlane : s'.lane = s.lane) (hlogs : Logs s [] s')
    (hrequests : SameRequests s s') : Walk Move allowed s s' :=
  (Move.tell hlane hlogs hrequests).path hallowed

theorem does_emitEvent {allowed : Effect → Prop} (hallowed : allowed .tell)
    (event : Event) : Does allowed (emitEvent event) :=
  Does.modify hallowed fun _ => .tell rfl (.of_same rfl rfl rfl id) ⟨rfl, rfl⟩

/-- What closing a channel, or the session, may do. -/
def Effect.closes (channel : UInt32) : Effect → Prop
  | .tell => True
  | .lane other .closed => other = channel
  | .shut => channel = greetingChannel
  | _ => False

theorem does_finishClose (channel : UInt32) :
    Does (Effect.closes channel) (finishClose channel) := by
  intro s
  unfold finishClose
  by_cases hzero : channel = greetingChannel
  · subst hzero
    rw [if_pos rfl]
    have hshut : Move s .shut (record { s with
        channels := fun _ => none
        queues := fun _ => none
        unacked := fun _ => none
        replyOrder := fun _ => none
        heldReplies := fun _ => none } (.dropped greetingChannel)) := by
      refine .shut ?_ ⟨rfl, rfl, by simp [record, written], ?_⟩ ⟨rfl, rfl⟩
        ⟨rfl, rfl, rfl⟩
      · intro number
        by_cases hnumber : number = greetingChannel
        · subst hnumber
          simp [lane, channelAt, record, Lane.shut]
        · simp [lane, channelAt, record, Lane.shut, hnumber]
      · exact fun h => ⟨h.1, fun _ _ hnone => by cases hnone⟩
    have hpath : Walk Move (Effect.closes greetingChannel) s _ := hshut.path rfl
    refine hpath.trans (path_tell trivial ?_ ?_ ?_)
    · rfl
    · exact .of_same rfl rfl rfl id
    · exact ⟨rfl, rfl⟩
  · rw [if_neg hzero]
    have hclosed : Move s (.lane channel .closed) (record { s with
        channels := Function.update s.channels channel none
        queues := Function.update s.queues channel none
        unacked := Function.update s.unacked channel none
        replyOrder := Function.update s.replyOrder channel none
        heldReplies := Function.update s.heldReplies channel none }
        (.dropped channel)) := by
      refine .lane (by rintro _ ⟨⟩) (.closed hzero) ?_
        ⟨rfl, rfl, by simp [record, written], ?_⟩ ⟨rfl, rfl⟩ ⟨rfl, rfl, rfl⟩
      · funext number
        by_cases hnumber : number = channel
        · subst hnumber
          simp [lane, channelAt, record, Lane.shut, hzero]
        · simp [lane, channelAt, record, hnumber]
      · refine fun h => ⟨h.1, fun number found hfound => ?_⟩
        by_cases hnumber : number = channel
        · subst hnumber
          simp [record] at hfound
        · simp only [record, ne_eq, hnumber, not_false_eq_true,
            Function.update_of_ne] at hfound
          exact h.2 number found hfound
    have hpath : Walk Move (Effect.closes channel) s _ := hclosed.path rfl
    refine hpath.trans (path_tell trivial ?_ ?_ ?_)
    · rfl
    · exact .of_same rfl rfl rfl id
    · exact ⟨rfl, rfl⟩

theorem handles_of_closes {frame : Frame} {channel : UInt32} :
    ∀ effect : Effect, effect.closes channel → effect.handles frame := by
  intro effect h
  cases effect with
  | tell => trivial
  | shut => trivial
  | lane _ effect =>
      cases effect with
      | closed => trivial
      | _ => cases h
  | _ => cases h

theorem lane_opened {s : SessionCore} {number : UInt32} (profile : String)
    (hzero : number ≠ greetingChannel) :
    SessionCore.lane { s with
      channels := Function.update s.channels number
        (some (Channel.withWindowSize number profile s.config.windowSize)) } =
      Function.update s.lane number { s.lane number with
        flow := some (Flow.fresh number s.config.windowSize) } := by
  funext other
  by_cases hother : other = number
  · subst hother
    simp [lane, channelAt, hzero]
    rfl
  · simp [lane, channelAt, hother]

/-! ## Management messages -/

section Dispatch

variable {s : SessionCore} {msgno : UInt32} {frame : Frame}

/-- The session once a request is no longer waiting for its answer. -/
def settled (s : SessionCore) (msgno : UInt32) : SessionCore :=
  { s with pending := Function.update s.pending msgno none }

theorem move_settled (s : SessionCore) (msgno : UInt32) :
    Move s (.settle msgno) (s.settled msgno) :=
  .settle rfl (.of_same rfl rfl rfl id) rfl rfl ⟨rfl, rfl, rfl⟩

theorem does_release : Does (Effect.handles frame)
    (onZero (modify (·.releaseMsgno msgno))) :=
  does_onZero (keepsFlow_modify fun _ => ⟨rfl, rfl⟩) trivial

theorem does_forget (number : UInt32) : Does (Effect.handles frame)
    (modify fun s =>
      { s with halfOpen := Function.update s.halfOpen number none } :
        SessionM Unit) := by
  refine Does.modify ?_ fun s => Move.idle ?_ ?_ ?_ ?_
  · trivial
  · rfl
  · exact .of_same rfl rfl rfl id
  · exact ⟨rfl, rfl⟩
  · exact ⟨rfl, rfl, rfl⟩

theorem path_answer {number : UInt32} (profile : Management.Profile)
    (hpending : s.pending msgno = some (.start number)) :
    Walk Move (Effect.handles frame) s (Computation.final (do
      onZero (modify (·.releaseMsgno msgno))
      modify fun s =>
        { s with halfOpen := Function.update s.halfOpen number none }
      openChannel number profile.uri
      emitEvent (.channelOpened number profile) : SessionM Unit)
        (s.settled msgno)) := by
  obtain ⟨t, ht⟩ : ∃ t, t = record { s.settled msgno with
      zero := s.zero.releaseMsgno msgno
      halfOpen := Function.update s.halfOpen number none
      channels := Function.update s.channels number
        (some (Channel.withWindowSize number profile.uri s.config.windowSize)) }
      (.opened number) := ⟨_, rfl⟩
  have hfinal : Computation.final (do
      onZero (modify (·.releaseMsgno msgno))
      modify fun s =>
        { s with halfOpen := Function.update s.halfOpen number none }
      openChannel number profile.uri
      emitEvent (.channelOpened number profile) : SessionM Unit)
        (s.settled msgno) = { t with
          events := t.events ++ [.channelOpened number profile] } := by
    subst ht
    rfl
  have hlane : t.lane = SessionCore.lane { s with
      channels := Function.update s.channels number
        (some (Channel.withWindowSize number profile.uri s.config.windowSize)) } := by
    subst ht
    funext other
    simp only [lane, channelAt, record, settled]
    split <;> rfl
  have hlogs : Logs s [.opened number] t := by
    subst ht
    refine ⟨rfl, rfl, by simp [record, settled, written], fun h => ?_⟩
    have hzero : (0 : UInt32) ≤ maxMsgNo := by decide
    have hfresh : (Channel.withWindowSize number profile.uri
      s.config.windowSize).nextMsgno ≤ maxMsgNo := hzero
    exact ⟨h.1, (h.update number hfresh).2⟩
  have hmove : Move s (.answer msgno number) t := by
    by_cases hzero : number = greetingChannel
    · subst hzero
      refine .answerZero hpending ?_ hlogs ?_ ?_ ?_
      · rw [hlane]
        funext other
        by_cases hother : other = greetingChannel <;>
          simp [lane, channelAt, hother]
      all_goals
        subst ht
        first | rfl | exact ⟨rfl, rfl, rfl⟩
    · refine .answer hpending (.opened hzero)
        (hlane.trans (lane_opened profile.uri hzero)) hlogs ?_ ?_ ?_
      all_goals
        subst ht
        first | rfl | exact ⟨rfl, rfl, rfl⟩
  rw [hfinal]
  have hpath : Walk Move (Effect.handles frame) s t := hmove.path trivial
  refine hpath.trans (path_tell trivial ?_ ?_ ?_)
  · rfl
  · exact .of_same rfl rfl rfl id
  · exact ⟨rfl, rfl⟩

theorem dispatch_profile (msgno : UInt32) (profile : Management.Profile) (s : SessionCore) :
    dispatchManagement .rpy msgno (.profile profile) s = (match s.pending msgno with
      | some (.start number) => do
          onZero (modify (·.releaseMsgno msgno))
          modify fun s => { s with halfOpen := Function.update s.halfOpen number none }
          openChannel number profile.uri
          emitEvent (.channelOpened number profile)
      | _ => raise (.unknownMsgNo msgno) : SessionM Unit) (s.settled msgno) := rfl

theorem dispatch_ok (msgno : UInt32) (s : SessionCore) :
    dispatchManagement .rpy msgno .ok s = (match s.pending msgno with
      | some (.close number) => do
          onZero (modify (·.releaseMsgno msgno))
          finishClose number
      | _ => raise (.unknownMsgNo msgno) : SessionM Unit) (s.settled msgno) := rfl

theorem dispatch_error (msgno : UInt32) (error : Management.ErrorReply) (s : SessionCore) :
    dispatchManagement .err msgno (.error error) s = (match s.pending msgno with
      | none => raise (.unknownMsgNo msgno)
      | some (.start number) => do
          onZero (modify (·.releaseMsgno msgno))
          modify fun s => { s with halfOpen := Function.update s.halfOpen number none }
          emitEvent (.startRefused number error)
      | some (.close number) => do
          onZero (modify (·.releaseMsgno msgno))
          emitEvent (.closeRefused number error) : SessionM Unit) (s.settled msgno) := rfl

theorem path_dispatch_profile (profile : Management.Profile) :
    Walk Move (Effect.handles frame) s (Computation.final
      (dispatchManagement .rpy msgno (.profile profile)) s) := by
  rw [Computation.final_congr (dispatch_profile msgno profile s)]
  split
  · rename_i number hpending
    exact path_answer profile hpending
  · exact (s.move_settled msgno).path trivial

theorem path_dispatch_ok :
    Walk Move (Effect.handles frame) s (Computation.final
      (dispatchManagement .rpy msgno .ok) s) := by
  have hsettled : Walk Move (Effect.handles frame) s (s.settled msgno) :=
    (s.move_settled msgno).path trivial
  rw [Computation.final_congr (dispatch_ok msgno s)]
  split
  · rename_i number hpending
    refine hsettled.trans ?_
    exact does_release.bind (fun _ =>
      (does_finishClose number).mono handles_of_closes) (s.settled msgno)
  · exact hsettled

theorem path_dispatch_error (error : Management.ErrorReply) :
    Walk Move (Effect.handles frame) s (Computation.final
      (dispatchManagement .err msgno (.error error)) s) := by
  have hsettled : Walk Move (Effect.handles frame) s (s.settled msgno) :=
    (s.move_settled msgno).path trivial
  rw [Computation.final_congr (dispatch_error msgno error s)]
  split
  · exact hsettled
  · rename_i number hpending
    refine hsettled.trans ?_
    exact does_release.bind (fun _ => (does_forget number).bind fun _ =>
      does_emitEvent trivial _) (s.settled msgno)
  · rename_i number hpending
    refine hsettled.trans ?_
    exact does_release.bind (fun _ => does_emitEvent trivial _) (s.settled msgno)

theorem does_dispatch (kind : FrameKind) (management : Management.Message) :
    Does (Effect.handles frame) (dispatchManagement kind msgno management) := by
  intro s
  cases kind with
  | msg =>
      cases management with
      | start start =>
          have hname : Does (Effect.handles frame) (modify fun s =>
              { s with serverName := s.serverName.or start.serverName } :
                SessionM Unit) := by
            refine Does.modify ?_ fun s => Move.tell ?_ ?_ ?_
            · trivial
            · rfl
            · exact .of_same rfl rfl rfl id
            · exact ⟨rfl, rfl⟩
          exact hname.bind (fun _ => does_emitEvent trivial _) s
      | close close => exact does_emitEvent trivial _ s
      | _ => exact Walk.refl
  | rpy =>
      cases management with
      | profile profile => exact path_dispatch_profile profile
      | ok => exact path_dispatch_ok
      | _ => exact Walk.refl
  | err =>
      cases management with
      | error error => exact path_dispatch_error error
      | _ => exact Walk.refl
  | ans => exact Walk.refl
  | nul => exact Walk.refl

end Dispatch

theorem does_liftFault {α : Type} {allowed : Effect → Prop}
    (result : Except Fault α) : Does allowed (liftFault result) := by
  intro s
  cases result <;> exact Walk.refl

theorem does_handleGreeting {frame : DataFrame}
    (h : frame.channel = greetingChannel) :
    Does (Effect.handles (.data frame)) (handleGreeting frame) := by
  rw [handleGreeting_eq h]
  refine (does_liftFault _).bind fun greeting => (does_receive frame).bind fun _ =>
    Makes.bind ?_ fun _ => does_emitEvent trivial _
  refine Does.modify ?_ fun s => Move.tell ?_ ?_ ?_
  · trivial
  · rfl
  · exact .of_same rfl rfl rfl id
  · exact ⟨rfl, rfl⟩

theorem does_handleChannelZero {frame : DataFrame}
    (h : frame.channel = greetingChannel) :
    Does (Effect.handles (.data frame)) (handleChannelZero frame) := by
  rw [handleChannelZero_eq h]
  refine Makes.get_bind fun s => Makes.ite (fun _ => does_handleGreeting h)
    (fun _ => ?_) s
  refine (does_receive frame).bind fun complete => ?_
  cases complete with
  | none => exact Makes.pure ()
  | some message =>
      exact (does_liftFault _).bind fun management => does_dispatch _ _

theorem does_deliver {allowed : Effect → Prop} (hidle : allowed .idle)
    (htell : allowed .tell) (number : UInt32) (message : Message) :
    Does allowed (deliver number message) := by
  unfold deliver
  refine Makes.ite (fun _ => Makes.bind ?_ fun _ => does_emitEvent htell _)
    fun _ => does_emitEvent htell _
  refine Does.modify hidle fun s => Move.idle ?_ ?_ ?_ ?_
  · rfl
  · exact .of_same rfl rfl rfl id
  · exact ⟨rfl, rfl⟩
  · exact ⟨rfl, rfl, rfl⟩

theorem does_handleFrame (frame : Frame) :
    Does (Effect.handles frame) (handleFrame frame) := by
  cases frame with
  | seq seq => exact does_handleSeq seq
  | data data =>
      by_cases hzero : data.channel = greetingChannel
      · have heq : handleFrame (.data data) = handleChannelZero data := by
          simp [handleFrame, handleData, hzero]
        rw [heq]
        exact does_handleChannelZero hzero
      · have heq : handleFrame (.data data) = handleData data := rfl
        rw [heq, handleData_eq hzero]
        refine (does_receive data).bind fun complete => ?_
        cases complete with
        | none => exact Makes.pure ()
        | some message => exact does_deliver trivial trivial _ _

end SessionCore

end Vortice.Proto
