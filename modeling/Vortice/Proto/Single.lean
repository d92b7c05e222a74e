import Vortice.Proto.Methods

/-!
# A message in one frame

A message that neither the frame size nor the window cuts short goes out in one frame, at
once when nothing waits before it.
-/

namespace Vortice.Proto

open Vortice.Foundation

namespace Channel

variable {channel : Channel} {front : Queued} {maxFrameSize : UInt32}

/-- The message fits in one frame, and in the window. -/
structure Fits (channel : Channel) (maxFrameSize : UInt32) (front : Queued) : Prop where
  frameable : Frameable channel.number front.tag
  nonempty : front.payload ≠ []
  limit : front.payload.length ≤ (clampChunk maxFrameSize).toNat
  room : front.payload.length ≤ channel.writable.toNat

theorem Fits.of_flow {other : Channel} (h : channel.Fits maxFrameSize front)
    (hflow : other.flow = channel.flow) : other.Fits maxFrameSize front where
  frameable := by
    have hnumber : other.number = channel.number := congrArg Flow.number hflow
    rw [hnumber]
    exact h.frameable
  nonempty := h.nonempty
  limit := h.limit
  room := by
    have hwritable (found : Channel) : found.writable = found.flow.writable := rfl
    rw [hwritable, hflow, ← hwritable]
    exact h.room

theorem Fits.emit (h : channel.Fits maxFrameSize front) : ∃ frame,
    Channel.emit front.kind front.msgno front.ansno front.payload maxFrameSize channel =
        .ok ⟨[frame], []⟩ (channel.advance front.payload.length) ∧
      frame.payload = front.payload := by
  have hpos := List.length_pos_iff.mpr h.nonempty
  have hansno : front.kind.hasAnsno = front.ansno.isSome := h.frameable.1
  have hlt := channel.writable.toNat_lt
  have hroom := h.room
  have hbudget : channel.budgetOf front.payload = front.payload.length := by
    rw [budgetOf]
    omega
  have hchunk : chunkLen (clampChunk maxFrameSize) front.payload = front.payload.length := by
    have hlimit := h.limit
    rw [chunkLen]
    omega
  have hwritable : channel.writable ≠ 0 := by
    intro hzero
    rw [hzero] at hroom
    exact absurd hpos (Nat.not_lt.mpr hroom)
  have hsize := (toNat_clampChunk maxFrameSize).2
  obtain ⟨frame, hnew⟩ := exists_newFrame front.payload h.frameable (h.limit.trans hsize)
  obtain ⟨-, -, hfragment⟩ := (newFrame_eq_ok hansno).mp hnew
  have hloop : emitLoop front.kind front.msgno front.ansno (clampChunk maxFrameSize) []
      (front.payload.length + 1) front.payload channel = _ := emitLoop_cons h.nonempty
    (by rw [hchunk, List.take_length]; exact hnew)
    (by rw [hchunk, List.take_length, List.drop_length]; exact emitLoop_nil hpos)
  refine ⟨frame.withMore false, ?_, congrArg Fragment.payload hfragment⟩
  rw [emit_nonempty maxFrameSize hansno h.nonempty hwritable, hbudget, List.take_length,
    List.drop_length]
  rw [hchunk, List.drop_length] at hloop
  exact Computation.bind_of_ok hloop _

theorem Fits.flushLoop (h : channel.Fits maxFrameSize front) : ∃ frame,
    flushLoop maxFrameSize [front] channel =
        ([], channel.advance front.payload.length, [frame], .ok ()) ∧
      frame.payload = front.payload := by
  obtain ⟨frame, hemit, hpayload⟩ := h.emit
  have hstalled : ¬ (channel.isStalled ∧ front.payload ≠ []) := by
    rintro ⟨hstalled, -⟩
    have hroom := h.room
    rw [of_decide_eq_true hstalled] at hroom
    exact absurd (List.length_pos_iff.mpr h.nonempty) (Nat.not_lt.mpr hroom)
  refine ⟨frame, ?_, hpayload⟩
  rw [Proto.flushLoop, if_neg hstalled]
  simp only [hemit, Emitted.isComplete, decide_true, if_true, Proto.flushLoop,
    List.append_nil]

end Channel

namespace SessionCore

variable {s t : SessionCore} {number : UInt32} {channel : Channel} {message : Queued}

theorem flush_single (hchannel : s.channelAt number = some channel)
    (hqueue : (s.lane number).queue = [])
    (hfits : channel.Fits s.config.maxFrameSize message) : ∃ frame t,
    frame.payload = message.payload ∧ flush number (s.submitted number message) = .ok () t ∧
      t.history = (s.submitted number message).history ++ [.wrote (.data frame)] := by
  obtain ⟨frame, hloop, hpayload⟩ := hfits.flushLoop
  have hwaiting : (s.submitted number message).queues number = some [message] := by
    have hprior : (s.queues number).getD [] = [] := hqueue
    change Function.update s.queues number
      (some ((s.queues number).getD [] ++ [message])) number = _
    rw [Function.update_self, hprior, List.nil_append]
  have hsame : (s.submitted number message).channelAt number = some channel := hchannel
  have hconfig : (s.submitted number message).config = s.config := rfl
  refine ⟨frame, { (s.submitted number message).setChannel number
      (channel.advance message.payload.length) with
      queues := Function.update (s.submitted number message).queues number (some [])
      outbound := (s.submitted number message).outbound ++ encodeAll ([frame].map .data)
      history := (s.submitted number message).history ++ [frame].map (.wrote <| .data ·) },
    hpayload, ?_, rfl⟩
  simp only [flush, hwaiting, hsame, hconfig, hloop]

/-- A message that is sent on an idle channel with room for it goes out in one frame. -/
theorem sendMsg_single {payload : Octets} {msgno : UInt32} {channel' : Channel}
    (hchannel : s.channels number = some channel)
    (hallocate : Channel.allocateMsgno channel = .ok msgno channel')
    (hnumber : number ≠ greetingChannel) (hqueue : (s.lane number).queue = [])
    (hfits : channel.Fits s.config.maxFrameSize ⟨.msg, msgno, none, payload⟩) :
    ∃ frame : DataFrame, frame.payload = payload ∧
      .wrote (.data frame) ∈ (Computation.final (sendMsg number payload) s).history := by
  obtain ⟨t, ht⟩ : ∃ t, t = { s with
    channels := Function.update s.channels number (some channel') } := ⟨_, rfl⟩
  have hrun : onOpen number Channel.allocateMsgno s = .ok msgno t := by
    simp only [onOpen, hchannel, hallocate, ht]
  have hopen : t.channels number = some channel' := by
    rw [ht]
    exact Function.update_self ..
  have hflow : (Computation.final Channel.allocateMsgno channel).flow = channel.flow :=
    (keepsFlow_allocateMsgnoLoop (maxMsgNo.toNat + 1) channel).1
  have hsame : t.lane = s.lane := by
    rw [ht]
    refine lane_of_flow_eq hchannel ?_
    rwa [Computation.final_of_ok hallocate] at hflow
  obtain ⟨u, -, hidle, -, hsend⟩ := send_open .msg msgno none payload hopen
  obtain ⟨hlane, hconfig⟩ : u.lane = s.lane ∧ u.config = s.config := by
    cases hidle with
    | idle hlane hlogs =>
        refine ⟨hlane.trans hsame, hlogs.config.trans ?_⟩
        rw [ht]
  have hat : s.channelAt number = some channel := by
    rw [channelAt, if_neg hnumber, hchannel]
  have hkept : (u.lane number).flow = some channel.flow := by
    rw [hlane, lane, hat]
    rfl
  obtain ⟨other, hother, hflows⟩ := flow_of_lane hkept
  have hroom := hfits.of_flow hflows
  rw [← hconfig] at hroom
  rw [← hlane] at hqueue
  obtain ⟨frame, v, hpayload, hflush, hhistory⟩ := flush_single hother hqueue hroom
  have hsubmit : submit number ⟨.msg, msgno, none, payload⟩ u = .ok () v := by
    rw [submit_pushed (by simp [holdsBack, isReply])]
    exact Computation.bind_of_ok hflush _
  have hlast : Computation.final (sendMsg number payload) s = v := by
    unfold sendMsg
    rw [Computation.final, Computation.bind_of_ok hrun, ← Computation.final]
    refine (Computation.final_drop _ _ t).trans ?_
    exact Computation.final_of_ok (hsend.trans hsubmit)
  refine ⟨frame, hpayload, ?_⟩
  rw [hlast, hhistory]
  exact List.mem_append_right _ (List.mem_singleton_self _)

end SessionCore

end Vortice.Proto
