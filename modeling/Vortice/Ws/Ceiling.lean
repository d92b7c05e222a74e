import Vortice.Proto.Calls
import Vortice.Proto.Single
import Vortice.Ws.Conservation

/-!
# What the other end accepts

A frame is read as what it carries when its payload is not above the ceiling of the decoder.
The writer has no such ceiling, and neither has a session with room enough.
-/

namespace Vortice.Ws

open Vortice.Foundation

variable {T : Type} {host : Host T}

/-- Of what is written of a session's frames, the other end reads exactly what is not above
its ceiling. -/
theorem accepted_iff_fits {config : Proto.Config} {first last : Proto.Trace}
    (hfresh : Proto.Trace.Fresh config first)
    (hsession : Proto.Trace.Run (fun _ _ => True) first last) (hrandom : host.Random)
    (haccepts : host.Accepts) (io : T) (side : Side) (inbound : Octets) {trace : Trace T}
    (hrun : Run (Trace.act host)
      (fun trace act => act.Offers (Proto.written last.core.history) trace)
      (Trace.new io side inbound) trace) :
    last.octetsOut = Proto.encodeAll (Proto.written last.core.history) ∧
    (∃ done left, Proto.written last.core.history = done ++ left ∧
      dataPayloads trace.stream.queued = done.map Proto.Frame.encode) ∧
    ∀ frame ∈ trace.stream.queued,
      frame.Accepted ↔ frame.payload.length ≤ maxPayload := by
  obtain ⟨hconserved, done, left, hframes, hdone, -⟩ :=
    Trace.conserved_aligned hrandom haccepts hrun
  refine ⟨hsession.faithful hfresh.faithful, ⟨done, left, hframes, hdone⟩, ?_⟩
  exact fun frame hmem => Framed.accepted_iff (hconserved.controls frame hmem)

/-- A session's greeting, written as it is put out. -/
theorem accepted_greeting : ∃ first : Proto.Trace,
    Proto.Trace.Fresh (Proto.Config.new .listener) first ∧
    first.octetsOut = Proto.encodeAll (Proto.written first.core.history) ∧
    (∃ done left, Proto.written first.core.history = done ++ left ∧
      dataPayloads ((Trace.new [] .client []).act trickle (.write first.octetsOut)).stream.queued =
        done.map Proto.Frame.encode) ∧
    ∀ frame ∈ ((Trace.new [] .client []).act trickle (.write first.octetsOut)).stream.queued,
      frame.Accepted ↔ frame.payload.length ≤ maxPayload := by
  obtain ⟨session, hnew⟩ := Proto.Session.new_ok (Proto.Config.new .listener)
  have hfresh : Proto.Trace.Fresh (Proto.Config.new .listener) ⟨session, []⟩ := .new hnew
  have hoffers : Act.Offers (Proto.written session.core.history)
      (Trace.new ([] : Octets) .client []) (.write (Proto.Trace.octetsOut ⟨session, []⟩)) := by
    rw [hfresh.faithful]
    exact List.prefix_rfl
  exact ⟨_, hfresh, accepted_iff_fits hfresh (.refl _) random_trickle accepts_trickle [] .client []
    (Run.refl.act _ hoffers)⟩

/-- A session whose frames may be as large as frames can be, and whose peer opens its window
as far as a window can be opened. -/
def wideOpen : Proto.Config :=
  { Proto.Config.new .listener with maxFrameSize := Proto.maxFrameSize }

def openingActs : List Proto.Act :=
  [.input (Proto.peerFrame .rpy 0 0 0 Proto.Greeting.new.toPayload ++
      Proto.startRequest 1 0 52),
    .call (.acceptStart 1 0 (.new "urn:x")),
    .input (Proto.SeqFrame.encode ⟨1, 0, Proto.maxFrameSize, by decide, by decide⟩)]

theorem exists_wideOpen :
    ∃ first channel msgno channel', Proto.Trace.Fresh wideOpen first ∧
      (first.replay openingActs).core.channels 1 = some channel ∧
      Proto.Channel.allocateMsgno channel = .ok msgno channel' ∧
      ((first.replay openingActs).core.lane 1).queue = [] ∧
      (first.replay openingActs).core.config.maxFrameSize = Proto.maxFrameSize ∧
      channel.number = 1 ∧ msgno ≤ Proto.maxMsgNo ∧ maxPayload ≤ channel.writable.toNat := by
  have hrun : (Proto.Session.new wideOpen).toOption.any fun session =>
      let last := Proto.Trace.replay ⟨session, []⟩ openingActs
      ((decide ((last.core.lane 1).queue = []) &&
        decide (last.core.config.maxFrameSize = Proto.maxFrameSize)) &&
        (last.core.channels 1).any fun channel =>
          (decide (channel.number = 1) && decide (maxPayload ≤ channel.writable.toNat)) &&
          (Computation.outcome Proto.Channel.allocateMsgno channel).2.toOption.any fun msgno =>
            decide (msgno ≤ Proto.maxMsgNo)) := by
    decide +kernel
  obtain ⟨session, hnew⟩ := Proto.Session.new_ok wideOpen
  rw [hnew] at hrun
  obtain ⟨first, hfirst⟩ : ∃ first : Proto.Trace, first = ⟨session, []⟩ := ⟨_, rfl⟩
  have hfresh : Proto.Trace.Fresh wideOpen first := hfirst ▸ .new hnew
  simp only [Except.toOption, Option.any_some, Bool.and_eq_true, decide_eq_true_eq,
    ← hfirst] at hrun
  obtain ⟨⟨hqueue, hlimit⟩, hopen⟩ := hrun
  cases hchannel : (first.replay openingActs).core.channels 1 with
  | none =>
      rw [hchannel] at hopen
      cases hopen
  | some channel =>
      rw [hchannel, Option.any_some, Bool.and_eq_true, Bool.and_eq_true, decide_eq_true_eq,
        decide_eq_true_eq] at hopen
      obtain ⟨⟨hnumber, hroom⟩, hallocate⟩ := hopen
      cases hrun : Proto.Channel.allocateMsgno channel with
      | error fault channel' =>
          rw [Computation.outcome, hrun] at hallocate
          cases hallocate
      | ok msgno channel' =>
          rw [Computation.outcome, hrun] at hallocate
          exact ⟨first, channel, msgno, channel', hfresh, hchannel, hrun, hqueue, hlimit, hnumber,
            of_decide_eq_true hallocate, hroom⟩

/-- Its frames are not all read at the other end. -/
theorem not_accepted : ¬ ∀ {config : Proto.Config} {first last : Proto.Trace},
    Proto.Trace.Fresh config first → Proto.Trace.Run (fun _ _ => True) first last →
      ∀ frame ∈ Proto.written last.core.history, ∀ mask,
        Framed.Accepted ⟨.binary, true, mask, frame.encode⟩ := by
  intro hall
  obtain ⟨first, channel, msgno, channel', hfresh, hchannel, hallocate, hqueue, hlimit, hnumber,
    hmsgno, hroom⟩ := exists_wideOpen
  obtain ⟨payload, hlength⟩ : ∃ payload : Octets, payload.length = maxPayload :=
    ⟨List.replicate maxPayload 0, List.length_replicate⟩
  have hfits : channel.Fits (first.replay openingActs).core.config.maxFrameSize
      ⟨.msg, msgno, none, payload⟩ := by
    refine ⟨⟨rfl, by rw [hnumber]; decide, hmsgno, nofun⟩, ?_, ?_, hlength.trans_le hroom⟩
    · exact List.ne_nil_of_length_pos (hlength ▸ by decide)
    · rw [hlimit]
      exact hlength.trans_le (by decide)
  obtain ⟨frame, hpayload, hwrote⟩ := Proto.SessionCore.sendMsg_single hchannel hallocate
    (by decide) hqueue hfits
  have hsession : Proto.Trace.Run (fun _ _ => True) first
      ((first.replay openingActs).act (.call (.sendMsg 1 payload))) :=
    .act _ (Proto.Trace.Run.replay first openingActs) trivial
  have hmem : Proto.Frame.data frame ∈ Proto.written
      ((first.replay openingActs).act (.call (.sendMsg 1 payload))).core.history := by
    refine List.mem_filterMap.mpr ⟨.wrote (.data frame), ?_, rfl⟩
    rwa [← Computation.final_drop _ ()] at hwrote
  have hshort := (Framed.accepted_iff (by rintro ⟨⟩)).mp (hall hfresh hsession _ hmem none)
  have hlong : frame.payload.length < frame.encode.length := by
    have htrailer : 0 < Proto.trailer.length := by decide
    rw [Proto.DataFrame.encode, List.length_append, List.length_append]
    omega
  rw [hpayload, hlength] at hlong
  exact absurd hshort (Nat.not_le.mpr hlong)

end Vortice.Ws
