import Vortice.Proto.Journal
import Vortice.Proto.Metering

/-!
# Frames that arrive on a channel

What becomes of a data frame: it is taken, which is one step of its lane, and completes a
message or not, or it is refused and nothing is reported.
-/

namespace Vortice.Proto

open Vortice.Foundation

/-- What the application does to a lane, apart from setting its window. -/
def Lane.Effect.ofCaller : Lane.Effect → Prop
  | .push _ | .hold _ | .release _ | .closed => True
  | _ => False

namespace SessionCore

variable {s s' : SessionCore} {frame : DataFrame}

theorem ofCaller_of_writesZero {messages : Queued → Prop} {other : UInt32} {found : Lane.Effect}
    (h : Effect.writesZero messages (.lane other found)) : found.ofCaller := by
  cases found <;> trivial

theorem ofCaller_of_requests {wanted : Pending} {other : UInt32} {found : Lane.Effect}
    (h : Effect.requests wanted (.lane other found)) : found.ofCaller := by
  cases found <;> trivial

theorem ofCaller_of_closes {channel other : UInt32} {found : Lane.Effect}
    (h : Effect.closes channel (.lane other found)) : found.ofCaller := by
  cases found <;> trivial

theorem ofCaller_of_sends {messages : Queued → Prop} {channel other : UInt32}
    {found : Lane.Effect} (h : Effect.sends channel messages (.lane other found)) :
    found.ofCaller := by
  cases found <;> trivial

theorem ofCaller_of_call {call : Call} {other : UInt32} {found : Lane.Effect}
    (h : Effect.ofCall s call (.lane other found)) :
    found.ofCaller ∨ ∃ size, found = .resize size ∧ call = .setWindowSize other size := by
  cases call with
  | startChannel => exact .inl (ofCaller_of_requests (h.resolve_left nofun))
  | acceptStart => exact .inl (ofCaller_of_writesZero (h.resolve_left nofun))
  | refuseStart | refuseClose => exact .inl (ofCaller_of_writesZero h)
  | closeChannel => exact .inl (ofCaller_of_requests h)
  | acceptClose => exact .inl (h.elim ofCaller_of_closes ofCaller_of_writesZero)
  | send | sendMsg => exact .inl (ofCaller_of_sends h)
  | setWindowSize channel size =>
      obtain ⟨rfl, rfl⟩ := Effect.lane.inj (h.resolve_left nofun)
      exact .inr ⟨size, rfl, rfl⟩
  | setAuthenticated | setServerName => cases h

/-- A frame that is in turn and joins up is taken. -/
structure Takes (s : SessionCore) (frame : DataFrame) (s' : SessionCore)
    (complete : Option (Whole Tag UInt8)) : Prop where
  move : Move s (.lane frame.channel (.take frame)) s'
  joins : ∃ flow held, (s.lane frame.channel).flow = some flow ∧
    Fragment.absorb flow.held frame.fragment = some (held, complete)

theorem Move.view_of_lane {number : UInt32} {effect : Lane.Effect}
    (h : Move s (.lane number effect) s') : SameView s s' := by
  cases h with
  | lane _ _ _ _ _ hview => exact hview

theorem receive_cases (frame : DataFrame) (s : SessionCore) :
    (∃ fault s', receive frame s = .error fault s' ∧ s'.events = s.events) ∨
      ∃ complete s', receive frame s = .ok complete s' ∧
        s.Takes frame s' (complete.map Message.whole) := by
  by_cases hadmitted : ∃ channel, s.channelAt frame.channel = some channel ∧ channel.admits frame
  · obtain ⟨channel, hchannel, hadmits⟩ := hadmitted
    have hflow : (s.lane frame.channel).flow = some channel.flow := by simp [lane, hchannel]
    cases habsorb : Fragment.absorb channel.flow.held frame.fragment with
    | none =>
        obtain ⟨s', hrun, hmove⟩ := receive_rejected hchannel hadmits habsorb
        exact .inl ⟨_, s', hrun, hmove.view_of_lane.events⟩
    | some joined =>
        obtain ⟨s', result, hrun, hmove, hmessage, -⟩ := receive_taken hchannel hadmits habsorb
        cases result with
        | error fault =>
            exact .inl ⟨fault, s', Computation.error_of_outcome hrun, hmove.view_of_lane.events⟩
        | ok complete =>
            refine .inr ⟨complete, s', Computation.ok_of_outcome hrun, hmove, ?_⟩
            rw [hmessage complete rfl]
            exact ⟨_, _, hflow, habsorb⟩
  · obtain ⟨fault, hrun⟩ := receive_refused fun channel hchannel h =>
      hadmitted ⟨channel, hchannel, h⟩
    exact .inl ⟨fault, s, hrun, rfl⟩

theorem deliver_run (number : UInt32) (message : Message) (s : SessionCore) :
    ∃ s', deliver number message s = .ok () s' ∧ s'.lane = s.lane ∧ s'.history = s.history ∧
      s'.config = s.config ∧ s'.events = s.events ++ [.messageReceived number message] := by
  unfold deliver
  by_cases hmsg : message.kind = .msg
  · rw [if_pos hmsg]
    exact ⟨_, rfl, rfl, rfl, rfl, rfl⟩
  · rw [if_neg hmsg]
    exact ⟨_, rfl, rfl, rfl, rfl, rfl⟩

theorem handleOpen_cases (hzero : frame.channel ≠ greetingChannel) (s : SessionCore) :
    (∃ fault s', handleFrame (.data frame) s = .error fault s' ∧ s'.events = s.events) ∨
      ∃ (complete : Option Message) (mid s' : SessionCore),
        handleFrame (.data frame) s = .ok () s' ∧ s.Takes frame mid (complete.map Message.whole) ∧
        s'.lane = mid.lane ∧
        s'.history = mid.history ∧ s'.config = mid.config ∧
        s'.events = s.events ++ (complete.map (Event.messageReceived frame.channel)).toList := by
  change (∃ fault s', handleData frame s = .error fault s' ∧ _) ∨ ∃ complete mid s',
    handleData frame s = .ok () s' ∧ _
  rw [handleData_eq hzero]
  rcases receive_cases frame s with ⟨fault, s', hrun, hevents⟩ | ⟨complete, mid, hrun, htakes⟩
  · exact .inl ⟨fault, s', Computation.bind_of_error hrun _, hevents⟩
  · right
    have hevents := htakes.move.view_of_lane.events
    rw [Computation.bind_of_ok hrun]
    cases complete with
    | none => exact ⟨none, mid, mid, rfl, htakes, rfl, rfl, rfl, by simp [hevents]⟩
    | some message =>
        obtain ⟨s', hdeliver, hlane, hhistory, hconfig, htold⟩ :=
          deliver_run frame.channel message mid
        exact ⟨some message, mid, s', hdeliver, htakes, hlane, hhistory, hconfig,
          by simp [htold, hevents]⟩

theorem takes_of_receive {rest : Option Message → SessionM Unit}
    (h : (receive frame >>= rest) s = .ok () s')
    (hrest : ∀ seq complete, Does (Effect.handles (.seq seq)) (rest complete)) :
    ∃ mid complete, s.Takes frame mid complete ∧
      ∀ seq, Walk Move (Effect.handles (.seq seq)) mid s' := by
  obtain ⟨complete, mid, hrun, hafter⟩ := Computation.ok_of_bind h
  rcases receive_cases frame s with ⟨_, _, herror, -⟩ | ⟨_, _, hok, htakes⟩
  · rw [hrun] at herror
    cases herror
  · rw [hrun] at hok
    cases hok
    refine ⟨mid, _, htakes, fun seq => ?_⟩
    have hpath := hrest seq complete mid
    rwa [Computation.final_of_ok hafter] at hpath

/-- A data frame that does not fail is taken, and what comes after that is nothing that only
data frames do. -/
theorem takes_of_handled (h : handleFrame (.data frame) s = .ok () s') :
    ∃ mid complete, s.Takes frame mid complete ∧
      ∀ seq, Walk Move (Effect.handles (.seq seq)) mid s' := by
  change handleData frame s = .ok () s' at h
  by_cases hzero : frame.channel = greetingChannel
  · rw [handleData, if_pos hzero, handleChannelZero_eq hzero] at h
    change (if s.state = .awaitingGreeting then _ else _ : SessionM Unit) s = _ at h
    split at h
    · rw [handleGreeting_eq hzero] at h
      obtain ⟨greeting, t, hgreeting, hafter⟩ := Computation.ok_of_bind h
      have hsame : t = s := by
        cases hread : Greeting.fromFrame frame with
        | error fault =>
            rw [hread] at hgreeting
            cases hgreeting
        | ok greeting =>
            rw [hread] at hgreeting
            cases hgreeting
            rfl
      subst hsame
      refine takes_of_receive hafter fun seq complete => ?_
      refine Makes.bind (Does.modify ?_ fun s => Move.tell ?_ ?_ ?_) fun _ =>
        does_emitEvent trivial _
      · trivial
      · rfl
      · exact .of_same rfl rfl rfl id
      · exact ⟨rfl, rfl⟩
    · refine takes_of_receive h fun seq complete => ?_
      cases complete with
      | none => exact Makes.pure ()
      | some message =>
          exact (does_liftFault _).bind fun management => does_dispatch _ _
  · rw [handleData_eq hzero] at h
    refine takes_of_receive h fun seq complete => ?_
    cases complete with
    | none => exact Makes.pure ()
    | some message => exact does_deliver trivial trivial _ _

/-! ## When a frame is refused -/

theorem handleData_none (hzero : frame.channel ≠ greetingChannel)
    (hchannel : s.channelAt frame.channel = none) :
    handleData frame s = .error (.error (.noSuchChannel frame.channel)) s := by
  have haccept : accept frame s = .error (.error (.noSuchChannel frame.channel)) s := by
    unfold accept
    change (if (s.channelAt frame.channel).any fun channel => channel.admits frame
      then _ else _ : SessionM _) s = _
    rw [hchannel, Option.any_none, if_neg (by simp)]
    exact onChannel_none _ hchannel
  rw [handleData_eq hzero]
  exact Computation.bind_of_error (Computation.bind_of_error haccept _) _

/-- Frames of a channel that is not open are refused. -/
theorem handleFrame_none {frame : Frame} (hzero : frame.channel ≠ greetingChannel)
    (hchannel : s.channelAt frame.channel = none) :
    handleFrame frame s = .error (.error (.noSuchChannel frame.channel)) s := by
  cases frame with
  | data data => exact handleData_none hzero hchannel
  | seq seq => exact react_refused hchannel

/-- A frame in turn that joins up is handled, in a window that can be advertised. -/
theorem handleOpen_ok {channel : Channel} (hzero : frame.channel ≠ greetingChannel)
    (hchannel : s.channelAt frame.channel = some channel) (hadmits : channel.admits frame)
    (habsorb : (Fragment.absorb channel.flow.held frame.fragment).isSome)
    (hsize : channel.recvWindow.size ≤ maxFrameSize) (hnumber : channel.number ≤ maxChannelNo) :
    ∃ s', handleFrame (.data frame) s = .ok () s' := by
  obtain ⟨⟨held, whole⟩, habsorb⟩ := Option.isSome_iff_exists.mp habsorb
  obtain ⟨mid, result, hrun, -, -, hok⟩ := receive_taken hchannel hadmits habsorb
  obtain ⟨complete, rfl⟩ := hok hsize hnumber
  have hreceive := Computation.ok_of_outcome hrun
  change ∃ s', handleData frame s = _
  rw [handleData_eq hzero, Computation.bind_of_ok hreceive]
  cases complete with
  | none => exact ⟨mid, rfl⟩
  | some message =>
      obtain ⟨s', hdeliver, -⟩ := deliver_run frame.channel message mid
      exact ⟨s', hdeliver⟩

end SessionCore

end Vortice.Proto
