import Vortice.Proto.Outgoing

/-!
# Answers handed over on channel 0

The calls that answer a request of the peer hand over one reply each, with the message number
of the request.  No other call hands one over on channel 0, nor does input of the peer.
-/

namespace Vortice.Proto

open Vortice.Foundation

/-- The message numbers of the replies handed over for channel 0. -/
def answersHanded (history : List Action) : List UInt32 :=
  ((handedOn greetingChannel history).filter fun message => isReply message.kind).map
    Queued.msgno

/-- A call that hands over no reply on channel 0. -/
def Call.silent : Call → Bool
  | .send channel _ _ _ _ | .sendMsg channel _ => channel ≠ greetingChannel
  | .startChannel _ | .closeChannel _ | .setWindowSize _ _ | .setAuthenticated _
  | .setServerName _ => true
  | _ => false

theorem mem_handedOn {number : UInt32} {actions : List Action} {message : Queued} :
    message ∈ handedOn number actions ↔ .handed number message ∈ actions := by
  rw [handedOn, List.mem_filterMap]
  constructor
  · rintro ⟨action, hmem, haction⟩
    cases action with
    | handed channel found =>
        dsimp only at haction
        split_ifs at haction with hchannel
        cases haction
        rwa [← hchannel]
    | _ => cases haction
  · exact fun hmem => ⟨_, hmem, if_pos rfl⟩

theorem Lane.Step.handed {number channel : UInt32} {lane lane' : Lane} {effect : Lane.Effect}
    {actions : List Action} (h : Lane.Step number lane effect actions lane') {message : Queued}
    (hmem : .handed channel message ∈ actions) :
    channel = number ∧ (effect = .push message ∨ effect = .hold message) := by
  have hwrote : ∀ frames : List DataFrame, .handed channel message ∉ Lane.wrote frames := by
    intro frames hmem
    obtain ⟨frame, -, heq⟩ := List.mem_map.mp hmem
    cases heq
  cases h with
  | push =>
      simp only [List.cons_append, List.nil_append, List.mem_cons, hwrote, or_false,
        reduceCtorEq, Action.handed.injEq] at hmem
      exact ⟨hmem.1, .inl (congrArg _ hmem.2.symm)⟩
  | hold =>
      simp only [List.mem_singleton, Action.handed.injEq] at hmem
      exact ⟨hmem.1, .inr (congrArg _ hmem.2.symm)⟩
  | release =>
      rcases List.mem_append.mp hmem with hmem | hmem
      · obtain ⟨found, -, heq⟩ := List.mem_map.mp hmem
        cases heq
      · exact absurd hmem (hwrote _)
  | react => exact absurd hmem (hwrote _)
  | take _ _ _ _ hcounts => cases hcounts <;> simp at hmem
  | _ => simp at hmem

namespace SessionCore

/-- An effect that hands over no reply on channel 0. -/
def Effect.silent : Effect → Prop
  | .lane channel (.push message) | .lane channel (.hold message) =>
      channel = greetingChannel → isReply message.kind = false
  | _ => True

variable {s s' : SessionCore} {effect : SessionCore.Effect}

theorem handedOn_filter_append {wanted : Queued → Bool} {number : UInt32}
    (history : List Action) {actions : List Action}
    (h : ∀ message, .handed number message ∈ actions → wanted message = false) :
    (handedOn number (history ++ actions)).filter wanted =
      (handedOn number history).filter wanted := by
  have hnone : (handedOn number actions).filter wanted = [] := by
    refine List.filter_eq_nil_iff.mpr fun message hmem => ?_
    rw [h message (mem_handedOn.mp hmem)]
    exact Bool.false_ne_true
  rw [handedOn_append, List.filter_append, hnone, List.append_nil]

theorem Move.handed_filter {wanted : Queued → Bool} {number : UInt32}
    (h : Move s effect s')
    (hunwanted : ∀ message, effect = .lane number (.push message) ∨
      effect = .lane number (.hold message) → wanted message = false) :
    (handedOn number s'.history).filter wanted =
      (handedOn number s.history).filter wanted := by
  cases h with
  | lane _ hstep _ hlogs =>
      rw [hlogs.history]
      refine handedOn_filter_append _ fun message hmem => ?_
      obtain ⟨rfl, rfl | rfl⟩ := hstep.handed hmem
      · exact hunwanted message (.inl rfl)
      · exact hunwanted message (.inr rfl)
  | idle _ hlogs | tell _ hlogs | number _ hlogs | ask _ hlogs | settle _ hlogs
  | accept _ _ _ _ hlogs | answer _ _ _ hlogs | answerZero _ _ hlogs | shut _ hlogs =>
      rw [hlogs.history]
      exact handedOn_filter_append _ fun message hmem => by simp at hmem

theorem Move.silent (h : Move s effect s') (hsilent : effect.silent) :
    answersHanded s'.history = answersHanded s.history := by
  refine congrArg (List.map Queued.msgno) (h.handed_filter fun message heffect => ?_)
  rcases heffect with rfl | rfl <;> exact hsilent rfl

theorem answersHanded_of_walk (h : Walk Move Effect.silent s s') :
    answersHanded s'.history = answersHanded s.history :=
  h.preserves (I := fun t => answersHanded t.history = answersHanded s.history)
    (fun hsilent hmove ht => (hmove.silent hsilent).trans ht) rfl

/-! ## Calls and input that hand over no reply -/

theorem Effect.silent_of_writesZero {messages : Queued → Prop}
    (hmessages : ∀ message, messages message → isReply message.kind = false) :
    ∀ effect : Effect, effect.writesZero messages → effect.silent := by
  intro effect h
  cases effect with
  | lane channel effect =>
      cases effect with
      | push => exact fun _ => hmessages _ h.2
      | hold => cases h
      | _ => trivial
  | _ => trivial

theorem Effect.silent_of_sends {channel : UInt32} {messages : Queued → Prop}
    (hchannel : channel ≠ greetingChannel) :
    ∀ effect : Effect, effect.sends channel messages → effect.silent := by
  intro effect h
  cases effect with
  | lane other effect =>
      cases effect with
      | push | hold => exact fun hother => absurd (h.1.symm.trans hother) hchannel
      | _ => trivial
  | _ => trivial

theorem Effect.silent_of_ofInput : ∀ effect : Effect, effect.ofInput → effect.silent := by
  rintro effect ⟨frame, h⟩
  cases effect with
  | lane channel effect =>
      cases effect with
      | push | hold => cases h
      | _ => trivial
  | _ => trivial

theorem silent_request (management : Management.Message) (wanted : Pending) :
    Does Effect.silent (request management wanted) := by
  unfold request
  refine (does_onZero (keepsFlow_allocateMsgnoLoop _) trivial).bind fun msgno =>
    Makes.bind (fun s => ?_) fun _ => ?_
  · have hask : Move s (.ask msgno wanted) { s with
        pending := Function.update s.pending msgno (some wanted) } :=
      .ask rfl (.of_same rfl rfl rfl id) rfl rfl ⟨rfl, rfl, rfl⟩
    exact hask.path trivial
  · refine (does_writeZero .msg msgno management).mono (Effect.silent_of_writesZero ?_)
    rintro _ rfl
    rfl

theorem silent_startChannel (profile : Management.Profile) (s : SessionCore) :
    Walk Move Effect.silent s (Computation.final (startChannel profile) s) := by
  unfold startChannel
  refine Makes.path_bind (does_requireReady s) fun _ t _ => ?_
  have hnumber : Move t .number { t with
      nextChannel := t.nextChannel + 2
      halfOpen := Function.update t.halfOpen t.nextChannel (some profile) } :=
    .number rfl (.of_same rfl rfl rfl id) rfl rfl ⟨rfl, rfl, rfl⟩
  refine Makes.path_get_bind (Makes.path_modify_bind (hnumber.path trivial) ?_)
  have hrequest := (silent_request (.start (Management.Start.new t.nextChannel profile))
    (.start t.nextChannel)).bind fun _ => Makes.pure t.nextChannel
  exact hrequest _

theorem answersHanded_call {call : Call} (hsilent : call.silent) (s : SessionCore) :
    answersHanded (Computation.final call.run s).history = answersHanded s.history := by
  refine answersHanded_of_walk ?_
  cases call with
  | startChannel profile =>
      exact Makes.path_bind (silent_startChannel profile s) fun _ _ _ => Walk.refl
  | closeChannel channel =>
      have hclose : Does Effect.silent (closeChannel channel) :=
        does_requireReady.bind fun _ => Makes.get_bind fun t =>
          Makes.ite (fun _ => Makes.throw _) (fun _ => silent_request _ _) t
      exact hclose s
  | send channel kind msgno ansno payload =>
      exact (path_send channel kind msgno ansno payload s).mono
        (Effect.silent_of_sends (of_decide_eq_true hsilent))
  | sendMsg channel payload =>
      refine Makes.path_bind ?_ fun _ _ _ => Walk.refl
      exact (path_sendMsg payload s).mono (Effect.silent_of_sends (of_decide_eq_true hsilent))
  | setWindowSize channel size =>
      refine (path_setWindowSize channel size s).mono ?_
      rintro _ (rfl | rfl) <;> trivial
  | setAuthenticated identity =>
      refine (path_call (.setAuthenticated identity) s).mono ?_
      rintro _ rfl
      trivial
  | setServerName name =>
      refine (path_call (.setServerName name) s).mono ?_
      rintro _ rfl
      trivial
  | _ => cases hsilent

theorem answersHanded_input (session : Session) (input : Octets) :
    answersHanded (session.handleInput input).1.core.history =
      answersHanded session.core.history :=
  answersHanded_of_walk ((session.path_handleInput input).mono Effect.silent_of_ofInput)

/-! ## Calls that answer -/

theorem Move.handed_push {message : Queued}
    (h : Move s (.lane greetingChannel (.push message)) s') :
    handedOn greetingChannel s'.history = handedOn greetingChannel s.history ++ [message] := by
  cases h with
  | lane _ hstep _ hlogs =>
      cases hstep with
      | push =>
          rw [hlogs.history, handedOn_append, handedOn_append, Lane.handedOn_wrote,
            List.append_nil]
          rfl

theorem answersHanded_reply (kind : FrameKind) (hkind : isReply kind) (msgno : UInt32)
    (management : Management.Message) (s : SessionCore) :
    answersHanded (Computation.final (reply kind msgno management) s).history =
      answersHanded s.history ++ [msgno] := by
  let replied : SessionCore := { s with zero := s.zero.replied msgno }
  obtain ⟨s', result, _, _, _, hrun, hpushed, -⟩ :=
    push_run ⟨kind, msgno, none, management.toPayload⟩ replied.flow_zero
  have hwrite : Computation.final (writeZero kind msgno management) replied = s' :=
    final_of_outcome hrun
  have hfinal : Computation.final (reply kind msgno management) s = s' :=
    (Computation.final_congr (Computation.bind_of_ok rfl _)).trans hwrite
  have hhanded := (hpushed.move replied.flow_zero).handed_push
  rw [hfinal, answersHanded, hhanded, List.filter_append, List.map_append]
  simp [hkind, answersHanded, replied]

theorem answersHanded_acceptClose (channel msgno : UInt32) (s : SessionCore) :
    answersHanded (Computation.final (acceptClose channel msgno) s).history =
      answersHanded s.history ++ [msgno] := by
  have hreply := answersHanded_reply .rpy rfl msgno .ok s
  unfold acceptClose
  cases hrun : reply .rpy msgno .ok s with
  | error fault t =>
      rw [Computation.final_of_error hrun] at hreply
      rwa [Computation.final_of_error (Computation.bind_of_error hrun _)]
  | ok _ t =>
      rw [Computation.final_of_ok hrun] at hreply
      rw [Computation.final_congr (Computation.bind_of_ok hrun _), ← hreply]
      refine answersHanded_of_walk ((does_finishClose channel t).mono ?_)
      intro effect h
      cases effect with
      | lane channel effect =>
          cases effect with
          | push | hold => cases h
          | _ => trivial
      | _ => trivial

/-- Whether the session takes a channel number for one that a peer may open. -/
def opensAt (s : SessionCore) (channel : UInt32) : Bool :=
  channel ≠ greetingChannel && !s.config.role.owns channel && (s.channels channel).isNone

theorem answersHanded_acceptStart {channel : UInt32} (msgno : UInt32)
    (profile : Management.Profile) {s : SessionCore} (hopens : s.opensAt channel) :
    answersHanded (Computation.final (acceptStart channel msgno profile) s).history =
      answersHanded s.history ++ [msgno] := by
  obtain ⟨⟨hzero, howns⟩, hclosed⟩ : (channel ≠ greetingChannel ∧
      s.config.role.owns channel = false) ∧ s.channels channel = none := by
    simpa [opensAt] using hopens
  have hrun : acceptStart channel msgno profile s =
      (openChannel channel profile.uri >>= fun _ => reply .rpy msgno (.profile profile)) s := by
    unfold acceptStart
    refine (Computation.bind_of_ok rfl _).trans ?_
    rw [if_neg (by simp [hzero, howns]), if_neg (by simp [hclosed])]
  rw [Computation.final_congr (hrun.trans (Computation.bind_of_ok rfl _)),
    answersHanded_reply _ rfl]
  congr 1
  refine congrArg (List.map Queued.msgno) ?_
  exact handedOn_filter_append _ fun message hmem => by simp at hmem

theorem acceptStart_refused {channel : UInt32} (msgno : UInt32) (profile : Management.Profile)
    {s : SessionCore} (hopens : s.opensAt channel = false) :
    Computation.final (acceptStart channel msgno profile) s = s := by
  unfold acceptStart
  change Computation.final
    (if channel = greetingChannel ∨ s.config.role.owns channel then _
      else if (s.channels channel).isSome then _ else _ : SessionM Unit) s = s
  split
  · rfl
  split
  · rfl
  rename_i hnumber hclosed
  obtain ⟨hzero, howns⟩ := not_or.mp hnumber
  have htrue : s.opensAt channel := by
    simpa [opensAt, hzero, howns] using hclosed
  rw [hopens] at htrue
  cases htrue

/-- A call that answers what the peer asked for, with the message number of its request. -/
inductive Settles (s : SessionCore) : Call → UInt32 → Prop where
  | refuse (msgno : UInt32) (error : Management.ErrorReply) :
      Settles s (.refuseStart msgno error) msgno
  | accept {channel : UInt32} (msgno : UInt32) (profile : Management.Profile) :
      s.opensAt channel → Settles s (.acceptStart channel msgno profile) msgno
  | close (channel msgno : UInt32) : Settles s (.acceptClose channel msgno) msgno

theorem answersHanded_settles {call : Call} {msgno : UInt32} (h : Settles s call msgno) :
    answersHanded (Computation.final call.run s).history = answersHanded s.history ++ [msgno] := by
  cases h with
  | refuse => exact answersHanded_reply _ rfl _ _ s
  | accept _ _ hopens => exact answersHanded_acceptStart _ _ hopens
  | close => exact answersHanded_acceptClose _ _ s

theorem silent_advertiseWindow (s : SessionCore) :
    Walk Move Effect.silent s (Computation.final (advertiseWindow greetingChannel) s) := by
  have hchannel : s.channelAt greetingChannel = some s.zero := rfl
  unfold advertiseWindow
  refine Makes.path_get_bind ?_
  split
  · exact Walk.refl
  · cases hseq : s.zero.recvWindow.toSeqFrame greetingChannel with
    | error error =>
        simp only [hchannel, hseq]
        exact Walk.refl
    | ok seq =>
        simp only [hchannel, hseq]
        have hwrite : Move s (.lane greetingChannel (.advertise seq))
            (Computation.final (write (.seq seq)) s) := by
          refine .lane (by rintro _ ⟨⟩) (.advertise s.flow_zero hseq) ?_
            ⟨rfl, rfl, ?_, id⟩ ⟨rfl, rfl⟩ ⟨rfl, rfl, rfl⟩
          · exact (Function.update_eq_self greetingChannel s.lane).symm
          · change s.outbound ++ (Frame.seq seq).encode = _
            simp [written]
        exact hwrite.path trivial

theorem answersHanded_fresh {config : Config} {trace : Trace} (h : Trace.Fresh config trace) :
    answersHanded trace.core.history = [0] := by
  obtain ⟨t, s', _, _, _, hpushed, -, hadvertise, hgreet⟩ := greet_run config
  have hwalk := silent_advertiseWindow t
  rw [Computation.final_of_ok hadvertise] at hwalk
  obtain ⟨hnew⟩ := h
  rw [Session.new, hgreet] at hnew
  cases hnew
  refine (answersHanded_of_walk hwalk).trans ?_
  rw [answersHanded, (hpushed.move (fresh config).flow_zero).handed_push]
  rfl

end SessionCore

end Vortice.Proto
