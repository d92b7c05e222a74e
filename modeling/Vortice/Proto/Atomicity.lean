import Vortice.Proto.Journal
import Vortice.Proto.Replies

/-!
# Sending all or nothing

`send` queues a message before it looks whether frames can carry it.  While every
message handed over is one they can carry, sending on an open channel never
fails, and nothing that was sent makes a later call or frame fail.
-/

namespace Vortice.Proto

open Vortice.Foundation

namespace SessionCore

/-- The session with no message queued or held back. -/
def emptied (s : SessionCore) : SessionCore :=
  { s with queues := fun _ => none, heldReplies := fun _ => none }

/-! ## Data frames do not depend on what is waiting -/

variable {α : Type}

theorem ignores_onZero (method : Op Channel α) :
    Computation.Ignores emptied (onZero method) := by
  intro s
  have hzero : (emptied s).zero = s.zero := rfl
  simp only [Computation.outcome, onZero, hzero]
  cases method s.zero <;> rfl

theorem ignores_onOpen (number : UInt32) (method : Op Channel α) :
    Computation.Ignores emptied (onOpen number method) := by
  intro s
  have hchannels : (emptied s).channels = s.channels := rfl
  simp only [Computation.outcome, onOpen, hchannels]
  cases s.channels number with
  | none => rfl
  | some channel => cases hrun : method channel <;> simp only [hrun] <;> rfl

theorem ignores_onChannel (number : UInt32) (method : Op Channel α) :
    Computation.Ignores emptied (onChannel number method) := by
  unfold onChannel
  exact Computation.ignores_ite (ignores_onZero method) (ignores_onOpen number method)

theorem ignores_accept (frame : DataFrame) :
    Computation.Ignores emptied (accept frame) := by
  have hnote : Computation.Ignores emptied (note (.accepted frame)) :=
    Computation.ignores_modify fun _ => rfl
  have haccept := ignores_onChannel frame.channel (Channel.accept frame)
  intro s
  change Computation.outcome
    (if ((emptied s).channelAt frame.channel).any fun channel => channel.admits frame
      then _ else _ : SessionM (Option Message)) _ = Prod.map _ _ (Computation.outcome
    (if (s.channelAt frame.channel).any fun channel => channel.admits frame
      then _ else _ : SessionM (Option Message)) s)
  have hsame : (emptied s).channelAt frame.channel = s.channelAt frame.channel := rfl
  rw [hsame]
  split
  · exact Computation.ignores_bind hnote (fun _ => haccept) s
  · exact haccept s

theorem ignores_acknowledge (number octets : UInt32) :
    Computation.Ignores emptied (acknowledge number octets) := by
  intro s
  cases hchannel : s.channelAt number with
  | none =>
      have hsame : (emptied s).channelAt number = none := hchannel
      rw [Computation.outcome, Computation.outcome, acknowledge_of_none hchannel,
        acknowledge_of_none hsame]
      rfl
  | some channel =>
      have hsame : (emptied s).channelAt number = some channel := hchannel
      by_cases hge : saturatingAdd ((s.unacked number).getD 0) octets ≥
          ackThreshold channel.recvWindow.size
      · obtain ⟨pending, hpending⟩ : ∃ pending,
          pending = saturatingAdd ((s.unacked number).getD 0) octets := ⟨_, rfl⟩
        have hgrant : Computation.Ignores emptied
            (onChannel number (Channel.consume pending) >>= fun seq => do
              modify fun s => s.counted number 0
              write (.seq seq) : SessionM Unit) :=
          Computation.ignores_bind (ignores_onChannel number (Channel.consume pending))
            fun _ => Computation.ignores_bind
              (Computation.ignores_modify fun _ => rfl)
              fun _ => Computation.ignores_modify fun _ => rfl
        rw [Computation.outcome, Computation.outcome, acknowledge_of_ge hchannel hge,
          acknowledge_of_ge hsame hge]
        have hunacked : (emptied s).unacked = s.unacked := rfl
        rw [hunacked, ← hpending, ← Computation.outcome, ← Computation.outcome]
        exact hgrant (s.counted number pending)
      · rw [Computation.outcome, Computation.outcome, acknowledge_of_lt hchannel hge,
          acknowledge_of_lt hsame hge]
        rfl

theorem ignores_emitEvent (event : Event) :
    Computation.Ignores emptied (emitEvent event) :=
  Computation.ignores_modify fun _ => rfl

theorem ignores_deliver (number : UInt32) (message : Message) :
    Computation.Ignores emptied (deliver number message) := by
  unfold deliver
  split
  · exact Computation.ignores_bind (Computation.ignores_modify fun _ => rfl)
      fun _ => ignores_emitEvent _
  · exact ignores_emitEvent _

theorem ignores_liftFault (found : Except Fault α) :
    Computation.Ignores emptied (liftFault found) := by
  cases found with
  | ok value => exact Computation.ignores_pure _ _
  | error fault => exact Computation.ignores_throw _ _

theorem ignores_finishClose (channel : UInt32) :
    Computation.Ignores emptied (finishClose channel) := by
  unfold finishClose
  refine Computation.ignores_ite (Computation.ignores_modify fun _ => rfl)
    (Computation.ignores_modify fun s => ?_)
  simp only [emptied, record, Function.update_eq_self_iff.mpr]

theorem ignores_release (msgno : UInt32) :
    Computation.Ignores emptied (onZero (modify (·.releaseMsgno msgno))) :=
  ignores_onZero _

theorem ignores_dispatch (kind : FrameKind) (msgno : UInt32)
    (management : Management.Message) :
    Computation.Ignores emptied (dispatchManagement kind msgno management) := by
  have hset : ∀ (s : SessionCore) {rest : SessionM Unit},
      Computation.Ignores emptied rest →
      Computation.outcome rest ((emptied s).settled msgno) =
        Prod.map emptied id (Computation.outcome rest (s.settled msgno)) :=
    fun s _ h => h (s.settled msgno)
  have hraise : ∀ error : Error,
      Computation.Ignores emptied (raise error : SessionM Unit) :=
    fun error => Computation.ignores_throw emptied (Fault.error error)
  cases kind with
  | msg =>
      cases management with
      | start start =>
          exact Computation.ignores_bind (Computation.ignores_modify fun _ => rfl)
            fun _ => ignores_emitEvent _
      | close close => exact ignores_emitEvent _
      | _ => exact hraise _
  | rpy =>
      cases management with
      | profile profile =>
          intro s
          have hfound : (emptied s).pending = s.pending := rfl
          rw [Computation.outcome_congr (dispatch_profile msgno profile (emptied s)),
            Computation.outcome_congr (dispatch_profile msgno profile s), hfound]
          refine hset s ?_
          split
          · exact Computation.ignores_bind (ignores_release msgno) fun _ =>
              Computation.ignores_bind (Computation.ignores_modify fun _ => rfl)
                fun _ => Computation.ignores_bind
                  (Computation.ignores_modify fun _ => rfl) fun _ => ignores_emitEvent _
          · exact hraise _
      | ok =>
          intro s
          have hfound : (emptied s).pending = s.pending := rfl
          rw [Computation.outcome_congr (dispatch_ok msgno (emptied s)),
            Computation.outcome_congr (dispatch_ok msgno s), hfound]
          refine hset s ?_
          split
          · exact Computation.ignores_bind (ignores_release msgno) fun _ =>
              ignores_finishClose _
          · exact hraise _
      | _ => exact hraise _
  | err =>
      cases management with
      | error error =>
          intro s
          have hfound : (emptied s).pending = s.pending := rfl
          rw [Computation.outcome_congr (dispatch_error msgno error (emptied s)),
            Computation.outcome_congr (dispatch_error msgno error s), hfound]
          refine hset s ?_
          split
          · exact hraise _
          · exact Computation.ignores_bind (ignores_release msgno) fun _ =>
              Computation.ignores_bind (Computation.ignores_modify fun _ => rfl)
                fun _ => ignores_emitEvent _
          · exact Computation.ignores_bind (ignores_release msgno) fun _ =>
              ignores_emitEvent _
      | _ => exact hraise _
  | ans => exact hraise _
  | nul => exact hraise _

theorem ignores_handleGreeting (frame : DataFrame) :
    Computation.Ignores emptied (handleGreeting frame) :=
  Computation.ignores_bind (ignores_liftFault _) fun _ =>
    Computation.ignores_bind (ignores_accept frame) fun _ =>
      Computation.ignores_bind (ignores_acknowledge _ _) fun _ =>
        Computation.ignores_bind (Computation.ignores_modify fun _ => rfl)
          fun _ => ignores_emitEvent _

theorem ignores_manage (frame : DataFrame) : Computation.Ignores emptied (do
    let complete ← accept frame
    acknowledge greetingChannel frame.size
    match complete with
    | none => return ()
    | some message =>
        let management ← liftFault (Management.Message.fromPayload message.payload)
        dispatchManagement message.kind message.msgno management : SessionM Unit) := by
  refine Computation.ignores_bind (ignores_accept frame) fun complete =>
    Computation.ignores_bind (ignores_acknowledge _ _) fun _ => ?_
  cases complete with
  | none => exact Computation.ignores_pure _ _
  | some message =>
      exact Computation.ignores_bind (ignores_liftFault _) fun _ =>
        ignores_dispatch _ _ _

theorem ignores_handleData (frame : DataFrame) :
    Computation.Ignores emptied (handleData frame) := by
  unfold handleData
  refine Computation.ignores_ite (Computation.ignores_get_bind fun s => ?_) ?_
  · have hstate : (emptied s).state = s.state := rfl
    rw [hstate]
    split
    · exact ignores_handleGreeting frame s
    · exact ignores_manage frame s
  · refine Computation.ignores_bind (ignores_accept frame) fun complete =>
      Computation.ignores_bind (ignores_acknowledge _ _) fun _ => ?_
    cases complete with
    | none => exact Computation.ignores_pure _ _
    | some message => exact ignores_deliver _ _

/-! ## Runs in which every message can be carried -/

end SessionCore

/-- What is handed to `send` is a message that frames can carry.  On channel 0, which
only `start_channel` may have opened, no other message may be in the way. -/
def Act.Carries (s : SessionCore) : Act → Prop
  | .call (.send channel kind msgno ansno _) =>
      (s.channels channel).isSome →
        Frameable channel (kind, msgno, s.answerNumber channel kind msgno ansno) ∧
          (channel = greetingChannel → (s.lane channel).Clean channel)
  | .call (.sendMsg channel _) =>
      (s.channels channel).isSome →
        channel ≤ maxChannelNo ∧
          (channel = greetingChannel → (s.lane channel).Clean channel)
  | _ => True

namespace SessionCore

/-- Every message waiting on a channel is one that frames can carry. -/
structure Carried (s : SessionCore) : Prop where
  placed : s.Placed
  numbered : s.Numbered
  clean : ∀ number, number ≠ greetingChannel → (s.lane number).Clean number

variable {s t : SessionCore} {number : UInt32}

theorem Carried.move {effect : Effect} (h : s.Carried) (hmove : Move s effect t)
    (hmessage : ∀ number message, number ≠ greetingChannel →
      effect = .lane number (.push message) ∨ effect = .lane number (.hold message) →
        Frameable number message.tag) : t.Carried where
  placed := hmove.placed h.placed
  numbered := by
    obtain ⟨actions, hlogs⟩ := hmove.logs
    exact hlogs.numbered h.numbered
  clean := fun number hzero =>
    hmove.clean (h.clean number hzero) fun message => hmessage number message hzero

theorem Carried.path {allowed : Effect → Prop} (h : s.Carried)
    (hpath : Walk Move allowed s t)
    (hmessage : ∀ effect number message, allowed effect → number ≠ greetingChannel →
      effect = .lane number (.push message) ∨ effect = .lane number (.hold message) →
        Frameable number message.tag) : t.Carried := by
  refine hpath.preserves (fun {_ _ effect} hallowed hmove hcarried => ?_) h
  exact hcarried.move hmove fun number message => hmessage effect number message hallowed

theorem Carried.sends {messages : Queued → Prop} (h : s.Carried)
    (hpath : Walk Move (Effect.sends number messages) s t)
    (hmessages : ∀ message, messages message → Frameable number message.tag) :
    t.Carried := by
  refine h.path hpath ?_
  rintro effect other message hallowed - (rfl | rfl)
  · obtain ⟨rfl, hmessage⟩ := hallowed
    exact hmessages message hmessage
  · obtain ⟨rfl, hmessage⟩ := hallowed
    exact hmessages message hmessage

theorem pushes_zero {call : Call} {effect : Effect} {message : Queued}
    (hsend : ∀ channel kind msgno ansno payload,
      call ≠ .send channel kind msgno ansno payload)
    (hsendMsg : ∀ channel payload, call ≠ .sendMsg channel payload)
    (h : Effect.ofCall s call effect)
    (hpushed : effect = .lane number (.push message) ∨
      effect = .lane number (.hold message)) : number = greetingChannel := by
  cases call with
  | startChannel =>
      rcases hpushed with rfl | rfl <;> rcases h with h | h <;> cases h
      rfl
  | acceptStart =>
      rcases hpushed with rfl | rfl <;> rcases h with h | h <;> cases h
      rename_i hzero _
      exact hzero
  | refuseStart =>
      rcases hpushed with rfl | rfl
      · exact h.1
      · cases h
  | closeChannel =>
      rcases hpushed with rfl | rfl <;> cases h
      rfl
  | acceptClose =>
      rcases hpushed with rfl | rfl <;> rcases h with h | h <;> cases h
      rename_i hzero _
      exact hzero
  | refuseClose =>
      rcases hpushed with rfl | rfl
      · exact h.1
      · cases h
  | send => exact absurd rfl (hsend _ _ _ _ _)
  | sendMsg => exact absurd rfl (hsendMsg _ _)
  | setWindowSize => rcases hpushed with rfl | rfl <;> rcases h with h | h <;> cases h
  | setAuthenticated => rcases hpushed with rfl | rfl <;> cases h
  | setServerName => rcases hpushed with rfl | rfl <;> cases h

theorem Carried.send {kind : FrameKind} {msgno : UInt32} {ansno : Option UInt32}
    {payload : Octets} (h : s.Carried)
    (hcarries : Act.Carries s (.call (.send number kind msgno ansno payload))) :
    (Computation.final (SessionCore.send number kind msgno ansno payload) s).Carried := by
  cases hchannel : s.channels number with
  | none =>
      rwa [Computation.final_of_error (send_closed kind msgno ansno payload hchannel)]
  | some channel =>
      obtain ⟨hframeable, -⟩ := hcarries (by rw [hchannel]; rfl)
      refine h.sends (path_send number kind msgno ansno payload s) ?_
      rintro message rfl
      exact hframeable

theorem Carried.sendMsg {payload : Octets} (h : s.Carried)
    (hcarries : Act.Carries s (.call (.sendMsg number payload))) :
    (Computation.final (SessionCore.sendMsg number payload) s).Carried := by
  cases hchannel : s.channels number with
  | none => rwa [Computation.final_of_error (sendMsg_closed payload hchannel)]
  | some channel =>
      obtain ⟨hle, -⟩ := hcarries (by rw [hchannel]; rfl)
      refine h.sends (path_sendMsg payload s) ?_
      rintro ⟨kind, msgno, ansno, octets⟩ ⟨hkind, hansno, -, hmsgno⟩
      cases hkind
      cases hansno
      exact ⟨rfl, hle, hmsgno h.numbered, nofun⟩

theorem Carried.call {call : Call} (h : s.Carried)
    (hcarries : Act.Carries s (.call call)) :
    (Computation.final call.run s).Carried := by
  have hother : (∀ channel kind msgno ansno payload,
      call ≠ .send channel kind msgno ansno payload) →
      (∀ channel payload, call ≠ .sendMsg channel payload) →
      (Computation.final call.run s).Carried := by
    intro hsend hsendMsg
    refine h.path (path_call call s) fun effect number message hallowed hne hpushed => ?_
    exact absurd (pushes_zero hsend hsendMsg hallowed hpushed) hne
  cases call with
  | send => exact h.send hcarries
  | sendMsg channel payload =>
      change (Computation.final
        (SessionCore.sendMsg channel payload >>= fun _ => pure ()) s).Carried
      rw [Computation.final_drop]
      exact h.sendMsg hcarries
  | _ => exact hother nofun nofun

theorem Carried.frame (h : s.Carried) (frame : Frame) :
    (Computation.final (handleFrame frame) s).Carried := by
  refine h.path (does_handleFrame frame s) ?_
  rintro effect number message hallowed - (rfl | rfl) <;> cases hallowed

theorem fresh_carried (config : Config) : (fresh config).Carried where
  placed := fresh_placed config
  numbered := by
    have hzero : (0 : UInt32) ≤ maxMsgNo := by decide
    exact ⟨hzero, nofun⟩
  clean := fun _ _ => ⟨nofun, nofun⟩

/-- A message that frames can carry is sent, unless the channel is not open. -/
theorem Carried.send_ok {kind : FrameKind} {msgno : UInt32} {ansno : Option UInt32}
    {payload : Octets} (h : s.Carried)
    (hcarries : Act.Carries s (.call (.send number kind msgno ansno payload))) :
    (∃ t, SessionCore.send number kind msgno ansno payload s = .ok () t) ∨
      s.channels number = none ∧ SessionCore.send number kind msgno ansno payload s =
        .error (.error (.noSuchChannel number)) s := by
  cases hchannel : s.channels number with
  | none => exact .inr ⟨rfl, send_closed kind msgno ansno payload hchannel⟩
  | some channel =>
      obtain ⟨hframeable, hzero⟩ := hcarries (by rw [hchannel]; rfl)
      have hclean : (s.lane number).Clean number := by
        by_cases hnumber : number = greetingChannel
        · exact hzero hnumber
        · exact h.clean number hnumber
      rcases s.send_run kind msgno ansno payload hchannel h.placed with
        ⟨t, hok, -⟩ | ⟨fault, t, -, hunclean⟩
      · exact .inl ⟨t, hok⟩
      · exact absurd ⟨hclean, hframeable⟩ hunclean

theorem Carried.sendMsg_fails {payload : Octets} (h : s.Carried)
    (hcarries : Act.Carries s (.call (.sendMsg number payload)))
    (hfails : Computation.Fails (SessionCore.sendMsg number payload) s) :
    Computation.Fails (SessionCore.sendMsg number payload) s.emptied := by
  cases hchannel : s.channels number with
  | none => exact ⟨_, _, sendMsg_closed payload hchannel⟩
  | some channel =>
      obtain ⟨hle, hzero⟩ := hcarries (by rw [hchannel]; rfl)
      obtain ⟨t, hidle, ⟨fault, hrun⟩ | ⟨msgno, hrun, hopen, hmsgno⟩⟩ :=
        allocate_cases hchannel
      · have hignores := (ignores_onOpen number Channel.allocateMsgno).error hrun
        exact ⟨fault, _, Computation.bind_of_error hignores _⟩
      · have hcarried : t.Carried := h.move hidle nofun
        have hframeable : Act.Carries t (.call (.send number .msg msgno none payload)) :=
          fun _ => ⟨⟨rfl, hle, hmsgno h.numbered, nofun⟩, fun hnumber =>
            hidle.clean (hzero hnumber) nofun⟩
        exfalso
        obtain ⟨fault, u, herror⟩ := hfails
        rcases hcarried.send_ok hframeable with ⟨v, hok⟩ | ⟨hclosed, -⟩
        · have hdone : SessionCore.sendMsg number payload s = .ok msgno v :=
            (Computation.bind_of_ok hrun _).trans (Computation.bind_of_ok hok _)
          rw [hdone] at herror
          cases herror
        · rw [hclosed] at hopen
          cases hopen

/-- A frame fails for what it is itself, or at a management message of channel 0 that
no frame can carry. -/
theorem Carried.frame_fails {frame : Frame} (h : s.Carried)
    (hfails : Computation.Fails (handleFrame frame) s) :
    Computation.Fails (handleFrame frame) s.emptied ∨
      (∃ seq, frame = .seq seq ∧ seq.channel = greetingChannel) ∧
        Stuck greetingChannel
          ((Computation.final (handleFrame frame) s).lane greetingChannel).queue := by
  cases frame with
  | data data => exact .inl ((ignores_handleData data).fails hfails)
  | seq seq =>
      cases hchannel : s.channelAt seq.channel with
      | none =>
          have hsame : s.emptied.channelAt seq.channel = none := hchannel
          exact .inl ⟨_, _, react_refused hsame⟩
      | some channel =>
          obtain ⟨t, result, hrun, hmove, hstuck⟩ := react_run hchannel
          have hflow : (s.lane seq.channel).flow = some channel.flow := by
            simp [lane, hchannel]
          have hnumber : channel.number = seq.channel := h.placed seq.channel _ hflow
          rw [hnumber] at hstuck
          have hstuck' : Stuck seq.channel (t.lane seq.channel).queue := by
            refine hstuck.resolve_left ?_
            rintro rfl
            obtain ⟨fault, u, herror⟩ := hfails
            have hok : handleFrame (.seq seq) s = .ok () t :=
              Computation.ok_of_outcome hrun
            rw [hok] at herror
            cases herror
          have hfinal : Computation.final (handleFrame (.seq seq)) s = t :=
            final_of_outcome hrun
          have hzero : seq.channel = greetingChannel := by
            by_contra hne
            have hcarried := h.frame (.seq seq)
            rw [hfinal] at hcarried
            exact (hcarried.clean seq.channel hne).not_stuck hstuck'
          refine .inr ⟨⟨seq, rfl, hzero⟩, ?_⟩
          rwa [hfinal, ← hzero]

end SessionCore

/-- Sending all or nothing: a call to `send` has done its work or changed nothing, and
neither calls nor frames fail for a message that was sent. -/
structure Session.Reliable (session : Session) : Prop where
  send : ∀ channel kind msgno ansno payload,
    Act.Carries session.core (.call (.send channel kind msgno ansno payload)) →
    (∃ t, SessionCore.send channel kind msgno ansno payload session.core = .ok () t) ∨
      session.core.channels channel = none ∧
        SessionCore.send channel kind msgno ansno payload session.core =
          .error (.error (.noSuchChannel channel)) session.core
  sendMsg : ∀ channel payload,
    Act.Carries session.core (.call (.sendMsg channel payload)) →
    Computation.Fails (SessionCore.sendMsg channel payload) session.core →
    Computation.Fails (SessionCore.sendMsg channel payload) session.core.emptied
  input : ∀ octets core frame, (session.received octets).Meets core frame →
    Computation.Fails (SessionCore.handleFrame frame) core →
    Computation.Fails (SessionCore.handleFrame frame) core.emptied ∨
      (∃ seq, frame = .seq seq ∧ seq.channel = greetingChannel) ∧
        Stuck greetingChannel
          ((Computation.final (SessionCore.handleFrame frame) core).lane
            greetingChannel).queue

open SessionCore (Effect Move)

theorem Trace.Fresh.carried {config : Config} {first : Trace} (h : Fresh config first) :
    first.core.Carried := by
  refine (SessionCore.fresh_carried config).path h.path ?_
  rintro effect number message hallowed hne (rfl | rfl)
  · exact absurd hallowed hne
  · cases hallowed

theorem Session.Meets.carried {session : Session} {core : SessionCore} {frame : Frame}
    (h : session.Meets core frame) (hcarried : session.core.Carried) : core.Carried := by
  induction h with
  | first => exact hcarried
  | @later session _ _ frame _ _ _ _ hrun _ ih =>
      have hframe := hcarried.frame frame
      rw [Computation.final_of_ok hrun] at hframe
      exact ih hframe

/-- Along a run that sends only what frames can carry, sending is atomic and spoils no
channel. -/
theorem Trace.Run.send_reliable {config : Config} {first last : Trace}
    (hfresh : Fresh config first)
    (hrun : Run (fun trace act => act.Carries trace.core) first last) :
    last.session.Reliable := by
  have hcarried : last.core.Carried := by
    refine hrun.keeps (fun hcarries h => h.call hcarries)
      (fun {_ _ _ frame} _ _ h => h.frame frame) ?_ ?_ hfresh.carried
    · exact fun h => ⟨h.placed, h.numbered, h.clean⟩
    · exact fun h => ⟨h.placed, h.numbered, h.clean⟩
  refine ⟨?_, ?_, ?_⟩
  · intro channel kind msgno ansno payload hcarries
    exact hcarried.send_ok hcarries
  · intro channel payload hcarries hfails
    exact hcarried.sendMsg_fails hcarries hfails
  · intro octets core frame hmeets hfails
    exact (hmeets.carried hcarried).frame_fails hfails

/-- Two messages are sent one after the other. -/
theorem send_reliable_twice :
    ∃ first last t, Trace.Fresh (Config.new .listener) first ∧
      last = first.replay [.call (.acceptStart 1 0 (.new "urn:x")),
        .call (.send 1 .msg 0 none [97])] ∧
      SessionCore.send 1 .rpy 5 none [98] last.core = .ok () t := by
  have hrun : (Session.new (Config.new .listener)).toOption.any fun session =>
      ((Trace.replay ⟨session, []⟩ [.call (.acceptStart 1 0 (.new "urn:x")),
        .call (.send 1 .msg 0 none [97])]).core.channels 1).isSome := by
    decide +kernel
  obtain ⟨session, hnew⟩ := Session.new_ok (Config.new .listener)
  rw [hnew] at hrun
  obtain ⟨last, hlast⟩ : ∃ last : Trace, last = Trace.replay ⟨session, []⟩
    [.call (.acceptStart 1 0 (.new "urn:x")), .call (.send 1 .msg 0 none [97])] :=
    ⟨_, rfl⟩
  have hopen : (last.core.channels 1).isSome := by
    rw [hlast]
    exact hrun
  have hcarries : ∀ (kind : FrameKind) (msgno : UInt32) (payload : Octets)
      (s : SessionCore), kind.hasAnsno = false → msgno ≤ maxMsgNo →
      Act.Carries s (.call (.send 1 kind msgno none payload)) := by
    intro kind msgno payload s hkind hle _
    have hnone : s.answerNumber 1 kind msgno none = none := by
      cases kind <;> first | rfl | cases hkind
    rw [hnone]
    exact ⟨⟨hkind, by decide, hle, nofun⟩, fun h => absurd h (by decide)⟩
  have hreplay : Trace.Run (fun trace act => act.Carries trace.core) ⟨session, []⟩
      last := by
    rw [hlast]
    refine Trace.Run.replay_of _ fun act hmem trace => ?_
    simp only [List.mem_cons, List.not_mem_nil, or_false] at hmem
    rcases hmem with rfl | rfl
    · trivial
    · exact hcarries .msg 0 [97] trace.core rfl (by decide)
  have hreliable := Trace.Run.send_reliable (.new hnew) hreplay
  rcases hreliable.send 1 .rpy 5 none [98]
      (hcarries .rpy 5 [98] last.core rfl (by decide)) with ⟨t, hok⟩ | ⟨hclosed, -⟩
  · exact ⟨⟨session, []⟩, last, t, .new hnew, hlast, hok⟩
  · have hsame : last.core.channels 1 = none := hclosed
    rw [hsame] at hopen
    cases hopen

/-- A reply with an answer number is refused and stays in the queue, where it stops the
messages behind it. -/
theorem send_leaves_message :
    ∃ first last t, Trace.Fresh (Config.new .listener) first ∧
      last = first.replay [.call (.acceptStart 1 0 (.new "urn:x"))] ∧
      (last.core.channels 1).isSome ∧
      (∃ fault, SessionCore.send 1 .rpy 0 (some 0) [] last.core = .error fault t) ∧
      t.queues 1 ≠ last.core.queues 1 ∧
      Computation.Fails (SessionCore.send 1 .msg 0 none []) t := by
  have hrun : (Session.new (Config.new .listener)).toOption.any fun session =>
      let last := Trace.replay ⟨session, []⟩ [.call (.acceptStart 1 0 (.new "urn:x"))]
      let t := Computation.final (SessionCore.send 1 .rpy 0 (some 0) []) last.core
      (last.core.channels 1).isSome &&
        (!(Computation.outcome (SessionCore.send 1 .rpy 0 (some 0) []) last.core).2.isOk &&
          (decide (t.queues 1 ≠ last.core.queues 1) &&
            !(Computation.outcome (SessionCore.send 1 .msg 0 none []) t).2.isOk)) := by
    decide +kernel
  obtain ⟨session, hnew⟩ := Session.new_ok (Config.new .listener)
  rw [hnew] at hrun
  simp only [Except.toOption, Option.any_some, Bool.and_eq_true, Bool.not_eq_true',
    decide_eq_true_eq] at hrun
  obtain ⟨hopen, hsend, hqueue, hlater⟩ := hrun
  obtain ⟨later, hfails⟩ := Computation.error_of_not_ok hlater
  exact ⟨⟨session, []⟩, _, _, .new hnew, rfl, hopen, Computation.error_of_not_ok hsend, hqueue,
    later, _, hfails⟩

end Vortice.Proto
