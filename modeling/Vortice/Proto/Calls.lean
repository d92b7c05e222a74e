import Vortice.Proto.Receive

/-!
# Calls and runs

`Call` lists the methods the application drives a session with.  A `Trace` is a
session with the octets it has handed to the transport, and an `Act` is one
thing that can happen to it: a call, input from the peer, or a poll.
-/

namespace Vortice.Proto

open Vortice.Foundation

/-- A call of the application. -/
inductive Call where
  | startChannel (profile : Management.Profile)
  | acceptStart (channel msgno : UInt32) (profile : Management.Profile)
  | refuseStart (msgno : UInt32) (error : Management.ErrorReply)
  | closeChannel (channel : UInt32)
  | acceptClose (channel msgno : UInt32)
  | refuseClose (msgno : UInt32) (error : Management.ErrorReply)
  | send (channel : UInt32) (kind : FrameKind) (msgno : UInt32)
      (ansno : Option UInt32) (payload : Octets)
  | sendMsg (channel : UInt32) (payload : Octets)
  | setWindowSize (channel size : UInt32)
  | setAuthenticated (identity : String)
  | setServerName (name : String)

namespace Call

open SessionCore (Effect)

def run : Call → SessionM Unit
  | .startChannel profile => do let _ ← SessionCore.startChannel profile
  | .acceptStart channel msgno profile => SessionCore.acceptStart channel msgno profile
  | .refuseStart msgno error => SessionCore.refuseStart msgno error
  | .closeChannel channel => SessionCore.closeChannel channel
  | .acceptClose channel msgno => SessionCore.acceptClose channel msgno
  | .refuseClose msgno error => SessionCore.refuseClose msgno error
  | .send channel kind msgno ansno payload =>
      SessionCore.send channel kind msgno ansno payload
  | .sendMsg channel payload => do let _ ← SessionCore.sendMsg channel payload
  | .setWindowSize channel size => SessionCore.setWindowSize channel size
  | .setAuthenticated identity => SessionCore.setAuthenticated identity
  | .setServerName name => SessionCore.setServerName name

end Call

namespace SessionCore

namespace Effect

/-- What a management request may do. -/
def requests (wanted : Pending) : Effect → Prop
  | .idle => True
  | .ask _ pending => pending = wanted
  | .lane other (.push _) => other = greetingChannel
  | _ => False

theorem requests_of_writesZero {wanted : Pending} {messages : Queued → Prop} :
    ∀ effect : Effect, effect.writesZero messages → effect.requests wanted := by
  intro effect h
  cases effect with
  | idle => trivial
  | lane other effect =>
      cases effect with
      | push => exact h.1
      | _ => exact h
  | _ => cases h

/-- What a call may do, in the state it is made in. -/
def ofCall (s : SessionCore) : Call → Effect → Prop
  | .startChannel _ => fun effect =>
      effect = .number ∨ effect.requests (.start s.nextChannel)
  | .acceptStart channel _ _ => fun effect =>
      effect = .accept channel ∨ effect.writesZero fun _ => True
  | .refuseStart _ _ | .refuseClose _ _ => writesZero fun _ => True
  | .closeChannel channel => requests (.close channel)
  | .acceptClose channel _ => fun effect =>
      effect.closes channel ∨ effect.writesZero fun _ => True
  | .send channel _ _ _ _ | .sendMsg channel _ => sends channel fun _ => True
  | .setWindowSize channel size => fun effect =>
      effect = .idle ∨ effect = .lane channel (.resize size)
  | .setAuthenticated _ | .setServerName _ => (· = .idle)

end Effect

theorem does_requireReady {allowed : Effect → Prop} :
    Does allowed requireReady := by
  unfold requireReady
  exact Makes.get_bind fun s => Makes.ite (fun _ => Makes.pure ())
    (fun _ => Makes.throw _) s

theorem does_request (management : Management.Message) (wanted : Pending) :
    Does (Effect.requests wanted) (request management wanted) := by
  unfold request
  refine (does_onZero (keepsFlow_allocateMsgnoLoop _) trivial).bind fun msgno =>
    Makes.bind ?_ fun _ => ?_
  · have hask : ∀ s : SessionCore, Move s (.ask msgno wanted) { s with
        pending := Function.update s.pending msgno (some wanted) } :=
      fun s => .ask rfl (.of_same rfl rfl rfl id) rfl rfl ⟨rfl, rfl, rfl⟩
    exact fun s => (hask s).path rfl
  · exact (does_writeZero .msg msgno management).mono Effect.requests_of_writesZero

theorem path_startChannel (profile : Management.Profile) (s : SessionCore) :
    Walk Move (Effect.ofCall s (.startChannel profile)) s
      (Computation.final (startChannel profile) s) := by
  unfold startChannel
  refine Makes.path_bind (does_requireReady s) fun _ t hready => ?_
  have hsame : t = s := by
    unfold requireReady at hready
    change (if s.state = .ready then pure () else _ : SessionM Unit) s = _ at hready
    split at hready <;> cases hready
    rfl
  subst hsame
  have hnumber : Move t .number { t with
      nextChannel := t.nextChannel + 2
      halfOpen := Function.update t.halfOpen t.nextChannel (some profile) } :=
    .number rfl (.of_same rfl rfl rfl id) rfl rfl ⟨rfl, rfl, rfl⟩
  refine Makes.path_get_bind (Makes.path_modify_bind (hnumber.path (.inl rfl)) ?_)
  have hrequest := (does_request (.start (Management.Start.new t.nextChannel profile))
    (.start t.nextChannel)).bind fun _ => Makes.pure t.nextChannel
  exact (hrequest _).mono fun effect h => .inr h

theorem does_closeChannel (channel : UInt32) :
    Does (Effect.requests (.close channel)) (closeChannel channel) := by
  unfold closeChannel
  refine does_requireReady.bind fun _ => ?_
  exact Makes.get_bind fun t => Makes.ite (fun _ => Makes.throw _)
    (fun _ => does_request _ _) t

theorem path_acceptStart (channel msgno : UInt32) (profile : Management.Profile)
    (s : SessionCore) :
    Walk Move (Effect.ofCall s (.acceptStart channel msgno profile)) s
      (Computation.final (acceptStart channel msgno profile) s) := by
  unfold acceptStart
  change Walk _ _ s (Computation.final
    (if channel = greetingChannel ∨ s.config.role.owns channel then _
      else if (s.channels channel).isSome then _ else _ : SessionM Unit) s)
  split
  · exact Walk.refl
  rename_i hnumber
  split
  · exact Walk.refl
  rename_i hopen
  obtain ⟨hzero, howns⟩ := not_or.mp hnumber
  have hclosed : (s.lane channel).flow = none := by
    simpa [lane, channelAt, hzero] using hopen
  have hmove : Move s (.accept channel) (record { s with
      channels := Function.update s.channels channel
        (some (Channel.withWindowSize channel profile.uri s.config.windowSize)) }
      (.opened channel)) := by
    refine .accept (by simpa using howns) hclosed (.opened hzero)
      (lane_opened profile.uri hzero) ⟨rfl, rfl, by simp [record, written], ?_⟩
      ⟨rfl, rfl⟩ ⟨rfl, rfl, rfl⟩
    have hfresh : (0 : UInt32) ≤ maxMsgNo := by decide
    exact fun h => h.update channel hfresh
  refine (hmove.path (.inl rfl)).trans ?_
  refine (does_reply .rpy msgno (.profile profile) _).mono fun effect h => .inr ?_
  exact Effect.writesZero_of effect h

theorem path_setWindowSize (channel size : UInt32) (s : SessionCore) :
    Walk Move (Effect.ofCall s (.setWindowSize channel size)) s
      (Computation.final (setWindowSize channel size) s) := by
  cases hchannel : s.channels channel with
  | none =>
      rw [setWindowSize, final_onOpen_none _ _ hchannel]
      exact Walk.refl
  | some found =>
      rw [setWindowSize, final_onOpen _ _ hchannel]
      have hlogs : Logs s [] { s with
          channels := Function.update s.channels channel
            (some (found.setRecvWindowSize size)) } :=
        .of_same rfl rfl rfl fun h => h.update channel (h.2 channel found hchannel)
      by_cases hzero : channel = greetingChannel
      · have hidle : Move s .idle { s with
            channels := Function.update s.channels channel
              (some (found.setRecvWindowSize size)) } := by
          refine .idle ?_ hlogs ⟨rfl, rfl⟩ ⟨rfl, rfl, rfl⟩
          subst hzero
          funext other
          by_cases hother : other = greetingChannel <;>
            simp [lane, channelAt, hother]
        exact hidle.path (.inl rfl)
      · have hflow : (s.lane channel).flow = some found.flow := by
          simp [lane, channelAt, hzero, hchannel]
        have hmove : Move s (.lane channel (.resize size)) { s with
            channels := Function.update s.channels channel
              (some (found.setRecvWindowSize size)) } := by
          refine .lane (by rintro _ ⟨⟩) (.resize hzero hflow) ?_ hlogs ⟨rfl, rfl⟩
            ⟨rfl, rfl, rfl⟩
          have hset := s.lane_setChannel channel (found.setRecvWindowSize size)
          rw [setChannel, if_neg hzero] at hset
          exact hset
        exact hmove.path (.inr rfl)

theorem does_acceptClose (channel msgno : UInt32) :
    Does (fun effect => effect.closes channel ∨ effect.writesZero fun _ => True)
      (acceptClose channel msgno) := by
  unfold acceptClose
  refine Makes.bind ?_ fun _ => ?_
  · exact (does_reply .rpy msgno .ok).mono fun effect h =>
      .inr (Effect.writesZero_of effect h)
  · exact (does_finishClose channel).mono fun effect h => .inl h

theorem path_call (call : Call) (s : SessionCore) :
    Walk Move (Effect.ofCall s call) s (Computation.final call.run s) := by
  have hstay : ∀ {f : SessionCore → SessionCore},
      Move s .idle (f s) → Walk Move (· = Effect.idle) s (f s) :=
    fun hmove => hmove.path rfl
  cases call with
  | startChannel profile =>
      exact Makes.path_bind (path_startChannel profile s) fun _ _ _ => Walk.refl
  | acceptStart channel msgno profile => exact path_acceptStart channel msgno profile s
  | refuseStart msgno error =>
      exact (does_reply .err msgno (.error error) s).mono Effect.writesZero_of
  | closeChannel channel => exact does_closeChannel channel s
  | acceptClose channel msgno => exact does_acceptClose channel msgno s
  | refuseClose msgno error =>
      exact (does_reply .err msgno (.error error) s).mono Effect.writesZero_of
  | send channel kind msgno ansno payload =>
      exact (path_send channel kind msgno ansno payload s).mono Effect.sends_of
  | sendMsg channel payload =>
      refine Makes.path_bind ?_ fun _ _ _ => Walk.refl
      exact (path_sendMsg payload s).mono Effect.sends_of
  | setWindowSize channel size => exact path_setWindowSize channel size s
  | setAuthenticated identity =>
      exact hstay (.idle rfl (.of_same rfl rfl rfl id) ⟨rfl, rfl⟩ ⟨rfl, rfl, rfl⟩)
  | setServerName name =>
      exact hstay (.idle rfl (.of_same rfl rfl rfl id) ⟨rfl, rfl⟩ ⟨rfl, rfl, rfl⟩)

/-- What a fresh session does with its greeting. -/
def Effect.greets : Effect → Prop
  | .idle => True
  | .lane other (.push _) => other = greetingChannel
  | .lane other (.advertise _) => other = greetingChannel
  | _ => False

theorem path_advertiseWindow (s : SessionCore) :
    Walk Move Effect.greets s
      (Computation.final (advertiseWindow greetingChannel) s) := by
  unfold advertiseWindow
  refine Makes.path_get_bind ?_
  split
  · exact Walk.refl
  cases hseq : s.zero.recvWindow.toSeqFrame greetingChannel with
  | error error =>
      have hchannel : s.channelAt greetingChannel = some s.zero := rfl
      simp only [hchannel, hseq]
      exact Walk.refl
  | ok seq =>
      have hchannel : s.channelAt greetingChannel = some s.zero := rfl
      simp only [hchannel, hseq]
      have hwrite : Move s (.lane greetingChannel (.advertise seq))
          (Computation.final (write (.seq seq)) s) := by
        refine .lane (by rintro _ ⟨⟩) (.advertise s.flow_zero hseq) ?_
          ⟨rfl, rfl, ?_, id⟩ ⟨rfl, rfl⟩ ⟨rfl, rfl, rfl⟩
        · exact (Function.update_eq_self greetingChannel s.lane).symm
        · change s.outbound ++ (Frame.seq seq).encode = _
          simp [written]
      exact hwrite.path rfl

theorem advertiseWindow_run (s : SessionCore) :
    ∃ s', advertiseWindow greetingChannel s = .ok () s' := by
  have hchannel : s.channelAt greetingChannel = some s.zero := rfl
  unfold advertiseWindow
  by_cases hsize : s.config.windowSize ≤ initialWindowSize
  · refine ⟨s, (Computation.bind_of_ok rfl _).trans ?_⟩
    rw [if_pos hsize]
    rfl
  · cases hseq : s.zero.recvWindow.toSeqFrame greetingChannel with
    | error error =>
        refine ⟨s, (Computation.bind_of_ok rfl _).trans ?_⟩
        simp only [if_neg hsize, hchannel, hseq]
        rfl
    | ok seq =>
        refine ⟨Computation.final (write (.seq seq)) s,
          (Computation.bind_of_ok rfl _).trans ?_⟩
        simp only [if_neg hsize, hchannel, hseq]
        rfl

def greetingMessage (config : Config) : Queued :=
  ⟨.rpy, 0, none, config.greeting.toPayload⟩

/-- A fresh session writes what the window allows of its greeting, and never fails. -/
theorem greet_run (config : Config) :
    ∃ t s' frames queue' count,
      Pushed (fresh config) greetingChannel (greetingMessage config)
        (fresh config).zero.flow frames queue' count t ∧
      (∀ front ∈ queue'.head?, ((fresh config).zero.flow.advance count).Waits front) ∧
      advertiseWindow greetingChannel t = .ok () s' ∧
      greet (fresh config) = .ok () s' := by
  obtain ⟨t, result, frames, queue', count, hrun, hpushed, hok⟩ :=
    push_run (greetingMessage config) (fresh config).flow_zero
  have hframeable : Frameable greetingChannel (greetingMessage config).tag :=
    ⟨rfl, by decide, by simp [greetingMessage, Queued.tag], by
      simp [greetingMessage, Queued.tag]⟩
  have hwaits := hpushed.writes.waits (by
    rintro queued hmem
    cases List.mem_singleton.mp hmem
    exact hframeable)
  obtain ⟨s', hadvertise⟩ := advertiseWindow_run t
  refine ⟨t, s', frames, queue', count, hpushed, hwaits, hadvertise, ?_⟩
  have hresult := hok.mpr hwaits
  have hgreet : greet (fresh config) =
      (flush greetingChannel >>= fun _ => advertiseWindow greetingChannel)
        (submitted (fresh config) greetingChannel (greetingMessage config)) := rfl
  cases hflush : flush greetingChannel
      (submitted (fresh config) greetingChannel (greetingMessage config)) with
  | error fault u =>
      rw [Computation.outcome, hflush] at hrun
      cases hrun
      cases hresult
  | ok _ u =>
      rw [Computation.outcome, hflush] at hrun
      cases hrun
      rw [hgreet, Computation.bind_of_ok hflush, hadvertise]

theorem path_greet (config : Config) :
    Walk Move Effect.greets (fresh config)
      (Computation.final greet (fresh config)) := by
  obtain ⟨t, s', _, _, _, hpushed, -, hadvertise, hgreet⟩ := greet_run config
  have hpush : Walk Move Effect.greets (fresh config) t :=
    (hpushed.move (fresh config).flow_zero).path rfl
  have hpath := path_advertiseWindow t
  rw [Computation.final_of_ok hadvertise] at hpath
  rw [Computation.final_of_ok hgreet]
  exact hpush.trans hpath

end SessionCore

/-! ## Runs -/

/-- A session, and the octets it has handed to the transport. -/
structure Trace where
  session : Session
  transmitted : Octets

/-- One thing that can happen to a session. -/
inductive Act where
  | call (call : Call)
  | input (octets : Octets)
  | pollTransmit
  | pollEvent

namespace Trace

def core (trace : Trace) : SessionCore := trace.session.core

/-- A call, or whatever else happens, also when it fails. -/
def act (trace : Trace) : Act → Trace
  | .call call =>
      { trace with
        session := { trace.session with
          core := Computation.final call.run trace.session.core } }
  | .input octets => { trace with session := (trace.session.handleInput octets).1 }
  | .pollTransmit =>
      match SessionCore.pollTransmit trace.session.core with
      | .ok octets core =>
          { session := { trace.session with core }
            transmitted := trace.transmitted ++ octets.getD [] }
      | .error _ core => { trace with session := { trace.session with core } }
  | .pollEvent =>
      { trace with
        session := { trace.session with
          core := Computation.final SessionCore.pollEvent trace.session.core } }

/-- A run of a session whose acts meet a condition on the state they find. -/
inductive Run (meets : Trace → Act → Prop) : Trace → Trace → Prop where
  | refl (trace : Trace) : Run meets trace trace
  | act {first last : Trace} (act : Act) :
      Run meets first last → meets last act → Run meets first (last.act act)

/-- A trace after some acts, one after the other. -/
def replay (trace : Trace) (acts : List Act) : Trace := acts.foldl Trace.act trace

theorem Run.replay (first : Trace) (acts : List Act) :
    Run (fun _ _ => True) first (first.replay acts) := by
  induction acts using List.reverseRecOn with
  | nil => exact .refl first
  | append_singleton acts act ih =>
      rw [Trace.replay, List.foldl_append]
      exact .act act ih trivial

/-- The trace of a session that has just been created. -/
inductive Fresh (config : Config) : Trace → Prop where
  | new {session : Session} :
      Session.new config = .ok session → Fresh config ⟨session, []⟩

end Trace

/-- A frame met in the input of a session, and the state it is handled in. -/
inductive Session.Meets : Session → SessionCore → Frame → Prop where
  | first {session : Session} {decoder : Decoder} {inbound : Octets}
      {frame : Frame} :
      session.decoder.decode session.inbound = (decoder, inbound, .ok (some frame)) →
      Meets session session.core frame
  | later {session : Session} {decoder : Decoder} {inbound : Octets}
      {frame found : Frame} {core core' : SessionCore} :
      session.decoder.decode session.inbound = (decoder, inbound, .ok (some frame)) →
      SessionCore.handleFrame frame session.core = .ok () core →
      Meets ⟨core, decoder, inbound⟩ core' found →
      Meets session core' found

/-- The octets of one frame of a peer, if there is such a frame. -/
def peerFrame (kind : FrameKind) (channel msgno seqno : UInt32) (payload : Octets) :
    Octets :=
  match DataFrame.new kind channel msgno seqno payload with
  | .ok frame => frame.encode
  | .error _ => []

/-- The request of a peer to start a channel. -/
def startRequest (number msgno seqno : UInt32) : Octets :=
  peerFrame .msg greetingChannel msgno seqno
    (Management.Message.toPayload (.start (.new number (.new "urn:x"))))

/-- The request of a peer to close a channel. -/
def closeRequest (number msgno seqno : UInt32) : Octets :=
  peerFrame .msg greetingChannel msgno seqno
    (Management.Message.toPayload (.close (.new number)))

theorem Session.new_ok (config : Config) :
    ∃ session, Session.new config = .ok session := by
  obtain ⟨_, _, _, _, _, _, _, _, hgreet⟩ := SessionCore.greet_run config
  rw [Session.new, hgreet]
  exact ⟨_, rfl⟩

/-! ## What holds along a run -/

namespace SessionCore

/-- What the input of the peer may do. -/
def Effect.ofInput (effect : Effect) : Prop := ∃ frame, effect.handles frame

theorem path_handleFrame (frame : Frame) (s : SessionCore) :
    Walk Move Effect.ofInput s (Computation.final (handleFrame frame) s) :=
  (does_handleFrame frame s).mono fun _ h => ⟨frame, h⟩

end SessionCore

open SessionCore (Effect Move)

namespace Session

theorem path_handleFrames (fuel : Nat) (session : Session) :
    Walk Move Effect.ofInput session.core (session.handleFrames fuel).1.core := by
  induction fuel generalizing session with
  | zero => exact Walk.refl
  | succ fuel ih =>
      rw [handleFrames]
      rcases session.decoder.decode session.inbound with
        ⟨decoder, inbound, error | _ | frame⟩
      · exact Walk.refl
      · exact Walk.refl
      · have hframe := SessionCore.path_handleFrame frame session.core
        simp only
        cases hrun : SessionCore.handleFrame frame session.core with
        | error fault core =>
            rwa [Computation.final_of_error hrun] at hframe
        | ok _ core =>
            rw [Computation.final_of_ok hrun] at hframe
            exact hframe.trans (ih ⟨core, decoder, inbound⟩)

theorem path_handleInput (session : Session) (input : Octets) :
    Walk Move Effect.ofInput session.core (session.handleInput input).1.core :=
  path_handleFrames _ { session with inbound := session.inbound ++ input }

end Session

namespace Trace

/-- What an act may do. -/
def effects (trace : Trace) : Act → Effect → Prop
  | .call call => Effect.ofCall trace.core call
  | .input _ => Effect.ofInput
  | .pollTransmit | .pollEvent => fun _ => False

/-- A state that has been polled. -/
def Polled (s s' : SessionCore) : Prop :=
  ∃ outbound events, s' = { s with outbound, events }

theorem act_pollTransmit (trace : Trace) :
    trace.act .pollTransmit =
      { session := { trace.session with core := { trace.core with outbound := [] } }
        transmitted := trace.transmitted ++ trace.core.outbound } := by
  cases houtbound : trace.session.core.outbound with
  | nil =>
      have hrun : SessionCore.pollTransmit trace.session.core =
          .ok none trace.session.core := by
        change (if trace.session.core.outbound = [] then _ else _ :
          SessionM _) trace.session.core = _
        rw [if_pos houtbound]
        rfl
      simp [act, hrun, core, ← houtbound]
  | cons octet octets =>
      have hrun : SessionCore.pollTransmit trace.session.core =
          .ok (some trace.session.core.outbound)
            { trace.session.core with outbound := [] } := by
        change (if trace.session.core.outbound = [] then _ else _ :
          SessionM _) trace.session.core = _
        rw [if_neg (by rw [houtbound]; simp)]
        rfl
      simp [act, hrun, core]

theorem final_pollEvent (s : SessionCore) :
    Computation.final SessionCore.pollEvent s =
      { s with events := s.events.tail } := by
  cases hevents : s.events with
  | nil =>
      cases s
      cases hevents
      rfl
  | cons event events =>
      cases s
      cases hevents
      rfl

theorem act_path (trace : Trace) (act : Act) :
    Walk Move (trace.effects act) trace.core (trace.act act).core ∨
      Polled trace.core (trace.act act).core := by
  cases act with
  | call call => exact .inl (SessionCore.path_call call trace.core)
  | input octets => exact .inl (trace.session.path_handleInput octets)
  | pollTransmit =>
      refine .inr ⟨[], trace.core.events, ?_⟩
      rw [act_pollTransmit]
      rfl
  | pollEvent =>
      refine .inr ⟨trace.core.outbound, trace.core.events.tail, ?_⟩
      exact final_pollEvent trace.core

theorem Run.preserves {meets : Trace → Act → Prop} {I : SessionCore → Prop}
    (hpolled : ∀ {s s' : SessionCore}, Polled s s' → I s → I s')
    (hmove : ∀ {s s' : SessionCore} {effect : Effect}, Move s effect s' → I s → I s')
    {first last : Trace} (hrun : Run meets first last) (h : I first.core) :
    I last.core := by
  induction hrun with
  | refl => exact h
  | @act last act _ _ ih =>
      rcases last.act_path act with hpath | hpoll
      · exact hpath.preserves (fun _ => hmove) ih
      · exact hpolled hpoll ih

/-- The octets handed to the transport, and those that wait for it. -/
def octetsOut (trace : Trace) : Octets := trace.transmitted ++ trace.core.outbound

/-- The octets put out are those of the frames written. -/
def Faithful (trace : Trace) : Prop :=
  trace.octetsOut = encodeAll (written trace.core.history)

theorem Faithful.act {trace : Trace} (h : trace.Faithful) (act : Act) :
    (trace.act act).Faithful := by
  have hpath : ∀ {allowed : Effect → Prop} {session : Session},
      Walk Move allowed trace.core session.core →
      Faithful ⟨session, trace.transmitted⟩ := by
    intro allowed session hpath
    obtain ⟨actions, hlogs⟩ := SessionCore.logs_of_path hpath
    unfold Faithful octetsOut at h ⊢
    simp only [core] at h hlogs ⊢
    rw [hlogs.outbound, hlogs.history, written_append, encodeAll_append,
      ← List.append_assoc, h]
  cases act with
  | call call => exact hpath (SessionCore.path_call call trace.core)
  | input octets => exact hpath (trace.session.path_handleInput octets)
  | pollTransmit =>
      rw [act_pollTransmit]
      simpa [Faithful, octetsOut, core] using h
  | pollEvent =>
      have hevent := final_pollEvent trace.session.core
      simpa [Faithful, octetsOut, Trace.act, core, hevent] using h

theorem Run.faithful {meets : Trace → Act → Prop} {first last : Trace}
    (hrun : Run meets first last) (h : first.Faithful) : last.Faithful := by
  induction hrun with
  | refl => exact h
  | act act _ _ ih => exact ih.act act

/-- A fresh session comes from its first fields by the moves of its greeting. -/
theorem Fresh.path {config : Config} {trace : Trace} (h : Fresh config trace) :
    Walk Move Effect.greets (SessionCore.fresh config) trace.core := by
  obtain ⟨hnew⟩ := h
  have hgreet := SessionCore.path_greet config
  unfold Session.new at hnew
  cases hrun : SessionCore.greet (SessionCore.fresh config) with
  | error fault core =>
      rw [hrun] at hnew
      cases hnew
  | ok _ core =>
      rw [hrun] at hnew
      cases hnew
      rwa [Computation.final_of_ok hrun] at hgreet

theorem Fresh.faithful {config : Config} {trace : Trace} (h : Fresh config trace) :
    trace.Faithful := by
  obtain ⟨actions, hlogs⟩ := SessionCore.logs_of_path h.path
  obtain ⟨hnew⟩ := h
  have hhistory := hlogs.history
  have houtbound := hlogs.outbound
  simp only [SessionCore.fresh, List.nil_append] at hhistory houtbound
  rw [Faithful, octetsOut, hhistory, houtbound, List.nil_append]

end Trace

end Vortice.Proto
