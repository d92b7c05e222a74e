import Vortice.Proto.Journal

/-!
# The virtual host of a session

The `serverName` of a start decides which host a session is for.  A `Hosting` is
what an application knows of the starts of a run: those received, those waiting
for its decision and those it has accepted.
-/

namespace Vortice.Proto

open Vortice.Foundation

/-- The host a reported start asks for. -/
def Event.serverName : Event → Option String
  | .startRequested _ _ start => start.serverName
  | _ => none

/-- The host named first. -/
def firstName (events : List Event) : Option String := events.findSome? Event.serverName

theorem firstName_append (first second : List Event) :
    firstName (first ++ second) = (firstName first).or (firstName second) :=
  List.findSome?_append

namespace SessionCore

/-- A session without a name takes the first one that it reports, if it reports any. -/
def Named (starts : Prop) (s s' : SessionCore) : Prop :=
  ∃ events, s'.events = s.events ++ events ∧
    s'.serverName = s.serverName.or (firstName events) ∧
    (firstName events = none ∨ starts)

variable {starts : Prop}

theorem Named.refl (s : SessionCore) : Named starts s s :=
  ⟨[], (List.append_nil _).symm, Option.or_none.symm, .inl rfl⟩

theorem Named.trans (s t u : SessionCore) (first : Named starts s t)
    (second : Named starts t u) : Named starts s u := by
  obtain ⟨before, hbefore, hfirst, hnone⟩ := first
  obtain ⟨after, hafter, hsecond, hnone'⟩ := second
  refine ⟨before ++ after, by rw [hafter, hbefore, List.append_assoc], ?_, ?_⟩
  · rw [hsecond, hfirst, Option.or_assoc, firstName_append]
  · rcases hnone with hnone | hstarts
    · rcases hnone' with hnone' | hstarts
      · exact .inl (by rw [firstName_append, hnone, hnone', Option.or_none])
      · exact .inr hstarts
    · exact .inr hstarts

/-- Whatever name a call gives the session is one it reports. -/
abbrev Names (starts : Prop) {α : Type} (method : SessionM α) : Prop :=
  Computation.Relates (Named starts) method

section Names

variable {α β : Type}

theorem names_pure (a : α) : Names starts (pure a : SessionM α) := Computation.relates_pure .refl a

theorem names_throw (fault : Fault) : Names starts (throw fault : SessionM α) :=
  Computation.relates_throw .refl fault

theorem Names.bind {m : SessionM α} {f : α → SessionM β} (hm : Names starts m)
    (hf : ∀ a, Names starts (f a)) : Names starts (m >>= f) :=
  Computation.relates_bind .trans hm hf

theorem Names.ite {c : Prop} [Decidable c] {m n : SessionM α} (hm : Names starts m)
    (hn : Names starts n) : Names starts (if c then m else n) :=
  Computation.relates_ite (fun _ => hm) (fun _ => hn)

theorem names_get_bind {f : SessionCore → SessionM α}
    (hf : ∀ s, Named starts s (Computation.final (f s) s)) : Names starts (get >>= f) :=
  fun s => hf s

/-- A change that is no business of the name. -/
theorem Named.of_same {s t : SessionCore} (hevents : t.events = s.events)
    (hname : t.serverName = s.serverName) : Named starts s t :=
  ⟨[], by rw [hevents, List.append_nil], by rw [hname]; exact Option.or_none.symm, .inl rfl⟩

theorem names_modify {f : SessionCore → SessionCore}
    (h : ∀ s, (f s).events = s.events ∧ (f s).serverName = s.serverName) :
    Names starts (modify f : SessionM Unit) :=
  fun s => .of_same (h s).1 (h s).2

theorem names_report {f : SessionCore → SessionCore} {event : Event}
    (hevent : event.serverName = none)
    (h : ∀ s, (f s).events = s.events ++ [event] ∧ (f s).serverName = s.serverName) :
    Names starts (modify f : SessionM Unit) := by
  have hnone : firstName [event] = none := by
    rw [firstName, List.findSome?_singleton, hevent]
  refine fun s => ⟨[event], (h s).1, (h s).2.trans ?_, .inl hnone⟩
  rw [hnone, Option.or_none]

/-! ### Methods -/

theorem names_onZero (method : Op Channel α) : Names starts (onZero method) := by
  intro s
  rw [final_onZero]
  exact .of_same rfl rfl

theorem names_onOpen (number : UInt32) (method : Op Channel α) :
    Names starts (onOpen number method) := by
  intro s
  cases hchannel : s.channels number with
  | none =>
      rw [final_onOpen_none number method hchannel]
      exact .refl s
  | some channel =>
      rw [final_onOpen number method hchannel]
      exact .of_same rfl rfl

theorem names_onChannel (number : UInt32) (method : Op Channel α) :
    Names starts (onChannel number method) :=
  .ite (names_onZero method) (names_onOpen number method)

theorem names_liftFault (found : Except Fault α) : Names starts (liftFault found) := by
  cases found with
  | ok value => exact names_pure value
  | error fault => exact names_throw fault

theorem names_accept (frame : DataFrame) : Names starts (accept frame) := by
  have hnote : Names starts (note (.accepted frame)) := names_modify fun _ => ⟨rfl, rfl⟩
  have haccept : Names starts (onChannel frame.channel (Channel.accept frame)) :=
    names_onChannel _ _
  exact names_get_bind fun s => Names.ite (hnote.bind fun _ => haccept)
    ((names_pure ()).bind fun _ => haccept) s

theorem names_write (frame : Frame) : Names starts (write frame) :=
  names_modify fun _ => ⟨rfl, rfl⟩

theorem named_setChannel (s : SessionCore) (number : UInt32) (channel : Channel) :
    Named starts s (s.setChannel number channel) := by
  unfold setChannel
  split <;> exact .of_same rfl rfl

theorem names_flush (number : UInt32) : Names starts (flush number) := by
  intro s
  cases hqueue : s.queues number with
  | none =>
      simp only [Computation.final, flush, hqueue]
      exact .refl s
  | some queue =>
      cases hchannel : s.channelAt number with
      | none =>
          simp only [Computation.final, flush, hqueue, hchannel]
          exact .refl s
      | some channel =>
          obtain ⟨events, hevents, hname⟩ : Named starts s _ := named_setChannel s number
            (flushLoop s.config.maxFrameSize queue channel).2.1
          simp only [Computation.final, flush, hqueue, hchannel]
          cases (flushLoop s.config.maxFrameSize queue channel).2.2.2 <;>
            exact ⟨events, hevents, hname⟩

/-- A call on a state that has changed in what is no business of the name. -/
theorem Names.after {m : SessionM α} {s t : SessionCore} (hm : Names starts m)
    (hevents : t.events = s.events) (hname : t.serverName = s.serverName) :
    Named starts s (Computation.final m t) :=
  .trans s t _ (.of_same hevents hname) (hm t)

theorem names_acknowledge (number octets : UInt32) : Names starts (acknowledge number octets) := by
  intro s
  cases hchannel : s.channelAt number with
  | none =>
      rw [Computation.final, acknowledge_of_none hchannel]
      exact .refl s
  | some channel =>
      by_cases hge : saturatingAdd ((s.unacked number).getD 0) octets ≥
          ackThreshold channel.recvWindow.size
      · rw [Computation.final, acknowledge_of_ge hchannel hge, ← Computation.final]
        have hgrant : ∀ pending, Names starts (onChannel number (Channel.consume pending) >>=
            fun seq => do
              modify fun s => s.counted number 0
              write (.seq seq) : SessionM Unit) := fun pending =>
          (names_onChannel number _).bind fun seq =>
            Names.bind (names_modify fun _ => ⟨rfl, rfl⟩) fun _ => names_write (.seq seq)
        exact (hgrant _).after rfl rfl
      · rw [Computation.final, acknowledge_of_lt hchannel hge]
        exact .of_same rfl rfl

theorem names_emitEvent {event : Event} (hevent : event.serverName = none) :
    Names starts (emitEvent event) :=
  names_report hevent fun _ => ⟨rfl, rfl⟩

theorem names_finishClose (channel : UInt32) : Names starts (finishClose channel) := by
  unfold finishClose
  exact .ite (names_report (show Event.serverName .sessionClosed = none from rfl)
      fun _ => ⟨rfl, rfl⟩)
    (names_report (show Event.serverName (.channelClosed channel) = none from rfl)
      fun _ => ⟨rfl, rfl⟩)

theorem names_handleSeq (seq : SeqFrame) : Names starts (handleSeq seq) :=
  (names_onChannel seq.channel _).bind fun _ => names_flush seq.channel

theorem names_release (msgno : UInt32) : Names starts (onZero (modify (·.releaseMsgno msgno))) :=
  names_onZero _

/-- A start is reported, and gives its name to a session that has none. -/
theorem names_start (msgno : UInt32) (start : Management.Start) :
    Names True (dispatchManagement .msg msgno (.start start)) := by
  intro s
  refine ⟨[.startRequested start.number msgno start], rfl, ?_, .inr trivial⟩
  rw [firstName, List.findSome?_singleton]
  rfl

theorem names_dispatch (kind : FrameKind) (msgno : UInt32)
    (management : Management.Message) : Names True (dispatchManagement kind msgno management) := by
  have hraise : ∀ error : Error, Names True (raise error : SessionM Unit) :=
    fun error => names_throw (.error error)
  have hforget : ∀ number, Names True (modify fun s =>
      { s with halfOpen := Function.update s.halfOpen number none } : SessionM Unit) :=
    fun number => names_modify fun _ => ⟨rfl, rfl⟩
  cases kind with
  | msg =>
      cases management with
      | start start => exact names_start msgno start
      | close close => exact names_emitEvent rfl
      | _ => exact hraise _
  | rpy =>
      cases management with
      | profile profile =>
          intro s
          rw [Computation.final_congr (dispatch_profile msgno profile s)]
          refine Names.after ?_ rfl rfl
          split
          · rename_i number hpending
            exact (names_release msgno).bind fun _ => (hforget number).bind fun _ =>
              Names.bind (names_modify fun _ => ⟨rfl, rfl⟩) fun _ => names_emitEvent rfl
          · exact hraise _
      | ok =>
          intro s
          rw [Computation.final_congr (dispatch_ok msgno s)]
          refine Names.after ?_ rfl rfl
          split
          · exact (names_release msgno).bind fun _ => names_finishClose _
          · exact hraise _
      | _ => exact hraise _
  | err =>
      cases management with
      | error error =>
          intro s
          rw [Computation.final_congr (dispatch_error msgno error s)]
          refine Names.after ?_ rfl rfl
          split
          · exact hraise _
          · rename_i number hpending
            exact (names_release msgno).bind fun _ => (hforget number).bind fun _ =>
              names_emitEvent rfl
          · exact (names_release msgno).bind fun _ => names_emitEvent rfl
      | _ => exact hraise _
  | ans => exact hraise _
  | nul => exact hraise _

theorem names_handleGreeting (frame : DataFrame) : Names starts (handleGreeting frame) :=
  (names_liftFault _).bind fun _ => (names_accept frame).bind fun _ =>
    (names_acknowledge _ _).bind fun _ =>
      Names.bind (names_modify fun _ => ⟨rfl, rfl⟩) fun _ => names_emitEvent rfl

theorem names_handleChannelZero (frame : DataFrame) : Names True (handleChannelZero frame) := by
  refine names_get_bind fun s => Names.ite (names_handleGreeting frame)
    ((names_accept frame).bind fun complete => (names_acknowledge _ _).bind fun _ => ?_) s
  cases complete with
  | none => exact names_pure ()
  | some message => exact (names_liftFault _).bind fun _ => names_dispatch _ _ _

theorem names_deliver (number : UInt32) (message : Message) :
    Names starts (deliver number message) := by
  unfold deliver
  exact .ite (Names.bind (names_modify fun _ => ⟨rfl, rfl⟩) fun _ => names_emitEvent rfl)
    (names_emitEvent rfl)

/-- A frame names a host only by the starts it makes the session report. -/
theorem names_handleFrame (frame : Frame) : Names True (handleFrame frame) := by
  cases frame with
  | seq seq => exact names_handleSeq seq
  | data frame =>
      refine Names.ite (names_handleChannelZero frame)
        ((names_accept frame).bind fun complete => (names_acknowledge _ _).bind fun _ => ?_)
      cases complete with
      | none => exact names_pure ()
      | some message => exact names_deliver _ message

/-! ### Calls -/

variable {number : UInt32}

theorem names_note (action : Action) : Names starts (note action) :=
  names_modify fun _ => ⟨rfl, rfl⟩

theorem names_enqueue (kind : FrameKind) (msgno : UInt32) (ansno : Option UInt32)
    (payload : Octets) : Names starts (enqueue number kind msgno ansno payload) :=
  names_modify fun _ => ⟨rfl, rfl⟩

theorem names_writeZero (kind : FrameKind) (msgno : UInt32) (management : Management.Message) :
    Names starts (writeZero kind msgno management) :=
  (names_note _).bind fun _ => (names_enqueue _ _ _ _).bind fun _ => names_flush _

theorem names_request (management : Management.Message) (pending : Pending) :
    Names starts (request management pending) :=
  (names_onZero _).bind fun _ =>
    Names.bind (names_modify fun _ => ⟨rfl, rfl⟩) fun _ => names_writeZero _ _ _

theorem names_reply (kind : FrameKind) (msgno : UInt32) (management : Management.Message) :
    Names starts (reply kind msgno management) :=
  (names_onZero _).bind fun _ => names_writeZero kind msgno management

theorem names_requireReady : Names starts requireReady :=
  names_get_bind fun s => Names.ite (names_pure ()) (names_throw _) s

theorem names_startChannel (profile : Management.Profile) :
    Names starts (startChannel profile) := by
  refine names_requireReady.bind fun _ => names_get_bind fun s => ?_
  have hreserve : Names starts (modify fun t : SessionCore =>
      { t with
        nextChannel := t.nextChannel + 2
        halfOpen := Function.update t.halfOpen s.nextChannel (some profile) } :
      SessionM Unit) := names_modify fun _ => ⟨rfl, rfl⟩
  exact hreserve.bind (fun _ => (names_request _ _).bind fun _ => names_pure _) s

theorem names_acceptStart (msgno : UInt32) (profile : Management.Profile) :
    Names starts (acceptStart number msgno profile) := by
  refine names_get_bind fun s => Names.ite (names_throw _) (Names.ite (names_throw _) ?_) s
  exact Names.bind (names_modify fun _ => ⟨rfl, rfl⟩) fun _ => names_reply _ _ _

theorem names_closeChannel : Names starts (closeChannel number) :=
  names_requireReady.bind fun _ => names_get_bind fun s =>
    Names.ite (names_throw _) (names_request _ _) s

theorem names_acceptClose (msgno : UInt32) : Names starts (acceptClose number msgno) :=
  (names_reply _ _ _).bind fun _ => names_finishClose number

theorem names_resolveAnsno (kind : FrameKind) (msgno : UInt32) (ansno : Option UInt32) :
    Names starts (resolveAnsno number kind msgno ansno) := by
  cases kind with
  | ans =>
      cases ansno with
      | none => exact (names_onOpen _ _).bind fun _ => names_pure _
      | some ansno => exact names_pure _
  | nul => exact (names_onOpen _ _).bind fun _ => names_pure _
  | _ => exact names_pure _

theorem names_enqueueAll (held : List Queued) : Names starts (enqueueAll number held) := by
  induction held with
  | nil => exact names_pure ()
  | cons queued held ih => exact (names_enqueue _ _ _ _).bind fun _ => ih

theorem names_popReplyOrder : Names starts (popReplyOrder number) :=
  names_modify fun _ => ⟨rfl, rfl⟩

theorem names_releaseHeld (fuel : Nat) : Names starts (releaseHeld number fuel) := by
  induction fuel with
  | zero => exact names_throw _
  | succ fuel ih =>
      intro s
      by_cases hwaits : ∀ next, (s.replyOrder number).bind List.head? = some next →
          (s.heldReplies number).bind (· next) = none
      · rw [Computation.final_of_ok (releaseHeld_waits fuel hwaits)]
        exact .refl s
      · obtain ⟨next, hnext⟩ := not_forall.mp hwaits
        obtain ⟨horder, hsome⟩ := Classical.not_imp.mp hnext
        obtain ⟨waiting, hwaiting⟩ := Option.ne_none_iff_exists'.mp hsome
        rw [Computation.final, releaseHeld_next fuel horder hwaiting, ← Computation.final]
        have htake : Names starts (takeHeld number next) := names_modify fun _ => ⟨rfl, rfl⟩
        refine (htake.bind fun _ => (names_enqueueAll waiting).bind fun _ =>
          names_flush number).bind (fun _ => ?_) s
        exact .ite (names_popReplyOrder.bind fun _ => ih) (names_pure ())

theorem names_hold (queued : Queued) : Names starts (hold number queued) :=
  names_modify fun _ => ⟨rfl, rfl⟩

theorem names_replyFinished (msgno : UInt32) : Names starts (replyFinished number msgno) := by
  have hrelease : Names starts (do
      releaseHeld number ((((← get).replyOrder number).getD []).length + 1) : SessionM Unit) :=
    names_get_bind fun s => names_releaseHeld _ s
  exact names_get_bind fun s => Names.ite (names_popReplyOrder.bind fun _ => hrelease)
    ((names_pure ()).bind fun _ => hrelease) s

theorem names_send (kind : FrameKind) (msgno : UInt32) (ansno : Option UInt32)
    (payload : Octets) : Names starts (send number kind msgno ansno payload) := by
  refine names_get_bind fun s => Names.ite (names_throw _) ?_ s
  refine (names_resolveAnsno kind msgno ansno).bind fun ansno => (names_note _).bind fun _ =>
    names_get_bind fun t => Names.ite (names_hold _) ?_ t
  exact (names_enqueue _ _ _ _).bind fun _ => (names_flush number).bind fun _ =>
    .ite (names_replyFinished msgno) (names_pure ())

/-- No call gives the session a name, except the one made for it. -/
theorem names_call {call : Call} (hcall : ∀ name, call ≠ .setServerName name) :
    Names starts call.run := by
  cases call with
  | startChannel profile => exact (names_startChannel profile).bind fun _ => names_pure ()
  | acceptStart channel msgno profile => exact names_acceptStart msgno profile
  | refuseStart msgno error => exact names_reply _ _ _
  | closeChannel channel => exact names_closeChannel
  | acceptClose channel msgno => exact names_acceptClose msgno
  | refuseClose msgno error => exact names_reply _ _ _
  | send channel kind msgno ansno payload => exact names_send kind msgno ansno payload
  | sendMsg channel payload =>
      exact ((names_onOpen channel Channel.allocateMsgno).bind fun msgno =>
        (names_send .msg msgno none payload).bind fun _ => names_pure msgno).bind
          fun _ => names_pure ()
  | setWindowSize channel size =>
      exact names_onOpen channel (modify (·.setRecvWindowSize size))
  | setAuthenticated identity => exact names_modify fun _ => ⟨rfl, rfl⟩
  | setServerName name => exact absurd rfl (hcall name)

theorem names_advertiseWindow : Names starts (advertiseWindow number) := by
  refine names_get_bind fun s => Names.ite (names_pure ()) ?_ s
  cases s.channelAt number with
  | none => exact names_pure ()
  | some channel =>
      cases hseq : channel.recvWindow.toSeqFrame number with
      | ok seq =>
          simp only [hseq]
          exact names_write _
      | error error =>
          simp only [hseq]
          exact names_pure ()

theorem names_greet : Names starts greet :=
  names_get_bind fun s => Names.bind (names_note _) (fun _ =>
    (names_enqueue _ _ _ _).bind fun _ => (names_flush _).bind fun _ =>
      names_advertiseWindow) s

theorem serverName_fresh {config : Config} {first : Trace} (h : Trace.Fresh config first) :
    first.core.serverName = none := by
  obtain ⟨events, -, hname, hnone⟩ : Named False (fresh config) _ := names_greet (fresh config)
  cases h with
  | new hnew =>
      rw [Session.new] at hnew
      cases hgreet : greet (fresh config) with
      | error fault core =>
          rw [hgreet] at hnew
          cases hnew
      | ok _ core =>
          rw [hgreet] at hnew
          cases hnew
          rw [Computation.final_of_ok hgreet, hnone.resolve_right id] at hname
          exact hname

theorem serverName_call {call : Call} (hcall : ∀ name, call ≠ .setServerName name)
    (s : SessionCore) : (Computation.final call.run s).serverName = s.serverName := by
  obtain ⟨events, -, hname, hnone⟩ : Named False s _ := names_call hcall s
  rw [hname, hnone.resolve_right id, Option.or_none]

end Names

end SessionCore

/-! ## Starts received, accepted and refused -/

/-- The starts among some events, with the message numbers they came with. -/
def startsOf (events : List Event) : List (UInt32 × Management.Start) :=
  events.filterMap fun
    | .startRequested _ msgno start => some (msgno, start)
    | _ => none

/-- What an application knows of the starts of a session. -/
structure Hosting where
  received : List Management.Start
  waiting : List (UInt32 × Management.Start)
  accepted : List Management.Start

namespace Hosting

def fresh : Hosting := ⟨[], [], []⟩

/-- The host of the first start that was accepted. -/
def host (hosting : Hosting) : Option String := hosting.accepted.head?.bind (·.serverName)

/-- The name of the first start received that carried one. -/
def firstNamed (hosting : Hosting) : Option String :=
  hosting.received.findSome? (·.serverName)

def receive (hosting : Hosting) (starts : List (UInt32 × Management.Start)) : Hosting :=
  { hosting with
    received := hosting.received ++ starts.map Prod.snd
    waiting := hosting.waiting ++ starts }

/-- The start of a channel that waits longest under a message number is accepted. -/
def accept (hosting : Hosting) (channel msgno : UInt32) : Hosting :=
  match hosting.waiting.find? fun waiting =>
      waiting.1 = msgno && waiting.2.number = channel with
  | none => hosting
  | some found =>
      { hosting with
        waiting := hosting.waiting.erase found
        accepted := hosting.accepted ++ [found.2] }

def refuse (hosting : Hosting) (msgno : UInt32) : Hosting :=
  { hosting with waiting := hosting.waiting.eraseP fun waiting => waiting.1 = msgno }

/-- What an application learns by an act: the starts that input brings, and the answers
it gives that do not fail. -/
def act (hosting : Hosting) (trace : Trace) : Act → Hosting
  | .input octets =>
      hosting.receive (startsOf ((trace.act (.input octets)).core.events.drop
        trace.core.events.length))
  | .call (.acceptStart channel msgno profile) =>
      match SessionCore.acceptStart channel msgno profile trace.core with
      | .ok _ _ => hosting.accept channel msgno
      | .error _ _ => hosting
  | .call (.refuseStart msgno error) =>
      match SessionCore.refuseStart msgno error trace.core with
      | .ok _ _ => hosting.refuse msgno
      | .error _ _ => hosting
  | _ => hosting

/-- A session after some acts, with what its application has learnt. -/
def replay (trace : Trace) (acts : List Act) : Trace × Hosting :=
  acts.foldl (fun state act => (state.1.act act, state.2.act state.1 act)) (trace, fresh)

theorem fst_replay (trace : Trace) (acts : List Act) :
    (replay trace acts).1 = trace.replay acts := by
  induction acts using List.reverseRecOn with
  | nil => rfl
  | append_singleton acts act ih =>
      rw [replay, List.foldl_append, Trace.replay, List.foldl_append]
      exact congrArg (fun trace : Trace => trace.act act) ih

end Hosting

theorem firstName_startsOf (events : List Event) :
    firstName events = ((startsOf events).map Prod.snd).findSome? (·.serverName) := by
  induction events with
  | nil => rfl
  | cons event events ih =>
      have hcons : firstName (event :: events) =
          (event.serverName).or (firstName events) := by
        rw [← List.singleton_append, firstName_append, firstName, List.findSome?_singleton]
      rw [hcons, ih]
      cases event with
      | startRequested channel msgno start =>
          have hstarts : startsOf (.startRequested channel msgno start :: events) =
              (msgno, start) :: startsOf events := rfl
          rw [hstarts, List.map_cons, List.findSome?_cons, Event.serverName]
          cases start.serverName <;> rfl
      | _ => rfl

namespace Hosting

variable {hosting : Hosting} {trace : Trace}

theorem firstNamed_receive (starts : List (UInt32 × Management.Start)) :
    (hosting.receive starts).firstNamed =
      hosting.firstNamed.or ((starts.map Prod.snd).findSome? (·.serverName)) :=
  List.findSome?_append

theorem received_accept (channel msgno : UInt32) :
    (hosting.accept channel msgno).received = hosting.received := by
  unfold accept
  split <;> rfl

/-- Input gives a session without a name the first one that it brings. -/
theorem input_serverName (octets : Octets) :
    (trace.act (.input octets)).core.serverName =
      trace.core.serverName.or (firstName
        ((trace.act (.input octets)).core.events.drop trace.core.events.length)) := by
  obtain ⟨events, hevents, hname, -⟩ := trace.session.handleInput_preserves octets
    (I := fun s => SessionCore.Named True trace.core s)
    (fun {_ frame} _ h => h.trans _ _ _ (SessionCore.names_handleFrame frame _)) (.refl _)
  change (trace.act (.input octets)).core.events = _ at hevents
  rw [hevents, List.drop_left]
  exact hname

/-- The name of a session is the first that a start it received carried. -/
theorem act_serverName (hname : trace.core.serverName = hosting.firstNamed) {act : Act}
    (hact : ∀ name, act ≠ .call (.setServerName name)) :
    (trace.act act).core.serverName = (hosting.act trace act).firstNamed := by
  cases act with
  | input octets =>
      rw [input_serverName, hname, Hosting.act, firstNamed_receive, firstName_startsOf]
  | call call =>
      have hsame : (trace.act (.call call)).core.serverName = trace.core.serverName :=
        SessionCore.serverName_call (fun name hset => hact name (by rw [hset])) trace.core
      rw [hsame, hname]
      cases call with
      | acceptStart channel msgno profile =>
          rw [Hosting.act]
          split
          · rw [firstNamed, firstNamed, received_accept]
          · rfl
      | refuseStart msgno error =>
          rw [Hosting.act]
          split <;> rfl
      | _ => rfl
  | pollTransmit =>
      rw [Trace.act_pollTransmit_core]
      exact hname
  | pollEvent =>
      rw [Trace.act_pollEvent_core]
      exact hname

theorem replay_serverName {config : Config} {first : Trace}
    (hfresh : Trace.Fresh config first) (acts : List Act)
    (hacts : ∀ act ∈ acts, ∀ name, act ≠ .call (.setServerName name)) :
    (replay first acts).1.core.serverName = (replay first acts).2.firstNamed := by
  induction acts using List.reverseRecOn with
  | nil => exact SessionCore.serverName_fresh hfresh
  | append_singleton acts act ih =>
      have hbefore := ih fun other hmem => hacts other (List.mem_append_left _ hmem)
      rw [replay, List.foldl_append]
      exact act_serverName hbefore
        (hacts act (List.mem_append_right _ (List.mem_singleton_self act)))

/-- The request of a peer to start a channel for a host. -/
def startFor (number msgno seqno : UInt32) (name : String) : Octets :=
  peerFrame .msg greetingChannel msgno seqno (Management.Message.toPayload
    (.start { number, serverName := some name, profiles := [.new "urn:x"] }))

/-- Whatever waits or was accepted came in. -/
structure Sound (hosting : Hosting) : Prop where
  waiting : ∀ start ∈ hosting.waiting, start.2 ∈ hosting.received
  accepted : ∀ start ∈ hosting.accepted, start ∈ hosting.received

theorem Sound.receive (h : hosting.Sound) (starts : List (UInt32 × Management.Start)) :
    (hosting.receive starts).Sound where
  waiting start hmem := by
    rcases List.mem_append.mp hmem with hmem | hmem
    · exact List.mem_append_left _ (h.waiting start hmem)
    · exact List.mem_append_right _ (List.mem_map_of_mem hmem)
  accepted start hmem := List.mem_append_left _ (h.accepted start hmem)

theorem Sound.accept (h : hosting.Sound) (channel msgno : UInt32) :
    (hosting.accept channel msgno).Sound := by
  unfold Hosting.accept
  split
  · exact h
  · rename_i found hfind
    refine ⟨fun start hmem => h.waiting start (List.mem_of_mem_erase hmem), fun start hmem => ?_⟩
    rcases List.mem_append.mp hmem with hmem | hmem
    · exact h.accepted start hmem
    · rw [List.mem_singleton.mp hmem]
      exact h.waiting found (List.mem_of_find?_eq_some hfind)

theorem Sound.refuse (h : hosting.Sound) (msgno : UInt32) : (hosting.refuse msgno).Sound where
  waiting start hmem := h.waiting start (List.mem_of_mem_eraseP hmem)
  accepted := h.accepted

theorem Sound.act (h : hosting.Sound) (trace : Trace) (act : Act) :
    (hosting.act trace act).Sound := by
  cases act with
  | input octets => exact h.receive _
  | call call =>
      cases call with
      | acceptStart channel msgno profile =>
          rw [Hosting.act]
          split
          · exact h.accept channel msgno
          · exact h
      | refuseStart msgno error =>
          rw [Hosting.act]
          split
          · exact h.refuse msgno
          · exact h
      | _ => exact h
  | _ => exact h

theorem replay_sound (first : Trace) (acts : List Act) : (replay first acts).2.Sound := by
  induction acts using List.reverseRecOn with
  | nil =>
      exact ⟨fun _ hmem => absurd hmem List.not_mem_nil, fun _ hmem => absurd hmem List.not_mem_nil⟩
  | append_singleton acts act ih =>
      rw [replay, List.foldl_append]
      exact ih.act _ act

/-- The first name a start carried is that of the first start accepted in two cases: no
start carried one, or the first accepted carried the first. -/
theorem Sound.firstNamed_eq_host (h : hosting.Sound) :
    hosting.firstNamed = hosting.host ↔
      (∀ start ∈ hosting.received, start.serverName = none) ∨
        ∃ start name, hosting.accepted.head? = some start ∧ start.serverName = some name ∧
          hosting.firstNamed = some name := by
  constructor
  · intro hsame
    cases hfirst : hosting.firstNamed with
    | none => exact .inl (List.findSome?_eq_none_iff.mp hfirst)
    | some name =>
        rw [hfirst] at hsame
        obtain ⟨start, hstart, hname⟩ := Option.bind_eq_some_iff.mp hsame.symm
        exact .inr ⟨start, name, hstart, hname, rfl⟩
  · rintro (hnone | ⟨start, name, hstart, hname, hfirst⟩)
    · have hfirst : hosting.firstNamed = none := List.findSome?_eq_none_iff.mpr hnone
      rw [hfirst, host]
      cases hhead : hosting.accepted.head? with
      | none => rfl
      | some start => exact (hnone start (h.accepted start (List.mem_of_head? hhead))).symm
    · rw [hfirst, host, hstart]
      exact hname.symm

/-- The name of a session is that of the first start it accepted exactly when no start has
named a host, or the first that was accepted carried the first name. -/
theorem serverName_iff {config : Config} {first : Trace}
    (hfresh : Trace.Fresh config first) (acts : List Act)
    (hacts : ∀ act ∈ acts, ∀ name, act ≠ .call (.setServerName name)) :
    let hosting := (replay first acts).2
    (first.replay acts).core.serverName = hosting.host ↔
      (∀ start ∈ hosting.received, start.serverName = none) ∨
        ∃ start name, hosting.accepted.head? = some start ∧ start.serverName = some name ∧
          hosting.firstNamed = some name := by
  dsimp only
  rw [← (replay_sound first acts).firstNamed_eq_host, ← replay_serverName hfresh acts hacts,
    fst_replay]

/-- The peer asks for one host, which is accepted, and then for another. -/
theorem serverName_iff_accepted :
    ∃ first last, Trace.Fresh (Config.new .listener) first ∧
      last = first.replay [.input (peerFrame .rpy 0 0 0 Greeting.new.toPayload ++
        startFor 1 0 52 "blue"), .call (.acceptStart 1 0 (.new "urn:x")),
        .input (startFor 3 1 166 "red")] ∧ last.core.serverName = some "blue" := by
  obtain ⟨session, hnew⟩ := Session.new_ok (Config.new .listener)
  obtain ⟨acts, hacts⟩ : ∃ acts : List Act, acts =
      [.input (peerFrame .rpy 0 0 0 Greeting.new.toPayload ++ startFor 1 0 52 "blue"),
        .call (.acceptStart 1 0 (.new "urn:x")), .input (startFor 3 1 166 "red")] := ⟨_, rfl⟩
  have hrun : (Session.new (Config.new .listener)).toOption.any fun session =>
      let hosting := (replay ⟨session, []⟩
        [.input (peerFrame .rpy 0 0 0 Greeting.new.toPayload ++ startFor 1 0 52 "blue"),
          .call (.acceptStart 1 0 (.new "urn:x")), .input (startFor 3 1 166 "red")]).2
      hosting.accepted.head?.any (·.serverName = some "blue") ∧
        hosting.firstNamed = some "blue" := by
    decide +kernel
  rw [hnew, ← hacts] at hrun
  obtain ⟨haccepted, hfirst⟩ := of_decide_eq_true hrun
  obtain ⟨start, hstart, hname⟩ := (Option.any_eq_true _ _).mp haccepted
  rw [decide_eq_true_eq] at hname
  have hhost : (replay ⟨session, []⟩ acts).2.host = some "blue" := by
    rw [host, hstart]
    exact hname
  rw [← hacts]
  refine ⟨⟨session, []⟩, _, .new hnew, rfl, ?_⟩
  rw [← hhost]
  refine (serverName_iff (.new hnew) acts fun act hmem name => ?_).mpr
    (.inr ⟨start, "blue", hstart, hname, hfirst⟩)
  rw [hacts] at hmem
  simp only [List.mem_cons, List.not_mem_nil, or_false] at hmem
  rcases hmem with rfl | rfl | rfl <;> exact fun h => by cases h

/-- A start that is refused gives the session its name, and the one accepted after it
does not. -/
theorem refused_start_names_session :
    ∃ first, Trace.Fresh (Config.new .listener) first ∧
      let acts : List Act := [.input (peerFrame .rpy 0 0 0 Greeting.new.toPayload ++
        startFor 1 0 52 "blue"), .call (.refuseStart 0 ⟨550, none, none⟩),
        .input (startFor 3 1 166 "red"), .call (.acceptStart 3 1 (.new "urn:x"))]
      (first.replay acts).core.serverName = some "blue" ∧
        (replay first acts).2.host = some "red" ∧
        (first.replay acts).core.serverName ≠ (replay first acts).2.host := by
  have hrun : (Session.new (Config.new .listener)).toOption.any fun session =>
      let acts : List Act := [.input (peerFrame .rpy 0 0 0 Greeting.new.toPayload ++
        startFor 1 0 52 "blue"), .call (.refuseStart 0 ⟨550, none, none⟩),
        .input (startFor 3 1 166 "red"), .call (.acceptStart 3 1 (.new "urn:x"))]
      (Trace.replay ⟨session, []⟩ acts).core.serverName = some "blue" ∧
        (replay ⟨session, []⟩ acts).2.host = some "red" := by
    decide +kernel
  obtain ⟨session, hnew⟩ := Session.new_ok (Config.new .listener)
  rw [hnew] at hrun
  obtain ⟨hname, hhost⟩ := of_decide_eq_true hrun
  refine ⟨⟨session, []⟩, .new hnew, hname, hhost, ?_⟩
  rw [hname, hhost]
  decide

end Hosting

end Vortice.Proto
