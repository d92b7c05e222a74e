import Vortice.Proto.Journal

/-!
# Sessions that are closed

Once a session is closed it stays closed, and it rests: no channel is opened, no
event reported and no octet put out, as long as nothing is accepted, refused or
acted on that a closed session does not refuse by itself.
-/

namespace Vortice.Proto

open Vortice.Foundation

theorem Ledger.Step.stays_open {l l' : Ledger} {entry : Entry} (h : l.Step entry l')
    (hopen : l.state ≠ .closed) (hagreed : ∀ msgno number, entry ≠ .agreed msgno number)
    (hclosed : ∀ number, entry ≠ .closed number) : l'.state ≠ .closed := by
  cases h with
  | accepted =>
      simp only [enter, setBook]
      split <;> exact hopen
  | greeted => rintro ⟨⟩
  | agreed => exact absurd rfl (hagreed _ _)
  | closed => exact absurd rfl (hclosed _)
  | _ => exact hopen

namespace SessionCore

variable {s t u : SessionCore} {frame : DataFrame}

/-- The session is closed and has no channels. -/
structure Shut (s : SessionCore) : Prop where
  state : s.state = .closed
  channels : ∀ number, s.channels number = none
  queues : ∀ number, s.queues number = none

/-- Nothing but the accepted frames of the peer has been entered. -/
structure Rests (s t : SessionCore) : Prop where
  state : t.state = s.state
  channels : t.channels = s.channels
  queues : t.queues = s.queues
  events : t.events = s.events
  outbound : t.outbound = s.outbound
  history : ∃ frames : List DataFrame, t.history = s.history ++ frames.map .accepted

theorem Rests.of_same (hstate : t.state = s.state) (hchannels : t.channels = s.channels)
    (hqueues : t.queues = s.queues) (hevents : t.events = s.events)
    (houtbound : t.outbound = s.outbound) (hhistory : t.history = s.history) :
    s.Rests t :=
  ⟨hstate, hchannels, hqueues, hevents, houtbound, [],
    by rw [hhistory, List.map_nil, List.append_nil]⟩

theorem Rests.refl : s.Rests s := .of_same rfl rfl rfl rfl rfl rfl

theorem Rests.trans (first : s.Rests t) (second : t.Rests u) : s.Rests u := by
  refine ⟨second.state.trans first.state, second.channels.trans first.channels,
    second.queues.trans first.queues, second.events.trans first.events,
    second.outbound.trans first.outbound, ?_⟩
  obtain ⟨frames, hfirst⟩ := first.history
  obtain ⟨others, hsecond⟩ := second.history
  exact ⟨frames ++ others, by
    rw [hsecond, hfirst, List.map_append, List.append_assoc]⟩

theorem Rests.written (h : s.Rests t) : written t.history = written s.history := by
  obtain ⟨frames, hhistory⟩ := h.history
  rw [hhistory, written_append]
  have hnone : Vortice.Proto.written (frames.map Action.accepted) = [] := by
    clear hhistory
    induction frames with
    | nil => rfl
    | cons frame frames ih => exact ih
  rw [hnone, List.append_nil]

theorem Shut.rests (h : s.Shut) (hrests : s.Rests t) : t.Shut :=
  ⟨hrests.state.trans h.state, fun number => hrests.channels ▸ h.channels number,
    fun number => hrests.queues ▸ h.queues number⟩

/-! ## Frames that a closed session acts on -/

/-- The frame is taken on its channel and brings what is due to be acknowledged. -/
def Acknowledges (s : SessionCore) (frame : DataFrame) : Prop :=
  ∃ channel, s.channelAt frame.channel = some channel ∧ channel.admits frame ∧
    channel.recvWindow.size ≤ maxFrameSize ∧
    saturatingAdd ((s.unacked frame.channel).getD 0) frame.size ≥
      ackThreshold channel.recvWindow.size

/-- A management message that is a request, or the answer to one under way. -/
def Heeds (s : SessionCore) (kind : FrameKind) (msgno : UInt32) :
    Management.Message → Prop
  | .start _ | .close _ => kind = .msg
  | .profile _ => kind = .rpy ∧ ∃ number, s.pending msgno = some (.start number)
  | .ok => kind = .rpy ∧ ∃ number, s.pending msgno = some (.close number)
  | .error _ => kind = .err ∧ s.pending msgno ≠ none

/-- A frame of channel 0 that is neither acknowledged nor acted on. -/
structure Ignores (s : SessionCore) (frame : DataFrame) : Prop where
  unacknowledged : frame.channel = greetingChannel → ¬ s.Acknowledges frame
  unheeded : ∀ management, s.Hears frame management →
    ¬ s.Heeds frame.kind frame.msgno management

theorem rests_zero (zero : Channel) : s.Rests { s with zero } :=
  .of_same rfl rfl rfl rfl rfl rfl

theorem rests_counted (number pending : UInt32) : s.Rests (s.counted number pending) :=
  .of_same rfl rfl rfl rfl rfl rfl

theorem rests_settled (msgno : UInt32) : s.Rests (s.settled msgno) :=
  .of_same rfl rfl rfl rfl rfl rfl

theorem rests_setChannel {number : UInt32} (hzero : number = greetingChannel)
    (channel : Channel) : s.Rests (s.setChannel number channel) := by
  rw [setChannel, if_pos hzero]
  exact rests_zero channel

theorem toSeqFrame_error {window : Window} {number : UInt32}
    (hsize : ¬ window.size ≤ maxFrameSize) :
    ∃ error, window.toSeqFrame number = .error error := by
  unfold Window.toSeqFrame SeqFrame.new
  split <;> exact ⟨_, rfl⟩

/-- A frame of channel 0 that is not due to be acknowledged leaves the session at
rest. -/
theorem rests_receive (hzero : frame.channel = greetingChannel)
    (hquiet : ¬ s.Acknowledges frame) :
    s.Rests (Computation.final (receive frame) s) := by
  by_cases hadmits : ∃ channel, s.channelAt frame.channel = some channel ∧
      channel.admits frame
  · obtain ⟨channel, hchannel, hadmits⟩ := hadmits
    have haccept := accept_eq hchannel hadmits
    obtain ⟨stepped, hstepped⟩ : ∃ stepped, stepped =
      Computation.final (Channel.accept frame) channel := ⟨_, rfl⟩
    have hwindow : stepped.recvWindow = channel.recvWindow := by
      rw [hstepped, final_accept hadmits]
      rfl
    rw [← hstepped] at haccept
    have hrecorded : s.Rests (s.record (.accepted frame)) :=
      ⟨rfl, rfl, rfl, rfl, rfl, [frame], rfl⟩
    obtain ⟨t, ht⟩ : ∃ t, t = (s.record (.accepted frame)).setChannel frame.channel
      stepped := ⟨_, rfl⟩
    have hrests : s.Rests t := by
      rw [ht]
      exact hrecorded.trans (rests_setChannel hzero stepped)
    rw [← ht] at haccept
    cases hresult : (Computation.outcome (Channel.accept frame) channel).2 with
    | error fault =>
        rw [hresult] at haccept
        have hfails := Computation.error_of_outcome haccept
        have hbind := Computation.bind_of_error hfails fun complete => do
          acknowledge frame.channel frame.size
          return complete
        rwa [receive, Computation.final_of_error hbind]
    | ok complete =>
        rw [hresult] at haccept
        have hok := Computation.ok_of_outcome haccept
        have hfinal : Computation.final (receive frame) s =
            Computation.final (acknowledge frame.channel frame.size) t := by
          rw [receive, Computation.final, Computation.bind_of_ok hok,
            ← Computation.final, Computation.final_drop]
        have hchannel' : t.channelAt frame.channel = some stepped := by
          rw [ht, setChannel, channelAt, if_pos hzero, if_pos hzero]
        have hunacked : t.unacked = s.unacked := by
          rw [ht, setChannel, if_pos hzero]
          rfl
        rw [hfinal]
        refine hrests.trans ?_
        by_cases hdue : saturatingAdd ((t.unacked frame.channel).getD 0) frame.size ≥
            ackThreshold stepped.recvWindow.size
        · rw [Computation.final, acknowledge_of_ge hchannel' hdue, ← Computation.final]
          rw [hunacked, hwindow] at hdue
          have hsize : ¬ channel.recvWindow.size ≤ maxFrameSize :=
            fun hsize => hquiet ⟨channel, hchannel, hadmits, hsize, hdue⟩
          obtain ⟨pending, hpending⟩ : ∃ pending, pending =
            saturatingAdd ((t.unacked frame.channel).getD 0) frame.size := ⟨_, rfl⟩
          rw [← hpending]
          have hcounted : (t.counted frame.channel pending).channelAt frame.channel =
              some stepped := hchannel'
          have hrun := onChannel_run (Channel.consume pending) hcounted
          obtain ⟨error, herror⟩ : ∃ error, (stepped.recvWindow.consumed
              pending).toSeqFrame stepped.number = .error error :=
            toSeqFrame_error (by rw [hwindow]; exact hsize)
          rw [consume_eq, herror] at hrun
          rw [Computation.final_of_error (Computation.bind_of_error hrun _)]
          exact (rests_counted _ _).trans (rests_setChannel hzero _)
        · rw [Computation.final_of_ok (acknowledge_of_lt hchannel' hdue)]
          exact rests_counted _ _
  · have hrefused : ∀ channel, s.channelAt frame.channel = some channel →
        ¬ channel.admits frame :=
      fun channel hchannel h => hadmits ⟨channel, hchannel, h⟩
    obtain ⟨fault, hrun⟩ := receive_refused hrefused
    rw [Computation.final_of_error hrun]
    exact .refl

theorem rests_dispatch {kind : FrameKind} {msgno : UInt32}
    {management : Management.Message} (hunheeded : ¬ s.Heeds kind msgno management) :
    s.Rests (Computation.final (dispatchManagement kind msgno management) s) := by
  cases kind with
  | msg =>
      cases management with
      | start => exact absurd rfl hunheeded
      | close => exact absurd rfl hunheeded
      | _ => exact .refl
  | rpy =>
      cases management with
      | profile profile =>
          rw [Computation.final_congr (dispatch_profile msgno profile s)]
          split
          · rename_i number hpending
            exact absurd ⟨rfl, number, hpending⟩ hunheeded
          · exact rests_settled msgno
      | ok =>
          rw [Computation.final_congr (dispatch_ok msgno s)]
          split
          · rename_i number hpending
            exact absurd ⟨rfl, number, hpending⟩ hunheeded
          · exact rests_settled msgno
      | _ => exact .refl
  | err =>
      cases management with
      | error error =>
          have hpending : s.pending msgno = none := by
            by_contra hpending
            exact hunheeded ⟨rfl, hpending⟩
          rw [Computation.final_congr (dispatch_error msgno error s), hpending]
          exact rests_settled msgno
      | _ => exact .refl
  | ans => exact .refl
  | nul => exact .refl

theorem rests_handleSeq (h : s.Shut) (seq : SeqFrame) :
    s.Rests (Computation.final (handleSeq seq) s) := by
  by_cases hzero : seq.channel = greetingChannel
  · have happly : onChannel seq.channel (modify (·.applySeq seq)) s =
        .ok () { s with zero := s.zero.applySeq seq } := by
      rw [onChannel, if_pos hzero]
      rfl
    rw [handleSeq, Computation.final, Computation.bind_of_ok happly, ← Computation.final]
    have hflush : flush seq.channel { s with zero := s.zero.applySeq seq } =
        .ok () { s with zero := s.zero.applySeq seq } := by
      simp only [flush, h.queues]
    rw [Computation.final_of_ok hflush]
    exact rests_zero _
  · have hnone : s.channelAt seq.channel = none := by
      simp only [channelAt, hzero, if_false, h.channels]
    rw [Computation.final_of_error (react_refused hnone)]
    exact .refl

theorem rests_handleData (h : s.Shut) (hignores : s.Ignores frame) :
    s.Rests (Computation.final (handleData frame) s) := by
  by_cases hzero : frame.channel = greetingChannel
  · have hreceive := rests_receive hzero (hignores.unacknowledged hzero)
    have hstate : s.state ≠ .awaitingGreeting := by
      rw [h.state]
      exact nofun
    rw [Computation.final, handleData_zero hzero hstate, ← Computation.final]
    cases hok : receive frame s with
    | error fault t =>
        rw [Computation.final_of_error hok] at hreceive
        rwa [Computation.final_of_error (Computation.bind_of_error hok _)]
    | ok complete t =>
        rw [Computation.final_of_ok hok] at hreceive
        rw [Computation.final, Computation.bind_of_ok hok, ← Computation.final]
        cases complete with
        | none => exact hreceive
        | some message =>
            obtain ⟨hkind, hmsgno, -⟩ := receive_message hok
            change s.Rests (Computation.final (do
              let management ←
                liftFault (Management.Message.fromPayload message.payload)
              dispatchManagement message.kind message.msgno management) t)
            cases hpayload : Management.Message.fromPayload message.payload with
            | error fault => exact hreceive
            | ok management =>
                refine hreceive.trans (rests_dispatch ?_)
                rw [hkind, hmsgno]
                have hmoved := receive_unmoved frame s
                rw [Computation.final_of_ok hok] at hmoved
                have hpending : t.pending = s.pending := hmoved.pending
                have hunheeded := hignores.unheeded management
                  ⟨hzero, hstate, message, t, hok, hpayload⟩
                cases management <;> simpa only [Heeds, hpending] using hunheeded
  · have hrefused : ∀ channel, s.channelAt frame.channel = some channel →
        ¬ channel.admits frame := by
      intro channel hchannel
      simp only [channelAt, hzero, if_false, h.channels] at hchannel
      cases hchannel
    obtain ⟨fault, hrun⟩ := receive_refused hrefused
    rw [handleData_eq hzero, Computation.final_of_error (Computation.bind_of_error hrun _)]
    exact .refl

/-! ## Calls on a closed session -/

theorem requireReady_rests {α : Type} (h : s.state = .closed) (f : Unit → SessionM α) :
    s.Rests (Computation.final (requireReady >>= f) s) := by
  have hstate : s.state ≠ .ready := by
    rw [h]
    exact nofun
  obtain ⟨fault, hrefused⟩ := requireReady_refuses hstate
  rw [Computation.final_of_error (Computation.bind_of_error hrefused f)]
  exact .refl

/-- The calls that a closed session does not refuse. -/
def Admits (s : SessionCore) : Call → Prop
  | .acceptStart channel _ _ =>
      channel ≠ greetingChannel ∧ s.config.role.owns channel = false
  | .refuseStart _ _ | .acceptClose _ _ | .refuseClose _ _ => True
  | _ => False

theorem rests_call (h : s.Shut) {call : Call} (hrefused : ¬ s.Admits call) :
    s.Rests (Computation.final call.run s) := by
  cases call with
  | startChannel profile =>
      change s.Rests (Computation.final (startChannel profile >>= fun _ => pure ()) s)
      rw [Computation.final_drop]
      exact requireReady_rests h.state _
  | closeChannel channel => exact requireReady_rests h.state _
  | acceptStart channel msgno profile =>
      have howned : channel = greetingChannel ∨ s.config.role.owns channel := by
        by_contra hfree
        obtain ⟨hzero, howns⟩ := not_or.mp hfree
        exact hrefused ⟨hzero, Bool.not_eq_true _ ▸ howns⟩
      change s.Rests (Computation.final
        (if channel = greetingChannel ∨ s.config.role.owns channel then _
          else _ : SessionM Unit) s)
      rw [if_pos howned]
      exact .refl
  | send channel kind msgno ansno payload =>
      change s.Rests (Computation.final
        (if (s.channels channel).isNone then _ else _ : SessionM Unit) s)
      rw [if_pos (by rw [h.channels]; rfl)]
      exact .refl
  | sendMsg channel payload =>
      have hrun : onOpen channel Channel.allocateMsgno s =
          .error (.error (.noSuchChannel channel)) s := by
        simp only [onOpen, h.channels]
      have hbind : Call.run (.sendMsg channel payload) s =
          .error (.error (.noSuchChannel channel)) s :=
        Computation.bind_of_error (Computation.bind_of_error hrun _) _
      rw [Computation.final_of_error hbind]
      exact .refl
  | setWindowSize channel size =>
      change s.Rests (Computation.final (setWindowSize channel size) s)
      rw [setWindowSize, final_onOpen_none _ _ (h.channels channel)]
      exact .refl
  | setAuthenticated identity => exact .of_same rfl rfl rfl rfl rfl rfl
  | setServerName name => exact .of_same rfl rfl rfl rfl rfl rfl
  | refuseStart => exact absurd trivial hrefused
  | acceptClose => exact absurd trivial hrefused
  | refuseClose => exact absurd trivial hrefused

/-! ## The close itself -/

/-- What is done last is to close the session. -/
def ClosesFrom (s t : SessionCore) : Prop :=
  ∃ u v, Walk Books (· ≠ .polled) s u ∧ u.state ≠ .closed ∧
    v.events = u.events ∧ v.history = u.history ∧
    t = Computation.final (finishClose greetingChannel) v

theorem state_finishClose {number : UInt32} (hzero : number ≠ greetingChannel)
    (s : SessionCore) : (Computation.final (finishClose number) s).state = s.state := by
  rw [finishClose, if_neg hzero]
  rfl

theorem open_of_path {allowed : Entry → Prop} (h : Walk Books allowed s t)
    (hagreed : ∀ msgno number, ¬ allowed (.agreed msgno number))
    (hclosed : ∀ number, ¬ allowed (.closed number)) (hopen : s.state ≠ .closed) :
    t.state ≠ .closed := by
  refine h.preserves (I := fun u : SessionCore => u.state ≠ .closed) ?_ hopen
  intro u v entry hallowed hstep hu
  exact Ledger.Step.stays_open hstep hu (by rintro _ _ rfl; exact hagreed _ _ hallowed)
    (by rintro _ rfl; exact hclosed _ hallowed)

theorem call_closes (hopen : s.state ≠ .closed) (call : Call) :
    (Computation.final call.run s).state ≠ .closed ∨
      s.ClosesFrom (Computation.final call.run s) := by
  have hpath := keeps_call call s
  cases call with
  | acceptClose channel msgno =>
      obtain ⟨t, hreply, hfinal⟩ := acceptClose_books channel msgno s
      have ht : t.state ≠ .closed :=
        open_of_path hreply (fun _ _ h => h) (fun _ h => h) hopen
      change (Computation.final (acceptClose channel msgno) s).state ≠ .closed ∨
        s.ClosesFrom (Computation.final (acceptClose channel msgno) s)
      rcases hfinal with hfinal | ⟨-, hfinal⟩
      · rw [hfinal]
        exact .inl ht
      · rw [hfinal]
        by_cases hzero : channel = greetingChannel
        · subst hzero
          refine .inr ⟨t, t, hreply.mono ?_, ht, rfl, rfl, rfl⟩
          rintro _ hallowed rfl
          exact hallowed
        · rw [state_finishClose hzero]
          exact .inl ht
  | _ =>
      refine .inl (open_of_path hpath ?_ ?_ hopen)
      · intro _ _ h
        first | exact h | cases h
      · intro _ h
        first | exact h | cases h

theorem handles_agreed {failed : Prop} {msgno number : UInt32} {frame : Frame}
    (h : Entry.handles s failed frame (.agreed msgno number)) :
    ∃ data, frame = .data data ∧ data.kind = .rpy ∧ s.Hears data .ok := by
  cases frame with
  | seq => exact h.elim
  | data data =>
      obtain ⟨_, hhears, -, hkind, rfl⟩ := h
      exact ⟨data, rfl, hkind, hhears⟩

theorem handles_closed {failed : Prop} {number : UInt32} {frame : Frame}
    (h : Entry.handles s failed frame (.closed number)) : False := by
  cases frame with
  | seq => exact h
  | data data =>
      obtain ⟨_, -, h⟩ := h
      exact h

theorem frame_agrees (hopen : s.state ≠ .closed) (hkind : frame.kind = .rpy)
    (hhears : s.Hears frame .ok) :
    (Computation.final (handleFrame (.data frame)) s).state ≠ .closed ∨
      s.ClosesFrom (Computation.final (handleFrame (.data frame)) s) := by
  obtain ⟨hzero, hstate, message, t, hok, hpayload⟩ := hhears
  obtain ⟨hkind', hmsgno, -⟩ := receive_message hok
  have hreceive := receive_books frame s
  rw [Computation.final_of_ok hok] at hreceive
  have ht : t.state ≠ .closed :=
    open_of_path hreceive (fun _ _ h => h) (fun _ h => h) hopen
  have hfinal : Computation.final (handleFrame (.data frame)) s =
      Computation.final (dispatchManagement .rpy frame.msgno .ok) t := by
    rw [handleFrame, Computation.final, handleData_zero hzero hstate,
      Computation.bind_of_ok hok, ← Computation.final]
    change Computation.final (do
      let management ← liftFault (Management.Message.fromPayload message.payload)
      dispatchManagement message.kind message.msgno management) t = _
    rw [hpayload, hkind', hmsgno, hkind]
    rfl
  rw [hfinal, Computation.final_congr (dispatch_ok frame.msgno t)]
  split
  · rename_i number _
    obtain ⟨u, hu⟩ : ∃ u, u = { t.settled frame.msgno with
      zero := t.zero.releaseMsgno frame.msgno } := ⟨_, rfl⟩
    have hrelease : onZero (modify (·.releaseMsgno frame.msgno))
        (t.settled frame.msgno) = .ok () u := by
      rw [hu]
      rfl
    rw [Computation.final, Computation.bind_of_ok hrelease, ← Computation.final]
    have hsame : u.state = t.state ∧ u.events = t.events ∧ u.history = t.history := by
      rw [hu]
      exact ⟨rfl, rfl, rfl⟩
    by_cases hnumber : number = greetingChannel
    · subst hnumber
      refine .inr ⟨t, u, hreceive.mono ?_, ht, hsame.2.1, hsame.2.2, rfl⟩
      rintro _ hallowed rfl
      exact hallowed
    · rw [state_finishClose hnumber, hsame.1]
      exact .inl ht
  · exact .inl ht

theorem frame_closes (hopen : s.state ≠ .closed) (frame : Frame) :
    (Computation.final (handleFrame frame) s).state ≠ .closed ∨
      s.ClosesFrom (Computation.final (handleFrame frame) s) := by
  by_cases hagrees : ∃ data, frame = .data data ∧ data.kind = .rpy ∧ s.Hears data .ok
  · obtain ⟨data, rfl, hkind, hhears⟩ := hagrees
    exact frame_agrees hopen hkind hhears
  · refine .inl (open_of_path (keeps_handleFrame frame s) ?_ ?_ hopen)
    · exact fun _ _ h => hagrees (handles_agreed h)
    · exact fun _ h => handles_closed h

end SessionCore

/-! ## Before the close and after it -/

/-- No close has been reported or entered before there is one. -/
def Ledger.Unclosed (polled : List Event) (l : Ledger) : Prop :=
  l.state ≠ .closed →
    .sessionClosed ∉ polled ++ l.events ∧ .dropped greetingChannel ∉ l.entries

theorem Ledger.Unclosed.extend {l l' : Ledger} {polled : List Event}
    (h : l.Unclosed polled) (events : List Event) (actions : List Action)
    (hstate : l'.state ≠ .closed → l.state ≠ .closed)
    (hevents : l'.events = l.events ++ events) (hentries : l'.entries = l.entries ++ actions)
    (htold : .sessionClosed ∉ events) (hentered : .dropped greetingChannel ∉ actions) :
    l'.Unclosed polled := by
  intro hopen
  obtain ⟨hunreported, hundropped⟩ := h (hstate hopen)
  rw [hevents, hentries, ← List.append_assoc]
  refine ⟨fun hmem => ?_, fun hmem => ?_⟩
  · exact (List.mem_append.mp hmem).elim hunreported htold
  · exact (List.mem_append.mp hmem).elim hundropped hentered

theorem Ledger.Unclosed.close {l k : Ledger} {polled : List Event} (h : l.Unclosed polled)
    (hstate : k.state = l.state) (hevents : k.events = l.events)
    (hentries : k.entries = l.entries) (number : UInt32) :
    (k.close number).Unclosed polled := by
  unfold Ledger.close
  split
  · exact fun hopen => absurd rfl hopen
  · rename_i hzero
    refine h.extend [.channelClosed number] [.dropped number] ?_ ?_ ?_ (by simp) ?_
    · rw [closeChannel, hstate]
      exact id
    · rw [closeChannel, hevents]
    · rw [closeChannel, hentries]
    · rw [List.mem_singleton, Action.dropped.injEq]
      exact fun heq => hzero heq.symm

theorem Ledger.Step.unclosed {l l' : Ledger} {entry : Entry} {polled : List Event}
    (h : l.Step entry l') (hpolled : entry ≠ .polled) (hunclosed : l.Unclosed polled) :
    l'.Unclosed polled := by
  have hnone := (List.append_nil l.events).symm
  have hnone' := (List.append_nil l.entries).symm
  cases h with
  | handed => exact hunclosed.extend [] [_] id hnone rfl (by simp) (by simp)
  | queued => exact hunclosed.extend [] [_] id hnone rfl (by simp) (by simp)
  | @accepted frame book _ =>
      refine hunclosed.extend [] [.accepted frame] ?_ ?_ ?_ (by simp) (by simp) <;>
        simp only [enter, setBook] <;> split
      · exact id
      · exact id
      · exact hnone
      · exact hnone
      · rfl
      · rfl
  | delivered => exact hunclosed.extend [_] [] id rfl hnone' (by simp) (by simp)
  | @told event hrequest =>
      refine hunclosed.extend [event] [] id rfl hnone' ?_ (by simp)
      rw [List.mem_singleton]
      rintro rfl
      cases hrequest
  | @greeted greeting hstate =>
      refine hunclosed.extend [_] [] (fun _ => ?_) rfl hnone' (by simp) (by simp)
      rw [hstate]
      simp
  | answered => exact hunclosed.extend [_] [_] id rfl rfl (by simp) (by simp)
  | startRefused => exact hunclosed.extend [_] [] id rfl hnone' (by simp) (by simp)
  | closeRefused => exact hunclosed.extend [_] [] id rfl hnone' (by simp) (by simp)
  | welcomed => exact hunclosed.extend [] [_] id hnone rfl (by simp) (by simp)
  | @agreed msgno number _ =>
      exact hunclosed.close (k := l.settle msgno) rfl rfl rfl number
  | @closed number => exact hunclosed.close (k := l) rfl rfl rfl number
  | polled => exact absurd rfl hpolled
  | _ => exact hunclosed

namespace SessionCore

variable {s t : SessionCore} {polled : List Event}

theorem unclosed_of_path (h : Walk Books (· ≠ .polled) s t)
    (hunclosed : s.ledger.Unclosed polled) : t.ledger.Unclosed polled := by
  refine h.preserves (I := fun u : SessionCore => u.ledger.Unclosed polled) ?_ hunclosed
  intro u v entry hallowed hstep
  exact Ledger.Step.unclosed hstep hallowed

/-- The close is the last thing reported, and only frames are accepted after it. -/
structure Finished (polled : List Event) (s : SessionCore) : Prop where
  shut : s.Shut
  told : ∃ told, polled ++ s.events = told ++ [.sessionClosed] ∧ .sessionClosed ∉ told
  entered : ∃ before, ∃ frames : List DataFrame,
    s.history = before ++ .dropped greetingChannel :: frames.map .accepted ∧
      .dropped greetingChannel ∉ before

theorem Finished.rests (h : s.Finished polled) (hrests : s.Rests t) :
    t.Finished polled := by
  refine ⟨h.shut.rests hrests, by rw [hrests.events]; exact h.told, ?_⟩
  obtain ⟨before, frames, hhistory, hbefore⟩ := h.entered
  obtain ⟨others, hothers⟩ := hrests.history
  exact ⟨before, frames ++ others, by
    rw [hothers, hhistory, List.map_append, List.append_assoc, List.cons_append], hbefore⟩

theorem ClosesFrom.finished (h : s.ClosesFrom t) (hunclosed : s.ledger.Unclosed polled) :
    t.Finished polled := by
  obtain ⟨u, v, hpath, hopen, hevents, hhistory, rfl⟩ := h
  have hu := unclosed_of_path hpath hunclosed
  obtain ⟨hunreported, hundropped⟩ := hu hopen
  have hfinal : Computation.final (finishClose greetingChannel) v = record { v with
      state := .closed
      channels := fun _ => none
      queues := fun _ => none
      unacked := fun _ => none
      replyOrder := fun _ => none
      heldReplies := fun _ => none
      events := v.events ++ [.sessionClosed] } (.dropped greetingChannel) := by
    rw [finishClose, if_pos rfl]
    rfl
  rw [hfinal]
  refine ⟨⟨rfl, fun _ => rfl, fun _ => rfl⟩, ⟨polled ++ u.events, ?_, hunreported⟩,
    u.history, [], ?_, fun hmem => hundropped ?_⟩
  · rw [List.append_assoc, ← hevents]
    rfl
  · rw [← hhistory]
    rfl
  · exact List.mem_filter.mpr ⟨hmem, rfl⟩

/-- What is said of the close holds once the session is closed. -/
def Final (polled : List Event) (s : SessionCore) : Prop :=
  s.ledger.Unclosed polled ∧ (s.state = .closed → s.Finished polled)

theorem Final.step (h : s.Final polled) (hbooks : Walk Books (· ≠ .polled) s t)
    (hrests : s.Shut → s.Rests t)
    (hcloses : s.state ≠ .closed → t.state ≠ .closed ∨ s.ClosesFrom t) :
    t.Final polled := by
  obtain ⟨hunclosed, hfinished⟩ := h
  refine ⟨unclosed_of_path hbooks hunclosed, fun hclosed => ?_⟩
  by_cases hstate : s.state = .closed
  · have hdone := hfinished hstate
    exact hdone.rests (hrests hdone.shut)
  · rcases hcloses hstate with hopen | hlast
    · exact absurd hclosed hopen
    · exact hlast.finished hunclosed

end SessionCore

/-! ## Runs -/

/-- After the close no call is made that would be let in, and no frame comes that would
be acknowledged or acted on. -/
def Act.LeavesClosed (trace : Trace) : Act → Prop
  | .call method => trace.core.state = .closed → ¬ trace.core.Admits method
  | .input octets => ∀ core frame,
      (trace.session.received octets).Meets core (.data frame) →
        core.state = .closed → core.Ignores frame
  | .pollTransmit | .pollEvent => True

namespace SessionCore

variable {s : SessionCore}

theorem books_call (call : Call) (s : SessionCore) :
    Walk Books (· ≠ .polled) s (Computation.final call.run s) := by
  refine (keeps_call call s).mono ?_
  rintro _ hallowed rfl
  cases call <;> first | exact hallowed | cases hallowed

theorem books_handleFrame (frame : Frame) (s : SessionCore) :
    Walk Books (· ≠ .polled) s (Computation.final (handleFrame frame) s) := by
  refine (keeps_handleFrame frame s).mono ?_
  rintro _ hallowed rfl
  cases frame with
  | seq => exact hallowed
  | data =>
      obtain ⟨_, -, h⟩ := hallowed
      exact h

theorem rests_handleFrame {frame : Frame} (h : s.Shut)
    (hignores : ∀ data, frame = .data data → s.Ignores data) :
    s.Rests (Computation.final (handleFrame frame) s) := by
  cases frame with
  | seq seq => exact rests_handleSeq h seq
  | data data => exact rests_handleData h (hignores data rfl)

end SessionCore

namespace Trace

variable {config : Config} {first mid last : Trace} {polled later : List Event}

theorem Fresh.final (hfresh : Fresh config first) : first.core.Final [] := by
  have hfirst : (SessionCore.fresh config).ledger.Unclosed [] :=
    fun _ => ⟨List.not_mem_nil, List.not_mem_nil⟩
  refine ⟨SessionCore.unclosed_of_path (hfresh.books.mono ?_) hfirst, fun hclosed => ?_⟩
  · rintro _ hallowed rfl
    exact hallowed
  · have hopen : first.core.state ≠ .closed :=
      SessionCore.open_of_path hfresh.books (fun _ _ h => h) (fun _ h => h) nofun
    exact absurd hclosed hopen

theorem Tells.final (hfresh : Fresh config first)
    (htells : Tells (fun trace act => act.LeavesClosed trace) first polled last) :
    last.core.Final polled := by
  refine htells.keeps (I := SessionCore.Final) ?_ ?_ ?_ ?_ hfresh.final
  · intro trace call polled hmeets h
    exact h.step (SessionCore.books_call call _)
      (fun hshut => SessionCore.rests_call hshut (hmeets hshut.state))
      fun hopen => SessionCore.call_closes hopen call
  · intro trace input core frame polled hmeets hmet h
    refine h.step (SessionCore.books_handleFrame frame _) (fun hshut => ?_)
      fun hopen => SessionCore.frame_closes hopen frame
    exact SessionCore.rests_handleFrame hshut fun data heq =>
      hmeets core data (heq ▸ hmet) hshut.state
  · intro s polled h
    refine ⟨h.1, fun hclosed => ?_⟩
    obtain ⟨hshut, htold, hentered⟩ := h.2 hclosed
    exact ⟨⟨hshut.state, hshut.channels, hshut.queues⟩, htold, hentered⟩
  · intro s polled h
    have hevents : polled ++ s.events.head?.toList ++ s.events.tail =
        polled ++ s.events := by
      rw [List.append_assoc]
      cases s.events <;> rfl
    refine ⟨fun hopen => ?_, fun hclosed => ?_⟩
    · change .sessionClosed ∉ polled ++ s.events.head?.toList ++ s.events.tail ∧ _
      rw [hevents]
      exact h.1 hopen
    · obtain ⟨hshut, htold, hentered⟩ := h.2 hclosed
      refine ⟨⟨hshut.state, hshut.channels, hshut.queues⟩, ?_, hentered⟩
      change ∃ told, polled ++ s.events.head?.toList ++ s.events.tail = _ ∧ _
      rw [hevents]
      exact htold

/-- What is left to a session that has been closed. -/
structure Over (mid : Trace) (later : List Event) (s : SessionCore) : Prop where
  shut : s.Shut
  events : mid.core.events = later ++ s.events
  written : written s.history = written mid.core.history

theorem Over.rests {s t : SessionCore} (h : Over mid later s) (hrests : s.Rests t) :
    Over mid later t :=
  ⟨h.shut.rests hrests, by rw [hrests.events]; exact h.events,
    hrests.written.trans h.written⟩

theorem Tells.over (hmid : mid.core.Shut)
    (htells : Tells (fun trace act => act.LeavesClosed trace) mid later last) :
    Over mid later last.core := by
  refine htells.keeps (I := Over mid) ?_ ?_ ?_ ?_ ⟨hmid, rfl, rfl⟩
  · exact fun hmeets h => h.rests (SessionCore.rests_call h.shut (hmeets h.shut.state))
  · exact fun hmeets hmet h => h.rests (SessionCore.rests_handleFrame h.shut
      fun data heq => hmeets _ data (heq ▸ hmet) h.shut.state)
  · exact fun h => ⟨⟨h.shut.state, h.shut.channels, h.shut.queues⟩, h.events, h.written⟩
  · intro s later h
    refine ⟨⟨h.shut.state, h.shut.channels, h.shut.queues⟩, ?_, h.written⟩
    rw [h.events, List.append_assoc]
    cases s.events <;> rfl

/-- As long as nothing is let in after the close, the session stays closed without
channels, the close is the last event, and no octet is put out after those written
before it. -/
theorem Tells.closed_is_final (hfresh : Fresh config first)
    (hmid : Tells (fun trace act => act.LeavesClosed trace) first polled mid)
    (hclosed : mid.core.state = .closed)
    (hlast : Tells (fun trace act => act.LeavesClosed trace) mid later last) :
    (last.core.state = .closed ∧ (∀ number, last.core.channels number = none) ∧
      mid.core.events = later ++ last.core.events ∧ last.octetsOut = mid.octetsOut) ∧
    ∃ told before after, polled ++ mid.core.events = told ++ [.sessionClosed] ∧
      .sessionClosed ∉ told ∧
      mid.core.history = before ++ .dropped greetingChannel :: after ∧
      .dropped greetingChannel ∉ before ∧
      mid.octetsOut = encodeAll (written before) := by
  have hfinished := (hmid.final hfresh).2 hclosed
  have hover := hlast.over hfinished.shut
  have hfaithful := hmid.run.faithful hfresh.faithful
  refine ⟨⟨hover.shut.state, hover.shut.channels, hover.events, ?_⟩, ?_⟩
  · have hfaithful' := hlast.run.faithful hfaithful
    rw [hfaithful', hover.written, ← hfaithful]
  · obtain ⟨told, htold, hfirst⟩ := hfinished.told
    obtain ⟨before, frames, hhistory, hbefore⟩ := hfinished.entered
    refine ⟨told, before, frames.map .accepted, htold, hfirst, hhistory, hbefore, ?_⟩
    rw [hfaithful, hhistory]
    have hrests : ({ mid.core with history := before } : SessionCore).Rests
        { mid.core with history := before ++ frames.map .accepted } :=
      ⟨rfl, rfl, rfl, rfl, rfl, frames, rfl⟩
    have hwritten := hrests.written
    rw [written_append] at hwritten ⊢
    exact congrArg encodeAll hwritten

end Trace

/-- A peer greets, and asks to close the session. -/
def sessionClose : Octets :=
  peerFrame .rpy 0 0 0 Greeting.new.toPayload ++ closeRequest 0 0 52

/-- The close is accepted, a message for a channel comes late and an event is polled. -/
theorem closed_is_final_late :
    ∃ first mid later last, Trace.Fresh (Config.new .listener) first ∧
      mid = first.replay [.input sessionClose, .call (.acceptClose 0 0)] ∧
      last = mid.replay [.input (peerFrame .msg 1 0 0 [120]), .pollEvent] ∧
      mid.core.state = .closed ∧ last.core.state = .closed ∧
      mid.core.events = later ++ last.core.events ∧ last.octetsOut = mid.octetsOut := by
  have hrun : (Session.new (Config.new .listener)).toOption.any fun session =>
      let first : Trace := ⟨session, []⟩
      let asked := first.act (.input sessionClose)
      let mid := asked.act (.call (.acceptClose 0 0))
      (((first.session.received sessionClose).met
          (first.session.received sessionClose).inbound.length).all
            (fun met => decide (met.1.state ≠ .closed)) &&
        ((mid.session.received (peerFrame .msg 1 0 0 [120])).met
          (mid.session.received (peerFrame .msg 1 0 0 [120])).inbound.length).all
            (fun met => met.2.asData.all fun frame => decide (frame.channel ≠ greetingChannel))) &&
        (decide (asked.core.state ≠ .closed) && decide (mid.core.state = .closed)) := by
    decide +kernel
  obtain ⟨session, hnew⟩ := Session.new_ok (Config.new .listener)
  rw [hnew] at hrun
  obtain ⟨first, hfirst⟩ : ∃ first : Trace, first = ⟨session, []⟩ := ⟨_, rfl⟩
  have hfresh : Trace.Fresh (Config.new .listener) first := hfirst ▸ .new hnew
  obtain ⟨late, hlate⟩ : ∃ late, late = peerFrame .msg 1 0 0 [120] := ⟨_, rfl⟩
  simp only [Except.toOption, Option.any_some, ← hfirst, ← hlate] at hrun ⊢
  rw [Bool.and_eq_true, Bool.and_eq_true, Bool.and_eq_true] at hrun
  obtain ⟨⟨hbefore, hafter⟩, hasked, hclosed⟩ := hrun
  have hasked := of_decide_eq_true hasked
  have hclosed := of_decide_eq_true hclosed
  have hinput : Act.LeavesClosed first (.input sessionClose) := by
    intro core frame hmeets hstate
    rw [hfirst] at hmeets
    exact absurd hstate (of_decide_eq_true (hmeets.of_all hbefore))
  have hmid := ((Trace.Tells.refl first).act (.input sessionClose) hinput).act
    (.call (.acceptClose 0 0)) fun hstate => absurd hstate hasked
  obtain ⟨mid, hmideq⟩ : ∃ mid, mid = (first.act (.input sessionClose)).act
    (.call (.acceptClose 0 0)) := ⟨_, rfl⟩
  rw [← hmideq] at hmid hclosed hafter
  have hignored : Act.LeavesClosed mid (.input late) := by
    intro core frame hmeets _
    have hother : frame.channel ≠ greetingChannel :=
      of_decide_eq_true (hmeets.of_all hafter)
    exact ⟨fun hzero => absurd hzero hother,
      fun _ hhears => absurd hhears.1 hother⟩
  have hlast := ((Trace.Tells.refl mid).act (.input late) hignored).act .pollEvent trivial
  obtain ⟨⟨hstate, -, hevents, hoctets⟩, -⟩ :=
    Trace.Tells.closed_is_final hfresh hmid hclosed hlast
  exact ⟨first, mid, _, _, hfresh, hmideq, rfl, hclosed, hstate, hevents, hoctets⟩

/-- A closed session takes a request, opens a channel and replies. -/
theorem closed_session_opens :
    ∃ first mid last, Trace.Fresh (Config.new .listener) first ∧
      mid = first.replay [.input sessionClose, .call (.acceptClose 0 0)] ∧
      last = mid.replay [.input (startRequest 1 1 123),
        .call (.acceptStart 1 1 (.new "urn:x"))] ∧
      mid.core.state = .closed ∧ (last.core.channels 1).isSome ∧
      mid.core.events.length < last.core.events.length ∧
      mid.octetsOut.length < last.octetsOut.length := by
  have hrun : (Session.new (Config.new .listener)).toOption.any fun session =>
      let mid := Trace.replay ⟨session, []⟩
        [.input sessionClose, .call (.acceptClose 0 0)]
      let last := mid.replay [.input (startRequest 1 1 123),
        .call (.acceptStart 1 1 (.new "urn:x"))]
      (decide (mid.core.state = .closed) && (last.core.channels 1).isSome) &&
        (decide (mid.core.events.length < last.core.events.length) &&
          decide (mid.octetsOut.length < last.octetsOut.length)) := by
    decide +kernel
  obtain ⟨session, hnew⟩ := Session.new_ok (Config.new .listener)
  rw [hnew] at hrun
  simp only [Except.toOption, Option.any_some, Bool.and_eq_true, decide_eq_true_eq]
    at hrun
  obtain ⟨⟨hclosed, hopen⟩, hevents, hoctets⟩ := hrun
  exact ⟨⟨session, []⟩, _, _, .new hnew, rfl, rfl, hclosed, hopen, hevents, hoctets⟩

end Vortice.Proto
