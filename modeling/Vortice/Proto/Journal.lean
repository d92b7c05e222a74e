import Vortice.Proto.Bookkeeping

/-!
# The books along a run

What a call enters in the books, and what a run enters from its first act to its
last.  A `Journal` is the list of these entries, cut at no act, so that claims
about the order of requests, answers and closings can be read off it.
-/

namespace Vortice.Proto

open Vortice.Foundation

namespace Entry

/-- What replying to a message of channel 0 enters. -/
def repliesZero (msgno : UInt32) : Entry → Prop
  | .replied other => other = msgno
  | entry => entry.writesZero

/-- What a call enters, in the state it is made in. -/
def ofCall (s : SessionCore) : Call → Entry → Prop
  | .startChannel profile, .reserved number other =>
      number = s.nextChannel ∧ other = profile ∧
        Computation.Fails (SessionCore.startChannel profile) s
  | .startChannel profile, .askedStart _ number other =>
      number = s.nextChannel ∧ other = profile
  | .startChannel _, entry => entry.writesZero
  | .acceptStart channel _ _, .welcomed number => number = channel
  | .acceptStart _ msgno _, entry => entry.repliesZero msgno
  | .refuseStart msgno _, entry => entry.repliesZero msgno
  | .closeChannel channel, .askedClose _ number => number = channel
  | .closeChannel _, entry => entry.writesZero
  | .acceptClose channel _, .closed number => number = channel
  | .acceptClose _ msgno, entry => entry.repliesZero msgno
  | .refuseClose msgno _, entry => entry.repliesZero msgno
  | .send channel _ _ _ _, entry => entry.sends channel
  | .sendMsg channel _, entry => entry.sends channel
  | .setWindowSize _ _, entry => entry = .idle
  | .setAuthenticated _, entry => entry = .idle
  | .setServerName _, entry => entry = .idle

end Entry

namespace SessionCore

variable {s t : SessionCore}

/-! ## Calls -/

theorem keeps_reply (kind : FrameKind) (msgno : UInt32)
    (management : Management.Message) :
    Keeps (Entry.repliesZero msgno) (reply kind msgno management) := by
  intro s
  have hstep : s.Books (.replied msgno) { s with zero := s.zero.replied msgno } :=
    .replied
  have hpath : Walk Books (Entry.repliesZero msgno) s
      { s with zero := s.zero.replied msgno } := hstep.path rfl
  refine Makes.path_bind (hpath) fun _ t _ => ?_
  refine (keeps_writeZero kind msgno management t).mono fun entry h => ?_
  cases entry <;> first | exact h | exact h.elim

theorem request_run (management : Management.Message) (wanted : Pending)
    (s : SessionCore) :
    (∃ fault t, request management wanted s = .error fault t ∧
      t.ledger = s.ledger) ∨
    ∃ msgno t, msgno ∉ s.zero.outstanding ∧
      (∃ zero, Channel.allocateMsgno s.zero = .ok msgno zero) ∧
      t.ledger = s.ledger.ask msgno wanted ∧
      request management wanted s = writeZero .msg msgno management t := by
  rcases allocateMsgnoLoop_run (maxMsgNo.toNat + 1) s.zero with
    ⟨fault, zero, hrun, hbook⟩ | ⟨msgno, zero, hrun, hnew, hbook⟩
  · have hzero : onZero Channel.allocateMsgno s = .error fault { s with zero } := by
      simp only [onZero, Channel.allocateMsgno, hrun]
    refine .inl ⟨fault, _, Computation.bind_of_error hzero _, ?_⟩
    simp only [ledger, hbook]
  · have hzero : onZero Channel.allocateMsgno s = .ok msgno { s with zero } := by
      simp only [onZero, Channel.allocateMsgno, hrun]
    refine .inr ⟨msgno, { s with
      zero, pending := Function.update s.pending msgno (some wanted) }, hnew,
      ⟨zero, hrun⟩, ?_, Computation.bind_of_ok hzero _⟩
    simp only [ledger, hbook, Ledger.ask]
    rfl

theorem requireReady_ready (h : s.state = .ready) : requireReady s = .ok () s := by
  unfold requireReady
  change (if s.state = .ready then _ else _ : SessionM Unit) s = _
  rw [if_pos h]
  rfl

theorem requireReady_refuses (h : s.state ≠ .ready) :
    ∃ fault, requireReady s = .error fault s := by
  unfold requireReady
  change ∃ fault, (if s.state = .ready then _ else _ : SessionM Unit) s = _
  rw [if_neg h]
  exact ⟨_, rfl⟩

theorem keeps_startChannel (profile : Management.Profile) (s : SessionCore) :
    Walk Books (Entry.ofCall s (.startChannel profile)) s
      (Computation.final (startChannel profile) s) := by
  by_cases hready : s.state = .ready
  · obtain ⟨t, ht⟩ : ∃ t, t = { s with
        nextChannel := s.nextChannel + 2
        halfOpen := Function.update s.halfOpen s.nextChannel (some profile) } :=
      ⟨_, rfl⟩
    have hrun : startChannel profile s = (do
        request (.start (Management.Start.new s.nextChannel profile))
          (.start s.nextChannel)
        return s.nextChannel : SessionM UInt32) t := by
      subst ht
      exact Computation.bind_of_ok (requireReady_ready hready) _
    have hreserve : t.ledger = s.ledger.reserve profile := by
      subst ht
      rfl
    rcases request_run (.start (Management.Start.new s.nextChannel profile))
        (.start s.nextChannel) t with
      ⟨fault, u, hrequest, hledger⟩ | ⟨msgno, u, hnew, -, hledger, hrequest⟩
    · have hfails : startChannel profile s = .error fault u := by
        rw [hrun, Computation.bind_of_error hrequest]
      have hstep : s.Books (.reserved s.nextChannel profile) u := by
        rw [Books, hledger, hreserve]
        exact .reserved hready
      rw [Computation.final_of_error hfails]
      exact hstep.path ⟨rfl, rfl, fault, u, hfails⟩
    · have hnew' : msgno ∉ s.ledger.zero.outstanding := by
        subst ht
        exact hnew
      have hstep : s.Books (.askedStart msgno s.nextChannel profile) u := by
        rw [Books, hledger, hreserve]
        exact .askedStart hready hnew'
      have hasked : Walk Books (Entry.ofCall s (.startChannel profile)) s u :=
        hstep.path ⟨rfl, rfl⟩
      have hfinal : Computation.final (startChannel profile) s =
          Computation.final (writeZero .msg msgno
            (.start (Management.Start.new s.nextChannel profile))) u := by
        rw [Computation.final, hrun, ← Computation.final, Computation.final_drop,
          Computation.final, hrequest, ← Computation.final]
      rw [hfinal]
      refine hasked.trans ((keeps_writeZero .msg msgno _ u).mono fun entry h => ?_)
      cases entry <;> first | exact h | exact h.elim
  · obtain ⟨fault, hrefused⟩ := requireReady_refuses hready
    have hfails : startChannel profile s = .error fault s :=
      Computation.bind_of_error hrefused _
    rw [Computation.final_of_error hfails]
    exact Walk.refl

theorem keeps_closeChannel (channel : UInt32) (s : SessionCore) :
    Walk Books (Entry.ofCall s (.closeChannel channel)) s
      (Computation.final (closeChannel channel) s) := by
  by_cases hready : s.state = .ready
  · have hrun : closeChannel channel s =
        (if channel ≠ greetingChannel ∧ (s.channels channel).isNone then
          raise (.noSuchChannel channel)
        else request (.close (Management.Close.new channel)) (.close channel) :
          SessionM Unit) s :=
      Computation.bind_of_ok (requireReady_ready hready) _
    rw [Computation.final, hrun, ← Computation.final]
    split
    · exact Walk.refl
    rename_i hopen
    rcases request_run (.close (Management.Close.new channel)) (.close channel) s with
      ⟨fault, t, hrequest, hledger⟩ | ⟨msgno, t, hnew, -, hledger, hrequest⟩
    · rw [Computation.final_of_error hrequest]
      exact path_same hledger trivial
    · have hopen' : (s.ledger.bookAt channel).isSome := by
        by_cases hzero : channel = greetingChannel
        · simp [Ledger.bookAt, hzero]
        · refine bookAt_of_channel (Option.isSome_iff_ne_none.mpr ?_)
          simpa [hzero] using hopen
      have hstep : s.Books (.askedClose msgno channel) t := by
        rw [Books, hledger]
        exact .askedClose hready hnew hopen'
      have hasked : Walk Books (Entry.ofCall s (.closeChannel channel)) s t :=
        hstep.path rfl
      rw [Computation.final, hrequest, ← Computation.final]
      refine hasked.trans ((keeps_writeZero .msg msgno _ t).mono fun entry h => ?_)
      cases entry <;> first | exact h | exact h.elim
  · obtain ⟨fault, hrefused⟩ := requireReady_refuses hready
    have hfails : closeChannel channel s = .error fault s :=
      Computation.bind_of_error hrefused _
    rw [Computation.final_of_error hfails]
    exact Walk.refl

theorem keeps_acceptStart (channel msgno : UInt32) (profile : Management.Profile)
    (s : SessionCore) :
    Walk Books (Entry.ofCall s (.acceptStart channel msgno profile)) s
      (Computation.final (acceptStart channel msgno profile) s) := by
  unfold acceptStart
  change Walk _ _ s (Computation.final
    (if channel = greetingChannel ∨ s.config.role.owns channel then _
      else if (s.channels channel).isSome then _ else _ : SessionM Unit) s)
  split
  · exact Walk.refl
  rename_i hnumber
  split
  · exact Walk.refl
  rename_i hopen
  obtain ⟨hzero, howns⟩ := not_or.mp hnumber
  have htable : s.ledger.table channel = none := by
    rw [table_ledger, Option.map_eq_none_iff]
    simpa using hopen
  have hstep : s.Books (.welcomed channel) (record { s with
      channels := Function.update s.channels channel
        (some (Channel.withWindowSize channel profile.uri s.config.windowSize)) }
      (.opened channel)) := by
    have hentry : s.ledger.Step (.welcomed channel) _ :=
      .welcomed hzero (Bool.not_eq_true _ ▸ howns) htable
    simp only [Books, record, ledger, Function.comp_update, entered_append]
    exact hentry
  have hpath : Walk Books (Entry.ofCall s (.acceptStart channel msgno profile)) s _ :=
    hstep.path rfl
  refine hpath.trans ((keeps_reply .rpy msgno (.profile profile) _).mono ?_)
  intro entry h
  cases entry <;> first | exact h | exact h.elim

theorem acceptClose_books (channel msgno : UInt32) (s : SessionCore) :
    ∃ t, Walk Books (Entry.repliesZero msgno) s t ∧
      (Computation.final (acceptClose channel msgno) s = t ∨
        ¬ Computation.Fails (reply .rpy msgno .ok) s ∧
          Computation.final (acceptClose channel msgno) s =
            Computation.final (finishClose channel) t) := by
  have hreply := keeps_reply .rpy msgno .ok s
  unfold acceptClose
  cases hrun : reply .rpy msgno .ok s with
  | error fault t =>
      rw [Computation.final_of_error hrun] at hreply
      refine ⟨t, hreply, .inl ?_⟩
      exact Computation.final_of_error (Computation.bind_of_error hrun _)
  | ok _ t =>
      rw [Computation.final_of_ok hrun] at hreply
      refine ⟨t, hreply, .inr ⟨?_, ?_⟩⟩
      · rintro ⟨fault, u, hfails⟩
        rw [hrun] at hfails
        cases hfails
      · rw [Computation.final, Computation.bind_of_ok hrun, ← Computation.final]

theorem keeps_acceptClose (channel msgno : UInt32) (s : SessionCore) :
    Walk Books (Entry.ofCall s (.acceptClose channel msgno)) s
      (Computation.final (acceptClose channel msgno) s) := by
  obtain ⟨t, hreply, hfinal⟩ := acceptClose_books channel msgno s
  have hpath : Walk Books (Entry.ofCall s (.acceptClose channel msgno)) s t :=
    hreply.mono fun entry h => by cases entry <;> first | exact h | exact h.elim
  rcases hfinal with hfinal | ⟨-, hfinal⟩
  · rwa [hfinal]
  · rw [hfinal]
    refine hpath.trans ((books_finishClose channel t).path ?_)
    rfl

theorem keeps_advertiseWindow {allowed : Entry → Prop} (number : UInt32)
    (hidle : allowed .idle) : Keeps allowed (advertiseWindow number) := by
  unfold advertiseWindow
  refine Makes.get_bind fun s => ?_
  split
  · exact Walk.refl
  split
  · exact Walk.refl
  split
  · exact path_same (ledger_write _ s) hidle
  · exact Walk.refl

theorem keeps_call (call : Call) (s : SessionCore) :
    Walk Books (Entry.ofCall s call) s (Computation.final call.run s) := by
  cases call with
  | startChannel profile =>
      change Walk _ _ s (Computation.final
        (startChannel profile >>= fun _ => pure ()) s)
      rw [Computation.final_drop]
      exact keeps_startChannel profile s
  | acceptStart channel msgno profile => exact keeps_acceptStart channel msgno profile s
  | refuseStart msgno error => exact keeps_reply .err msgno (.error error) s
  | closeChannel channel => exact keeps_closeChannel channel s
  | acceptClose channel msgno => exact keeps_acceptClose channel msgno s
  | refuseClose msgno error => exact keeps_reply .err msgno (.error error) s
  | send channel kind msgno ansno payload => exact keeps_send kind msgno ansno payload s
  | sendMsg channel payload =>
      change Walk _ _ s (Computation.final
        (sendMsg channel payload >>= fun _ => pure ()) s)
      rw [Computation.final_drop]
      exact keeps_sendMsg payload s
  | setWindowSize channel size =>
      have hresize : KeepsBook (modify (·.setRecvWindowSize size)) := fun _ => rfl
      exact path_same (ledger_onOpen channel hresize s) rfl
  | setAuthenticated identity => exact path_same rfl rfl
  | setServerName name => exact path_same rfl rfl

end SessionCore

/-! ## Runs -/

namespace Session

/-- A session with input that has not been looked at yet. -/
def received (session : Session) (input : Octets) : Session :=
  { session with inbound := session.inbound ++ input }

/-- The frames met in the input, each with the state it is handled in. -/
def met : Nat → Session → List (SessionCore × Frame)
  | 0, _ => []
  | fuel + 1, session =>
      match session.decoder.decode session.inbound with
      | (decoder, inbound, .ok (some frame)) =>
          (session.core, frame) ::
            match SessionCore.handleFrame frame session.core with
            | .ok () core => met fuel ⟨core, decoder, inbound⟩
            | .error _ _ => []
      | _ => []

theorem Meets.mem_met {session : Session} {core : SessionCore} {frame : Frame}
    (h : session.Meets core frame) {fuel : Nat} (hfuel : session.inbound.length ≤ fuel) :
    (core, frame) ∈ session.met fuel := by
  induction h generalizing fuel with
  | @first session decoder inbound frame hdecode =>
      have hshort := Decoder.decode_shortens hdecode
      cases fuel with
      | zero => omega
      | succ fuel =>
          rw [met, hdecode]
          exact List.mem_cons_self
  | @later session decoder inbound frame found core core' hdecode hrun _ ih =>
      have hshort := Decoder.decode_shortens hdecode
      cases fuel with
      | zero => omega
      | succ fuel =>
          rw [met, hdecode]
          simp only [hrun]
          refine List.mem_cons_of_mem _ (ih ?_)
          change inbound.length ≤ fuel
          omega

theorem Meets.of_all {session : Session} {core : SessionCore} {frame : Frame}
    {check : SessionCore × Frame → Bool}
    (hall : (session.met session.inbound.length).all check)
    (h : session.Meets core frame) : check (core, frame) :=
  List.all_eq_true.mp hall _ (h.mem_met le_rfl)

theorem handleFrames_preserves {I : SessionCore → Prop} (fuel : Nat) (session : Session)
    (hframe : ∀ {core frame}, session.Meets core frame → I core →
      I (Computation.final (SessionCore.handleFrame frame) core))
    (h : I session.core) : I (session.handleFrames fuel).1.core := by
  induction fuel generalizing session with
  | zero => exact h
  | succ fuel ih =>
      rw [handleFrames]
      rcases hdecode : session.decoder.decode session.inbound with
        ⟨decoder, inbound, error | _ | frame⟩
      · exact h
      · exact h
      · have hfirst := hframe (.first hdecode) h
        simp only
        cases hrun : SessionCore.handleFrame frame session.core with
        | error fault core => rwa [Computation.final_of_error hrun] at hfirst
        | ok _ core =>
            rw [Computation.final_of_ok hrun] at hfirst
            exact ih ⟨core, decoder, inbound⟩
              (fun hmeets => hframe (.later hdecode hrun hmeets)) hfirst

theorem handleInput_preserves {I : SessionCore → Prop} (session : Session)
    (input : Octets)
    (hframe : ∀ {core frame}, (session.received input).Meets core frame → I core →
      I (Computation.final (SessionCore.handleFrame frame) core))
    (h : I session.core) : I (session.handleInput input).1.core :=
  handleFrames_preserves _ (session.received input) hframe h

end Session

namespace Trace

open SessionCore (Books)

variable {meets : Trace → Act → Prop} {config : Config} {first last : Trace}

theorem act_pollEvent_core (trace : Trace) :
    (trace.act .pollEvent).core =
      { trace.core with events := trace.core.events.tail } :=
  final_pollEvent trace.core

theorem act_pollTransmit_core (trace : Trace) :
    (trace.act .pollTransmit).core = { trace.core with outbound := [] } := by
  rw [act_pollTransmit]
  rfl

/-- What an act hands to the layer above. -/
def polledBy (trace : Trace) : Act → List Event
  | .call _ | .input _ | .pollTransmit => []
  | .pollEvent => trace.core.events.head?.toList

/-- A run, and the events polled along it. -/
inductive Tells (meets : Trace → Act → Prop) : Trace → List Event → Trace → Prop where
  | refl (trace : Trace) : Tells meets trace [] trace
  | act {first last : Trace} {polled : List Event} (act : Act) :
      Tells meets first polled last → meets last act →
      Tells meets first (polled ++ last.polledBy act) (last.act act)

theorem Tells.run {polled : List Event} (h : Tells meets first polled last) :
    Run meets first last := by
  induction h with
  | refl => exact .refl _
  | act act _ hmeets ih => exact .act act ih hmeets

theorem Run.tells (h : Run meets first last) :
    ∃ polled, Tells meets first polled last := by
  induction h with
  | refl => exact ⟨[], .refl _⟩
  | act act _ hmeets ih =>
      obtain ⟨polled, htells⟩ := ih
      exact ⟨_, htells.act act hmeets⟩

theorem Run.replay_of (first : Trace) {acts : List Act}
    (h : ∀ act ∈ acts, ∀ trace, meets trace act) :
    Run meets first (first.replay acts) := by
  induction acts using List.reverseRecOn with
  | nil => exact .refl first
  | append_singleton acts act ih =>
      rw [Trace.replay, List.foldl_append]
      refine .act act (ih fun other hmem => h other (List.mem_append_left _ hmem)) ?_
      exact h act (List.mem_append_right _ (List.mem_singleton_self act)) _

/-- What calls, frames and polls preserve, with the events polled so far, holds all
along a run. -/
theorem Tells.keeps {I : List Event → SessionCore → Prop} {polled : List Event}
    (hcall : ∀ {trace call polled}, meets trace (.call call) → I polled trace.core →
      I polled (Computation.final call.run trace.core))
    (hframe : ∀ {trace input core frame polled}, meets trace (.input input) →
      (trace.session.received input).Meets core frame → I polled core →
      I polled (Computation.final (SessionCore.handleFrame frame) core))
    (htransmit : ∀ {s : SessionCore} {polled}, I polled s →
      I polled { s with outbound := [] })
    (hevent : ∀ {s : SessionCore} {polled}, I polled s →
      I (polled ++ s.events.head?.toList) { s with events := s.events.tail })
    (htells : Tells meets first polled last) (h : I [] first.core) :
    I polled last.core := by
  induction htells with
  | refl => exact h
  | @act last polled act _ hmeets ih =>
      cases act with
      | call call =>
          rw [polledBy, List.append_nil]
          exact hcall hmeets ih
      | input octets =>
          rw [polledBy, List.append_nil]
          exact last.session.handleInput_preserves octets
            (fun hmet => hframe hmeets hmet) ih
      | pollTransmit =>
          rw [polledBy, List.append_nil, act_pollTransmit_core]
          exact htransmit ih
      | pollEvent =>
          rw [polledBy, act_pollEvent_core]
          exact hevent ih

theorem Run.keeps {I : SessionCore → Prop}
    (hcall : ∀ {trace call}, meets trace (.call call) → I trace.core →
      I (Computation.final call.run trace.core))
    (hframe : ∀ {trace input core frame}, meets trace (.input input) →
      (trace.session.received input).Meets core frame → I core →
      I (Computation.final (SessionCore.handleFrame frame) core))
    (htransmit : ∀ {s : SessionCore}, I s → I { s with outbound := [] })
    (hevent : ∀ {s : SessionCore}, I s → I { s with events := s.events.tail })
    (hrun : Run meets first last) (h : I first.core) : I last.core := by
  obtain ⟨polled, htells⟩ := hrun.tells
  exact htells.keeps (I := fun _ => I) hcall hframe htransmit hevent h

theorem Run.keeps_books {I : Ledger → Prop}
    (hstep : ∀ {l l' : Ledger} {entry : Entry}, l.Step entry l' → I l → I l')
    (hrun : Run meets first last) (h : I first.core.ledger) : I last.core.ledger := by
  refine hrun.keeps (I := fun s => I s.ledger) ?_ ?_ id ?_ h
  · intro trace call _ hledger
    refine (SessionCore.keeps_call call trace.core).preserves
      (I := fun s : SessionCore => I s.ledger) (fun _ => hstep) hledger
  · intro trace input core frame _ _ hledger
    exact (SessionCore.keeps_handleFrame frame core).preserves
      (I := fun s : SessionCore => I s.ledger) (fun _ => hstep) hledger
  · exact fun hledger => hstep .polled hledger

theorem Fresh.books (h : Fresh config first) :
    Walk Books Entry.writesZero (SessionCore.fresh config) first.core := by
  obtain ⟨hnew⟩ := h
  have hgreet : Walk Books Entry.writesZero (SessionCore.fresh config)
      (Computation.final SessionCore.greet (SessionCore.fresh config)) := by
    unfold SessionCore.greet
    refine Makes.path_get_bind ?_
    have hsubmitted : Walk Books Entry.writesZero (SessionCore.fresh config)
        ((SessionCore.fresh config).submitted greetingChannel
          (SessionCore.greetingMessage config)) :=
      SessionCore.path_submitted _ rfl rfl rfl
    refine hsubmitted.trans ((SessionCore.keeps_flush greetingChannel trivial).bind
      (fun _ => ?_) _)
    exact SessionCore.keeps_advertiseWindow greetingChannel trivial
  unfold Session.new at hnew
  cases hrun : SessionCore.greet (SessionCore.fresh config) with
  | error fault core =>
      rw [hrun] at hnew
      cases hnew
  | ok _ core =>
      rw [hrun] at hnew
      cases hnew
      rwa [Computation.final_of_ok hrun] at hgreet

end Trace

end Vortice.Proto
