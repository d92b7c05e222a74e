import Vortice.Proto.Answers
import Vortice.Proto.Numbers

/-!
# `MSG`s handed over

A call hands over one `MSG` at most.  When it fails after that, the window had room for
a message that no frame can carry.
-/

namespace Vortice.Proto

open Vortice.Foundation

/-- The `MSG`s handed over for a channel. -/
def askedOn (number : UInt32) (history : List Action) : List Queued :=
  (handedOn number history).filter (·.kind = .msg)

namespace Flow

/-- The window has room for a message of the queue that no frame can carry. -/
def Jams (flow : Flow) (queue : List Queued) : Prop :=
  ∃ before front after, queue = before ++ front :: after ∧
    ¬ Frameable flow.number front.tag ∧ waiting before ≤ flow.writable.toNat ∧
    (front.payload = [] ∨ waiting before < flow.writable.toNat)

variable {flow : Flow} {queue queue' : List Queued}

theorem not_jams_nil : ¬ flow.Jams [] := by
  rintro ⟨before, front, after, heq, -⟩
  cases before <;> cases heq

theorem Jams.of_snoc {message : Queued} (h : flow.Jams (queue ++ [message]))
    (hframeable : Frameable flow.number message.tag) : flow.Jams queue := by
  obtain ⟨before, front, after, heq, hfront, hroom⟩ := h
  cases after using List.reverseRecOn with
  | nil =>
      obtain ⟨-, hlast⟩ := List.append_inj' heq rfl
      cases hlast
      exact absurd hframeable hfront
  | append_singleton after last =>
      rw [← List.cons_append, ← List.append_assoc] at heq
      obtain ⟨hqueue, -⟩ := List.append_inj' heq rfl
      exact ⟨before, front, after, hqueue, hfront, hroom⟩

theorem waiting_append (first second : List Queued) :
    waiting (first ++ second) = waiting first + waiting second := by
  simp [waiting]

/-- What is left of a queue starts where the window, or the frames, end: in a message of
the queue, of which a part may have been written. -/
theorem Writes.cuts {frames : List DataFrame} {count : Nat} {left : Queued}
    (h : flow.Writes queue frames (left :: queue') count) :
    ∃ before front after sent, queue = before ++ front :: after ∧
      front.tag = left.tag ∧ front.payload = sent ++ left.payload ∧
      count = waiting before + sent.length := by
  obtain ⟨held, done, rest, -, hcontinues, hpending⟩ :=
    h.joins (.fresh (queue.map Queued.whole))
  have hconserves := h.conserves
  -- The message the rest starts with, whatever of it is held.
  have hrest : ∃ whole, rest = whole :: queue'.map Queued.whole ∧
      whole.tag = left.tag ∧ ∃ sent, whole.payload = sent ++ left.payload := by
    rw [List.map_cons] at hcontinues
    generalize hleft : left.whole = found at hcontinues
    cases hcontinues with
    | fresh =>
        subst hleft
        exact ⟨left.whole, rfl, rfl, [], rfl⟩
    | resumed whole =>
        have hpayload := congrArg Whole.payload hleft
        exact ⟨_, rfl, (congrArg Whole.tag hleft).symm, whole.payload,
          congrArg (whole.payload ++ ·) hpayload.symm⟩
  obtain ⟨whole, rfl, htag, sent, hpayload⟩ := hrest
  obtain ⟨before, after, hqueue, -, hafter⟩ := List.map_eq_append_iff.mp hpending
  obtain ⟨front, after, rfl, hfront, hmap⟩ := List.map_eq_cons_iff.mp hafter
  subst hfront
  refine ⟨before, front, after, sent, hqueue, htag, hpayload, ?_⟩
  have hsame : waiting after = waiting queue' := by
    have hlengths := congrArg (fun wholes : List (Whole Tag UInt8) =>
      (wholes.map (·.payload.length)).sum) hmap
    simpa [waiting, Function.comp_def, Queued.whole] using hlengths
  have hlength := congrArg List.length hpayload
  rw [List.length_append] at hlength
  change front.payload.length = _ at hlength
  rw [hqueue, waiting_append, waiting_cons, waiting_cons, hsame, hlength] at hconserves
  omega

theorem Writes.waits_of_not_jams {frames : List DataFrame} {count : Nat}
    (h : flow.Writes queue frames queue' count) (hjams : ¬ flow.Jams queue) :
    ∀ front ∈ queue'.head?, (flow.advance count).Waits front := by
  intro left hleft
  refine (h.stops left hleft).resolve_right fun hrefuses => hjams ?_
  obtain ⟨hframeable, hroom⟩ := hrefuses
  have hfits := h.fits
  cases queue' with
  | nil => cases hleft
  | cons left queue' =>
      cases hleft
      obtain ⟨before, front, after, sent, hqueue, htag, hpayload, hcount⟩ := h.cuts
      refine ⟨before, front, after, hqueue, htag ▸ hframeable, by omega, ?_⟩
      by_cases hsent : sent = []
      · subst hsent
        rw [List.length_nil, Nat.add_zero] at hcount
        rw [hpayload, List.nil_append, ← hcount]
        refine hroom.imp_right fun hne => ?_
        have hleft : (flow.advance count).writable.toNat = flow.writable.toNat - count :=
          Window.toNat_remaining_add hfits
        have hpos : (flow.advance count).writable.toNat ≠ 0 :=
          fun hzero => hne (UInt32.toNat_inj.mp hzero)
        omega
      · have hlength := List.length_pos_iff.mpr hsent
        exact .inr (by omega)

end Flow

namespace SessionCore

/-- The window of a channel has room for a queued message that no frame can carry. -/
def Jams (s : SessionCore) (number : UInt32) : Prop :=
  ∃ flow, (s.lane number).flow = some flow ∧ flow.Jams (s.lane number).queue

variable {s s' t : SessionCore} {number : UInt32}

theorem Jams.of_lane (hlane : t.lane number = s.lane number) (h : t.Jams number) :
    s.Jams number := by
  unfold Jams at h ⊢
  rwa [hlane] at h

/-! ## Calls that hand a `MSG` over -/

theorem push_ok {message : Queued} (hopen : (s.lane number).flow.isSome)
    (hplaced : s.Placed) (hjams : ¬ s.Jams number)
    (hframeable : Frameable number message.tag) :
    ∃ t, flush number (s.submitted number message) = .ok () t := by
  obtain ⟨flow, hflow⟩ := Option.isSome_iff_exists.mp hopen
  obtain ⟨t, result, frames, queue', count, hrun, hpushed, hok⟩ := push_run message hflow
  have hnumber : flow.number = number := hplaced number flow hflow
  have hfree : ¬ flow.Jams ((s.lane number).queue ++ [message]) :=
    fun h => hjams ⟨flow, hflow, h.of_snoc (hnumber.symm ▸ hframeable)⟩
  have hresult : result = .ok () := hok.mpr (hpushed.writes.waits_of_not_jams hfree)
  subst hresult
  exact ⟨t, Computation.ok_of_outcome hrun⟩

/-- A request is handed over and written, or there is no number left for it. -/
theorem request_handed (management : Management.Message) (wanted : Pending)
    (hplaced : s.Placed) (hnumbered : s.Numbered) (hjams : ¬ s.Jams greetingChannel) :
    (∃ t, request management wanted s = .ok () t) ∨
      ∃ fault t, request management wanted s = .error fault t ∧ t.history = s.history := by
  obtain ⟨hflow, -⟩ := keepsFlow_allocateMsgnoLoop (maxMsgNo.toNat + 1) s.zero
  cases hrun : Channel.allocateMsgno s.zero with
  | error fault zero =>
      have hzero : onZero Channel.allocateMsgno s = .error fault { s with zero } := by
        simp only [onZero, hrun]
      exact .inr ⟨fault, _, Computation.bind_of_error hzero _, rfl⟩
  | ok msgno zero =>
      have hzero : onZero Channel.allocateMsgno s = .ok msgno { s with zero } := by
        simp only [onZero, hrun]
      obtain ⟨t, ht⟩ : ∃ t, t = { s with
          zero, pending := Function.update s.pending msgno (some wanted) } := ⟨_, rfl⟩
      have hlane : t.lane = s.lane := by
        subst ht
        have hsame : zero.flow = s.zero.flow := by
          change (Computation.final Channel.allocateMsgno s.zero).flow = _ at hflow
          rwa [Computation.final_of_ok hrun] at hflow
        funext number
        by_cases hnumber : number = greetingChannel <;>
          simp [SessionCore.lane, channelAt, hnumber, hsame]
      have hplaced' : t.Placed := fun number => by
        rw [hlane]
        exact hplaced number
      have hframeable : Frameable greetingChannel (.msg, msgno, none) :=
        ⟨rfl, by decide, allocateMsgnoLoop_le hnumbered.1 hrun, fun n hn => by cases hn⟩
      obtain ⟨u, hok⟩ : ∃ u, flush greetingChannel
          (t.submitted greetingChannel ⟨.msg, msgno, none, management.toPayload⟩) = .ok () u :=
        push_ok (by rw [flow_zero]; rfl) hplaced'
          (fun h => hjams (h.of_lane (congrFun hlane _))) hframeable
      have hcall : request management wanted s = writeZero .msg msgno management t := by
        rw [ht]
        exact Computation.bind_of_ok hzero _
      exact .inl ⟨u, hcall.trans hok⟩

theorem startChannel_handed (profile : Management.Profile) (hplaced : s.Placed)
    (hnumbered : s.Numbered) (hjams : s.state = .ready → ¬ s.Jams greetingChannel) :
    (∃ number t, startChannel profile s = .ok number t) ∨
      ∃ fault t, startChannel profile s = .error fault t ∧ t.history = s.history := by
  by_cases hready : s.state = .ready
  · obtain ⟨t, ht⟩ : ∃ t, t = { s with
        nextChannel := s.nextChannel + 2
        halfOpen := Function.update s.halfOpen s.nextChannel (some profile) } :=
      ⟨_, rfl⟩
    have hrun : startChannel profile s = (do
        request (.start (Management.Start.new s.nextChannel profile))
          (.start s.nextChannel)
        return s.nextChannel : SessionM UInt32) t := by
      rw [ht]
      exact Computation.bind_of_ok (requireReady_ready hready) _
    have hfree : ¬ t.Jams greetingChannel := by
      rw [ht]
      exact hjams hready
    have hplaced' : t.Placed := by rwa [ht]
    have hnumbered' : t.Numbered := by rwa [ht]
    have hhistory : t.history = s.history := by rw [ht]
    rcases request_handed (.start (Management.Start.new s.nextChannel profile))
        (.start s.nextChannel) hplaced' hnumbered' hfree with
      ⟨u, hok⟩ | ⟨fault, u, herror, hsame⟩
    · exact .inl ⟨_, u, hrun.trans (Computation.bind_of_ok hok _)⟩
    · exact .inr ⟨fault, u, hrun.trans (Computation.bind_of_error herror _),
        hsame.trans hhistory⟩
  · obtain ⟨fault, hrefused⟩ := startChannel_refused hready profile
    exact .inr ⟨fault, s, hrefused, rfl⟩

theorem closeChannel_handed (channel : UInt32) (hplaced : s.Placed)
    (hnumbered : s.Numbered)
    (hjams : s.state = .ready → (s.channelAt channel).isSome → ¬ s.Jams greetingChannel) :
    (∃ t, closeChannel channel s = .ok () t) ∨
      ∃ fault t, closeChannel channel s = .error fault t ∧ t.history = s.history := by
  by_cases hready : s.state = .ready
  · have hrun : closeChannel channel s =
        (if channel ≠ greetingChannel ∧ (s.channels channel).isNone then
          raise (.noSuchChannel channel)
        else request (.close (Management.Close.new channel)) (.close channel) :
          SessionM Unit) s :=
      Computation.bind_of_ok (requireReady_ready hready) _
    rw [hrun]
    split
    · exact .inr ⟨_, s, rfl, rfl⟩
    · rename_i hopen
      refine request_handed _ _ hplaced hnumbered (hjams hready ?_)
      unfold channelAt
      split
      · rfl
      · rename_i hzero
        simpa [hzero, Option.isSome_iff_ne_none] using hopen
  · obtain ⟨fault, hrefused⟩ := requireReady_refuses hready
    exact .inr ⟨fault, s, Computation.bind_of_error hrefused _, rfl⟩

/-- What changes no lane and enters nothing in the history is in nobody's way. -/
theorem Move.idle_same (h : Move s .idle t) :
    t.lane = s.lane ∧ t.history = s.history := by
  cases h with
  | idle hlane hlogs => exact ⟨hlane, by simpa using hlogs.history⟩

theorem send_msg_ok (msgno : UInt32) (payload : Octets)
    (hopen : (s.channels number).isSome) (hplaced : s.Placed) (hle : number ≤ maxChannelNo)
    (hmsgno : msgno ≤ maxMsgNo) (hjams : ¬ s.Jams number) :
    ∃ t, send number .msg msgno none payload s = .ok () t := by
  obtain ⟨channel, hchannel⟩ := Option.isSome_iff_exists.mp hopen
  obtain ⟨t, -, hidle, -, hsend⟩ := send_open .msg msgno none payload hchannel
  obtain ⟨hlane, -⟩ := hidle.idle_same
  have hflow := hidle.flow_isSome (by simp) (by simp) (flow_isSome_of_open hopen)
  have hheld : ¬ t.holdsBack number .msg msgno := by simp [holdsBack, isReply]
  obtain ⟨u, hok⟩ : ∃ u, flush number
      (t.submitted number ⟨.msg, msgno, none, payload⟩) = .ok () u :=
    push_ok hflow (hidle.placed hplaced) (fun h => hjams (h.of_lane (congrFun hlane _)))
      ⟨rfl, hle, hmsgno, fun n hn => by cases hn⟩
  refine ⟨u, hsend.trans ((submit_pushed hheld).trans ?_)⟩
  exact Computation.bind_of_ok hok _

theorem sendMsg_handed (payload : Octets) (hplaced : s.Placed) (hnumbered : s.Numbered)
    (hsends : (s.channels number).isSome → number ≤ maxChannelNo ∧ ¬ s.Jams number) :
    (∃ msgno t, sendMsg number payload s = .ok msgno t) ∨
      ∃ fault t, sendMsg number payload s = .error fault t ∧ t.history = s.history := by
  cases hchannel : s.channels number with
  | none => exact .inr ⟨_, s, sendMsg_closed payload hchannel, rfl⟩
  | some channel =>
      obtain ⟨hle, hjams⟩ := hsends (by rw [hchannel]; rfl)
      obtain ⟨t, hidle, hallocated⟩ := allocate_cases hchannel
      obtain ⟨hlane, hhistory⟩ := hidle.idle_same
      rcases hallocated with ⟨fault, hrun⟩ | ⟨msgno, hrun, hopen, hmsgno⟩
      · exact .inr ⟨fault, t, Computation.bind_of_error hrun _, hhistory⟩
      · obtain ⟨u, hok⟩ := send_msg_ok msgno payload hopen (hidle.placed hplaced) hle
          (hmsgno hnumbered) fun h => hjams (h.of_lane (congrFun hlane _))
        exact .inl ⟨msgno, u, (Computation.bind_of_ok hrun _).trans
          (Computation.bind_of_ok hok _)⟩

/-! ## Calls that hand over no `MSG` -/

/-- Whatever the method hands over, it is no `MSG`. -/
abbrev AsksNothing {α : Type} (method : SessionM α) : Prop :=
  Computation.Relates (fun s t : SessionCore =>
    ∀ number, askedOn number t.history = askedOn number s.history) method

theorem AsksNothing.bind {α β : Type} {method : SessionM α} {rest : α → SessionM β}
    (hmethod : AsksNothing method) (hrest : ∀ a, AsksNothing (rest a)) :
    AsksNothing (method >>= rest) :=
  Computation.relates_bind
    (fun _ _ _ first second number => (second number).trans (first number)) hmethod hrest

theorem askedOn_of_walk {allowed : Effect → Prop} (h : Walk Move allowed s t)
    (hallowed : ∀ effect other message, allowed effect →
      effect = .lane other (.push message) ∨ effect = .lane other (.hold message) →
        message.kind ≠ .msg) (number : UInt32) :
    askedOn number t.history = askedOn number s.history := by
  refine h.preserves (I := fun u => askedOn number u.history = askedOn number s.history)
    (fun {u v effect} heffect hmove hu => (hmove.handed_filter fun message hpushed => ?_).trans hu)
    rfl
  exact decide_eq_false (hallowed effect number message heffect hpushed)

theorem asksNothing_reply {kind : FrameKind} (hkind : kind ≠ .msg) (msgno : UInt32)
    (management : Management.Message) : AsksNothing (reply kind msgno management) := by
  refine fun s => askedOn_of_walk (does_reply kind msgno management s) ?_
  rintro effect other message heffect (rfl | rfl)
  · obtain ⟨-, rfl⟩ := heffect
    exact hkind
  · cases heffect

theorem asksNothing_finishClose (channel : UInt32) : AsksNothing (finishClose channel) := by
  refine fun s => askedOn_of_walk (does_finishClose channel s) ?_
  rintro effect other message heffect (rfl | rfl) <;> cases heffect

theorem asksNothing_acceptStart (channel msgno : UInt32) (profile : Management.Profile) :
    AsksNothing (acceptStart channel msgno profile) := by
  intro s
  unfold acceptStart
  change ∀ number, askedOn number (Computation.final
    (if channel = greetingChannel ∨ s.config.role.owns channel then _
      else if (s.channels channel).isSome then _ else _ : SessionM Unit) s).history = _
  split
  · exact fun _ => rfl
  split
  · exact fun _ => rfl
  have hopened : AsksNothing (openChannel channel profile.uri) := fun s number =>
    handedOn_filter_append _ fun message hmem => by simp at hmem
  exact hopened.bind (fun _ => asksNothing_reply (by decide) msgno _) s

theorem asksNothing_send {kind : FrameKind} (hkind : kind ≠ .msg) (msgno : UInt32)
    (ansno : Option UInt32) (payload : Octets) :
    AsksNothing (send number kind msgno ansno payload) := by
  refine fun s => askedOn_of_walk (path_send number kind msgno ansno payload s) ?_
  rintro effect other message heffect (rfl | rfl) <;>
  · obtain ⟨-, rfl⟩ := heffect
    exact hkind

end SessionCore

end Vortice.Proto
