import Vortice.Foundation.Exchange
import Vortice.Proto.Numbers

/-!
# Requests on channel 0 and their answers

What a session asks for on channel 0, and the replies of the peer that it takes
as answers, kept as a log along the run.  While every call succeeds, the requests
under way are those the log leaves unanswered.
-/

namespace Vortice.Proto

open Vortice.Foundation

/-- A request of channel 0 under its message number, or the answer to one. -/
abbrev Talk := Exchange UInt32 Pending Management.Message

/-- The event that reports the answer to a request. -/
def Pending.event : Pending → Management.Message → Option Event
  | .start number, .profile profile => some (.channelOpened number profile)
  | .start number, .error error => some (.startRefused number error)
  | .close number, .error error => some (.closeRefused number error)
  | _, _ => none

/-- What is reported of an exchange. -/
def reported : Talk → Option Event
  | .asked _ _ => none
  | .answered _ wanted management => wanted.event management

/-- The event reports an answer. -/
def Event.isAnswer : Event → Bool
  | .channelOpened .. | .startRefused .. | .closeRefused .. => true
  | _ => false

namespace SessionCore

/-- The management message that a frame of channel 0 completes. -/
def heard (s : SessionCore) (frame : DataFrame) : Option Management.Message :=
  if frame.channel = greetingChannel ∧ s.state ≠ .awaitingGreeting then
    match receive frame s with
    | .ok (some message) _ => (Management.Message.fromPayload message.payload).toOption
    | _ => none
  else none

theorem heard_eq_some {s : SessionCore} {frame : DataFrame}
    {management : Management.Message} :
    s.heard frame = some management ↔ s.Hears frame management := by
  unfold heard Hears
  constructor
  · intro h
    split at h
    · rename_i hzero
      split at h
      · rename_i message t hok
        refine ⟨hzero.1, hzero.2, message, t, hok, ?_⟩
        cases hpayload : Management.Message.fromPayload message.payload with
        | error fault =>
            rw [hpayload] at h
            cases h
        | ok found =>
            rw [hpayload] at h
            cases h
            rfl
      · cases h
    · cases h
  · rintro ⟨hzero, hstate, message, t, hok, hpayload⟩
    simp only [hzero, hstate, hok, hpayload, ne_eq, not_false_eq_true, and_self, if_true]
    rfl

/-- What a call asks for. -/
def asks (s : SessionCore) : Call → List Talk
  | .startChannel _ =>
      match Channel.allocateMsgno s.zero with
      | .ok msgno _ => [.asked msgno (.start s.nextChannel)]
      | .error _ _ => []
  | .closeChannel channel =>
      match Channel.allocateMsgno s.zero with
      | .ok msgno _ => [.asked msgno (.close channel)]
      | .error _ _ => []
  | _ => []

/-- What a frame of the peer answers. -/
def answers (s : SessionCore) : Frame → List Talk
  | .seq _ => []
  | .data frame =>
      match s.heard frame, s.pending frame.msgno with
      | some management, some wanted =>
          if wanted.answeredBy frame.kind management then
            [.answered frame.msgno wanted management]
          else []
      | _, _ => []

end SessionCore

namespace Trace

/-- What an act asks for and what it brings answers to. -/
def talk (trace : Trace) : Act → List Talk
  | .call method => trace.core.asks method
  | .input octets =>
      let session := trace.session.received octets
      (session.met (session.inbound.length + 1)).flatMap fun met => met.1.answers met.2
  | .pollTransmit | .pollEvent => []

/-- A run, what was asked and answered along it, and the events polled. -/
inductive Talks (meets : Trace → Act → Prop) :
    Trace → List Talk → List Event → Trace → Prop where
  | refl (trace : Trace) : Talks meets trace [] [] trace
  | act {first last : Trace} {log : List Talk} {polled : List Event} (act : Act) :
      Talks meets first log polled last → meets last act →
      Talks meets first (log ++ last.talk act) (polled ++ last.polledBy act)
        (last.act act)

end Trace

/-! ## Books in which requests and answers match -/

/-- The entry neither asks for anything nor answers anything. -/
def Entry.Mute : Entry → Prop
  | .reserved _ _ | .askedStart _ _ _ | .askedClose _ _ | .dismissed _ => False
  | .answered _ _ _ | .startRefused _ _ _ | .closeRefused _ _ _ | .agreed _ _ => False
  | .polled => False
  | _ => True

namespace Ledger

variable {l l' : Ledger} {entry : Entry} {log : List Talk} {polled : List Event}

/-- The requests under way are those of the log. -/
structure Matched (log : List Talk) (polled : List Event) (l : Ledger) : Prop where
  numbered : l.Numbered
  keys : ∀ msgno, (l.pending msgno).isSome ↔ msgno ∈ l.zero.outstanding
  halfOpen : ∀ number, (l.halfOpen number).isSome ↔
    ∃ msgno, l.pending msgno = some (.start number)
  underWay : Exchange.underWay log = l.pending
  paired : Exchange.Paired log
  told : (polled ++ l.events).filter Event.isAnswer = log.filterMap reported

theorem filter_isAnswer_close (l : Ledger) (number : UInt32) :
    (l.close number).events.filter Event.isAnswer = l.events.filter Event.isAnswer := by
  unfold close
  split
  · rw [closeSession, List.filter_append]
    exact List.append_nil _
  · rw [closeChannel, List.filter_append]
    exact List.append_nil _

theorem close_requests (l : Ledger) (number : UInt32) :
    (l.close number).pending = l.pending ∧ (l.close number).zero = l.zero ∧
      (l.close number).halfOpen = l.halfOpen := by
  unfold close
  split <;> exact ⟨rfl, rfl, rfl⟩

/-- Books with the same requests. -/
structure SameTalk (l l' : Ledger) : Prop where
  pending : l'.pending = l.pending
  outstanding : l'.zero.outstanding = l.zero.outstanding
  halfOpen : l'.halfOpen = l.halfOpen
  events : l'.events.filter Event.isAnswer = l.events.filter Event.isAnswer

theorem Step.mute (h : l.Step entry l') (hmute : entry.Mute) : l.SameTalk l' := by
  have hreport : ∀ event : Event, event.isAnswer = false →
      (l.events ++ [event]).filter Event.isAnswer = l.events.filter Event.isAnswer := by
    intro event hevent
    rw [List.filter_append, List.filter_singleton, hevent]
    exact List.append_nil _
  cases h with
  | accepted =>
      simp only [enter, setBook]
      split <;> exact ⟨rfl, by simp_all [bookAt, Book.accept], rfl, rfl⟩
  | delivered => exact ⟨rfl, rfl, rfl, hreport _ rfl⟩
  | @told event hrequest =>
      refine ⟨rfl, rfl, rfl, hreport event ?_⟩
      cases event <;> first | rfl | cases hrequest
  | greeted => exact ⟨rfl, rfl, rfl, hreport _ rfl⟩
  | @closed number =>
      obtain ⟨hpending, hzero, hhalf⟩ := l.close_requests number
      exact ⟨hpending, by rw [hzero], hhalf, l.filter_isAnswer_close number⟩
  | _ => first | exact ⟨rfl, rfl, rfl, rfl⟩ | exact hmute.elim

theorem Matched.same (h : l.Matched log polled) (hnumbered : l'.Numbered)
    (hsame : l.SameTalk l') : l'.Matched log polled where
  numbered := hnumbered
  keys := by
    rw [hsame.pending, hsame.outstanding]
    exact h.keys
  halfOpen := by
    rw [hsame.pending, hsame.halfOpen]
    exact h.halfOpen
  underWay := h.underWay.trans hsame.pending.symm
  paired := h.paired
  told := by
    rw [List.filter_append, hsame.events, ← List.filter_append]
    exact h.told

theorem Matched.ask (h : l.Matched log polled) {msgno : UInt32} {wanted : Pending}
    (hnew : msgno ∉ l.zero.outstanding) (hnumbered : l'.Numbered)
    (hpending : l'.pending = Function.update l.pending msgno (some wanted))
    (houtstanding : l'.zero.outstanding = insert msgno l.zero.outstanding)
    (hhalf : ∀ number, (l'.halfOpen number).isSome ↔
      wanted = .start number ∨ (l.halfOpen number).isSome)
    (hevents : l'.events = l.events) :
    l'.Matched (log ++ [.asked msgno wanted]) polled := by
  have hfree : l.pending msgno = none := by
    rw [← Option.not_isSome_iff_eq_none, h.keys]
    exact hnew
  refine ⟨hnumbered, fun other => ?_, fun number => ?_, ?_, h.paired.snoc ?_, ?_⟩
  · rw [hpending, houtstanding, Finset.mem_insert]
    by_cases hother : other = msgno
    · simp [hother]
    · simp [hother, h.keys]
  · rw [hhalf, h.halfOpen, hpending]
    constructor
    · rintro (rfl | ⟨other, hother⟩)
      · exact ⟨msgno, Function.update_self ..⟩
      · refine ⟨other, ?_⟩
        rw [Function.update_of_ne, hother]
        rintro rfl
        rw [hfree] at hother
        cases hother
    · rintro ⟨other, hother⟩
      by_cases heq : other = msgno
      · subst heq
        rw [Function.update_self] at hother
        exact .inl (Option.some.inj hother)
      · rw [Function.update_of_ne heq] at hother
        exact .inr ⟨other, hother⟩
  · rw [Exchange.underWay_snoc, h.underWay, hpending]
    rfl
  · rw [h.underWay]
    exact hfree
  · rw [hevents, h.told, List.filterMap_append]
    exact (List.append_nil _).symm

theorem Step.answer_eq {msgno : UInt32} {wanted : Pending} {kind : FrameKind}
    {management : Management.Message} (h : l.Step (.answer msgno wanted management) l')
    (hanswered : wanted.answeredBy kind management) :
    l'.pending = Function.update l.pending msgno none ∧
      l'.zero.outstanding = l.zero.outstanding.erase msgno ∧
      (∀ number, wanted = .start number →
        l'.halfOpen = Function.update l.halfOpen number none) ∧
      (∀ number, wanted = .close number → l'.halfOpen = l.halfOpen) ∧
      l'.events.filter Event.isAnswer =
        l.events.filter Event.isAnswer ++ (wanted.event management).toList := by
  cases wanted with
  | start number =>
      cases management with
      | profile profile =>
          cases h
          refine ⟨rfl, rfl, ?_, nofun, List.filter_append ..⟩
          rintro _ ⟨⟩
          rfl
      | error error =>
          cases h
          refine ⟨rfl, rfl, ?_, nofun, List.filter_append ..⟩
          rintro _ ⟨⟩
          rfl
      | _ => cases kind <;> cases hanswered
  | close number =>
      cases management with
      | error error =>
          cases h
          exact ⟨rfl, rfl, nofun, fun _ _ => rfl, List.filter_append ..⟩
      | ok =>
          cases h
          obtain ⟨hpending, hzero, hhalf⟩ := (l.settle msgno).close_requests number
          refine ⟨hpending, by rw [hzero]; rfl, nofun, fun _ _ => hhalf, ?_⟩
          rw [filter_isAnswer_close]
          exact (List.append_nil _).symm
      | _ => cases kind <;> cases hanswered

theorem Matched.answer (h : l.Matched log polled) {msgno : UInt32} {wanted : Pending}
    {kind : FrameKind} {management : Management.Message}
    (hstep : l.Step (.answer msgno wanted management) l') (hnumbered : l'.Numbered)
    (hasked : l.pending msgno = some wanted)
    (hanswered : wanted.answeredBy kind management) :
    l'.Matched (log ++ [.answered msgno wanted management]) polled := by
  obtain ⟨hpending, houtstanding, hforgets, hkeeps, hevents⟩ :=
    hstep.answer_eq hanswered
  have hothers : ∀ {other : UInt32} {found : Pending}, l'.pending other = some found ↔
      other ≠ msgno ∧ l.pending other = some found := by
    intro other found
    rw [hpending]
    by_cases heq : other = msgno
    · simp [heq]
    · simp [heq]
  refine ⟨hnumbered, fun other => ?_, fun number => ?_, ?_, h.paired.snoc ?_, ?_⟩
  · rw [houtstanding, Finset.mem_erase, ← h.keys, Option.isSome_iff_exists,
      Option.isSome_iff_exists]
    simp only [hothers, exists_and_left]
  · have hsame : wanted ≠ .start number → ((l.halfOpen number).isSome ↔
        ∃ other, l'.pending other = some (.start number)) := by
      intro hne
      rw [h.halfOpen]
      refine exists_congr fun other => ?_
      rw [hothers, iff_and_self]
      rintro hstart rfl
      rw [hasked] at hstart
      exact hne (Option.some.inj hstart)
    cases wanted with
    | start found =>
        rw [hforgets found rfl]
        by_cases heq : number = found
        · subst heq
          rw [Function.update_self]
          refine ⟨nofun, ?_⟩
          rintro ⟨other, hother⟩
          obtain ⟨hne, hstart⟩ := hothers.mp hother
          exact absurd (h.numbered.starts_distinct other msgno number hstart hasked) hne
        · rw [Function.update_of_ne heq]
          refine hsame fun hfound => heq ?_
          cases hfound
          rfl
    | close found =>
        rw [hkeeps found rfl]
        exact hsame nofun
  · rw [Exchange.underWay_snoc, h.underWay, hpending]
    rfl
  · rw [h.underWay]
    exact hasked
  · rw [List.filter_append, hevents, ← List.append_assoc, ← List.filter_append, h.told,
      List.filterMap_append]
    congr 1

end Ledger

/-! ## Calls and frames that succeed -/

namespace SessionCore

variable {s t : SessionCore} {log : List Talk} {polled : List Event}

theorem matched_of_path {allowed : Entry → Prop} (h : Walk Books allowed s t)
    (hallowed : ∀ entry, allowed entry → entry.Mute ∧ entry.InRange)
    (hmatched : s.ledger.Matched log polled) : t.ledger.Matched log polled := by
  refine h.preserves (I := fun u : SessionCore => u.ledger.Matched log polled) ?_ hmatched
  intro u v entry hentry hstep hu
  obtain ⟨hmute, hrange⟩ := hallowed entry hentry
  exact hu.same (Ledger.Step.numbered hstep hrange hu.numbered)
    (Ledger.Step.mute hstep hmute)

theorem mute_writesZero (entry : Entry) (h : entry.writesZero) :
    entry.Mute ∧ entry.InRange := by
  cases entry <;> first | exact ⟨trivial, trivial⟩ | exact h.elim

/-- A request that succeeds is written with the message number it has taken. -/
theorem request_ok {management : Management.Message} {wanted : Pending}
    (h : request management wanted s = .ok () t) :
    ∃ msgno zero u, Channel.allocateMsgno s.zero = .ok msgno zero ∧
      msgno ∉ s.zero.outstanding ∧ u.ledger = s.ledger.ask msgno wanted ∧
      Walk Books Entry.writesZero u t := by
  rcases request_run management wanted s with
    ⟨fault, u, hrun, -⟩ | ⟨msgno, u, hnew, ⟨zero, hzero⟩, hledger, hrun⟩
  · rw [h] at hrun
    cases hrun
  · refine ⟨msgno, zero, u, hzero, hnew, hledger, ?_⟩
    have hwritten := keeps_writeZero .msg msgno management u
    rwa [Computation.final, ← hrun, h] at hwritten

theorem matched_startChannel {profile : Management.Profile} {number : UInt32}
    (hle : s.nextChannel ≤ maxChannelNo) (h : startChannel profile s = .ok number t)
    (hmatched : s.ledger.Matched log polled) :
    t.ledger.Matched (log ++ s.asks (.startChannel profile)) polled := by
  obtain ⟨hready, rfl⟩ := startChannel_ok h
  obtain ⟨v, hv⟩ : ∃ v, v = { s with
      nextChannel := s.nextChannel + 2
      halfOpen := Function.update s.halfOpen s.nextChannel (some profile) } := ⟨_, rfl⟩
  have hrun : startChannel profile s = (do
      request (.start (Management.Start.new s.nextChannel profile))
        (.start s.nextChannel)
      return s.nextChannel : SessionM UInt32) v := by
    subst hv
    exact Computation.bind_of_ok (requireReady_ready hready) _
  rw [hrun] at h
  obtain ⟨_, w, hrequest, hdone⟩ := Computation.ok_of_bind h
  cases hdone
  obtain ⟨msgno, zero, u, hzero, hnew, hledger, hpath⟩ := request_ok hrequest
  have hreserve : v.ledger = s.ledger.reserve profile := by
    subst hv
    rfl
  have hsame : v.zero = s.zero := by
    subst hv
    rfl
  rw [hsame] at hzero hnew
  have hasks : s.asks (.startChannel profile) = [.asked msgno (.start s.nextChannel)] := by
    simp only [asks, hzero]
  rw [hasks]
  refine matched_of_path hpath mute_writesZero (hmatched.ask hnew ?_ ?_ ?_ ?_ ?_)
  · rw [hledger, hreserve]
    exact hmatched.numbered.askStart hle profile msgno
  · rw [hledger, hreserve]
    rfl
  · rw [hledger, hreserve]
    rfl
  · intro number
    rw [hledger, hreserve]
    change (Function.update s.halfOpen s.nextChannel (some profile) number).isSome ↔ _
    by_cases heq : number = s.nextChannel
    · simp [heq]
    · rw [Function.update_of_ne heq, Pending.start.injEq]
      exact ⟨.inr, fun h => h.resolve_left fun hother => heq hother.symm⟩
  · rw [hledger, hreserve]
    rfl

theorem matched_closeChannel {channel : UInt32} (h : closeChannel channel s = .ok () t)
    (hmatched : s.ledger.Matched log polled) :
    t.ledger.Matched (log ++ s.asks (.closeChannel channel)) polled := by
  obtain ⟨_, u, hready, hrest⟩ := Computation.ok_of_bind h
  have hstate : s.state = .ready := by
    by_contra hnot
    obtain ⟨fault, hrefused⟩ := requireReady_refuses hnot
    rw [hrefused] at hready
    cases hready
  rw [requireReady_ready hstate] at hready
  cases hready
  have hrequest : request (.close (Management.Close.new channel)) (.close channel) s =
      .ok () t := by
    change (if channel ≠ greetingChannel ∧ (s.channels channel).isNone then
      raise (.noSuchChannel channel) else _ : SessionM Unit) s = _ at hrest
    split at hrest
    · cases hrest
    · exact hrest
  obtain ⟨msgno, zero, u, hzero, hnew, hledger, hpath⟩ := request_ok hrequest
  have hasks : s.asks (.closeChannel channel) = [.asked msgno (.close channel)] := by
    simp only [asks, hzero]
  rw [hasks]
  refine matched_of_path hpath mute_writesZero (hmatched.ask hnew ?_ ?_ ?_ ?_ ?_)
  · rw [hledger]
    refine hmatched.numbered.of_same rfl rfl (fun other number hstart => ?_) fun _ => id
    by_cases hother : other = msgno
    · subst hother
      simp [Ledger.ask] at hstart
    · simpa [Ledger.ask, hother] using hstart
  · rw [hledger]
    rfl
  · rw [hledger]
    rfl
  · intro number
    rw [hledger]
    exact ⟨.inr, fun h => h.resolve_left (by simp)⟩
  · rw [hledger]
    rfl

theorem matched_call {call : Call} (hspares : Act.Spares s (.call call))
    (h : call.run s = .ok () t) (hmatched : s.ledger.Matched log polled) :
    t.ledger.Matched (log ++ s.asks call) polled := by
  have hpath := keeps_call call s
  rw [Computation.final_of_ok h] at hpath
  cases call with
  | startChannel profile =>
      obtain ⟨number, u, hstart, hdone⟩ := Computation.ok_of_bind h
      cases hdone
      exact matched_startChannel (hspares (startChannel_ok hstart).1) hstart hmatched
  | closeChannel channel => exact matched_closeChannel h hmatched
  | _ =>
      change t.ledger.Matched (log ++ []) polled
      rw [List.append_nil]
      refine matched_of_path hpath (fun entry hallowed => ?_) hmatched
      cases entry <;> first
        | exact ⟨trivial, trivial⟩
        | exact False.elim hallowed
        | cases hallowed

theorem mute_handles {frame : DataFrame} {failed : Prop}
    (hnone : ∀ management, ¬ s.Hears frame management) (entry : Entry)
    (h : Entry.handles s failed (.data frame) entry) : entry.Mute ∧ entry.InRange := by
  cases entry <;> first
    | exact ⟨trivial, trivial⟩
    | exact h.elim fun _ h => absurd h.1 (hnone _)

theorem mute_receives {frame : DataFrame} (entry : Entry) (h : entry.receives frame) :
    entry.Mute ∧ entry.InRange := by
  cases entry <;> first | exact ⟨trivial, trivial⟩ | exact h.elim

theorem matched_handleData {frame : DataFrame} (h : handleFrame (.data frame) s = .ok () t)
    (hmatched : s.ledger.Matched log polled) :
    t.ledger.Matched (log ++ s.answers (.data frame)) polled := by
  cases hheard : s.heard frame with
  | none =>
      have hnone : ∀ management, ¬ s.Hears frame management := by
        intro management hhears
        rw [heard_eq_some.mpr hhears] at hheard
        cases hheard
      have hpath := keeps_handleFrame (.data frame) s
      rw [Computation.final_of_ok h] at hpath
      simp only [answers, hheard, List.append_nil]
      exact matched_of_path hpath (mute_handles hnone) hmatched
  | some management =>
      obtain ⟨hzero, hstate, message, u, hok, hpayload⟩ := heard_eq_some.mp hheard
      obtain ⟨hkind, hmsgno, -⟩ := receive_message hok
      have hreceive := receive_books frame s
      have hmoved := receive_unmoved frame s
      rw [Computation.final_of_ok hok] at hreceive hmoved
      have hu := matched_of_path hreceive mute_receives hmatched
      have hdispatch : dispatchManagement frame.kind frame.msgno management u =
          .ok () t := by
        rw [handleFrame, handleData_zero hzero hstate, Computation.bind_of_ok hok] at h
        change (do
          let management ← liftFault (Management.Message.fromPayload message.payload)
          dispatchManagement message.kind message.msgno management : SessionM Unit) u =
            _ at h
        rw [hpayload, hkind, hmsgno] at h
        exact h
      have hpending : u.pending = s.pending := hmoved.pending
      have hcame := dispatched frame.kind frame.msgno management u
      rw [Computation.final_of_ok hdispatch] at hcame
      have hmute : ∀ {event : Event}, event.isRequest → u.Books (.told event) t →
          t.ledger.Matched log polled := by
        intro event hrequest hstep
        exact hu.same (Ledger.Step.numbered hstep trivial hu.numbered)
          (Ledger.Step.mute hstep trivial)
      cases hcame with
      | @answer wanted hasked hanswered hstep =>
          have hasks : s.answers (.data frame) =
              [.answered frame.msgno wanted management] := by
            simp only [answers, hheard, ← hpending, hasked, hanswered, if_true]
          rw [hasks]
          refine hu.answer hstep (Ledger.Step.numbered hstep ?_ hu.numbered) hasked hanswered
          cases wanted <;> cases management <;> trivial
      | told hkind hrequest hstep =>
          have hasks : s.answers (.data frame) = [] := by
            simp only [answers, hheard]
            cases s.pending frame.msgno with
            | none => rfl
            | some wanted =>
                rw [hkind]
                cases management <;> cases wanted <;> rfl
          rw [hasks, List.append_nil]
          exact hmute hrequest hstep
      | refused hfails =>
          obtain ⟨fault, v, hrun⟩ := hfails
          rw [hdispatch] at hrun
          cases hrun

theorem matched_handleFrame {frame : Frame} (h : handleFrame frame s = .ok () t)
    (hmatched : s.ledger.Matched log polled) :
    t.ledger.Matched (log ++ s.answers frame) polled := by
  cases frame with
  | seq seq =>
      have hpath := keeps_handleFrame (.seq seq) s
      rw [Computation.final_of_ok h] at hpath
      rw [answers, List.append_nil]
      refine matched_of_path hpath (fun entry hallowed => ?_) hmatched
      cases entry <;> first | exact ⟨trivial, trivial⟩ | exact False.elim hallowed
  | data frame => exact matched_handleData h hmatched

end SessionCore

/-! ## Runs in which every call succeeds -/

/-- The call returns without an error. -/
def Act.Succeeds (trace : Trace) : Act → Prop
  | .call method => ∃ t, method.run trace.core = .ok () t
  | .input octets => (trace.session.handleInput octets).2 = .ok ()
  | .pollTransmit | .pollEvent => True

instance (trace : Trace) (act : Act) : Decidable (act.Succeeds trace) :=
  match act with
  | .call method =>
      match h : method.run trace.core with
      | .ok () t => .isTrue ⟨t, h⟩
      | .error _ _ => .isFalse fun ⟨_, hok⟩ => by
          rw [h] at hok
          cases hok
  | .input octets =>
      match h : (trace.session.handleInput octets).2 with
      | .ok () => .isTrue h
      | .error _ => .isFalse fun hok => by
          change (trace.session.handleInput octets).2 = .ok () at hok
          rw [h] at hok
          cases hok
  | .pollTransmit | .pollEvent => .isTrue trivial

theorem Session.matched_handleFrames (fuel : Nat) {session : Session} {log : List Talk}
    {polled : List Event} (hok : (session.handleFrames fuel).2 = .ok ())
    (h : session.core.ledger.Matched log polled) :
    (session.handleFrames fuel).1.core.ledger.Matched
      (log ++ (session.met fuel).flatMap fun met => met.1.answers met.2) polled := by
  induction fuel generalizing session log with
  | zero => cases hok
  | succ fuel ih =>
      rw [handleFrames] at hok ⊢
      rw [met]
      rcases hdecode : session.decoder.decode session.inbound with
        ⟨decoder, inbound, error | _ | frame⟩
      · rw [hdecode] at hok
        cases hok
      · simpa using h
      · rw [hdecode] at hok
        simp only at hok ⊢
        cases hrun : SessionCore.handleFrame frame session.core with
        | error fault core =>
            rw [hrun] at hok
            cases hok
        | ok _ core =>
            rw [hrun] at hok
            rw [List.flatMap_cons, ← List.append_assoc]
            exact ih hok (SessionCore.matched_handleFrame hrun h)

namespace Trace

variable {config : Config} {first last : Trace} {log : List Talk} {polled : List Event}

theorem Fresh.matched (hfresh : Fresh config first) : first.core.ledger.Matched [] [] := by
  refine SessionCore.matched_of_path hfresh.books SessionCore.mute_writesZero ?_
  refine ⟨fresh_numbered config, ?_, ?_, rfl, .nil, rfl⟩
  · simp [SessionCore.fresh, SessionCore.ledger, Channel.book, Channel.withWindowSize]
  · simp [SessionCore.fresh, SessionCore.ledger]

theorem Talks.matched (hfresh : Fresh config first)
    (htalks : Talks (fun trace act => act.Succeeds trace ∧ act.Spares trace.core)
      first log polled last) : last.core.ledger.Matched log polled := by
  induction htalks with
  | refl => exact hfresh.matched
  | @act last log polled act _ hmeets ih =>
      obtain ⟨hsucceeds, hspares⟩ := hmeets
      cases act with
      | call method =>
          obtain ⟨t, hrun⟩ := hsucceeds
          have hcall := SessionCore.matched_call hspares hrun ih
          rw [← Computation.final_of_ok hrun] at hcall
          rwa [polledBy, List.append_nil]
      | input octets =>
          rw [polledBy, List.append_nil]
          have hsession : (last.session.received octets).core.ledger.Matched log polled := ih
          exact Session.matched_handleFrames _ hsucceeds hsession
      | pollTransmit =>
          rw [polledBy, talk, List.append_nil, List.append_nil, act_pollTransmit_core]
          exact ih
      | pollEvent =>
          have hevents : polled ++ last.core.events.head?.toList ++ last.core.events.tail =
              polled ++ last.core.events := by
            rw [List.append_assoc]
            cases last.core.events <;> rfl
          rw [polledBy, talk, List.append_nil, act_pollEvent_core]
          refine ⟨ih.numbered.of_same rfl rfl (fun _ _ => id) fun _ => id, ih.keys,
            ih.halfOpen, ih.underWay, ih.paired, ?_⟩
          change (polled ++ last.core.events.head?.toList ++
            last.core.events.tail).filter _ = _
          rw [hevents]
          exact ih.told

/-- While every call succeeds and there are numbers for the channels asked for, the
requests under way are the message numbers outstanding on channel 0, the channels half
open are those asked for and none of them is in the table, and the answers reported are
those of the log, in which every answer belongs to one request of its own. -/
theorem Talks.requests_match (hfresh : Fresh config first)
    (htalks : Talks (fun trace act => act.Succeeds trace ∧ act.Spares trace.core)
      first log polled last) :
    (∀ msgno, (last.core.pending msgno).isSome ↔
      msgno ∈ last.core.zero.outstanding) ∧
    (∀ number, (last.core.halfOpen number).isSome ↔
      ∃ msgno, last.core.pending msgno = some (.start number)) ∧
    (∀ number, (last.core.halfOpen number).isSome →
      last.core.channels number = none) ∧
    (polled ++ last.core.events).filter Event.isAnswer = log.filterMap reported ∧
    Exchange.Paired log ∧
    ∀ before msgno wanted management after,
      log = before ++ .answered msgno wanted management :: after →
        ∃ earlier between, before = earlier ++ .asked msgno wanted :: between ∧
          ∀ other ∈ between, other.key ≠ msgno := by
  have hmatched := htalks.matched hfresh
  refine ⟨hmatched.keys, hmatched.halfOpen, fun number hhalf => ?_, hmatched.told,
    hmatched.paired, fun before msgno wanted management after heq => ?_⟩
  · obtain ⟨msgno, hstart⟩ := (hmatched.halfOpen number).mp hhalf
    exact SessionCore.table_none_iff.mp
      (hmatched.numbered.starts_closed msgno number hstart)
  · exact hmatched.paired.answered heq

end Trace

/-- The peer's answer to the first start. -/
def startAnswer : Octets :=
  peerFrame .rpy 0 0 52 (Management.Message.toPayload (.profile (.new "urn:x")))

/-- A listener starts channel 2, and the peer agrees. -/
theorem requests_match_started :
    ∃ first last log polled, Trace.Fresh (Config.new .listener) first ∧
      last = first.replay [.input (peerFrame .rpy 0 0 0 Greeting.new.toPayload),
        .call (.startChannel (.new "urn:x")), .input startAnswer] ∧
      (last.core.channels 2).isSome ∧
      (polled ++ last.core.events).filter Event.isAnswer = log.filterMap reported ∧
      log.map Exchange.key = [0, 0] ∧ Exchange.Paired log := by
  have hrun : (Session.new (Config.new .listener)).toOption.any fun session =>
      let first : Trace := ⟨session, []⟩
      let greeted := first.act (.input (peerFrame .rpy 0 0 0 Greeting.new.toPayload))
      let asked := greeted.act (.call (.startChannel (.new "urn:x")))
      let last := asked.act (.input startAnswer)
      (((decide (Act.Succeeds first (.input (peerFrame .rpy 0 0 0
          Greeting.new.toPayload))) &&
        decide (Act.Succeeds greeted (.call (.startChannel (.new "urn:x"))))) &&
        decide (Act.Succeeds asked (.input startAnswer))) &&
        decide (greeted.core.nextChannel ≤ maxChannelNo)) &&
        ((last.core.channels 2).isSome &&
          decide (([] ++ first.talk (.input (peerFrame .rpy 0 0 0
            Greeting.new.toPayload)) ++ greeted.talk (.call (.startChannel (.new "urn:x"))) ++
            asked.talk (.input startAnswer)).map Exchange.key = [0, 0])) := by
    decide +kernel
  obtain ⟨session, hnew⟩ := Session.new_ok (Config.new .listener)
  rw [hnew] at hrun
  obtain ⟨first, hfirst⟩ : ∃ first : Trace, first = ⟨session, []⟩ := ⟨_, rfl⟩
  have hfresh : Trace.Fresh (Config.new .listener) first := hfirst ▸ .new hnew
  obtain ⟨greeting, hgreeting⟩ : ∃ greeting, greeting =
    peerFrame .rpy 0 0 0 Greeting.new.toPayload := ⟨_, rfl⟩
  simp only [Except.toOption, Option.any_some, ← hfirst, ← hgreeting,
    Bool.and_eq_true, decide_eq_true_eq] at hrun ⊢
  obtain ⟨⟨⟨⟨hinput, hstart⟩, hanswer⟩, hle⟩, hopen, hkeys⟩ := hrun
  have hnone : Trace.Talks (fun trace act => act.Succeeds trace ∧ act.Spares trace.core)
    first [] [] first := .refl first
  have htalks := ((hnone.act (.input greeting) ⟨hinput, trivial⟩).act
    (.call (.startChannel (.new "urn:x"))) ⟨hstart, fun _ => hle⟩).act
    (.input startAnswer) ⟨hanswer, trivial⟩
  obtain ⟨-, -, -, htold, hpaired, -⟩ := Trace.Talks.requests_match hfresh htalks
  exact ⟨first, _, _, _, hfresh, rfl, hopen, htold, hkeys, hpaired⟩

end Vortice.Proto
