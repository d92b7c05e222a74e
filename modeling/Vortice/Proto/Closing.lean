import Vortice.Proto.Outgoing

/-!
# Accepting a close

`accept_close` queues an `<ok/>` on channel 0 and drops the channel, whatever is
left on it.  What it drops is nothing exactly when the lanes it drops are
drained and, for the session as a whole, the `<ok/>` fits the window.
-/

namespace Vortice.Proto

open Vortice.Foundation

/-- The `<ok/>` a close is accepted with. -/
def okMessage (msgno : UInt32) : Queued :=
  ⟨.rpy, msgno, none, Management.Message.toPayload .ok⟩

/-- When a queue that has nothing left to write is flushed behind a new message,
the flush fails exactly when the first message is refused. -/
theorem Flow.Writes.waits_iff {flow : Flow} {queue queue' : List Queued}
    {frames : List DataFrame} {count : Nat} {message : Queued}
    (h : flow.Writes (queue ++ [message]) frames queue' count)
    (hstopped : flow.Stopped queue) :
    (∀ front ∈ queue'.head?, (flow.advance count).Waits front) ↔
      ∀ front ∈ (queue ++ [message]).head?, ¬ flow.Refuses front := by
  have hdisjoint : ∀ front, flow.Waits front → ¬ flow.Refuses front :=
    fun front hwaits hrefuses =>
      hrefuses.2.elim hwaits.1 fun hne => hne hwaits.2
  by_cases hstays : flow.Stopped (queue ++ [message])
  · obtain ⟨-, rfl, rfl⟩ := h.stays hstays
    rw [Flow.advance_zero]
    constructor
    · exact fun hwaits front hfront => hdisjoint front (hwaits front hfront)
    · exact fun hrefuses front hfront =>
        (hstays front hfront).resolve_right (hrefuses front hfront)
  · have hqueue : queue = [] := by
      cases queue with
      | nil => rfl
      | cons first queue => exact absurd hstopped hstays
    subst hqueue
    have hneither : ¬ flow.Waits message ∧ ¬ flow.Refuses message := by
      simpa [Flow.Stopped] using hstays
    have hframeable : Frameable flow.number message.tag := by
      by_contra hnot
      refine hneither.2 ⟨hnot, ?_⟩
      by_contra hroom
      rw [not_or, not_not] at hroom
      exact hneither.1 hroom
    have hwaits := h.waits (by simpa using hframeable)
    simpa [hneither.2] using hwaits

namespace SessionCore

/-- The lanes that accepting a close of `channel` drops. -/
def Drops (channel number : UInt32) : Prop :=
  number = channel ∨ channel = greetingChannel

/-- A call to accept a close loses no message, and its `<ok/>` is not lost either. -/
structure LosesNothing (channel msgno : UInt32) (s s' : SessionCore)
    (result : Except Fault Unit) : Prop where
  messages : result = .ok () → ∀ number, Drops channel number →
    ∀ message : Queued, (handedOn number (s.past number)).count message ≤
      (completedOn number (s.past number)).count message.whole
  okay : ∃ actions, s'.history = s.history ++ actions ∧
    (completedOn greetingChannel (s.past greetingChannel ++ actions) =
        completedOn greetingChannel (s.past greetingChannel) ++
          [(okMessage msgno).whole] ∨
      ∃ left ∈ (s'.lane greetingChannel).queue.getLast?,
        left.tag = (okMessage msgno).tag ∧
        left.payload <:+ (okMessage msgno).payload)

/-- When accepting a close loses nothing: it is refused, or nothing is left. -/
def MayClose (s : SessionCore) (channel msgno : UInt32) : Prop :=
  (∃ front ∈ ((s.lane greetingChannel).queue ++ [okMessage msgno]).head?,
    s.zero.flow.Refuses front) ∨
  (∀ number, Drops channel number → (s.lane number).Drained) ∧
    (channel = greetingChannel →
      (okMessage msgno).payload.length ≤ s.zero.writable.toNat)

/-- The history of accepting a close, up to the `<ok/>`. -/
def okayed (msgno : UInt32) (frames : List DataFrame) : List Action :=
  [.handed greetingChannel (okMessage msgno),
    .queued greetingChannel (okMessage msgno)] ++ Lane.wrote frames

/-- What the `<ok/>` leaves of channel 0, before the channel is dropped. -/
structure Okayed (s : SessionCore) (msgno : UInt32) (frames : List DataFrame)
    (queue' : List Queued) (count : Nat) (t : SessionCore) : Prop where
  writes : s.zero.flow.Writes ((s.lane greetingChannel).queue ++ [okMessage msgno])
    frames queue' count
  lane : t.lane = Function.update s.lane greetingChannel
    { s.lane greetingChannel with
      flow := some (s.zero.flow.advance count), queue := queue' }
  history : t.history = s.history ++ okayed msgno frames

theorem finishClose_run (channel : UInt32) (s : SessionCore) :
    finishClose channel s = .ok () (Computation.final (finishClose channel) s) := by
  unfold finishClose
  split <;> rfl

theorem acceptClose_run (channel msgno : UInt32) (s : SessionCore) :
    ∃ t frames queue' count, s.Okayed msgno frames queue' count t ∧
      (Computation.outcome (acceptClose channel msgno) s =
          (Computation.final (finishClose channel) t, .ok ()) ∧
        (∀ front ∈ queue'.head?, (s.zero.flow.advance count).Waits front) ∨
      (∃ fault, Computation.outcome (acceptClose channel msgno) s =
          (t, .error fault)) ∧
        ¬ ∀ front ∈ queue'.head?, (s.zero.flow.advance count).Waits front) := by
  have hlane : SessionCore.lane { s with zero := s.zero.replied msgno } = s.lane := by
    funext number
    by_cases hnumber : number = greetingChannel <;>
      simp [SessionCore.lane, channelAt, hnumber, Channel.replied, Channel.flow]
  obtain ⟨t, result, frames, queue', count, hrun, hpushed, hok⟩ :=
    push_run (okMessage msgno) (flow_zero { s with zero := s.zero.replied msgno })
  have hcall : acceptClose channel msgno s =
      (flush greetingChannel >>= fun _ => finishClose channel)
        (SessionCore.submitted { s with zero := s.zero.replied msgno }
          greetingChannel (okMessage msgno)) := rfl
  have hwrites := hpushed.writes
  have hpushedLane := hpushed.lane
  rw [hlane] at hwrites hpushedLane
  refine ⟨t, frames, queue', count, ⟨hwrites, hpushedLane, hpushed.logs.history⟩, ?_⟩
  cases hflush : flush greetingChannel (SessionCore.submitted
      { s with zero := s.zero.replied msgno } greetingChannel
      (okMessage msgno)) with
  | ok _ u =>
      rw [Computation.outcome, hflush] at hrun
      cases hrun
      refine .inl ⟨?_, hok.mp rfl⟩
      rw [Computation.outcome, hcall, Computation.bind_of_ok hflush,
        finishClose_run]
  | error fault u =>
      rw [Computation.outcome, hflush] at hrun
      cases hrun
      refine .inr ⟨⟨fault, ?_⟩, fun hwaits => by cases hok.mpr hwaits⟩
      rw [Computation.outcome, hcall, Computation.bind_of_error hflush]

/-! ## When nothing is lost -/

variable {s s' t : SessionCore} {channel msgno : UInt32}
variable {frames : List DataFrame} {queue' : List Queued} {count : Nat}

/-- On a drained channel 0 the `<ok/>` is complete exactly when nothing waits. -/
theorem Okayed.complete_iff (h : s.Okayed msgno frames queue' count t)
    (haccounted : s.Accounted) (hqueue : (s.lane greetingChannel).queue = []) :
    completedOn greetingChannel
        (s.past greetingChannel ++ okayed msgno frames) =
      completedOn greetingChannel (s.past greetingChannel) ++
        [(okMessage msgno).whole] ↔ queue' = [] := by
  obtain ⟨held, rest, hassemble, hcontinues, -⟩ :=
    (haccounted.fifo greetingChannel).reassembles
  rw [hqueue, List.map_nil] at hcontinues
  obtain ⟨rfl, -⟩ := hcontinues.of_nil
  have hwrites := h.writes
  rw [hqueue, List.nil_append] at hwrites
  obtain ⟨held', done, rest', hjoin, hcontinues', hok⟩ :=
    hwrites.joins (.fresh [(okMessage msgno).whole])
  have hframes := Lane.writtenOn_wrote fun frame hmem =>
    (hwrites.confined frame hmem).trans (haccounted.placed _ _ s.flow_zero)
  have hwritten : writtenOn greetingChannel (okayed msgno frames) = frames := by
    rw [okayed, writtenOn_append, hframes]
    simp [writtenOn]
  have hcompleted : completedOn greetingChannel
      (s.past greetingChannel ++ okayed msgno frames) =
      completedOn greetingChannel (s.past greetingChannel) ++ done := by
    rw [completedOn, fragmentsOn, writtenOn_append, hwritten, List.map_append,
      ← fragmentsOn, Fragment.assemble_append_some hassemble hjoin]
    rfl
  rw [hcompleted, List.append_cancel_left_eq]
  constructor
  · rintro rfl
    have hrest : rest' = [] := by simpa using hok
    subst hrest
    exact List.map_eq_nil_iff.mp hcontinues'.of_pending_nil
  · rintro rfl
    obtain ⟨-, rfl⟩ := hcontinues'.of_nil
    simpa using hok.symm

theorem Okayed.queue_nil (h : s.Okayed msgno frames queue' count t)
    (haccounted : s.Accounted) (hqueue : queue' = []) :
    (s.lane greetingChannel).queue = [] := by
  have hstopped := haccounted.settled _ s.flow_zero
  cases hfirst : (s.lane greetingChannel).queue with
  | nil => rfl
  | cons first queue =>
      have hwrites := h.writes
      rw [hfirst] at hwrites hstopped
      obtain ⟨-, hsame, -⟩ := hwrites.stays hstopped
      rw [hqueue] at hsame
      cases hsame

theorem Okayed.fits (h : s.Okayed msgno frames queue' count t)
    (hqueue : (s.lane greetingChannel).queue = [])
    (hwaits : ∀ front ∈ queue'.head?, (s.zero.flow.advance count).Waits front)
    (hroom : (okMessage msgno).payload.length ≤ s.zero.writable.toNat) :
    queue' = [] := by
  have hwrites := h.writes
  rw [hqueue, List.nil_append] at hwrites
  have hconserves := hwrites.conserves
  have hfits := hwrites.fits
  cases queue' with
  | nil => rfl
  | cons front queue' =>
      obtain ⟨hpayload, hzero⟩ := hwaits front rfl
      have hleft := s.zero.toNat_writable_advance hfits
      change (s.zero.flow.advance count).writable.toNat = _ at hleft
      rw [hzero] at hleft
      have hlength := List.length_pos_iff.mpr hpayload
      rw [waiting_cons, waiting_nil, waiting_cons] at hconserves
      change 0 = s.zero.writable.toNat - count at hleft
      omega

theorem finishClose_kept (channel : UInt32) (t : SessionCore) :
    (Computation.final (finishClose channel) t).history =
        t.history ++ [.dropped channel] ∧
      ((Computation.final (finishClose channel) t).lane greetingChannel).queue =
        if channel = greetingChannel then [] else (t.lane greetingChannel).queue := by
  unfold finishClose
  by_cases hzero : channel = greetingChannel
  · rw [if_pos hzero, if_pos hzero, hzero]
    exact ⟨rfl, rfl⟩
  · rw [if_neg hzero, if_neg hzero]
    refine ⟨rfl, ?_⟩
    change (Function.update t.queues channel none greetingChannel).getD [] = _
    rw [Function.update_of_ne (Ne.symm hzero)]
    rfl

theorem Okayed.okay_of_same (h : s.Okayed msgno frames queue' count t)
    (haccounted : s.Accounted) :
    completedOn greetingChannel (s.past greetingChannel ++ okayed msgno frames) =
        completedOn greetingChannel (s.past greetingChannel) ++
          [(okMessage msgno).whole] ∨
      ∃ left ∈ queue'.getLast?, left.tag = (okMessage msgno).tag ∧
        left.payload <:+ (okMessage msgno).payload := by
  rcases h.writes.last (okMessage msgno) (by simp) with hqueue | hleft
  · exact .inl ((h.complete_iff haccounted (h.queue_nil haccounted hqueue)).mpr hqueue)
  · exact .inr hleft

/-- In a state that accounts for its messages, nothing is lost exactly when the
close is refused or nothing is left of what it drops. -/
theorem losesNothing_iff {result : Except Fault Unit} (haccounted : s.Accounted)
    (hcall : Computation.outcome (acceptClose channel msgno) s = (s', result)) :
    LosesNothing channel msgno s s' result ↔ s.MayClose channel msgno := by
  have hdrained : ∀ number, (∀ message : Queued,
      (handedOn number (s.past number)).count message ≤
        (completedOn number (s.past number)).count message.whole) ↔
      (s.lane number).Drained :=
    fun number => (haccounted.fifo number).complete_iff_drained
  obtain ⟨t, frames, queue', count, hokayed, hrun⟩ := acceptClose_run channel msgno s
  have hwaits := hokayed.writes.waits_iff (haccounted.settled _ s.flow_zero)
  rw [hcall] at hrun
  rcases hrun with ⟨hok, hroom⟩ | ⟨⟨fault, herror⟩, hnot⟩
  · cases hok
    obtain ⟨hhistory, hqueue⟩ := finishClose_kept channel t
    have hpast : (Computation.final (finishClose channel) t).history =
        s.history ++ (okayed msgno frames ++ [.dropped channel]) := by
      rw [hhistory, hokayed.history, List.append_assoc]
    have hdropped : ∀ past, completedOn greetingChannel (past ++ [.dropped channel]) =
        completedOn greetingChannel past := by
      intro past
      simp [completedOn, fragmentsOn, writtenOn]
    constructor
    · intro hloses
      have hall : ∀ number, Drops channel number → (s.lane number).Drained :=
        fun number hdrops => (hdrained number).mp (hloses.messages rfl number hdrops)
      refine .inr ⟨hall, fun hzero => ?_⟩
      obtain ⟨actions, hactions, hokay⟩ := hloses.okay
      rw [hpast, List.append_cancel_left_eq] at hactions
      subst hactions
      rw [hqueue, if_pos hzero, ← List.append_assoc, hdropped] at hokay
      have hempty := (hall greetingChannel (.inr hzero)).1
      have hnone := (hokayed.complete_iff haccounted hempty).mp
        (hokay.resolve_right (by simp))
      have hconserves := hokayed.writes.conserves
      rw [hempty, hnone, List.nil_append, waiting_cons, waiting_nil] at hconserves
      have hfits := hokayed.writes.fits
      change count ≤ s.zero.writable.toNat at hfits
      omega
    · intro hmay
      have hrefused : ¬ ∃ front ∈ ((s.lane greetingChannel).queue ++
          [okMessage msgno]).head?, s.zero.flow.Refuses front := by
        rintro ⟨front, hfront, hrefuses⟩
        exact hwaits.mp hroom front hfront hrefuses
      obtain ⟨hall, hfit⟩ := hmay.resolve_left hrefused
      refine ⟨fun _ number hdrops => (hdrained number).mpr (hall number hdrops),
        _, hpast, ?_⟩
      rw [← List.append_assoc, hdropped, hqueue]
      by_cases hzero : channel = greetingChannel
      · have hempty := (hall greetingChannel (.inr hzero)).1
        exact .inl ((hokayed.complete_iff haccounted hempty).mpr
          (hokayed.fits hempty hroom (hfit hzero)))
      · rw [if_neg hzero, hokayed.lane, Function.update_self]
        exact hokayed.okay_of_same haccounted
  · cases herror
    rw [hwaits] at hnot
    have hrefused : ∃ front ∈ ((s.lane greetingChannel).queue ++
        [okMessage msgno]).head?, s.zero.flow.Refuses front := by
      by_contra hnone
      exact hnot fun front hfront hrefuses => hnone ⟨front, hfront, hrefuses⟩
    refine ⟨fun _ => .inl hrefused, fun _ => ⟨by rintro ⟨⟩, _, hokayed.history, ?_⟩⟩
    rw [hokayed.lane, Function.update_self]
    exact hokayed.okay_of_same haccounted

end SessionCore

/-- At the end of every run, accepting a close loses nothing exactly when it is
refused, or nothing is left of what it drops. -/
theorem Trace.Run.acceptClose_losesNothing_iff {config : Config}
    {meets : Trace → Act → Prop} {first last : Trace} {channel msgno : UInt32}
    {s' : SessionCore} {result : Except Fault Unit}
    (hfresh : Trace.Fresh config first) (hrun : Trace.Run meets first last)
    (hcall : Computation.outcome (SessionCore.acceptClose channel msgno) last.core =
      (s', result)) :
    last.octetsOut = encodeAll (written last.core.history) ∧
      (SessionCore.LosesNothing channel msgno last.core s' result ↔
        last.core.MayClose channel msgno) :=
  ⟨hrun.faithful hfresh.faithful,
    SessionCore.losesNothing_iff (hrun.accounted hfresh) hcall⟩

/-- A peer opens channel 1, sends two messages on it and asks to close it, when only
the second of them has been answered. -/
def closingTooSoon : List Act :=
  [.input (peerFrame .rpy 0 0 0 Greeting.new.toPayload ++
      peerFrame .msg 0 0 52 (Management.Message.toPayload
        (.start (.new 1 (.new "urn:x"))))),
    .call (.acceptStart 1 0 (.new "urn:x")),
    .input (peerFrame .msg 1 0 0 [] ++ peerFrame .msg 1 1 0 []),
    .call (.send 1 .rpy 1 none [120]),
    .input (peerFrame .msg 0 1 148 (Management.Message.toPayload (.close (.new 1))))]

/-- The peer asks to close it when both have been answered, the second one first. -/
def closingInTime : List Act :=
  [.input (peerFrame .rpy 0 0 0 Greeting.new.toPayload ++
      peerFrame .msg 0 0 52 (Management.Message.toPayload
        (.start (.new 1 (.new "urn:x"))))),
    .call (.acceptStart 1 0 (.new "urn:x")),
    .input (peerFrame .msg 1 0 0 [] ++ peerFrame .msg 1 1 0 []),
    .call (.send 1 .rpy 1 none [120]), .call (.send 1 .rpy 0 none [121]),
    .input (peerFrame .msg 0 1 148 (Management.Message.toPayload (.close (.new 1))))]

theorem closingTooSoon_loses {session : Session}
    (hnew : Session.new (Config.new .listener) = .ok session) :
    let s := (Trace.replay ⟨session, []⟩ closingTooSoon).core
    ∃ s', Computation.outcome (SessionCore.acceptClose 1 1) s = (s', .ok ()) ∧
      (s.channels 1).isSome ∧ ¬ SessionCore.LosesNothing 1 1 s s' (.ok ()) := by
  have hlost : (Session.new (Config.new .listener)).toOption.any fun session =>
      let s := (Trace.replay ⟨session, []⟩ closingTooSoon).core
      (Computation.outcome (SessionCore.acceptClose 1 1) s).2.isOk &&
        (s.channels 1).isSome &&
        (completedOn 1 (s.past 1)).count ⟨(.rpy, 1, none), [120]⟩ <
          (handedOn 1 (s.past 1)).count ⟨.rpy, 1, none, [120]⟩ := by
    decide +kernel
  rw [hnew] at hlost
  simp only [Except.toOption, Option.any_some, Bool.and_eq_true,
    decide_eq_true_eq] at hlost
  obtain ⟨⟨hok, hopen⟩, hlt⟩ := hlost
  intro s
  rcases hcall : Computation.outcome (SessionCore.acceptClose 1 1) s with ⟨s', error | _⟩
  · rw [hcall] at hok
    cases hok
  refine ⟨s', rfl, hopen, fun hloses => ?_⟩
  exact absurd (hloses.messages rfl 1 (.inl rfl) ⟨.rpy, 1, none, [120]⟩)
    (Nat.not_le.mpr hlt)

/-- The reply that waits for its turn is lost when that close is accepted. -/
theorem acceptClose_loses_reply :
    ∃ first s' result, Trace.Fresh (Config.new .listener) first ∧
      Trace.Run (fun _ _ => True) first (first.replay closingTooSoon) ∧
      Computation.outcome (SessionCore.acceptClose 1 1)
        (first.replay closingTooSoon).core = (s', result) ∧
      ((first.replay closingTooSoon).core.channels 1).isSome ∧
      ¬ SessionCore.LosesNothing 1 1 (first.replay closingTooSoon).core s' result := by
  obtain ⟨session, hnew⟩ := Session.new_ok (Config.new .listener)
  obtain ⟨s', hcall, hopen, hloses⟩ := closingTooSoon_loses hnew
  exact ⟨⟨session, []⟩, s', _, .new hnew, .replay _ _, hcall, hopen, hloses⟩

/-- When both messages have been answered the close loses nothing, and when only the
second has been, it may not be accepted and loses its reply. -/
theorem acceptClose_losesNothing_answered :
    ∃ first inTime tooSoon s' s'', Trace.Fresh (Config.new .listener) first ∧
      inTime = (first.replay closingInTime).core ∧
      tooSoon = (first.replay closingTooSoon).core ∧
      (inTime.channels 1).isSome ∧ (tooSoon.channels 1).isSome ∧
      handedOn 1 (inTime.past 1) = [⟨.rpy, 1, none, [120]⟩, ⟨.rpy, 0, none, [121]⟩] ∧
      Computation.outcome (SessionCore.acceptClose 1 1) inTime = (s', .ok ()) ∧
      Computation.outcome (SessionCore.acceptClose 1 1) tooSoon = (s'', .ok ()) ∧
      SessionCore.LosesNothing 1 1 inTime s' (.ok ()) ∧ inTime.MayClose 1 1 ∧
      ¬ SessionCore.LosesNothing 1 1 tooSoon s'' (.ok ()) ∧ ¬ tooSoon.MayClose 1 1 := by
  have hkept : (Session.new (Config.new .listener)).toOption.any fun session =>
      let s := (Trace.replay ⟨session, []⟩ closingInTime).core
      let closed := Computation.outcome (SessionCore.acceptClose 1 1) s
      let actions := closed.1.history.drop s.history.length
      (s.channels 1).isSome && (closed.2.isOk &&
        (decide (handedOn 1 (s.past 1) = [⟨.rpy, 1, none, [120]⟩, ⟨.rpy, 0, none, [121]⟩]) &&
          (decide ((completedOn 1 (s.past 1)).Perm ((handedOn 1 (s.past 1)).map Queued.whole)) &&
          (decide (closed.1.history = s.history ++ actions) &&
            decide (completedOn greetingChannel (s.past greetingChannel ++ actions) =
              completedOn greetingChannel (s.past greetingChannel) ++
                [(okMessage 1).whole]))))) := by
    decide +kernel
  obtain ⟨session, hnew⟩ := Session.new_ok (Config.new .listener)
  rw [hnew] at hkept
  obtain ⟨first, hfirst⟩ : ∃ first : Trace, first = ⟨session, []⟩ := ⟨_, rfl⟩
  have hfresh : Trace.Fresh (Config.new .listener) first := hfirst ▸ .new hnew
  obtain ⟨s'', hcall', hopen', hloses⟩ := closingTooSoon_loses hnew
  rw [← hfirst] at hcall' hopen' hloses
  simp only [Except.toOption, Option.any_some, ← hfirst] at hkept
  have hrun (acts : List Act) : Trace.Run (fun _ _ => True) first (first.replay acts) :=
    .replay _ _
  obtain ⟨inTime, hinTime⟩ : ∃ inTime, inTime = first.replay closingInTime := ⟨_, rfl⟩
  obtain ⟨tooSoon, htooSoon⟩ : ∃ tooSoon, tooSoon = first.replay closingTooSoon := ⟨_, rfl⟩
  have hrunIn := hinTime ▸ hrun closingInTime
  have hrunToo := htooSoon ▸ hrun closingTooSoon
  rw [← htooSoon] at hcall' hopen' hloses
  rw [← hinTime] at hkept
  rcases hcall : Computation.outcome (SessionCore.acceptClose 1 1) inTime.core with
    ⟨s', error | _⟩
  · simp [hcall, Except.isOk, Except.toBool] at hkept
  simp only [hcall, Bool.and_eq_true, decide_eq_true_eq] at hkept
  obtain ⟨hopen, -, hhanded, hcompleted, hhistory, hokay⟩ := hkept
  have hkeeps : SessionCore.LosesNothing 1 1 inTime.core s' (.ok ()) := by
    refine ⟨fun _ number hdrops message => ?_, _, hhistory, .inl hokay⟩
    obtain rfl : number = 1 := hdrops.resolve_right (by decide)
    rw [hcompleted.count_eq]
    exact List.count_le_count_map ..
  have hiff := (Trace.Run.acceptClose_losesNothing_iff hfresh hrunIn hcall).2
  have hiff' := (Trace.Run.acceptClose_losesNothing_iff hfresh hrunToo hcall').2
  exact ⟨first, inTime.core, tooSoon.core, s', s'', hfresh, congrArg _ hinTime,
    congrArg _ htooSoon, hopen, hopen', hhanded, hcall, hcall', hkeeps, hiff.mp hkeeps, hloses,
    fun hmay => hloses (hiff'.mpr hmay)⟩

end Vortice.Proto
