import Vortice.Proto.Journal

/-!
# The lifetime of a channel number

Nothing is kept for a number that is not open, so a channel that is opened on it
again starts afresh; and its openings and closings follow one another in turn.
-/

namespace Vortice.Proto

open Vortice.Foundation

/-! ## What is left of a closed channel -/

namespace Entry

/-- The entry adds to what is kept for a channel number. -/
def Feeds (channel : UInt32) : Entry → Prop
  | .counted number => number = channel
  | .queued number _ => number = channel
  | .held number _ => number = channel
  | .allocated number _ => number = channel
  | .accepted frame => frame.channel = channel
  | .delivered number _ => number = channel
  | _ => False

end Entry

namespace Ledger

/-- Nothing but the table mentions the channel number. -/
structure Bare (l : Ledger) (number : UInt32) : Prop where
  queued : l.queued number = false
  counted : l.counted number = false
  replyOrder : l.replyOrder number = none
  heldReplies : l.heldReplies number = none

/-- Nothing is kept for numbers that are not open. -/
def Tidy (l : Ledger) : Prop :=
  ∀ number, number ≠ greetingChannel → l.table number = none → l.Bare number

variable {l l' : Ledger} {entry : Entry} {number : UInt32}

theorem close_bare (hclosed : l.Bare number) (channel : UInt32) :
    (l.close channel).Bare number := by
  unfold close
  split
  · exact ⟨rfl, rfl, rfl, rfl⟩
  · by_cases hnumber : number = channel
    · subst hnumber
      constructor <;> simp [closeChannel]
    · constructor <;>
        simp [closeChannel, hnumber, hclosed.queued, hclosed.counted,
          hclosed.replyOrder, hclosed.heldReplies]

theorem Step.bare (h : l.Step entry l') (hfeeds : ¬ entry.Feeds number)
    (hbare : l.Bare number) : l'.Bare number := by
  obtain ⟨hqueued, hcounted, horder, hheld⟩ := hbare
  cases h with
  | counted =>
      refine ⟨hqueued, ?_, horder, hheld⟩
      simpa [Function.update_of_ne (Ne.symm hfeeds)] using hcounted
  | queued =>
      refine ⟨?_, hcounted, horder, hheld⟩
      simpa [enter, Function.update_of_ne (Ne.symm hfeeds)] using hqueued
  | held =>
      refine ⟨hqueued, hcounted, horder, ?_⟩
      simpa [Function.update_of_ne (Ne.symm hfeeds)] using hheld
  | @released other _ waiting hwaiting =>
      refine ⟨hqueued, hcounted, horder, ?_⟩
      have hother : number ≠ other := by
        rintro rfl
        rw [hheld] at hwaiting
        cases hwaiting
      simpa [Function.update_of_ne hother] using hheld
  | @popped other =>
      refine ⟨hqueued, hcounted, ?_, hheld⟩
      by_cases hother : number = other
      · subst hother
        simp [horder]
      · simpa [Function.update_of_ne hother] using horder
  | accepted =>
      simp only [enter, setBook]
      split <;> exact ⟨hqueued, hcounted, horder, hheld⟩
  | @delivered other message _ _ =>
      refine ⟨hqueued, hcounted, ?_, hheld⟩
      simp only [deliver]
      split
      · simpa [Function.update_of_ne (Ne.symm hfeeds)] using horder
      · exact horder
  | agreed => exact close_bare (l := l.settle _) ⟨hqueued, hcounted, horder, hheld⟩ _
  | closed => exact close_bare ⟨hqueued, hcounted, horder, hheld⟩ _
  | _ => exact ⟨hqueued, hcounted, horder, hheld⟩

theorem Step.not_feeds (h : l.Step entry l') (hzero : number ≠ greetingChannel)
    (htable : l.table number = none) : ¬ entry.Feeds number := by
  intro hfeeds
  cases h with
  | counted hopen | queued hopen | held hopen =>
      cases hfeeds
      simp [bookAt, hzero, htable] at hopen
  | allocated hopen =>
      cases hfeeds
      rw [htable] at hopen
      cases hopen
  | accepted hopen =>
      cases hfeeds
      simp [bookAt, hzero, htable] at hopen
  | delivered _ hopen =>
      cases hfeeds
      rw [htable] at hopen
      cases hopen
  | _ => exact hfeeds

theorem bare_of_close (hopen : (l.table number).isSome) {channel : UInt32}
    (hclosed : (l.close channel).table number = none) :
    (l.close channel).Bare number := by
  by_cases hzero : channel = greetingChannel
  · rw [close, if_pos hzero]
    exact ⟨rfl, rfl, rfl, rfl⟩
  · rw [close, if_neg hzero] at hclosed ⊢
    by_cases hnumber : number = channel
    · subst hnumber
      constructor <;> simp [closeChannel]
    · simp only [closeChannel, ne_eq, hnumber, not_false_eq_true,
        Function.update_of_ne] at hclosed
      rw [hclosed] at hopen
      cases hopen

theorem Step.bare_of_closed (h : l.Step entry l') (hzero : number ≠ greetingChannel)
    (hopen : (l.table number).isSome) (hclosed : l'.table number = none) :
    l'.Bare number := by
  have hstays : (∀ other, entry ≠ .closed other) →
      (∀ msgno other, entry ≠ .agreed msgno other) → l'.Bare number := by
    intro hentry hagreed
    have hbook : (l.bookAt number).isSome := by
      simpa [bookAt, hzero] using hopen
    have hsome := h.bookAt_isSome hentry hagreed hbook
    simp [bookAt, hzero, hclosed] at hsome
  cases h with
  | closed => exact bare_of_close hopen hclosed
  | agreed => exact bare_of_close (l := l.settle _) hopen hclosed
  | _ => exact hstays (by rintro _ ⟨⟩) (by rintro _ _ ⟨⟩)

theorem Step.tidy (h : l.Step entry l') (htidy : l.Tidy) : l'.Tidy := by
  intro number hzero hclosed
  cases htable : l.table number with
  | none =>
      exact h.bare (h.not_feeds hzero htable) (htidy number hzero htable)
  | some book =>
      refine h.bare_of_closed hzero ?_ hclosed
      rw [htable]
      rfl

/-- A number that is closed, or open with nothing under way. -/
structure Idle (l : Ledger) (number : UInt32) : Prop where
  bare : l.Bare number
  book : ∀ book, l.table number = some book → book = .blank

theorem Step.idle_of (h : l.Step entry l') (hfeeds : ¬ entry.Feeds number)
    (hidle : l.Idle number) : l'.Idle number := by
  refine ⟨h.bare hfeeds hidle.bare, ?_⟩
  have hopened : ∀ {other : UInt32} {book : Book},
      Function.update l.table other (some .blank) number = some book →
        book = .blank := by
    intro other book hbook
    by_cases hother : number = other
    · subst hother
      rw [Function.update_self] at hbook
      exact (Option.some.inj hbook).symm
    · rw [Function.update_of_ne hother] at hbook
      exact hidle.book book hbook
  have hclosed : ∀ {other : UInt32} {k : Ledger} {book : Book},
      k.table = l.table → (k.close other).table number = some book →
        book = .blank := by
    intro other k book hsame hbook
    unfold close at hbook
    split at hbook
    · cases hbook
    · by_cases hother : number = other
      · subst hother
        simp [closeChannel] at hbook
      · simp only [closeChannel, ne_eq, hother, not_false_eq_true,
          Function.update_of_ne, hsame] at hbook
        exact hidle.book book hbook
  intro book hbook
  cases h with
  | @allocated other _ _ _ _ =>
      refine hidle.book book ?_
      simpa [Function.update_of_ne (Ne.symm hfeeds)] using hbook
  | accepted =>
      refine hidle.book book ?_
      simp only [enter, setBook] at hbook
      split at hbook
      · exact hbook
      · simpa [Function.update_of_ne (Ne.symm hfeeds)] using hbook
  | answered => exact hopened hbook
  | welcomed => exact hopened hbook
  | agreed => exact hclosed (k := l.settle _) rfl hbook
  | closed => exact hclosed rfl hbook
  | _ => exact hidle.book book hbook

theorem Step.table_none (h : l.Step entry l') (hwelcomed : entry ≠ .welcomed number)
    (hanswered : ∀ msgno profile, entry ≠ .answered msgno number profile)
    (htable : l.table number = none) : l'.table number = none := by
  have hclosed : ∀ {other : UInt32} {k : Ledger}, k.table = l.table →
      (k.close other).table number = none := by
    intro other k hsame
    unfold close
    split
    · rfl
    · by_cases hother : number = other
      · subst hother
        simp [closeChannel]
      · simpa [closeChannel, hother, hsame] using htable
  cases h with
  | @allocated other _ _ hopen =>
      have hother : number ≠ other := by
        rintro rfl
        rw [htable] at hopen
        cases hopen
      simpa [hother] using htable
  | @accepted frame _ hopen =>
      by_cases hzero : frame.channel = greetingChannel
      · simpa [enter, setBook, hzero] using htable
      · have hother : number ≠ frame.channel := by
          rintro rfl
          simp [bookAt, hzero, htable] at hopen
        simpa [enter, setBook, hzero, hother] using htable
  | @answered _ other profile _ =>
      have hother : number ≠ other := by
        rintro rfl
        exact hanswered _ _ rfl
      simpa [report, openChannel, forget, settle, hother] using htable
  | @welcomed other _ _ _ =>
      have hother : number ≠ other := by
        rintro rfl
        exact hwelcomed rfl
      simpa [openChannel, hother] using htable
  | agreed => exact hclosed (k := l.settle _) rfl
  | closed => exact hclosed rfl
  | _ => exact htable

/-- A number comes into the table when a channel is opened on it, and only then. -/
theorem Step.opens (h : l.Step entry l') (hopen : (l'.table number).isSome) :
    (l.table number).isSome ∨ entry = .welcomed number ∨
      ∃ msgno profile, entry = .answered msgno number profile := by
  by_contra hnone
  simp only [not_or, not_exists] at hnone
  obtain ⟨hclosed, hwelcomed, hanswered⟩ := hnone
  rw [h.table_none hwelcomed hanswered (by simpa using hclosed)] at hopen
  cases hopen

end Ledger

namespace SessionCore

variable {s t : SessionCore} {number : UInt32}

/-- Nothing is kept for the number besides its entry in the channel table. -/
structure Bare (s : SessionCore) (number : UInt32) : Prop where
  queues : s.queues number = none
  unacked : s.unacked number = none
  replyOrder : s.replyOrder number = none
  heldReplies : s.heldReplies number = none

/-- The channel is open, and nothing has happened on it yet. -/
structure Pristine (s : SessionCore) (number : UInt32) : Prop where
  channel : ∃ channel, s.channels number = some channel ∧
    channel.nextSeqno = 0 ∧ channel.expectedSeqno = 0 ∧
    channel.outstanding = ∅ ∧ channel.awaitingReply = ∅ ∧
    channel.partialMessage = none
  bare : s.Bare number

theorem bare_ledger_iff : s.ledger.Bare number ↔ s.Bare number := by
  constructor
  · rintro ⟨hqueued, hcounted, horder, hheld⟩
    refine ⟨?_, ?_, horder, hheld⟩
    · exact Option.isNone_iff_eq_none.mp (by simpa [ledger] using hqueued)
    · exact Option.isNone_iff_eq_none.mp (by simpa [ledger] using hcounted)
  · rintro ⟨hqueues, hunacked, horder, hheld⟩
    exact ⟨by simp [ledger, hqueues], by simp [ledger, hunacked], horder, hheld⟩

theorem table_none_iff : s.ledger.table number = none ↔ s.channels number = none := by
  rw [table_ledger, Option.map_eq_none_iff]

/-- A lane whose channel is closed, or has just been opened. -/
def Unused (s : SessionCore) (number : UInt32) : Prop :=
  ∀ flow, (s.lane number).flow = some flow →
    flow = Flow.fresh number s.config.windowSize

theorem Move.unused {effect : Effect} (h : Move s effect t)
    (hzero : number ≠ greetingChannel)
    (heffect : ∀ found, effect = .lane number found → found = .closed)
    (hunused : s.Unused number) : t.Unused number := by
  have hconfig : t.config = s.config := by
    obtain ⟨actions, hlogs⟩ := h.logs
    exact hlogs.config
  have hsame : t.lane number = s.lane number → t.Unused number := by
    intro hlane flow hflow
    rw [hconfig]
    rw [hlane] at hflow
    exact hunused flow hflow
  have hopened : ∀ {other : UInt32} {lane' : Lane},
      Lane.Step other (s.lane other) (.opened s.config.windowSize) [.opened other]
        lane' → t.lane = Function.update s.lane other lane' → t.Unused number := by
    intro other lane' hstep hlane
    by_cases hother : number = other
    · subst hother
      intro flow hflow
      rw [hlane, Function.update_self] at hflow
      cases hstep
      rw [hconfig]
      exact (Option.some.inj hflow).symm
    · exact hsame (by rw [hlane, Function.update_of_ne hother])
  cases h with
  | @lane _ other effect actions lane' _ hstep hlane =>
      by_cases hother : number = other
      · subst hother
        obtain rfl := heffect _ rfl
        intro flow hflow
        rw [hlane, Function.update_self] at hflow
        cases hstep
        cases hflow
      · exact hsame (by rw [hlane, Function.update_of_ne hother])
  | accept _ _ hstep hlane => exact hopened hstep hlane
  | answer _ hstep hlane => exact hopened hstep hlane
  | shut hlane =>
      intro flow hflow
      rw [hlane, if_neg hzero] at hflow
      cases hflow
  | idle hlane => exact hsame (congrFun hlane number)
  | tell hlane => exact hsame (congrFun hlane number)
  | number hlane => exact hsame (congrFun hlane number)
  | ask hlane => exact hsame (congrFun hlane number)
  | settle hlane => exact hsame (congrFun hlane number)
  | answerZero _ hlane => exact hsame (congrFun hlane number)

theorem unused_of_closed (hzero : number ≠ greetingChannel)
    (h : s.channels number = none) : s.Unused number := by
  intro flow hflow
  simp [lane, channelAt, hzero, h] at hflow

theorem pristine_of_unused (hzero : number ≠ greetingChannel)
    (hunused : s.Unused number) (hidle : s.ledger.Idle number)
    (hopen : (s.channels number).isSome) : s.Pristine number := by
  obtain ⟨channel, hchannel⟩ := Option.isSome_iff_exists.mp hopen
  have hflow : channel.flow = Flow.fresh number s.config.windowSize := by
    refine hunused channel.flow ?_
    simp [lane, channelAt, hzero, hchannel]
  have hbook : channel.book = .blank := by
    refine hidle.book channel.book ?_
    rw [table_ledger, hchannel, Option.map_some]
  refine ⟨⟨channel, hchannel, ?_, ?_, ?_, ?_, ?_⟩, bare_ledger_iff.mp hidle.bare⟩
  · exact congrArg Flow.nextSeqno hflow
  · exact congrArg Flow.expectedSeqno hflow
  · exact congrArg Book.outstanding hbook
  · exact congrArg Book.awaitingReply hbook
  · exact congrArg Book.partialMessage hbook

theorem pristine_of_path {allowed : Entry → Prop} {effects : Effect → Prop}
    (htidy : s.ledger.Tidy) (hzero : number ≠ greetingChannel)
    (hclosed : s.channels number = none) (hbooks : Walk Books allowed s t)
    (hfeeds : ∀ entry, allowed entry → ¬ entry.Feeds number)
    (hmoves : Walk Move effects s t)
    (heffects : ∀ found, effects (.lane number found) → found = .closed)
    (hopen : (t.channels number).isSome) : t.Pristine number := by
  have htable := table_none_iff.mpr hclosed
  have hidle : s.ledger.Idle number :=
    ⟨htidy number hzero htable, fun book hbook => by rw [htable] at hbook; cases hbook⟩
  refine pristine_of_unused hzero ?_ ?_ hopen
  · refine hmoves.preserves (I := fun u => u.Unused number) ?_
      (unused_of_closed hzero hclosed)
    intro u v effect hallowed hmove
    exact hmove.unused hzero fun found heq => heffects found (heq ▸ hallowed)
  · refine hbooks.preserves (I := fun u : SessionCore => u.ledger.Idle number) ?_ hidle
    intro u v entry hallowed hstep
    exact hstep.idle_of (hfeeds entry hallowed)

theorem channels_none_of_path {allowed : Entry → Prop} (hclosed : s.channels number = none)
    (hbooks : Walk Books allowed s t) (hwelcomed : ¬ allowed (.welcomed number))
    (hanswered : ∀ msgno profile, ¬ allowed (.answered msgno number profile)) :
    t.channels number = none := by
  refine table_none_iff.mp (hbooks.preserves
    (I := fun u : SessionCore => u.ledger.table number = none) ?_
    (table_none_iff.mpr hclosed))
  intro u v entry hallowed hstep
  refine hstep.table_none ?_ ?_
  · rintro rfl
    exact hwelcomed hallowed
  · rintro msgno profile rfl
    exact hanswered _ _ hallowed

theorem call_pristine (htidy : s.ledger.Tidy) (hzero : number ≠ greetingChannel)
    (hclosed : s.channels number = none) (call : Call)
    (hopen : ((Computation.final call.run s).channels number).isSome) :
    (Computation.final call.run s).Pristine number := by
  have hbooks := keeps_call call s
  have hopens : Entry.ofCall s call (.welcomed number) ∨
      ∃ msgno profile, Entry.ofCall s call (.answered msgno number profile) := by
    by_contra hnone
    obtain ⟨hwelcomed, hanswered⟩ := not_or.mp hnone
    rw [channels_none_of_path hclosed hbooks hwelcomed
      fun msgno profile h => hanswered ⟨msgno, profile, h⟩] at hopen
    cases hopen
  cases call with
  | acceptStart channel msgno profile =>
      refine pristine_of_path htidy hzero hclosed hbooks ?_
        (path_acceptStart channel msgno profile s) ?_ hopen
      · intro entry hallowed hfeeds
        cases entry <;> first | exact hallowed | exact hfeeds | skip
        all_goals
          cases hallowed
          exact hzero (hfeeds.symm)
      · rintro found (heq | hwrites)
        · cases heq
        · cases found with
          | push => exact absurd hwrites.1 hzero
          | _ => exact hwrites.elim
  | _ =>
      rcases hopens with h | ⟨_, _, h⟩ <;> first | exact False.elim h | cases h

theorem frame_pristine (htidy : s.ledger.Tidy) (hzero : number ≠ greetingChannel)
    (hclosed : s.channels number = none) (frame : Frame)
    (hopen : ((Computation.final (handleFrame frame) s).channels number).isSome) :
    (Computation.final (handleFrame frame) s).Pristine number := by
  have hbooks := keeps_handleFrame frame s
  cases frame with
  | seq seq =>
      rw [channels_none_of_path hclosed hbooks id fun _ _ => id] at hopen
      cases hopen
  | data frame =>
      have hframe : frame.channel = greetingChannel := by
        by_contra hother
        rw [channels_none_of_path hclosed hbooks (fun ⟨_, _, h⟩ => h.elim)
          fun _ _ ⟨_, h, _⟩ => hother h.1] at hopen
        cases hopen
      refine pristine_of_path htidy hzero hclosed hbooks ?_
        (does_handleFrame (.data frame) s) ?_ hopen
      · intro entry hallowed hfeeds
        cases entry with
        | counted other =>
            cases hallowed
            exact hzero (hfeeds.symm.trans hframe)
        | accepted other =>
            cases hallowed
            exact hzero (hfeeds.symm.trans hframe)
        | delivered other message =>
            exact hallowed.2.1 (hallowed.1.trans hframe)
        | queued | held | allocated =>
            obtain ⟨_, _, h⟩ := hallowed
            exact h.elim
        | _ => exact hfeeds
      · intro found hallowed
        cases found with
        | closed => rfl
        | react => cases hallowed.1
        | take =>
            obtain ⟨heq, hnumber⟩ := hallowed
            cases heq
            exact absurd (hnumber.trans hframe) hzero
        | reject =>
            obtain ⟨heq, hnumber⟩ := hallowed
            cases heq
            exact absurd (hnumber.trans hframe) hzero
        | _ => exact hallowed.elim

end SessionCore

theorem Session.Meets.books {session : Session} {core : SessionCore} {frame : Frame}
    (h : session.Meets core frame) :
    Walk SessionCore.Books (fun _ => True) session.core core := by
  induction h with
  | first => exact Walk.refl
  | @later session _ _ frame _ _ _ _ hrun _ ih =>
      have hframe := SessionCore.keeps_handleFrame frame session.core
      rw [Computation.final_of_ok hrun] at hframe
      exact (hframe.mono fun _ _ => trivial).trans ih

theorem fresh_tidy (config : Config) : (SessionCore.fresh config).ledger.Tidy :=
  fun _ _ _ => ⟨rfl, rfl, rfl, rfl⟩

theorem Trace.Run.tidy {config : Config} {meets : Trace → Act → Prop}
    {first last : Trace} (hfresh : Trace.Fresh config first)
    (hrun : Trace.Run meets first last) : last.core.ledger.Tidy := by
  refine hrun.keeps_books (fun hstep => hstep.tidy) ?_
  exact hfresh.books.preserves (I := fun s : SessionCore => s.ledger.Tidy)
    (fun _ hstep => hstep.tidy) (fresh_tidy config)

/-- Nothing is kept for a number that is not in the channel table, and a channel that
is opened on it, by a call or by the peer's answer, starts afresh. -/
theorem Trace.Run.closed_leaves_nothing {config : Config}
    {meets : Trace → Act → Prop} {first last : Trace} {number : UInt32}
    (hfresh : Trace.Fresh config first) (hrun : Trace.Run meets first last)
    (hzero : number ≠ greetingChannel) :
    (last.core.channels number = none → last.core.Bare number) ∧
      (∀ call : Call, last.core.channels number = none →
        ((Computation.final call.run last.core).channels number).isSome →
        (Computation.final call.run last.core).Pristine number) ∧
      ∀ input core frame, (last.session.received input).Meets core frame →
        core.channels number = none → core.Bare number ∧
          (((Computation.final (SessionCore.handleFrame frame) core).channels
              number).isSome →
            (Computation.final (SessionCore.handleFrame frame) core).Pristine
              number) := by
  have htidy := hrun.tidy hfresh
  have hbare : ∀ {core : SessionCore}, core.ledger.Tidy →
      core.channels number = none → core.Bare number := by
    intro core htidy hclosed
    exact SessionCore.bare_ledger_iff.mp
      (htidy number hzero (SessionCore.table_none_iff.mpr hclosed))
  refine ⟨hbare htidy, fun call hclosed => ?_, fun input core frame hmeets hclosed => ?_⟩
  · exact SessionCore.call_pristine htidy hzero hclosed call
  · have htidy' : core.ledger.Tidy := by
      refine hmeets.books.preserves (I := fun s : SessionCore => s.ledger.Tidy)
        (fun _ hstep => hstep.tidy) ?_
      exact htidy
    exact ⟨hbare htidy' hclosed, SessionCore.frame_pristine htidy' hzero hclosed frame⟩

/-- A peer starts channel 1, is sent a message on it and closes it. -/
def startedAndClosed : List Act :=
  [.input (peerFrame .rpy 0 0 0 Greeting.new.toPayload ++ startRequest 1 0 52),
    .call (.acceptStart 1 0 (.new "urn:x")), .call (.sendMsg 1 [120]),
    .call (.acceptClose 1 1)]

theorem closed_leaves_nothing_reopened :
    ∃ first last, Trace.Fresh (Config.new .listener) first ∧
      last = first.replay startedAndClosed ∧
      .opened 1 ∈ last.core.history ∧ last.core.Bare 1 ∧
      (Computation.final (Call.run (.acceptStart 1 2 (.new "urn:x")))
        last.core).Pristine 1 := by
  have hrun : (Session.new (Config.new .listener)).toOption.any fun session =>
      let last := Trace.replay ⟨session, []⟩ startedAndClosed
      (decide (.opened 1 ∈ last.core.history) && (last.core.channels 1).isNone) &&
        ((Computation.final (Call.run (.acceptStart 1 2 (.new "urn:x")))
          last.core).channels 1).isSome := by
    decide +kernel
  obtain ⟨session, hnew⟩ := Session.new_ok (Config.new .listener)
  rw [hnew] at hrun
  simp only [Except.toOption, Option.any_some, Bool.and_eq_true, decide_eq_true_eq,
    Option.isNone_iff_eq_none] at hrun
  obtain ⟨⟨hopened, hclosed⟩, hopen⟩ := hrun
  have hreplay := Trace.Run.replay ⟨session, []⟩ startedAndClosed
  obtain ⟨hbare, hcall, -⟩ := Trace.Run.closed_leaves_nothing (.new hnew) hreplay
    (show (1 : UInt32) ≠ greetingChannel by decide)
  exact ⟨⟨session, []⟩, _, .new hnew, rfl, hopened, hbare hclosed,
    hcall (.acceptStart 1 2 (.new "urn:x")) hclosed hopen⟩

end Vortice.Proto
