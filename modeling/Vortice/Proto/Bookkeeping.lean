import Vortice.Proto.Ledger

/-!
# The entries each method makes

One lemma for each method of a session: whatever it is called with, its books
change by entries of the kinds named.  Requests that fail half-way, and replies
that settle no request, make entries that successful calls do not make.
-/

namespace Vortice.Proto

open Vortice.Foundation

namespace Entry

/-- What writing a message on channel 0 enters. -/
def writesZero : Entry → Prop
  | .idle => True
  | .handed number _ => number = greetingChannel
  | .queued number _ => number = greetingChannel
  | _ => False

/-- What sending on a channel enters. -/
def sends (channel : UInt32) : Entry → Prop
  | .idle => True
  | .handed number _ => number = channel
  | .queued number _ => number = channel
  | .held number _ => number = channel
  | .released number _ => number = channel
  | .popped number => number = channel
  | .allocated number _ => number = channel
  | _ => False

/-- What a message that has been handed over enters. -/
def passes (channel : UInt32) : Entry → Prop
  | .idle => True
  | .queued number _ => number = channel
  | .held number _ => number = channel
  | .released number _ => number = channel
  | .popped number => number = channel
  | _ => False

theorem sends_of_passes {channel : UInt32} :
    ∀ entry : Entry, entry.passes channel → entry.sends channel := by
  intro entry h
  cases entry <;> first | exact h | exact h.elim

/-- What receiving a frame enters, before its message is looked at. -/
def receives (frame : DataFrame) : Entry → Prop
  | .idle => True
  | .accepted other => other = frame
  | .counted number => number = frame.channel
  | _ => False

/-- What a management message enters. -/
def dispatches (kind : FrameKind) (msgno : UInt32) (management : Management.Message)
    (failed : Prop) : Entry → Prop
  | .idle => True
  | .told _ => kind = .msg
  | .dismissed _ => failed
  | .answered other _ profile =>
      other = msgno ∧ kind = .rpy ∧ management = .profile profile
  | .agreed other _ => other = msgno ∧ kind = .rpy ∧ management = .ok
  | .startRefused other _ error =>
      other = msgno ∧ kind = .err ∧ management = .error error
  | .closeRefused other _ error =>
      other = msgno ∧ kind = .err ∧ management = .error error
  | _ => False

end Entry

/-- A reply of this kind, with this element, is an answer to what was asked for. -/
def Pending.answeredBy : FrameKind → Management.Message → Pending → Bool
  | .rpy, .profile _, .start _ => true
  | .rpy, .ok, .close _ => true
  | .err, .error _, _ => true
  | _, _, _ => false

/-- What the answer to a request enters. -/
def Entry.answer (msgno : UInt32) : Pending → Management.Message → Entry
  | .start number, .profile profile => .answered msgno number profile
  | .start number, .error error => .startRefused msgno number error
  | .start _, _ => .dismissed msgno
  | .close number, .error error => .closeRefused msgno number error
  | .close number, _ => .agreed msgno number

/-- A frame of channel 0 completes a management message, after the greetings. -/
def SessionCore.Hears (s : SessionCore) (frame : DataFrame)
    (management : Management.Message) : Prop :=
  frame.channel = greetingChannel ∧ s.state ≠ .awaitingGreeting ∧
    ∃ message t, SessionCore.receive frame s = .ok (some message) t ∧
      Management.Message.fromPayload message.payload = .ok management

/-- What an incoming frame enters, in the state it is handled in. -/
def Entry.handles (s : SessionCore) (failed : Prop) : Frame → Entry → Prop
  | .seq _, .idle => True
  | .seq _, _ => False
  | .data _, .idle => True
  | .data frame, .accepted other => other = frame
  | .data frame, .counted number => number = frame.channel
  | .data frame, .greeted _ => frame.channel = greetingChannel
  | .data frame, .delivered number message =>
      number = frame.channel ∧ number ≠ greetingChannel ∧
        message.kind = frame.kind ∧ message.msgno = frame.msgno ∧ frame.more = false
  | .data frame, entry => ∃ management, s.Hears frame management ∧
      entry.dispatches frame.kind frame.msgno management failed

/-- Books that differ in the exchanges of channels at most. -/
structure Ledger.Unmoved (l l' : Ledger) : Prop where
  state : l'.state = l.state
  nextChannel : l'.nextChannel = l.nextChannel
  pending : l'.pending = l.pending
  halfOpen : l'.halfOpen = l.halfOpen
  isOpen : ∀ number, (l'.table number).isSome = (l.table number).isSome
  replyOrder : l'.replyOrder = l.replyOrder
  heldReplies : l'.heldReplies = l.heldReplies
  events : l'.events = l.events

theorem Ledger.Unmoved.trans {l l' l'' : Ledger} (first : l.Unmoved l')
    (second : l'.Unmoved l'') : l.Unmoved l'' where
  state := second.state.trans first.state
  nextChannel := second.nextChannel.trans first.nextChannel
  pending := second.pending.trans first.pending
  halfOpen := second.halfOpen.trans first.halfOpen
  isOpen := fun number => (second.isOpen number).trans (first.isOpen number)
  replyOrder := second.replyOrder.trans first.replyOrder
  heldReplies := second.heldReplies.trans first.heldReplies
  events := second.events.trans first.events

theorem Ledger.Step.unmoved {l l' : Ledger} {entry : Entry} {frame : DataFrame}
    (h : l.Step entry l') (hentry : entry.receives frame) : l.Unmoved l' := by
  cases h with
  | idle => exact ⟨rfl, rfl, rfl, rfl, fun _ => rfl, rfl, rfl, rfl⟩
  | counted => exact ⟨rfl, rfl, rfl, rfl, fun _ => rfl, rfl, rfl, rfl⟩
  | @accepted other book hbook =>
      unfold Ledger.bookAt at hbook
      unfold Ledger.setBook
      by_cases hzero : other.channel = greetingChannel
      · simp only [hzero, if_true, Ledger.enter]
        exact ⟨rfl, rfl, rfl, rfl, fun _ => rfl, rfl, rfl, rfl⟩
      · simp only [hzero, if_false, Ledger.enter] at hbook ⊢
        refine ⟨rfl, rfl, rfl, rfl, fun number => ?_, rfl, rfl, rfl⟩
        by_cases hnumber : number = other.channel
        · subst hnumber
          simp [hbook]
        · simp [hnumber]
  | _ => cases hentry

theorem Ledger.Step.bookAt_isSome {l l' : Ledger} {entry : Entry} {number : UInt32}
    (h : l.Step entry l') (hclosed : ∀ other, entry ≠ .closed other)
    (hagreed : ∀ msgno other, entry ≠ .agreed msgno other)
    (hopen : (l.bookAt number).isSome) : (l'.bookAt number).isSome := by
  by_cases hzero : number = greetingChannel
  · simp [Ledger.bookAt, hzero]
  have hupdate : ∀ {table : UInt32 → Option Book} {other : UInt32} {book : Book},
      (table number).isSome →
        (Function.update table other (some book) number).isSome := by
    intro table other book hsome
    by_cases hother : number = other
    · subst hother
      rw [Function.update_self]
      rfl
    · rwa [Function.update_of_ne hother]
  simp only [Ledger.bookAt, hzero, if_false] at hopen ⊢
  cases h with
  | allocated => exact hupdate hopen
  | accepted =>
      simp only [Ledger.enter, Ledger.setBook]
      split
      · exact hopen
      · exact hupdate hopen
  | answered => exact hupdate hopen
  | welcomed => exact hupdate hopen
  | agreed => exact absurd rfl (hagreed _ _)
  | closed => exact absurd rfl (hclosed _)
  | _ => exact hopen

namespace SessionCore

/-- The method makes entries of the allowed kinds. -/
abbrev Keeps {α : Type} (allowed : Entry → Prop) (method : SessionM α) : Prop :=
  Makes Books allowed method

variable {allowed : Entry → Prop} {s t : SessionCore} {number : UInt32}

theorem Books.path {entry : Entry} (h : s.Books entry t) (hallowed : allowed entry) :
    Walk Books allowed s t :=
  Walk.single hallowed h

theorem Books.of_same (h : t.ledger = s.ledger) : s.Books .idle t := by
  rw [Books, h]
  exact .idle

theorem path_same (h : t.ledger = s.ledger) (hallowed : allowed .idle) :
    Walk Books allowed s t :=
  (Books.of_same h).path hallowed

theorem bookAt_ledger (s : SessionCore) (number : UInt32) :
    s.ledger.bookAt number = (s.channelAt number).map Channel.book := by
  unfold Ledger.bookAt channelAt
  split <;> rfl

theorem table_ledger (s : SessionCore) (number : UInt32) :
    s.ledger.table number = (s.channels number).map Channel.book := rfl

theorem ledger_setChannel (s : SessionCore) (number : UInt32) (channel : Channel) :
    (s.setChannel number channel).ledger = s.ledger.setBook number channel.book := by
  unfold setChannel Ledger.setBook
  split
  · rfl
  · simp only [ledger, Function.comp_update, Option.map_some]

theorem setBook_self {l : Ledger} {book : Book} (h : l.bookAt number = some book) :
    l.setBook number book = l := by
  unfold Ledger.bookAt at h
  unfold Ledger.setBook
  split at h
  · rename_i hzero
    cases h
    rw [if_pos hzero]
  · rename_i hzero
    rw [if_neg hzero, ← h, Function.update_eq_self]

theorem ledger_setChannel_same {channel channel' : Channel}
    (hchannel : s.channelAt number = some channel)
    (hbook : channel'.book = channel.book) :
    (s.setChannel number channel').ledger = s.ledger := by
  rw [ledger_setChannel, hbook]
  refine setBook_self ?_
  rw [bookAt_ledger, hchannel, Option.map_some]

theorem ledger_open_same {channel channel' : Channel}
    (hchannel : s.channels number = some channel)
    (hbook : channel'.book = channel.book) :
    SessionCore.ledger { s with
      channels := Function.update s.channels number (some channel') } =
      s.ledger := by
  have htable : (Option.map Channel.book ∘ s.channels) number =
      some channel.book := by
    rw [Function.comp_apply, hchannel, Option.map_some]
  simp only [ledger, Function.comp_update, Option.map_some, hbook, ← htable,
    Function.update_eq_self]

theorem ledger_enqueued (s : SessionCore) (number : UInt32) (message : Queued) :
    (s.enqueued number message).ledger =
      Ledger.enter { s.ledger with
        queued := Function.update s.ledger.queued number true }
        (.queued number message) := by
  simp only [enqueued, record, ledger, Ledger.enter, Function.comp_update,
    entered_append]
  rfl

theorem ledger_record {action : Action} (h : ∀ frame, action ≠ .wrote frame) :
    (s.record action).ledger = s.ledger.enter action := by
  have hentered : entered [action] = [action] := by
    cases action with
    | wrote frame => exact absurd rfl (h frame)
    | _ => rfl
  simp only [record, ledger, Ledger.enter, entered_append, hentered]

/-! ## Methods of channels -/

/-- The method of a channel leaves its book as it is. -/
def KeepsBook {α : Type} (method : Op Channel α) : Prop :=
  Computation.Relates (fun channel channel' => channel'.book = channel.book) method

theorem keepsBook_consume (octets : UInt32) : KeepsBook (Channel.consume octets) := by
  intro channel
  rw [Computation.final, consume_eq]
  cases (channel.recvWindow.consumed octets).toSeqFrame channel.number <;> rfl

theorem ledger_onChannel {α : Type} {method : Op Channel α} (number : UInt32)
    (hmethod : KeepsBook method) (s : SessionCore) :
    (Computation.final (onChannel number method) s).ledger = s.ledger := by
  cases hchannel : s.channelAt number with
  | none => rw [Computation.final_of_error (onChannel_none method hchannel)]
  | some channel =>
      have hrun := onChannel_run method hchannel
      have hfinal : Computation.final (onChannel number method) s =
          s.setChannel number (Computation.final method channel) := by
        rw [Computation.final, hrun, Computation.final]
        cases method channel <;> rfl
      rw [hfinal]
      exact ledger_setChannel_same hchannel (hmethod channel)

theorem ledger_onOpen {α : Type} {method : Op Channel α} (number : UInt32)
    (hmethod : KeepsBook method) (s : SessionCore) :
    (Computation.final (onOpen number method) s).ledger = s.ledger := by
  cases hchannel : s.channels number with
  | none => rw [final_onOpen_none number method hchannel]
  | some channel =>
      rw [final_onOpen number method hchannel]
      exact ledger_open_same hchannel (hmethod channel)

theorem allocateMsgnoLoop_run (fuel : Nat) (channel : Channel) :
    (∃ fault channel', Channel.allocateMsgnoLoop fuel channel =
        .error fault channel' ∧ channel'.book = channel.book) ∨
      ∃ msgno channel', Channel.allocateMsgnoLoop fuel channel =
          .ok msgno channel' ∧ msgno ∉ channel.outstanding ∧
        channel'.book = { channel.book with
          outstanding := insert msgno channel.outstanding } := by
  induction fuel generalizing channel with
  | zero => exact .inl ⟨_, channel, rfl, rfl⟩
  | succ fuel ih =>
      rw [allocateMsgnoLoop_succ]
      by_cases hused : channel.nextMsgno ∈ channel.outstanding
      · simp only [hused, not_true, if_false]
        exact ih _
      · simp only [hused, not_false_eq_true, if_true]
        exact .inr ⟨_, _, rfl, hused, rfl⟩

/-! ## Writing -/

theorem ledger_flush (number : UInt32) (s : SessionCore) :
    (Computation.final (flush number) s).ledger = s.ledger := by
  cases hqueue : s.queues number with
  | none => simp only [Computation.final, flush, hqueue]
  | some queue =>
      cases hchannel : s.channelAt number with
      | none => simp only [Computation.final, flush, hqueue, hchannel]
      | some channel =>
          obtain ⟨queue', _, frames, result, count, hloop, rfl, -, -⟩ :=
            flushLoop_writes s.config.maxFrameSize queue channel
          have hfinal : Computation.final (flush number) s =
              { s.setChannel number (channel.advance count) with
                queues := Function.update s.queues number (some queue')
                outbound := s.outbound ++ encodeAll (frames.map .data)
                history := s.history ++ frames.map (.wrote <| .data ·) } := by
            simp only [Computation.final, flush, hqueue, hchannel, hloop]
            cases result <;> rfl
          have hsame : (s.setChannel number (channel.advance count)).ledger =
              s.ledger := ledger_setChannel_same hchannel rfl
          have hqueued : Option.isSome ∘ Function.update s.queues number (some queue') =
              Option.isSome ∘ s.queues := by
            rw [Function.comp_update, Option.isSome_some,
              Function.update_eq_self_iff, Function.comp_apply, hqueue,
              Option.isSome_some]
          have hentries : entered (s.history ++ Lane.wrote frames) =
              entered s.history := by
            simp
          calc (Computation.final (flush number) s).ledger
              = { (s.setChannel number (channel.advance count)).ledger with
                  queued := Option.isSome ∘
                    Function.update s.queues number (some queue')
                  entries := entered (s.history ++ Lane.wrote frames) } := by
                rw [hfinal]
                rfl
            _ = s.ledger := by
                rw [hsame, hqueued, hentries]
                rfl

theorem ledger_write (seq : SeqFrame) (s : SessionCore) :
    (Computation.final (write (.seq seq)) s).ledger = s.ledger := by
  have hentries : entered (s.history ++ [Action.wrote (.seq seq)]) =
      entered s.history := by
    simp [entered]
  change { s.ledger with entries := entered (s.history ++ [Action.wrote (.seq seq)]) } = _
  rw [hentries]
  rfl

theorem keeps_flush (number : UInt32) (hallowed : allowed .idle) :
    Keeps allowed (flush number) :=
  fun s => path_same (ledger_flush number s) hallowed

theorem path_submitted (message : Queued) (hopen : (s.channelAt number).isSome)
    (hhanded : allowed (.handed number message))
    (hqueued : allowed (.queued number message)) :
    Walk Books allowed s (s.submitted number message) := by
  have hrecord : s.Books (.handed number message)
      (s.record (.handed number message)) := by
    rw [Books, ledger_record (by rintro _ ⟨⟩)]
    refine .handed ?_
    rwa [bookAt_ledger, Option.isSome_map]
  have henqueue : (s.record (.handed number message)).Books (.queued number message)
      (s.submitted number message) := by
    rw [Books, submitted, ledger_enqueued]
    refine .queued ?_
    rw [bookAt_ledger, Option.isSome_map]
    exact hopen
  exact (hrecord.path hhanded).trans (henqueue.path hqueued)

theorem keeps_writeZero (kind : FrameKind) (msgno : UInt32)
    (management : Management.Message) :
    Keeps Entry.writesZero (writeZero kind msgno management) := by
  intro s
  have hpath : Walk Books Entry.writesZero s
      (s.submitted greetingChannel ⟨kind, msgno, none, management.toPayload⟩) :=
    path_submitted _ rfl rfl rfl
  exact hpath.trans (keeps_flush greetingChannel trivial _)

theorem ledger_counted (s : SessionCore) (number pending : UInt32) :
    (s.counted number pending).ledger = { s.ledger with
      counted := Function.update s.ledger.counted number true } := by
  simp only [SessionCore.counted, ledger, Function.comp_update, Option.isSome_some]

theorem keeps_acknowledge (number octets : UInt32)
    (hcounted : allowed (.counted number)) (hidle : allowed .idle) :
    Keeps allowed (acknowledge number octets) := by
  have hcount : ∀ (s : SessionCore) (pending : UInt32),
      (s.ledger.bookAt number).isSome →
      Walk Books allowed s (s.counted number pending) := by
    intro s pending hopen
    have hstep : s.Books (.counted number) (s.counted number pending) := by
      rw [Books, ledger_counted]
      exact .counted hopen
    exact hstep.path hcounted
  intro s
  cases hchannel : s.channelAt number with
  | none =>
      rw [Computation.final_of_ok (acknowledge_of_none hchannel)]
      exact Walk.refl
  | some channel =>
      obtain ⟨pending, hpending⟩ : ∃ pending,
        pending = saturatingAdd ((s.unacked number).getD 0) octets := ⟨_, rfl⟩
      have hopen : (s.ledger.bookAt number).isSome := by
        rw [bookAt_ledger, hchannel]
        rfl
      have hfirst := hcount s pending hopen
      by_cases hge : pending ≥ ackThreshold channel.recvWindow.size
      · rw [hpending] at hge
        rw [Computation.final, acknowledge_of_ge hchannel hge, ← hpending,
          ← Computation.final]
        have hconsume := ledger_onChannel number (keepsBook_consume pending)
          (s.counted number pending)
        refine hfirst.trans (Makes.path_bind (path_same hconsume hidle) ?_)
        intro seq t hok
        rw [Computation.final_of_ok hok, ledger_counted] at hconsume
        have hopen' : (t.ledger.bookAt number).isSome := by
          rw [hconsume]
          exact hopen
        refine (hcount t 0 hopen').trans (path_same ?_ hidle)
        exact ledger_write seq (t.counted number 0)
      · rw [hpending] at hge
        rw [Computation.final_of_ok (acknowledge_of_lt hchannel hge), ← hpending]
        exact hfirst

/-! ## Sending -/

theorem keeps_enqueueAll (number : UInt32) (held : List Queued) (s : SessionCore)
    (hopen : (s.ledger.bookAt number).isSome) :
    Walk Books (Entry.passes number) s
      (Computation.final (enqueueAll number held) s) := by
  induction held generalizing s with
  | nil => exact Walk.refl
  | cons message held ih =>
      have hstep : s.Books (.queued number message) (s.enqueued number message) := by
        rw [Books, ledger_enqueued]
        exact .queued hopen
      have hpath : Walk Books (Entry.passes number) s (s.enqueued number message) :=
        hstep.path rfl
      refine hpath.trans (ih (s.enqueued number message) ?_)
      rw [ledger_enqueued]
      exact hopen

theorem bookAt_of_passes (h : Walk Books (Entry.passes number) s t)
    (hopen : (s.ledger.bookAt number).isSome) : (t.ledger.bookAt number).isSome := by
  refine h.preserves (I := fun u => (u.ledger.bookAt number).isSome) ?_ hopen
  intro u v entry hallowed hstep
  refine hstep.bookAt_isSome ?_ ?_
  · rintro _ rfl
    cases hallowed
  · rintro _ _ rfl
    cases hallowed

/-- A call that passes on messages of an open channel, and one that goes on. -/
theorem keeps_pass_bind {α β : Type} {method : SessionM α} {rest : α → SessionM β}
    (hopen : (s.ledger.bookAt number).isSome)
    (hmethod : Walk Books (Entry.passes number) s (Computation.final method s))
    (hrest : ∀ a t, (t.ledger.bookAt number).isSome →
      Walk Books (Entry.passes number) t (Computation.final (rest a) t)) :
    Walk Books (Entry.passes number) s (Computation.final (method >>= rest) s) := by
  refine Makes.path_bind hmethod fun a t ht => hrest a t ?_
  rw [Computation.final_of_ok ht] at hmethod
  exact bookAt_of_passes hmethod hopen

theorem keeps_popReplyOrder : Keeps (Entry.passes number) (popReplyOrder number) := by
  intro s
  have hstep : s.Books (.popped number) (Computation.final (popReplyOrder number) s) :=
    .popped
  exact hstep.path rfl

theorem keeps_releaseHeld (fuel : Nat) (hopen : (s.ledger.bookAt number).isSome) :
    Walk Books (Entry.passes number) s
      (Computation.final (releaseHeld number fuel) s) := by
  induction fuel generalizing s with
  | zero => exact Walk.refl
  | succ fuel ih =>
      rw [Computation.final_congr (releaseHeld_succ fuel s)]
      cases (s.replyOrder number).bind List.head? with
      | none => exact Walk.refl
      | some next =>
          simp only
          cases hheld : (s.heldReplies number).bind (· next) with
          | none => exact Walk.refl
          | some waiting =>
              obtain ⟨held, hsome, -⟩ := Option.bind_eq_some_iff.mp hheld
              have htake : s.Books (.released number next)
                  (Computation.final (takeHeld number next) s) := by
                have hmap : (s.heldReplies number).map
                    (fun held => Function.update held next none) =
                      some (Function.update held next none) := by
                  rw [hsome]
                  rfl
                have hreleased : s.ledger.Step (.released number next) _ :=
                  .released hsome
                rw [← hmap] at hreleased
                exact hreleased
              refine keeps_pass_bind hopen (htake.path rfl) fun _ t hopen => ?_
              refine keeps_pass_bind hopen (keeps_enqueueAll number waiting t hopen)
                fun _ t hopen => ?_
              refine keeps_pass_bind hopen (keeps_flush number trivial t)
                fun _ t hopen => ?_
              split
              · exact keeps_pass_bind hopen (keeps_popReplyOrder t)
                  fun _ t hopen => ih hopen
              · exact Walk.refl

theorem keeps_replyFinished (msgno : UInt32) (hopen : (s.ledger.bookAt number).isSome) :
    Walk Books (Entry.passes number) s
      (Computation.final (replyFinished number msgno) s) := by
  unfold replyFinished
  change Walk _ _ s (Computation.final
    (if (s.replyOrder number).bind List.head? = some msgno then _ else _ :
      SessionM Unit) s)
  split
  · exact keeps_pass_bind hopen (keeps_popReplyOrder s)
      fun _ t hopen => keeps_releaseHeld _ hopen
  · exact keeps_releaseHeld _ hopen

theorem ledger_resolveAnsno (kind : FrameKind) (msgno : UInt32) (ansno : Option UInt32)
    (s : SessionCore) :
    (Computation.final (resolveAnsno number kind msgno ansno) s).ledger = s.ledger := by
  have hallocate : KeepsBook (Channel.allocateAnsno msgno) := fun _ => rfl
  have hfinish : KeepsBook (modify (·.finishAnswers msgno)) := fun _ => rfl
  have hans : Computation.final (resolveAnsno number .ans msgno none) s =
      Computation.final (onOpen number (Channel.allocateAnsno msgno)) s := by
    cases hrun : onOpen number (Channel.allocateAnsno msgno) s with
    | ok n t =>
        rw [Computation.final_of_ok hrun]
        exact Computation.final_of_ok (Computation.bind_of_ok hrun fun n => pure (some n))
    | error fault t =>
        rw [Computation.final_of_error hrun]
        exact Computation.final_of_error
          (Computation.bind_of_error hrun fun n => pure (some n))
  cases kind with
  | ans =>
      cases ansno with
      | none =>
          rw [hans]
          exact ledger_onOpen number hallocate s
      | some n => rfl
  | nul =>
      change (Computation.final (do
        onOpen number (modify (·.finishAnswers msgno))
        return ansno : SessionM (Option UInt32)) s).ledger = _
      rw [Computation.final_drop]
      exact ledger_onOpen number hfinish s
  | msg => rfl
  | rpy => rfl
  | err => rfl

theorem bookAt_of_channel (h : (s.channels number).isSome) :
    (s.ledger.bookAt number).isSome := by
  rw [bookAt_ledger, Option.isSome_map]
  unfold channelAt
  split
  · rfl
  · exact h

theorem path_enqueued (message : Queued) (hopen : (s.ledger.bookAt number).isSome)
    (hallowed : allowed (.queued number message)) :
    Walk Books allowed s (s.enqueued number message) := by
  have hstep : s.Books (.queued number message) (s.enqueued number message) := by
    rw [Books, ledger_enqueued]
    exact .queued hopen
  exact hstep.path hallowed

theorem handed_books (message : Queued) (hopen : (s.ledger.bookAt number).isSome) :
    s.Books (.handed number message) (s.record (.handed number message)) := by
  rw [Books, ledger_record (by rintro _ ⟨⟩)]
  exact .handed hopen

theorem passes_submit (message : Queued) (hopen : (s.ledger.bookAt number).isSome) :
    Walk Books (Entry.passes number) (s.record (.handed number message))
      (Computation.final (submit number message) s) := by
  have hopen' : ((s.record (.handed number message)).ledger.bookAt number).isSome := by
    rw [ledger_record (by rintro _ ⟨⟩)]
    exact hopen
  by_cases hheld : s.holdsBack number message.kind message.msgno
  · rw [Computation.final_of_ok (submit_held hheld)]
    have hstep : (s.record (.handed number message)).Books (.held number message)
        (s.withheld number message) := .held hopen'
    exact hstep.path rfl
  · rw [Computation.final, submit_pushed hheld, ← Computation.final]
    have henqueued : Walk Books (Entry.passes number)
        (s.record (.handed number message)) (s.submitted number message) :=
      path_enqueued message hopen' rfl
    refine henqueued.trans (keeps_pass_bind (bookAt_of_passes henqueued hopen')
      (keeps_flush number trivial _) fun _ t hopen => ?_)
    split
    · exact keeps_replyFinished message.msgno hopen
    · exact Walk.refl

theorem send_books {channel : Channel} (kind : FrameKind) (msgno : UInt32)
    (ansno : Option UInt32) (payload : Octets) (hchannel : s.channels number = some channel) :
    let message : Queued :=
      ⟨kind, msgno, s.answerNumber number kind msgno ansno, payload⟩
    ∃ t u : SessionCore, t.ledger = s.ledger ∧ t.Books (.handed number message) u ∧
      Walk Books (Entry.passes number) u
        (Computation.final (send number kind msgno ansno payload) s) := by
  intro message
  obtain ⟨t, hresolve, -, -, hsend⟩ := send_open kind msgno ansno payload hchannel
  have hledger : (Computation.final (resolveAnsno number kind msgno ansno) s).ledger =
      s.ledger := ledger_resolveAnsno kind msgno ansno s
  rw [Computation.final_of_ok hresolve] at hledger
  have hopen : (t.ledger.bookAt number).isSome := by
    rw [hledger]
    refine bookAt_of_channel ?_
    rw [hchannel]
    rfl
  refine ⟨t, _, hledger, handed_books message hopen, ?_⟩
  rw [Computation.final, hsend, ← Computation.final]
  exact passes_submit message hopen

theorem keeps_send (kind : FrameKind) (msgno : UInt32) (ansno : Option UInt32)
    (payload : Octets) :
    Keeps (Entry.sends number) (send number kind msgno ansno payload) := by
  intro s
  cases hchannel : s.channels number with
  | none =>
      rw [Computation.final_of_error (send_closed kind msgno ansno payload hchannel)]
      exact Walk.refl
  | some channel =>
      obtain ⟨t, u, hledger, hhanded, hpasses⟩ :=
        send_books kind msgno ansno payload hchannel
      have hstays : Walk Books (Entry.sends number) s t := path_same hledger trivial
      have hhands : Walk Books (Entry.sends number) t u := hhanded.path rfl
      exact (hstays.trans hhands).trans (hpasses.mono Entry.sends_of_passes)

theorem keeps_allocate : Keeps (Entry.sends number)
    (onOpen number Channel.allocateMsgno) := by
  intro s
  cases hchannel : s.channels number with
  | none =>
      rw [final_onOpen_none number _ hchannel]
      exact Walk.refl
  | some channel =>
      rw [final_onOpen number _ hchannel]
      rcases allocateMsgnoLoop_run (maxMsgNo.toNat + 1) channel with
        ⟨fault, channel', hrun, hbook⟩ | ⟨msgno, channel', hrun, hnew, hbook⟩
      · have hfinal : Computation.final Channel.allocateMsgno channel = channel' :=
          Computation.final_of_error hrun
        rw [hfinal]
        exact path_same (ledger_open_same hchannel hbook) trivial
      · have hfinal : Computation.final Channel.allocateMsgno channel = channel' :=
          Computation.final_of_ok hrun
        rw [hfinal]
        have hstep : s.Books (.allocated number msgno) { s with
            channels := Function.update s.channels number (some channel') } := by
          have htable : s.ledger.table number = some channel.book := by
            rw [table_ledger, hchannel, Option.map_some]
          have hentry : s.ledger.Step (.allocated number msgno) _ :=
            .allocated htable hnew
          simp only [Books, ledger, Function.comp_update, Option.map_some, hbook]
          exact hentry
        exact hstep.path rfl

theorem keeps_sendMsg (payload : Octets) :
    Keeps (Entry.sends number) (sendMsg number payload) := by
  unfold sendMsg
  exact keeps_allocate.bind fun msgno => (keeps_send .msg msgno none payload).bind
    fun _ => Makes.pure _

/-! ## Incoming frames -/

theorem final_accept {channel : Channel} {frame : DataFrame}
    (h : channel.admits frame) :
    Computation.final (Channel.accept frame) channel =
      channel.stepped frame (if frame.more then channel.book.joined frame else none) := by
  rw [Computation.final, Channel.accept_eq h]
  cases hreading : channel.partialMessage with
  | none => cases hmore : frame.more <;> simp [Book.joined, Channel.book, hreading]
  | some fragment =>
      by_cases hmatches : fragment.matchesFrame frame <;>
        cases hmore : frame.more <;>
          simp [Book.joined, Channel.book, hreading, hmatches]

theorem book_accept {channel : Channel} {frame : DataFrame}
    (h : channel.admits frame) :
    (Computation.final (Channel.accept frame) channel).book =
      channel.book.accept frame := by
  rw [final_accept h]
  rfl

theorem accept_result {channel : Channel} {frame : DataFrame} (h : channel.admits frame) :
    (Computation.outcome (Channel.accept frame) channel).2 =
      match channel.book.joined frame with
      | none => .error (.error .interleavedFragment)
      | some whole =>
          if frame.more then .ok none
          else .ok (some ⟨whole.kind, whole.msgno, whole.ansno, whole.payload⟩) := by
  rw [Computation.outcome, Channel.accept_eq h]
  cases hreading : channel.partialMessage with
  | none => cases hmore : frame.more <;> simp [Book.joined, Channel.book, hreading]
  | some fragment =>
      by_cases hmatches : fragment.matchesFrame frame <;>
        cases hmore : frame.more <;>
          simp [Book.joined, Channel.book, hreading, hmatches]

theorem accept_message {channel channel' : Channel} {frame : DataFrame}
    {message : Message}
    (h : Channel.accept frame channel = .ok (some message) channel') :
    message.kind = frame.kind ∧ message.msgno = frame.msgno ∧
      message.ansno = frame.ansno ∧ frame.more = false := by
  have hadmits : channel.admits frame := by
    by_contra hrefused
    obtain ⟨fault, hrun⟩ := Channel.accept_refused hrefused
    rw [hrun] at h
    cases h
  rw [Channel.accept_eq hadmits] at h
  cases hreading : channel.partialMessage with
  | none =>
      simp only [hreading] at h
      split at h
      · cases h
      · rename_i hmore
        cases h
        exact ⟨rfl, rfl, rfl, by simpa using hmore⟩
  | some fragment =>
      simp only [hreading] at h
      split at h
      · rename_i hmatches
        split at h
        · cases h
        · rename_i hmore
          cases h
          simp only [Partial.matchesFrame, Bool.and_eq_true, decide_eq_true_eq]
            at hmatches
          exact ⟨hmatches.1.1, hmatches.1.2, hmatches.2, by simpa using hmore⟩
      · cases h

theorem accept_eq {frame : DataFrame} {channel : Channel}
    (hchannel : s.channelAt frame.channel = some channel)
    (hadmits : channel.admits frame) :
    Computation.outcome (accept frame) s =
      ((s.record (.accepted frame)).setChannel frame.channel
        (Computation.final (Channel.accept frame) channel),
        (Computation.outcome (Channel.accept frame) channel).2) := by
  have hrecorded : (s.record (.accepted frame)).channelAt frame.channel =
      some channel := hchannel
  have hrun := onChannel_run (Channel.accept frame) hrecorded
  rw [Computation.outcome, accept_admitted hchannel hadmits, hrun,
    Computation.outcome, Computation.final]
  cases Channel.accept frame channel <;> rfl

theorem ledger_accept {frame : DataFrame} {channel : Channel}
    (hchannel : s.channelAt frame.channel = some channel) (hadmits : channel.admits frame) :
    (Computation.final (accept frame) s).ledger =
      (s.ledger.setBook frame.channel (channel.book.accept frame)).enter
        (.accepted frame) := by
  rw [final_of_outcome (accept_eq hchannel hadmits), ledger_setChannel,
    ledger_record (by rintro _ ⟨⟩), book_accept hadmits]
  unfold Ledger.setBook
  split <;> rfl

theorem keeps_accept {frame : DataFrame} (haccepted : allowed (.accepted frame)) :
    Keeps allowed (accept frame) := by
  intro s
  by_cases hadmits : ∃ channel, s.channelAt frame.channel = some channel ∧
      channel.admits frame
  · obtain ⟨channel, hchannel, hadmits⟩ := hadmits
    have hbook : s.ledger.bookAt frame.channel = some channel.book := by
      rw [bookAt_ledger, hchannel, Option.map_some]
    have hstep : s.Books (.accepted frame) (Computation.final (accept frame) s) := by
      rw [Books, ledger_accept hchannel hadmits]
      exact .accepted hbook
    exact hstep.path haccepted
  · have hrefused : ∀ channel, s.channelAt frame.channel = some channel →
        ¬ channel.admits frame :=
      fun channel hchannel hadmits' => hadmits ⟨channel, hchannel, hadmits'⟩
    obtain ⟨fault, hrun⟩ := accept_refused hrefused
    rw [Computation.final_of_error hrun]
    exact Walk.refl

theorem accept_ok {frame : DataFrame} {complete : Option Message}
    (h : accept frame s = .ok complete t) :
    ∃ channel, s.channelAt frame.channel = some channel ∧ channel.admits frame ∧
      (∃ channel', Channel.accept frame channel = .ok complete channel') ∧
      t = (s.record (.accepted frame)).setChannel frame.channel
        (Computation.final (Channel.accept frame) channel) := by
  by_cases hadmits : ∃ channel, s.channelAt frame.channel = some channel ∧
      channel.admits frame
  · obtain ⟨channel, hchannel, hadmits⟩ := hadmits
    have hrun := accept_eq hchannel hadmits
    rw [Computation.outcome, h, Prod.mk.injEq] at hrun
    refine ⟨channel, hchannel, hadmits, ?_, hrun.1⟩
    have hresult := hrun.2
    rw [Computation.outcome] at hresult
    cases hmethod : Channel.accept frame channel with
    | error fault channel' =>
        rw [hmethod] at hresult
        cases hresult
    | ok found channel' =>
        rw [hmethod] at hresult
        cases hresult
        exact ⟨channel', rfl⟩
  · have hrefused : ∀ channel, s.channelAt frame.channel = some channel →
        ¬ channel.admits frame :=
      fun channel hchannel hadmits' => hadmits ⟨channel, hchannel, hadmits'⟩
    obtain ⟨fault, hrun⟩ := accept_refused hrefused
    rw [h] at hrun
    cases hrun

theorem keeps_receive {frame : DataFrame} (haccepted : allowed (.accepted frame))
    (hcounted : allowed (.counted frame.channel)) (hidle : allowed .idle) :
    Keeps allowed (receive frame) := by
  unfold receive
  exact (keeps_accept haccepted).bind fun _ =>
    (keeps_acknowledge _ _ hcounted hidle).bind fun _ => Makes.pure _

theorem receive_message {frame : DataFrame} {message : Message}
    (h : receive frame s = .ok (some message) t) :
    message.kind = frame.kind ∧ message.msgno = frame.msgno ∧ frame.more = false := by
  obtain ⟨complete, u, haccept, hrest⟩ := Computation.ok_of_bind h
  obtain ⟨_, v, _, hdone⟩ := Computation.ok_of_bind hrest
  cases hdone
  obtain ⟨channel, -, -, ⟨channel', hrun⟩, -⟩ := accept_ok haccept
  obtain ⟨hkind, hmsgno, -, hmore⟩ := accept_message hrun
  exact ⟨hkind, hmsgno, hmore⟩

theorem receive_books (frame : DataFrame) (s : SessionCore) :
    Walk Books (Entry.receives frame) s (Computation.final (receive frame) s) := by
  refine keeps_receive ?_ ?_ ?_ s
  · rfl
  · rfl
  · trivial

theorem receive_unmoved (frame : DataFrame) (s : SessionCore) :
    s.ledger.Unmoved (Computation.final (receive frame) s).ledger := by
  refine (receive_books frame s).preserves (I := fun t => s.ledger.Unmoved t.ledger) ?_ ?_
  · intro t u entry hallowed hstep hmoved
    exact hmoved.trans (hstep.unmoved hallowed)
  · exact ⟨rfl, rfl, rfl, rfl, fun _ => rfl, rfl, rfl, rfl⟩

/-! ## Management messages -/

theorem ledger_finishClose (channel : UInt32) (s : SessionCore) :
    (Computation.final (finishClose channel) s).ledger = s.ledger.close channel := by
  unfold finishClose Ledger.close
  by_cases hzero : channel = greetingChannel
  · rw [if_pos hzero, if_pos hzero]
    change SessionCore.ledger { s with
      state := _, channels := _, queues := _, unacked := _, replyOrder := _
      heldReplies := _, events := _, history := _ } = _
    simp only [ledger, Ledger.closeSession, entered_append]
    rfl
  · rw [if_neg hzero, if_neg hzero]
    change SessionCore.ledger { s with
      channels := _, queues := _, unacked := _, replyOrder := _
      heldReplies := _, events := _, history := _ } = _
    simp only [ledger, Ledger.closeChannel, entered_append, Function.comp_update]
    rfl

theorem books_finishClose (channel : UInt32) (s : SessionCore) :
    s.Books (.closed channel) (Computation.final (finishClose channel) s) := by
  rw [Books, ledger_finishClose]
  exact .closed

section Dispatch

variable {kind : FrameKind} {msgno : UInt32} {management : Management.Message}

/-- What comes of a management message: it answers a request, it is reported as one, or
it is refused. -/
inductive Dispatched (s : SessionCore) (kind : FrameKind) (msgno : UInt32)
    (management : Management.Message) (failed : Prop) (t : SessionCore) : Prop where
  | answer {wanted : Pending} :
      s.pending msgno = some wanted → wanted.answeredBy kind management →
      s.Books (.answer msgno wanted management) t →
      Dispatched s kind msgno management failed t
  | told {event : Event} :
      kind = .msg → event.isRequest → s.Books (.told event) t →
      Dispatched s kind msgno management failed t
  | refused :
      failed → (∀ wanted, s.pending msgno = some wanted →
        wanted.answeredBy kind management = false) →
      t = s ∨ t = s.settled msgno → Dispatched s kind msgno management failed t

theorem dispatched_profile (profile : Management.Profile) :
    Dispatched s .rpy msgno (.profile profile)
      (Computation.Fails (dispatchManagement .rpy msgno (.profile profile)) s)
      (Computation.final (dispatchManagement .rpy msgno (.profile profile)) s) := by
  rw [Computation.final, Computation.Fails, dispatch_profile, ← Computation.final]
  split
  · rename_i number hpending
    have hstep : s.Books (.answered msgno number profile) { s.settled msgno with
        zero := s.zero.releaseMsgno msgno
        halfOpen := Function.update s.halfOpen number none
        channels := Function.update s.channels number
          (some (Channel.withWindowSize number profile.uri s.config.windowSize))
        events := s.events ++ [.channelOpened number profile]
        history := s.history ++ [.opened number] } := by
      have hentry : s.ledger.Step (.answered msgno number profile) _ :=
        .answered hpending
      simp only [Books, ledger, Function.comp_update, entered_append]
      exact hentry
    exact .answer hpending rfl hstep
  · rename_i hother
    refine .refused ⟨_, _, rfl⟩ (fun wanted hpending => ?_) (.inr rfl)
    cases wanted with
    | start number => exact absurd hpending (hother number)
    | close number => rfl

theorem dispatched_ok :
    Dispatched s .rpy msgno .ok (Computation.Fails (dispatchManagement .rpy msgno .ok) s)
      (Computation.final (dispatchManagement .rpy msgno .ok) s) := by
  rw [Computation.final, Computation.Fails, dispatch_ok, ← Computation.final]
  split
  · rename_i number hpending
    have hledger := ledger_finishClose number { s.settled msgno with
      zero := s.zero.releaseMsgno msgno }
    have hstep : s.Books (.agreed msgno number) (Computation.final (finishClose number)
        { s.settled msgno with zero := s.zero.releaseMsgno msgno }) := by
      rw [Books, hledger]
      exact .agreed hpending
    exact .answer hpending rfl hstep
  · rename_i hother
    refine .refused ⟨_, _, rfl⟩ (fun wanted hpending => ?_) (.inr rfl)
    cases wanted with
    | start number => rfl
    | close number => exact absurd hpending (hother number)

theorem dispatched_error (error : Management.ErrorReply) :
    Dispatched s .err msgno (.error error)
      (Computation.Fails (dispatchManagement .err msgno (.error error)) s)
      (Computation.final (dispatchManagement .err msgno (.error error)) s) := by
  rw [Computation.final, Computation.Fails, dispatch_error, ← Computation.final]
  split
  · rename_i hnone
    refine .refused ?_ (fun wanted hpending => ?_) (.inr rfl)
    · rw [hnone]
      exact ⟨_, _, rfl⟩
    · rw [hnone] at hpending
      cases hpending
  · rename_i number hpending
    have hstep : s.Books (.startRefused msgno number error) { s.settled msgno with
        zero := s.zero.releaseMsgno msgno
        halfOpen := Function.update s.halfOpen number none
        events := s.events ++ [.startRefused number error] } :=
      .startRefused hpending
    exact .answer hpending rfl hstep
  · rename_i number hpending
    have hstep : s.Books (.closeRefused msgno number error) { s.settled msgno with
        zero := s.zero.releaseMsgno msgno
        events := s.events ++ [.closeRefused number error] } :=
      .closeRefused hpending
    exact .answer hpending rfl hstep

theorem dispatched (kind : FrameKind) (msgno : UInt32)
    (management : Management.Message) (s : SessionCore) :
    Dispatched s kind msgno management
      (Computation.Fails (dispatchManagement kind msgno management) s)
      (Computation.final (dispatchManagement kind msgno management) s) := by
  cases kind with
  | msg =>
      cases management with
      | start start =>
          have hstep : s.ledger.Step
              (.told (.startRequested start.number msgno start)) _ := .told rfl
          exact .told rfl rfl hstep
      | close close =>
          have hstep : s.ledger.Step
              (.told (.closeRequested close.number msgno close)) _ := .told rfl
          exact .told rfl rfl hstep
      | _ => exact .refused ⟨_, _, rfl⟩ (fun _ _ => rfl) (.inl rfl)
  | rpy =>
      cases management with
      | profile profile => exact dispatched_profile profile
      | ok => exact dispatched_ok
      | _ => exact .refused ⟨_, _, rfl⟩ (fun _ _ => rfl) (.inl rfl)
  | err =>
      cases management with
      | error error => exact dispatched_error error
      | _ => exact .refused ⟨_, _, rfl⟩ (fun _ _ => rfl) (.inl rfl)
  | ans => exact .refused ⟨_, _, rfl⟩ (fun _ _ => rfl) (.inl rfl)
  | nul => exact .refused ⟨_, _, rfl⟩ (fun _ _ => rfl) (.inl rfl)

theorem keeps_dispatch (kind : FrameKind) (msgno : UInt32)
    (management : Management.Message) (s : SessionCore) :
    Walk Books (Entry.dispatches kind msgno management
        (Computation.Fails (dispatchManagement kind msgno management) s)) s
      (Computation.final (dispatchManagement kind msgno management) s) := by
  cases dispatched kind msgno management s with
  | @answer wanted _ hanswered hstep =>
      refine hstep.path ?_
      cases wanted <;> cases management <;> cases kind <;>
        first | exact ⟨rfl, rfl, rfl⟩ | cases hanswered
  | told hkind _ hstep => exact hstep.path hkind
  | refused hfails _ hfinal =>
      rcases hfinal with hfinal | hfinal <;> rw [hfinal]
      · exact Walk.refl
      · have hstep : s.Books (.dismissed msgno) (s.settled msgno) := .dismissed
        exact hstep.path hfails

end Dispatch

/-! ## Frames -/

theorem ledger_deliver (number : UInt32) (message : Message) (s : SessionCore) :
    (Computation.final (deliver number message) s).ledger =
      s.ledger.deliver number message := by
  unfold deliver
  by_cases hmsg : message.kind = .msg
  · rw [if_pos hmsg, Ledger.deliver, if_pos hmsg]
    rfl
  · rw [if_neg hmsg, Ledger.deliver, if_neg hmsg]
    rfl

theorem keeps_deliver (number : UInt32) (message : Message)
    (hzero : number ≠ greetingChannel) (hopen : (s.channels number).isSome)
    (hallowed : allowed (.delivered number message)) :
    Walk Books allowed s (Computation.final (deliver number message) s) := by
  have hstep : s.Books (.delivered number message)
      (Computation.final (deliver number message) s) := by
    rw [Books, ledger_deliver]
    refine .delivered hzero ?_
    rwa [table_ledger, Option.isSome_map]
  exact hstep.path hallowed

theorem keeps_handleSeq (seq : SeqFrame) (hidle : allowed .idle) :
    Keeps allowed (handleSeq seq) := by
  have happly : KeepsBook (modify (·.applySeq seq)) := fun _ => rfl
  unfold handleSeq
  exact Makes.bind (fun s => path_same (ledger_onChannel seq.channel happly s) hidle)
    fun _ => keeps_flush seq.channel hidle

theorem keeps_handleOpen {frame : DataFrame} (hzero : frame.channel ≠ greetingChannel)
    (s : SessionCore) {failed : Prop} :
    Walk Books (Entry.handles s failed (.data frame)) s
      (Computation.final (handleData frame) s) := by
  have hreceive : Walk Books (Entry.handles s failed (.data frame)) s
      (Computation.final (receive frame) s) := by
    refine keeps_receive ?_ ?_ ?_ s
    · rfl
    · rfl
    · trivial
  rw [handleData_eq hzero]
  refine Makes.path_bind hreceive fun complete t ht => ?_
  cases complete with
  | none => exact Walk.refl
  | some message =>
      obtain ⟨hkind, hmsgno, hmore⟩ := receive_message ht
      have hopen : (t.channels frame.channel).isSome := by
        obtain ⟨_, u, haccept, -⟩ := Computation.ok_of_bind ht
        obtain ⟨channel, hchannel, -⟩ := accept_ok haccept
        have hmoved := (receive_unmoved frame s).isOpen frame.channel
        rw [Computation.final_of_ok ht, table_ledger, table_ledger,
          Option.isSome_map, Option.isSome_map] at hmoved
        rw [hmoved]
        simp only [channelAt, hzero, if_false] at hchannel
        rw [hchannel]
        rfl
      exact keeps_deliver _ _ hzero hopen ⟨rfl, hzero, hkind, hmsgno, hmore⟩

theorem keeps_handleGreeting {frame : DataFrame} (hzero : frame.channel = greetingChannel)
    (hstate : s.state = .awaitingGreeting) {failed : Prop} :
    Walk Books (Entry.handles s failed (.data frame)) s
      (Computation.final (handleGreeting frame) s) := by
  have hreceive : Walk Books (Entry.handles s failed (.data frame)) s
      (Computation.final (receive frame) s) := by
    refine keeps_receive ?_ ?_ ?_ s
    · rfl
    · rfl
    · trivial
  rw [handleGreeting_eq hzero]
  have hlift : Walk Books (Entry.handles s failed (.data frame)) s
      (Computation.final (liftFault (Greeting.fromFrame frame)) s) := by
    cases Greeting.fromFrame frame <;> exact Walk.refl
  refine Makes.path_bind hlift fun greeting t ht => ?_
  have hsame : t = s := by
    cases hgreeting : Greeting.fromFrame frame with
    | error fault =>
        rw [hgreeting] at ht
        cases ht
    | ok found =>
        rw [hgreeting] at ht
        cases ht
        rfl
  subst hsame
  refine Makes.path_bind hreceive fun _ u hu => ?_
  have hmoved := receive_unmoved frame t
  rw [Computation.final_of_ok hu] at hmoved
  have hstep : u.Books (.greeted greeting) { u with
      peerGreeting := some greeting, state := .ready
      events := u.events ++ [.greetingReceived greeting] } :=
    .greeted (hmoved.state.trans hstate)
  exact hstep.path hzero

theorem handles_of_dispatches {failed failed' : Prop} {frame : DataFrame}
    {management : Management.Message} (hhears : s.Hears frame management)
    (hfailed : failed' → failed) :
    ∀ entry : Entry, entry.dispatches frame.kind frame.msgno management failed' →
      entry.handles s failed (.data frame) := by
  intro entry h
  cases entry with
  | idle => trivial
  | dismissed => exact ⟨management, hhears, hfailed h⟩
  | told => exact ⟨management, hhears, h⟩
  | answered => exact ⟨management, hhears, h⟩
  | agreed => exact ⟨management, hhears, h⟩
  | startRefused => exact ⟨management, hhears, h⟩
  | closeRefused => exact ⟨management, hhears, h⟩
  | _ => exact h.elim

theorem keeps_handleChannelZero {frame : DataFrame}
    (hzero : frame.channel = greetingChannel) (s : SessionCore) :
    Walk Books (Entry.handles s
        (Computation.Fails (handleChannelZero frame) s) (.data frame)) s
      (Computation.final (handleChannelZero frame) s) := by
  rw [handleChannelZero_eq hzero]
  have hreceive : ∀ failed, Walk Books (Entry.handles s failed (.data frame)) s
      (Computation.final (receive frame) s) := by
    intro failed
    refine keeps_receive ?_ ?_ ?_ s
    · rfl
    · rfl
    · trivial
  by_cases hstate : s.state = .awaitingGreeting
  · change Walk Books (Entry.handles s (Computation.Fails
      (if s.state = .awaitingGreeting then _ else _ : SessionM Unit) s) _) s
      (Computation.final
        (if s.state = .awaitingGreeting then _ else _ : SessionM Unit) s)
    rw [if_pos hstate]
    exact keeps_handleGreeting hzero hstate
  · change Walk Books (Entry.handles s (Computation.Fails
      (if s.state = .awaitingGreeting then _ else _ : SessionM Unit) s) _) s
      (Computation.final
        (if s.state = .awaitingGreeting then _ else _ : SessionM Unit) s)
    rw [if_neg hstate]
    refine Makes.path_bind (hreceive _) fun complete t ht => ?_
    cases complete with
    | none => exact Walk.refl
    | some message =>
        obtain ⟨hkind, hmsgno, -⟩ := receive_message ht
        change Walk _ _ t (Computation.final (do
          let management ← liftFault (Management.Message.fromPayload message.payload)
          dispatchManagement message.kind message.msgno management :
            SessionM Unit) t)
        cases hpayload : Management.Message.fromPayload message.payload with
        | error fault => exact Walk.refl
        | ok management =>
            have hdispatch := keeps_dispatch message.kind message.msgno management t
            rw [hkind, hmsgno] at hdispatch ⊢
            have hhears : s.Hears frame management :=
              ⟨hzero, hstate, message, t, ht, hpayload⟩
            refine hdispatch.mono (handles_of_dispatches hhears ?_)
            intro hfails
            refine Computation.Fails.bind_of_ok ht ?_
            simp only [hpayload, hkind, hmsgno]
            exact hfails

theorem handleData_zero {frame : DataFrame} (hzero : frame.channel = greetingChannel)
    (hstate : s.state ≠ .awaitingGreeting) :
    handleData frame s = (do
      let complete ← receive frame
      match complete with
      | none => return ()
      | some message =>
          let management ←
            liftFault (Management.Message.fromPayload message.payload)
          dispatchManagement message.kind message.msgno management :
          SessionM Unit) s := by
  rw [handleData, if_pos hzero, handleChannelZero_eq hzero]
  change (if s.state = .awaitingGreeting then _ else _ : SessionM Unit) s = _
  exact congrFun (if_neg hstate) s

theorem keeps_handleFrame (frame : Frame) (s : SessionCore) :
    Walk Books (Entry.handles s
        (Computation.Fails (handleFrame frame) s) frame) s
      (Computation.final (handleFrame frame) s) := by
  cases frame with
  | seq seq => exact keeps_handleSeq seq trivial s
  | data data =>
      by_cases hzero : data.channel = greetingChannel
      · have heq : handleFrame (.data data) = handleChannelZero data := by
          simp [handleFrame, handleData, hzero]
        rw [heq]
        exact keeps_handleChannelZero hzero s
      · exact keeps_handleOpen hzero s

end SessionCore

end Vortice.Proto
