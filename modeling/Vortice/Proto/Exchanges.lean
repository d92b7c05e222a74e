import Vortice.Proto.Asking
import Vortice.Proto.Requests

/-!
# The exchanges of a channel

Which messages of a channel wait for a reply, on either side, can be reckoned from
the history of the session.  The sets a `Channel` keeps are these only as long as
no exchange of a channel other than 0 comes to its end.
-/

namespace Vortice.Proto

open Vortice.Foundation

namespace Book

/-- What handing over a message does to the exchanges of its channel. -/
def sent (book : Book) (message : Queued) : Book :=
  if message.kind = .msg then
    { book with outstanding := insert message.msgno book.outstanding }
  else if completesReply message.kind then
    { book with awaitingReply := book.awaitingReply.erase message.msgno }
  else book

/-- What a complete message of the peer does to them. -/
def completed (book : Book) (whole : Partial) : Book :=
  if whole.kind = .msg then
    { book with awaitingReply := insert whole.msgno book.awaitingReply }
  else if completesReply whole.kind then
    { book with outstanding := book.outstanding.erase whole.msgno }
  else book

/-- What a frame of the peer does to them. -/
def heard (book : Book) (frame : DataFrame) : Book :=
  if frame.more then { book with partialMessage := book.joined frame }
  else
    match book.joined frame with
    | none => { book with partialMessage := none }
    | some whole => completed { book with partialMessage := none } whole

theorem joined_tag {book : Book} {frame : DataFrame} {whole : Partial}
    (h : book.joined frame = some whole) :
    whole.kind = frame.kind ∧ whole.msgno = frame.msgno := by
  unfold joined at h
  split at h
  · split at h
    · rename_i hmatches
      cases h
      simp only [Partial.matchesFrame, Bool.and_eq_true, decide_eq_true_eq] at hmatches
      exact ⟨hmatches.1.1, hmatches.1.2⟩
    · cases h
  · cases h
    exact ⟨rfl, rfl⟩

/-- The last frame of a `MSG` joins, or its number awaits a reply already. -/
def Joins (book : Book) (frame : DataFrame) : Prop :=
  frame.more = false → frame.kind = .msg →
    (book.joined frame).isSome ∨ frame.msgno ∈ book.awaitingReply

/-- The frame ends a final reply to a message that this end has sent. -/
def Ends (book : Book) (frame : DataFrame) : Prop :=
  frame.more = false ∧ completesReply frame.kind ∧ (book.joined frame).isSome ∧
    frame.msgno ∈ book.outstanding

/-- A channel that accepts a frame does not release the number of an exchange. -/
theorem heard_eq {book : Book} {frame : DataFrame} (hjoins : book.Joins frame) :
    book.heard frame =
      if frame.more = false ∧ completesReply frame.kind ∧ (book.joined frame).isSome then
        { book.accept frame with
          outstanding := (book.accept frame).outstanding.erase frame.msgno }
      else book.accept frame := by
  unfold heard
  cases hmore : frame.more with
  | true => simp [accept, hmore]
  | false =>
      cases hjoined : book.joined frame with
      | none =>
          by_cases hmsg : frame.kind = .msg
          · have hawaits : frame.msgno ∈ book.awaitingReply := by
              simpa [hjoined] using hjoins hmore hmsg
            simp [accept, hmore, hmsg, hawaits]
          · simp [accept, hmore, hmsg]
      | some whole =>
          obtain ⟨hkind, hmsgno⟩ := joined_tag hjoined
          by_cases hmsg : frame.kind = .msg
          · simp [accept, completed, hkind, hmsgno, hmore, hmsg, completesReply]
          · by_cases hcompletes : completesReply frame.kind
            · simp [accept, completed, hkind, hmsgno, hmore, hmsg, hcompletes]
            · simp [accept, completed, hkind, hmore, hmsg, hcompletes]

theorem heard_eq_accept {book : Book} {frame : DataFrame} (hjoins : book.Joins frame)
    (hends : ¬ book.Ends frame) : book.heard frame = book.accept frame := by
  rw [heard_eq hjoins]
  split
  · rename_i h
    have hnot : frame.msgno ∉ (book.accept frame).outstanding :=
      fun hmem => hends ⟨h.1, h.2.1, h.2.2, hmem⟩
    rw [Finset.erase_eq_of_notMem hnot]
  · rfl

def note (number : UInt32) (book : Book) : Action → Book
  | .handed channel message => if channel = number then book.sent message else book
  | .accepted frame => if frame.channel = number then book.heard frame else book
  | .opened channel =>
      if number ≠ greetingChannel ∧ channel = number then .blank else book
  | .dropped channel =>
      if number ≠ greetingChannel ∧ (channel = number ∨ channel = greetingChannel) then
        .blank
      else book
  | .queued _ _ | .wrote _ => book

end Book

/-- The exchanges of a channel, reckoned from the history: the `MSG`s this end has sent
whose final reply has not been received completely, and those it has received completely
and not handed the final reply to. -/
def reckon (number : UInt32) (history : List Action) : Book :=
  history.foldl (Book.note number) .blank

example : (reckon 1 [.handed 1 ⟨.msg, 4, none, []⟩, .handed 3 ⟨.msg, 5, none, []⟩,
    .handed 1 ⟨.rpy, 7, none, []⟩]).outstanding = {4} :=
  rfl

/-- No `MSG` is sent under a number that another one still has. -/
def Unrepeated (history : List Action) : Prop :=
  ∀ before number message after, history = before ++ .handed number message :: after →
    message.kind = .msg → message.msgno ∉ (reckon number before).outstanding

section Reckon

variable {number : UInt32} {history : List Action} {action : Action}

theorem reckon_snoc : reckon number (history ++ [action]) =
    (reckon number history).note number action := by
  rw [reckon, List.foldl_append]
  rfl

theorem reckon_entered : reckon number (entered history) = reckon number history := by
  induction history using List.reverseRecOn with
  | nil => rfl
  | append_singleton history action ih =>
      rw [entered_append, reckon_snoc, ← ih]
      cases action with
      | wrote frame => exact congrArg (reckon number) (List.append_nil _)
      | _ => exact reckon_snoc

theorem Unrepeated.nil : Unrepeated [] := by
  intro before number message after heq
  cases before <;> cases heq

theorem Unrepeated.snoc (h : Unrepeated history)
    (hnew : ∀ number message, action = .handed number message → message.kind = .msg →
      message.msgno ∉ (reckon number history).outstanding) :
    Unrepeated (history ++ [action]) := by
  intro before number message after heq hmsg
  cases after using List.reverseRecOn with
  | nil =>
      obtain ⟨rfl, hlast⟩ := List.append_inj' heq rfl
      cases hlast
      exact hnew number message rfl hmsg
  | append_singleton after last _ =>
      rw [← List.cons_append, ← List.append_assoc] at heq
      obtain ⟨hhistory, -⟩ := List.append_inj' heq rfl
      exact h before number message after hhistory hmsg

theorem Unrepeated.of_entered (h : Unrepeated (entered history)) : Unrepeated history := by
  rintro before number message after rfl hmsg
  rw [← reckon_entered]
  refine h (entered before) number message (entered after) ?_ hmsg
  rw [entered_append]
  rfl

end Reckon

namespace Ledger

/-- Every open channel has the exchanges that the entries tell. -/
structure Exact (l : Ledger) : Prop where
  books : ∀ number book, l.bookAt number = some book → book = reckon number l.entries
  unrepeated : Unrepeated l.entries

/-- Channel 0 has a message number left over that has been answered. -/
structure ExactUpTo (msgno : UInt32) (l : Ledger) : Prop where
  table : ∀ number book, number ≠ greetingChannel → l.table number = some book →
    book = reckon number l.entries
  zero : { l.zero with outstanding := l.zero.outstanding.erase msgno } =
    reckon greetingChannel l.entries
  unrepeated : Unrepeated l.entries

variable {l l' : Ledger} {number msgno : UInt32}

theorem Exact.of_same (h : l.Exact) (hzero : l'.zero = l.zero) (htable : l'.table = l.table)
    (hentries : l'.entries = l.entries) : l'.Exact := by
  refine ⟨fun number book hbook => ?_, by rw [hentries]; exact h.unrepeated⟩
  rw [hentries]
  refine h.books number book ?_
  rwa [bookAt, hzero, htable] at hbook

theorem Exact.enter (h : l.Exact) {action : Action}
    (hnote : ∀ number book, l.bookAt number = some book →
      Book.note number book action = book)
    (hhanded : ∀ number message, action ≠ .handed number message) :
    (l.enter action).Exact := by
  refine ⟨fun number book hbook => ?_, h.unrepeated.snoc ?_⟩
  · have hsame : l.bookAt number = some book := hbook
    rw [Ledger.enter, reckon_snoc, ← h.books number book hsame, hnote number book hsame]
  · intro number message heq
    exact absurd heq (hhanded number message)

theorem Exact.setBook (h : l.Exact) {book : Book} {action : Action}
    (hbook : l.bookAt number = some book)
    (helsewhere : ∀ other found, other ≠ number →
      Book.note other found action = found)
    (hnew : ∀ other message, action = .handed other message → message.kind = .msg →
      message.msgno ∉ (reckon other l.entries).outstanding) :
    ((l.setBook number (book.note number action)).enter action).Exact := by
  have hentries : (l.setBook number (book.note number action)).entries = l.entries := by
    unfold Ledger.setBook
    split <;> rfl
  refine ⟨fun other found hfound => ?_, ?_⟩
  · rw [Ledger.enter, hentries, reckon_snoc]
    by_cases hother : other = number
    · subst hother
      have hset : (l.setBook other (book.note other action)).bookAt other =
          some (book.note other action) := by
        unfold Ledger.setBook Ledger.bookAt
        by_cases hzero : other = greetingChannel <;> simp [hzero]
      have hsame : some found = some (book.note other action) := hfound.symm.trans hset
      rw [Option.some.inj hsame, ← h.books other book hbook]
    · have hset : (l.setBook number (book.note number action)).bookAt other =
          l.bookAt other := by
        unfold Ledger.setBook Ledger.bookAt
        by_cases hnumber : number = greetingChannel
        · have hother' : other ≠ greetingChannel := fun h => hother (h.trans hnumber.symm)
          simp [hnumber, hother']
        · by_cases hzero : other = greetingChannel <;> simp [hnumber, hzero, hother]
      have hsame : l.bookAt other = some found := hset.symm.trans hfound
      rw [← h.books other found hsame, helsewhere other found hother]
  · rw [Ledger.enter, hentries]
    exact h.unrepeated.snoc hnew

theorem Exact.open_channel (h : l.Exact) (number : UInt32) :
    (l.openChannel number).Exact := by
  refine ⟨fun other book hbook => ?_, h.unrepeated.snoc nofun⟩
  rw [openChannel, reckon_snoc]
  by_cases hother : other ≠ greetingChannel ∧ number = other
  · obtain ⟨hzero, rfl⟩ := hother
    have hblank : (l.openChannel number).bookAt number = some .blank := by
      simp [bookAt, openChannel, hzero]
    rw [hblank] at hbook
    cases hbook
    simp [Book.note, hzero]
  · have hsame : l.bookAt other = some book := by
      rw [← hbook]
      unfold bookAt openChannel
      by_cases hzero : other = greetingChannel
      · simp [hzero]
      · have hne : other ≠ number := fun heq => hother ⟨hzero, heq.symm⟩
        simp [hzero, hne]
    rw [← h.books other book hsame, Book.note, if_neg hother]

theorem Exact.close (h : l.Exact) (number : UInt32) : (l.close number).Exact := by
  unfold Ledger.close
  split
  · refine ⟨fun other book hbook => ?_, h.unrepeated.snoc (by simp)⟩
    rw [closeSession, reckon_snoc]
    by_cases hother : other = greetingChannel
    · have hsame : l.bookAt other = some book := by
        rw [← hbook]
        simp [bookAt, closeSession, hother]
      rw [← h.books other book hsame]
      simp [Book.note, hother]
    · simp [bookAt, closeSession, hother] at hbook
  · rename_i hzero
    refine ⟨fun other book hbook => ?_, h.unrepeated.snoc (by simp)⟩
    rw [closeChannel, reckon_snoc]
    by_cases hother : other = number
    · subst hother
      simp [bookAt, closeChannel, hzero] at hbook
    · have hsame : l.bookAt other = some book := by
        rw [← hbook]
        unfold bookAt closeChannel
        split <;> simp [hother]
      rw [← h.books other book hsame]
      simp [Book.note, Ne.symm hother, hzero]

theorem ExactUpTo.settle (h : l.ExactUpTo msgno) : (l.settle msgno).Exact := by
  refine ⟨fun number book hbook => ?_, h.unrepeated⟩
  by_cases hzero : number = greetingChannel
  · subst hzero
    simp only [bookAt, if_true, Option.some.injEq] at hbook
    rw [← hbook]
    exact h.zero
  · simp only [bookAt, hzero, if_false] at hbook
    exact h.table number book hzero hbook

theorem Exact.hand (h : l.Exact) {book : Book} {message : Queued}
    (hbook : l.bookAt number = some book)
    (hzero : l'.zero = (l.setBook number (book.sent message)).zero)
    (htable : l'.table = (l.setBook number (book.sent message)).table)
    (hentries : l'.entries = l.entries)
    (hnew : message.kind = .msg → message.msgno ∉ book.outstanding) :
    (l'.enter (.handed number message)).Exact := by
  have hset : ((l.setBook number (book.note number (.handed number message))).enter
      (.handed number message)).Exact := by
    refine h.setBook hbook (fun other found hother => ?_) fun other found heq hmsg => ?_
    · simp [Book.note, Ne.symm hother]
    · cases heq
      rw [← h.books number book hbook]
      exact hnew hmsg
  have hnote : book.note number (.handed number message) = book.sent message := by
    simp [Book.note]
  rw [hnote] at hset
  refine hset.of_same hzero htable ?_
  have hsame : (l.setBook number (book.sent message)).entries = l.entries := by
    unfold Ledger.setBook
    split <;> rfl
  rw [Ledger.enter, Ledger.enter, hentries, hsame]

end Ledger

/-- The entry is of no concern to any exchange of an open channel. -/
def Entry.Quiet : Entry → Prop
  | .handed _ _ | .allocated _ _ | .accepted _ | .replied _ => False
  | .askedStart _ _ _ | .askedClose _ _ | .answered _ _ _ | .agreed _ _ => False
  | .startRefused _ _ _ | .closeRefused _ _ _ => False
  | _ => True

theorem Ledger.Step.quiet {l l' : Ledger} {entry : Entry} (h : l.Step entry l')
    (hquiet : entry.Quiet) (hexact : l.Exact) : l'.Exact := by
  cases h with
  | @queued number message =>
      have hflag : Ledger.Exact { l with
          queued := Function.update l.queued number true } :=
        hexact.of_same rfl rfl rfl
      exact hflag.enter (fun _ _ _ => rfl) nofun
  | @welcomed number => exact hexact.open_channel number
  | @closed number => exact hexact.close number
  | _ => first | exact hexact.of_same rfl rfl rfl | exact hquiet.elim

/-- A request that has been answered is settled, whatever else its answer brings. -/
theorem Ledger.Step.answer_exact {l l' : Ledger} {msgno : UInt32} {wanted : Pending}
    {kind : FrameKind} {management : Management.Message}
    (h : l.Step (.answer msgno wanted management) l')
    (hanswered : wanted.answeredBy kind management) (hexact : l.ExactUpTo msgno) :
    l'.Exact := by
  have hsettled := hexact.settle
  cases wanted with
  | start number =>
      cases management with
      | profile profile =>
          cases h
          have hforget : ((l.settle msgno).forget number).Exact :=
            hsettled.of_same rfl rfl rfl
          exact (hforget.open_channel number).of_same rfl rfl rfl
      | error error =>
          cases h
          exact hsettled.of_same rfl rfl rfl
      | _ => cases kind <;> cases hanswered
  | close number =>
      cases management with
      | error error =>
          cases h
          exact hsettled.of_same rfl rfl rfl
      | ok =>
          cases h
          exact hsettled.close number
      | _ => cases kind <;> cases hanswered

namespace Ledger

variable {l : Ledger} {frame : DataFrame}

theorem note_accepted (frame : DataFrame) (other : UInt32) (book : Book)
    (h : other ≠ frame.channel) : Book.note other book (.accepted frame) = book := by
  simp [Book.note, Ne.symm h]

/-- A frame that does not end an exchange of this end is accepted as the history says. -/
theorem Exact.accept (h : l.Exact) {book : Book}
    (hbook : l.bookAt frame.channel = some book) (hjoins : book.Joins frame)
    (hends : ¬ book.Ends frame) :
    ((l.setBook frame.channel (book.accept frame)).enter (.accepted frame)).Exact := by
  have hset := h.setBook hbook (note_accepted frame) (by rintro _ _ ⟨⟩)
  have hnote : book.note frame.channel (.accepted frame) = book.accept frame := by
    rw [Book.note, if_pos rfl, Book.heard_eq_accept hjoins hends]
  rwa [hnote] at hset

/-- A final reply on channel 0 is accepted but for the number it is to release. -/
theorem Exact.accept_zero (h : l.Exact) (hzero : frame.channel = greetingChannel)
    (hjoins : l.zero.Joins frame)
    (hreply : frame.more = false ∧ completesReply frame.kind ∧
      (l.zero.joined frame).isSome) :
    ((l.setBook frame.channel (l.zero.accept frame)).enter (.accepted frame)).ExactUpTo
      frame.msgno := by
  have hbook : l.bookAt frame.channel = some l.zero := by rw [bookAt, if_pos hzero]
  have hset := h.setBook hbook (note_accepted frame) (by rintro _ _ ⟨⟩)
  have hnote : l.zero.note frame.channel (.accepted frame) =
      { l.zero.accept frame with
        outstanding := (l.zero.accept frame).outstanding.erase frame.msgno } := by
    rw [Book.note, if_pos rfl, Book.heard_eq hjoins, if_pos hreply]
  rw [hnote, Ledger.setBook, if_pos hzero] at hset
  rw [Ledger.setBook, if_pos hzero]
  refine ⟨fun number book hne htable => ?_, hset.books greetingChannel _ rfl,
    hset.unrepeated⟩
  refine hset.books number book ?_
  rw [bookAt, if_neg hne]
  exact htable

theorem ExactUpTo.of_same {l' : Ledger} {msgno : UInt32} (h : l.ExactUpTo msgno)
    (hzero : l'.zero = l.zero) (htable : l'.table = l.table)
    (hentries : l'.entries = l.entries) : l'.ExactUpTo msgno where
  table := by
    rw [htable, hentries]
    exact h.table
  zero := by
    rw [hzero, hentries]
    exact h.zero
  unrepeated := by
    rw [hentries]
    exact h.unrepeated

end Ledger

theorem Ledger.Step.counts_same {l l' : Ledger} {entry : Entry} {number : UInt32}
    (h : l.Step entry l') (hcounts : entry = .idle ∨ entry = .counted number) :
    l'.zero = l.zero ∧ l'.table = l.table ∧ l'.entries = l.entries := by
  cases h with
  | idle => exact ⟨rfl, rfl, rfl⟩
  | counted => exact ⟨rfl, rfl, rfl⟩
  | _ => rcases hcounts with h | h <;> cases h

theorem Ledger.Step.handed_eq {l l' : Ledger} {number : UInt32} {message : Queued}
    (h : l.Step (.handed number message) l') : l' = l.enter (.handed number message) := by
  cases h
  rfl

/-- What a call must be for the sets of the channels to stay exact: `send` asks nothing
and ends no exchange, and a `MSG` meets no message in its way that frames cannot carry. -/
def Call.Tallies (s : SessionCore) : Call → Prop
  | .startChannel _ => s.state = .ready → ¬ s.Jams greetingChannel
  | .closeChannel channel =>
      s.state = .ready → (s.channelAt channel).isSome → ¬ s.Jams greetingChannel
  | .send channel kind msgno _ _ => ∀ found, s.channels channel = some found →
      channel ≠ greetingChannel ∧ kind ≠ .msg ∧
        (completesReply kind → msgno ∉ found.awaitingReply)
  | .sendMsg channel _ => (s.channels channel).isSome →
      channel ≠ greetingChannel ∧ channel ≤ maxChannelNo ∧ ¬ s.Jams channel
  | _ => True

/-- What a frame must be for the sets of the channels to stay exact: it ends no exchange
of this end, unless as the answer to a request, and no `MSG` by interrupting another
message. -/
def Frame.Tallies (s : SessionCore) : Frame → Prop
  | .seq _ => True
  | .data frame => ∀ channel, s.channelAt frame.channel = some channel →
      channel.admits frame → channel.book.Joins frame ∧
        (channel.book.Ends frame →
          frame.channel = greetingChannel ∧ s.answers (.data frame) ≠ [])

namespace SessionCore

variable {s t : SessionCore} {number : UInt32}

theorem exact_of_path {allowed : Entry → Prop} (h : Walk Books allowed s t)
    (hallowed : ∀ entry, allowed entry → entry.Quiet) (hexact : s.ledger.Exact) :
    t.ledger.Exact := by
  refine h.preserves (I := fun u : SessionCore => u.ledger.Exact) ?_ hexact
  intro u v entry hentry hstep hu
  exact Ledger.Step.quiet hstep (hallowed entry hentry) hu

theorem quiet_passes (entry : Entry) (h : entry.passes number) : entry.Quiet := by
  cases entry <;> first | exact h.elim | trivial

/-- The method keeps the books exact. -/
abbrev KeepsExact {α : Type} (method : SessionM α) : Prop :=
  Computation.Relates (fun s t : SessionCore => s.ledger.Exact → t.ledger.Exact) method

theorem KeepsExact.bind {α β : Type} {method : SessionM α} {rest : α → SessionM β}
    (hmethod : KeepsExact method) (hrest : ∀ a, KeepsExact (rest a)) :
    KeepsExact (method >>= rest) :=
  Computation.relates_bind (fun _ _ _ first second h => second (first h)) hmethod hrest

/-- A message is submitted on channel 0, and its exchanges are changed as it says. -/
theorem exact_submitted {message : Queued} (hexact : s.ledger.Exact)
    (hzero : t.ledger.zero = s.ledger.zero.sent message)
    (htable : t.ledger.table = s.ledger.table) (hentries : t.ledger.entries = s.ledger.entries)
    (hnew : message.kind = .msg → message.msgno ∉ s.zero.outstanding) :
    (t.submitted greetingChannel message).ledger.Exact := by
  have hhanded : (t.record (.handed greetingChannel message)).ledger.Exact := by
    rw [ledger_record (by rintro _ ⟨⟩)]
    have hbook : s.ledger.bookAt greetingChannel = some s.ledger.zero := rfl
    exact hexact.hand hbook hzero htable hentries hnew
  have hopen : ((t.record (.handed greetingChannel message)).ledger.bookAt
      greetingChannel).isSome := rfl
  have hqueued : Walk Books (Entry.passes greetingChannel)
      (t.record (.handed greetingChannel message))
      (t.submitted greetingChannel message) := path_enqueued message hopen rfl
  exact exact_of_path hqueued quiet_passes hhanded

/-- A message of channel 0 is written, and its exchanges are changed as it says. -/
theorem exact_writeZero {kind : FrameKind} {msgno : UInt32}
    {management : Management.Message} (hexact : s.ledger.Exact)
    (hzero : t.ledger.zero =
      s.ledger.zero.sent ⟨kind, msgno, none, management.toPayload⟩)
    (htable : t.ledger.table = s.ledger.table) (hentries : t.ledger.entries = s.ledger.entries)
    (hnew : kind = .msg → msgno ∉ s.zero.outstanding) :
    (Computation.final (writeZero kind msgno management) t).ledger.Exact := by
  have hsubmitted := exact_submitted hexact hzero htable hentries hnew
  have hflush : Walk Books (Entry.passes greetingChannel)
      (t.submitted greetingChannel ⟨kind, msgno, none, management.toPayload⟩)
      (Computation.final (writeZero kind msgno management) t) :=
    keeps_flush greetingChannel trivial _
  exact exact_of_path hflush quiet_passes hsubmitted

theorem exact_request (management : Management.Message) (wanted : Pending) :
    KeepsExact (request management wanted) := by
  intro s hexact
  rcases request_run management wanted s with
    ⟨fault, t, hrun, hledger⟩ | ⟨msgno, t, hnew, -, hledger, hrun⟩
  · rw [Computation.final_of_error hrun, hledger]
    exact hexact
  · rw [Computation.final, hrun, ← Computation.final]
    refine exact_writeZero hexact ?_ ?_ ?_ fun _ => hnew
    · rw [hledger]
      rfl
    · rw [hledger]
      rfl
    · rw [hledger]
      rfl

theorem exact_reply {kind : FrameKind} (msgno : UInt32) (management : Management.Message)
    (hkind : completesReply kind) : KeepsExact (reply kind msgno management) := by
  intro s hexact
  have hmsg : kind ≠ .msg := by
    rintro rfl
    cases hkind
  change (Computation.final (writeZero kind msgno management)
    { s with zero := s.zero.replied msgno }).ledger.Exact
  refine exact_writeZero hexact ?_ rfl rfl fun h => absurd h hmsg
  simp only [Book.sent, hmsg, if_false, hkind, if_true]
  rfl

theorem exact_finishClose (channel : UInt32) : KeepsExact (finishClose channel) := by
  intro s hexact
  rw [ledger_finishClose]
  exact hexact.close channel

theorem exact_startChannel (profile : Management.Profile) :
    KeepsExact (startChannel profile) := by
  intro s hexact
  by_cases hready : s.state = .ready
  · obtain ⟨t, ht⟩ : ∃ t, t = { s with
        nextChannel := s.nextChannel + 2
        halfOpen := Function.update s.halfOpen s.nextChannel (some profile) } :=
      ⟨_, rfl⟩
    have hreserve : t.ledger.Exact := by
      rw [ht]
      exact hexact.of_same rfl rfl rfl
    have hrun : startChannel profile s = (do
        request (.start (Management.Start.new s.nextChannel profile))
          (.start s.nextChannel)
        return s.nextChannel : SessionM UInt32) t := by
      rw [ht]
      exact Computation.bind_of_ok (requireReady_ready hready) _
    rw [Computation.final, hrun, ← Computation.final, Computation.final_drop]
    exact exact_request _ _ t hreserve
  · obtain ⟨fault, hrefused⟩ := startChannel_refused hready profile
    rw [Computation.final_of_error hrefused]
    exact hexact

theorem exact_closeChannel (channel : UInt32) : KeepsExact (closeChannel channel) := by
  unfold closeChannel
  refine KeepsExact.bind (fun s hexact => ?_) fun _ s hexact => ?_
  · by_cases hready : s.state = .ready
    · rw [Computation.final_of_ok (requireReady_ready hready)]
      exact hexact
    · obtain ⟨fault, hrefused⟩ := requireReady_refuses hready
      rw [Computation.final_of_error hrefused]
      exact hexact
  · change (Computation.final (if channel ≠ greetingChannel ∧
      (s.channels channel).isNone then raise (.noSuchChannel channel) else _ :
        SessionM Unit) s).ledger.Exact
    split
    · exact hexact
    · exact exact_request _ _ s hexact

theorem exact_acceptStart (channel msgno : UInt32) (profile : Management.Profile) :
    KeepsExact (acceptStart channel msgno profile) := by
  intro s hexact
  unfold acceptStart
  change (Computation.final
    (if channel = greetingChannel ∨ s.config.role.owns channel then _
      else if (s.channels channel).isSome then _ else _ : SessionM Unit) s).ledger.Exact
  split
  · exact hexact
  split
  · exact hexact
  refine exact_reply msgno (.profile profile) rfl _ ?_
  have hopened := hexact.open_channel channel
  simp only [record, ledger, Function.comp_update, entered_append]
  exact hopened

theorem exact_send {channel : Channel} {kind : FrameKind} {msgno : UInt32}
    {ansno : Option UInt32} {payload : Octets} {book : Book} (hexact : s.ledger.Exact)
    (hbook : s.ledger.bookAt number = some book)
    (hchannel : t.channels number = some channel) (hzero : t.ledger.zero =
      (s.ledger.setBook number (book.sent ⟨kind, msgno, none, payload⟩)).zero)
    (htable : t.ledger.table =
      (s.ledger.setBook number (book.sent ⟨kind, msgno, none, payload⟩)).table)
    (hentries : t.ledger.entries = s.ledger.entries)
    (hnew : kind = .msg → msgno ∉ book.outstanding) :
    (Computation.final (send number kind msgno ansno payload) t).ledger.Exact := by
  obtain ⟨u, v, hledger, hhanded, hpasses⟩ := send_books kind msgno ansno payload hchannel
  refine exact_of_path hpasses quiet_passes ?_
  rw [Ledger.Step.handed_eq hhanded, hledger]
  exact hexact.hand hbook hzero htable hentries hnew

theorem bookAt_of_open {channel : Channel} (hzero : number ≠ greetingChannel)
    (hchannel : s.channels number = some channel) :
    s.ledger.bookAt number = some channel.book := by
  rw [Ledger.bookAt, if_neg hzero, table_ledger, hchannel, Option.map_some]

theorem exact_sendMsg {payload : Octets}
    (hzero : (s.channels number).isSome → number ≠ greetingChannel)
    (hexact : s.ledger.Exact) :
    (Computation.final (sendMsg number payload) s).ledger.Exact := by
  cases hchannel : s.channels number with
  | none =>
      rw [Computation.final_of_error (sendMsg_closed payload hchannel)]
      exact hexact
  | some channel =>
      have hne : number ≠ greetingChannel := hzero (by rw [hchannel]; rfl)
      have hbook := bookAt_of_open hne hchannel
      unfold sendMsg
      rcases allocateMsgnoLoop_run (maxMsgNo.toNat + 1) channel with
        ⟨fault, channel', hrun, hsame⟩ | ⟨msgno, channel', hrun, hnew, hnext⟩
      · have herror : onOpen number Channel.allocateMsgno s = .error fault { s with
            channels := Function.update s.channels number (some channel') } := by
          simp only [onOpen, hchannel, Channel.allocateMsgno, hrun]
        rw [Computation.final_of_error (Computation.bind_of_error herror _),
          ledger_open_same hchannel hsame]
        exact hexact
      · obtain ⟨t, ht⟩ : ∃ t, t = { s with
            channels := Function.update s.channels number (some channel') } := ⟨_, rfl⟩
        have hok : onOpen number Channel.allocateMsgno s = .ok msgno t := by
          rw [ht]
          simp only [onOpen, hchannel, Channel.allocateMsgno, hrun]
        have hfound : t.channels number = some channel' := by
          rw [ht]
          exact Function.update_self ..
        have hledger : t.ledger = s.ledger.setBook number
            (channel.book.sent ⟨.msg, msgno, none, payload⟩) := by
          rw [ht]
          simp only [ledger, Function.comp_update, Option.map_some, hnext, Ledger.setBook,
            hne, if_false]
          rfl
        rw [Computation.final, Computation.bind_of_ok hok, ← Computation.final,
          Computation.final_drop]
        refine exact_send hexact hbook hfound (by rw [hledger]) (by rw [hledger]) ?_ ?_
        · rw [hledger, Ledger.setBook, if_neg hne]
        · exact fun _ => hnew

/-- Calls that end no exchange and ask nothing by hand keep the books exact. -/
theorem exact_call {call : Call} (htallies : call.Tallies s) (hexact : s.ledger.Exact) :
    (Computation.final call.run s).ledger.Exact := by
  cases call with
  | startChannel profile =>
      change (Computation.final
        (startChannel profile >>= fun _ => pure ()) s).ledger.Exact
      rw [Computation.final_drop]
      exact exact_startChannel profile s hexact
  | acceptStart channel msgno profile =>
      exact exact_acceptStart channel msgno profile s hexact
  | refuseStart msgno error => exact exact_reply msgno (.error error) rfl s hexact
  | closeChannel channel => exact exact_closeChannel channel s hexact
  | acceptClose channel msgno =>
      exact (exact_reply msgno .ok rfl).bind (fun _ => exact_finishClose channel) s hexact
  | refuseClose msgno error => exact exact_reply msgno (.error error) rfl s hexact
  | send channel kind msgno ansno payload =>
      cases hchannel : s.channels channel with
      | none =>
          have hfinal := Computation.final_of_error
            (send_closed kind msgno ansno payload hchannel)
          change (Computation.final
            (SessionCore.send channel kind msgno ansno payload) s).ledger.Exact
          rw [hfinal]
          exact hexact
      | some found =>
          obtain ⟨hzero, hmsg, hreply⟩ := htallies found hchannel
          have hbook := bookAt_of_open hzero hchannel
          have hsent : found.book.sent ⟨kind, msgno, none, payload⟩ = found.book := by
            unfold Book.sent
            rw [if_neg hmsg]
            split
            · rename_i hcompletes
              have hnot : msgno ∉ found.book.awaitingReply := hreply hcompletes
              rw [Finset.erase_eq_of_notMem hnot]
            · rfl
          refine exact_send hexact hbook hchannel ?_ ?_ rfl fun h => absurd h hmsg
          · rw [hsent, setBook_self hbook]
          · rw [hsent, setBook_self hbook]
  | sendMsg channel payload =>
      change (Computation.final
        (SessionCore.sendMsg channel payload >>= fun _ => pure ()) s).ledger.Exact
      rw [Computation.final_drop]
      exact exact_sendMsg (fun hopen => (htallies hopen).1) hexact
  | setWindowSize channel size =>
      have hresize : KeepsBook (modify (·.setRecvWindowSize size)) := fun _ => rfl
      have hledger : (Computation.final (Call.setWindowSize channel size).run s).ledger =
          s.ledger := ledger_onOpen channel hresize s
      rw [hledger]
      exact hexact
  | setAuthenticated identity => exact hexact
  | setServerName name => exact hexact

theorem asked_of_fails {call : Call} (htallies : call.Tallies s) (hplaced : s.Placed)
    (hnumbered : s.Numbered) (hfails : Computation.Fails call.run s) :
    askedOn number (Computation.final call.run s).history = askedOn number s.history := by
  obtain ⟨fault, t, herror⟩ := hfails
  -- A method that may hand over a `MSG` does so only when it succeeds.
  have hhanded : ∀ {α : Type} {method : SessionM α},
      ((∃ a u, method s = .ok a u) ∨
        ∃ fault u, method s = .error fault u ∧ u.history = s.history) →
      (method >>= fun _ => pure ()) s = .error fault t → t.history = s.history := by
    rintro α method (⟨a, u, hok⟩ | ⟨fault', u, hfault, hsame⟩) hrun
    · rw [Computation.bind_of_ok hok] at hrun
      cases hrun
    · rw [Computation.bind_of_error hfault] at hrun
      cases hrun
      exact hsame
  cases call with
  | startChannel profile =>
      rw [Computation.final_of_error herror,
        hhanded (startChannel_handed profile hplaced hnumbered htallies) herror]
  | closeChannel channel =>
      have hsame : t.history = s.history := by
        rcases closeChannel_handed channel hplaced hnumbered htallies with
          ⟨u, hok⟩ | ⟨fault', u, hfault, hsame⟩
        · cases hok.symm.trans herror
        · cases hfault.symm.trans herror
          exact hsame
      rw [Computation.final_of_error herror, hsame]
  | sendMsg channel payload =>
      rw [Computation.final_of_error herror, hhanded (sendMsg_handed payload hplaced hnumbered
        fun hopen => (htallies hopen).2) herror]
  | send channel kind msgno ansno payload =>
      cases hchannel : s.channels channel with
      | none =>
          cases (send_closed kind msgno ansno payload hchannel).symm.trans herror
          rw [Computation.final_of_error herror]
      | some found =>
          exact asksNothing_send (htallies found hchannel).2.1 msgno ansno payload s number
  | acceptStart channel msgno profile =>
      exact asksNothing_acceptStart channel msgno profile s number
  | refuseStart msgno error => exact asksNothing_reply (by decide) msgno (.error error) s number
  | acceptClose channel msgno =>
      exact (asksNothing_reply (by decide) msgno .ok).bind
        (fun _ => asksNothing_finishClose channel) s number
  | refuseClose msgno error => exact asksNothing_reply (by decide) msgno (.error error) s number
  | setWindowSize channel size =>
      refine askedOn_of_walk (path_setWindowSize channel size s) ?_ number
      rintro _ other message (rfl | rfl) (h | h) <;> cases h
  | setAuthenticated identity => cases herror
  | setServerName name => cases herror

/-! ## Frames -/

section Frames

variable {frame : DataFrame}

theorem path_receive (frame : DataFrame) (s : SessionCore) :
    Walk Books (fun entry => entry = .idle ∨ entry = .counted frame.channel)
      (Computation.final (accept frame) s) (Computation.final (receive frame) s) := by
  unfold receive
  cases hrun : accept frame s with
  | error fault t =>
      rw [Computation.final_of_error hrun,
        Computation.final_of_error (Computation.bind_of_error hrun _)]
      exact Walk.refl
  | ok complete t =>
      rw [Computation.final_of_ok hrun, Computation.final, Computation.bind_of_ok hrun,
        ← Computation.final, Computation.final_drop]
      exact keeps_acknowledge frame.channel frame.size (.inr rfl) (.inl rfl) t

theorem same_receive (frame : DataFrame) (s : SessionCore) :
    let t := Computation.final (accept frame) s
    let u := Computation.final (receive frame) s
    u.ledger.zero = t.ledger.zero ∧ u.ledger.table = t.ledger.table ∧
      u.ledger.entries = t.ledger.entries := by
  intro t u
  refine (path_receive frame s).preserves
    (I := fun v : SessionCore => v.ledger.zero = t.ledger.zero ∧
      v.ledger.table = t.ledger.table ∧ v.ledger.entries = t.ledger.entries)
    ?_ ⟨rfl, rfl, rfl⟩
  rintro v w entry hcounts hstep hv
  obtain ⟨hzero, htable, hentries⟩ := Ledger.Step.counts_same hstep hcounts
  rwa [hzero, htable, hentries]

theorem admits_of_not_refused (frame : DataFrame) (s : SessionCore) :
    (∃ channel, s.channelAt frame.channel = some channel ∧ channel.admits frame) ∨
      ∃ fault, receive frame s = .error fault s := by
  by_cases hadmits : ∃ channel, s.channelAt frame.channel = some channel ∧
      channel.admits frame
  · exact .inl hadmits
  · exact .inr (receive_refused fun channel hchannel hadmits' =>
      hadmits ⟨channel, hchannel, hadmits'⟩)

theorem exact_receive (hends : ∀ channel, s.channelAt frame.channel = some channel →
      channel.admits frame → channel.book.Joins frame ∧ ¬ channel.book.Ends frame)
    (hexact : s.ledger.Exact) : (Computation.final (receive frame) s).ledger.Exact := by
  rcases s.admits_of_not_refused frame with
    ⟨channel, hchannel, hadmits⟩ | ⟨fault, hrun⟩
  · obtain ⟨hjoins, hends⟩ := hends channel hchannel hadmits
    have hbook : s.ledger.bookAt frame.channel = some channel.book := by
      rw [bookAt_ledger, hchannel, Option.map_some]
    have haccept := hexact.accept hbook hjoins hends
    rw [← ledger_accept hchannel hadmits] at haccept
    obtain ⟨hzero, htable, hentries⟩ := same_receive frame s
    exact haccept.of_same hzero htable hentries
  · rw [Computation.final_of_error hrun]
    exact hexact

theorem exact_handleOpen (hzero : frame.channel ≠ greetingChannel)
    (htallies : Frame.Tallies s (.data frame)) (hexact : s.ledger.Exact) :
    (Computation.final (handleData frame) s).ledger.Exact := by
  have hreceive := exact_receive (fun channel hchannel hadmits =>
    ⟨(htallies channel hchannel hadmits).1, fun hends =>
      hzero ((htallies channel hchannel hadmits).2 hends).1⟩) hexact
  rw [handleData_eq hzero]
  cases hrun : receive frame s with
  | error fault t =>
      rw [Computation.final_of_error hrun] at hreceive
      rwa [Computation.final_of_error (Computation.bind_of_error hrun _)]
  | ok complete t =>
      rw [Computation.final_of_ok hrun] at hreceive
      rw [Computation.final, Computation.bind_of_ok hrun, ← Computation.final]
      cases complete with
      | none => exact hreceive
      | some message =>
          rw [ledger_deliver]
          exact hreceive.of_same rfl rfl rfl

theorem not_ends_of_answers (hanswers : s.answers (.data frame) = [])
    (htallies : Frame.Tallies s (.data frame)) (channel : Channel)
    (hchannel : s.channelAt frame.channel = some channel) (hadmits : channel.admits frame) :
    channel.book.Joins frame ∧ ¬ channel.book.Ends frame :=
  ⟨(htallies channel hchannel hadmits).1, fun hends =>
    ((htallies channel hchannel hadmits).2 hends).2 hanswers⟩

theorem exact_handleGreeting (hzero : frame.channel = greetingChannel)
    (hstate : s.state = .awaitingGreeting) (htallies : Frame.Tallies s (.data frame))
    (hexact : s.ledger.Exact) :
    (Computation.final (handleGreeting frame) s).ledger.Exact := by
  have hanswers : s.answers (.data frame) = [] := by
    have hheard : s.heard frame = none := by
      rw [heard, if_neg fun h => h.2 hstate]
    simp only [answers, hheard]
  have hreceive := exact_receive (not_ends_of_answers hanswers htallies) hexact
  rw [handleGreeting_eq hzero]
  cases hgreeting : Greeting.fromFrame frame with
  | error fault => exact hexact
  | ok greeting =>
      change (Computation.final (do
        let _ ← receive frame
        modify fun s => { s with peerGreeting := some greeting, state := .ready }
        emitEvent (.greetingReceived greeting) : SessionM Unit) s).ledger.Exact
      cases hrun : receive frame s with
      | error fault t =>
          rw [Computation.final_of_error hrun] at hreceive
          rwa [Computation.final_of_error (Computation.bind_of_error hrun _)]
      | ok complete t =>
          rw [Computation.final_of_ok hrun] at hreceive
          rw [Computation.final, Computation.bind_of_ok hrun, ← Computation.final]
          exact hreceive.of_same rfl rfl rfl

/-- The answer to a request is received but for the number it is to release. -/
theorem exact_answer {message : Message} (hzero : frame.channel = greetingChannel)
    (hcompletes : completesReply frame.kind) (hrun : receive frame s = .ok (some message) t)
    (htallies : Frame.Tallies s (.data frame)) (hexact : s.ledger.Exact) :
    t.ledger.ExactUpTo frame.msgno := by
  obtain ⟨complete, u, haccept, hrest⟩ := Computation.ok_of_bind hrun
  obtain ⟨_, v, _, hdone⟩ := Computation.ok_of_bind hrest
  cases hdone
  obtain ⟨channel, hchannel, hadmits, ⟨channel', hresult⟩, -⟩ := accept_ok haccept
  have hsame : channel = s.zero := by
    rw [hzero] at hchannel
    exact (Option.some.inj hchannel).symm
  obtain ⟨hjoins, -⟩ := htallies channel hchannel hadmits
  have hresult' := accept_result hadmits
  rw [Computation.outcome, hresult] at hresult'
  have hreply : frame.more = false ∧ completesReply frame.kind ∧
      (s.ledger.zero.joined frame).isSome := by
    change _ ∧ _ ∧ (s.zero.book.joined frame).isSome
    rw [← hsame]
    cases hjoined : channel.book.joined frame with
    | none =>
        rw [hjoined] at hresult'
        cases hresult'
    | some whole =>
        rw [hjoined] at hresult'
        cases hmore : frame.more with
        | true =>
            rw [hmore] at hresult'
            cases hresult'
        | false => exact ⟨rfl, hcompletes, rfl⟩
  rw [hsame] at hjoins
  have haccepted := hexact.accept_zero hzero hjoins hreply
  have hledger := ledger_accept hchannel hadmits
  rw [hsame] at hledger
  obtain ⟨hzero', htable, hentries⟩ := same_receive frame s
  rw [Computation.final_of_ok hrun] at hzero' htable hentries
  refine haccepted.of_same ?_ ?_ ?_
  · rw [hzero', hledger]
    rfl
  · rw [htable, hledger]
    rfl
  · rw [hentries, hledger]
    rfl

theorem same_dispatch {kind : FrameKind} (hkind : completesReply kind = false)
    (msgno : UInt32) (management : Management.Message) (s : SessionCore) :
    let t := Computation.final (dispatchManagement kind msgno management) s
    t.ledger.zero = s.ledger.zero ∧ t.ledger.table = s.ledger.table ∧
      t.ledger.entries = s.ledger.entries := by
  cases kind with
  | msg => cases management <;> exact ⟨rfl, rfl, rfl⟩
  | ans => exact ⟨rfl, rfl, rfl⟩
  | rpy | err | nul => cases hkind

theorem exact_dispatch {message : Message} {management : Management.Message}
    (hzero : frame.channel = greetingChannel) (hstate : s.state ≠ .awaitingGreeting)
    (hrun : receive frame s = .ok (some message) t)
    (hpayload : Management.Message.fromPayload message.payload = .ok management)
    (htallies : Frame.Tallies s (.data frame)) (hexact : s.ledger.Exact) :
    (Computation.final (dispatchManagement frame.kind frame.msgno management)
      t).ledger.Exact := by
  have hquiet : (∀ channel, s.channelAt frame.channel = some channel →
      channel.admits frame → channel.book.Joins frame ∧ ¬ channel.book.Ends frame) →
      t.ledger.Exact := by
    intro hends
    have hreceive := exact_receive hends hexact
    rwa [Computation.final_of_ok hrun] at hreceive
  by_cases hcompletes : completesReply frame.kind
  · have hpending : t.pending = s.pending := by
      have hmoved := (receive_unmoved frame s).pending
      rwa [Computation.final_of_ok hrun] at hmoved
    have hheard : s.heard frame = some management :=
      heard_eq_some.mpr ⟨hzero, hstate, message, t, hrun, hpayload⟩
    have hupTo := exact_answer hzero hcompletes hrun htallies hexact
    cases dispatched frame.kind frame.msgno management t with
    | answer _ hanswered hstep => exact Ledger.Step.answer_exact hstep hanswered hupTo
    | told hkind =>
        rw [hkind] at hcompletes
        cases hcompletes
    | refused _ hrefused hfinal =>
        have hanswers : s.answers (.data frame) = [] := by
          simp only [answers, hheard, ← hpending]
          cases hasked : t.pending frame.msgno with
          | none => rfl
          | some wanted => simp [hrefused wanted hasked]
        have hexact' := hquiet (not_ends_of_answers hanswers htallies)
        rcases hfinal with hfinal | hfinal
        · rwa [hfinal]
        · rw [hfinal]
          exact hexact'.of_same rfl rfl rfl
  · obtain ⟨hzero', htable, hentries⟩ :=
      same_dispatch (Bool.eq_false_iff.mpr hcompletes) frame.msgno management t
    refine Ledger.Exact.of_same (hquiet fun channel hchannel hadmits =>
      ⟨(htallies channel hchannel hadmits).1, fun hends => hcompletes hends.2.1⟩)
      hzero' htable hentries

theorem exact_handleZero (hzero : frame.channel = greetingChannel)
    (hstate : s.state ≠ .awaitingGreeting) (htallies : Frame.Tallies s (.data frame))
    (hexact : s.ledger.Exact) : (Computation.final (handleData frame) s).ledger.Exact := by
  have hquiet (hnone : s.heard frame = none) :
      (Computation.final (receive frame) s).ledger.Exact := by
    have hanswers : s.answers (.data frame) = [] := by simp only [answers, hnone]
    exact exact_receive (not_ends_of_answers hanswers htallies) hexact
  have hunheard (h : ∀ management, ¬ s.Hears frame management) : s.heard frame = none := by
    rw [Option.eq_none_iff_forall_ne_some]
    exact fun management hsome => h management (heard_eq_some.mp hsome)
  rw [Computation.final, handleData_zero hzero hstate, ← Computation.final]
  cases hrun : receive frame s with
  | error fault t =>
      have hexact' := hquiet (hunheard fun management hhears => by
        obtain ⟨-, -, message, u, hok, -⟩ := hhears
        rw [hrun] at hok
        cases hok)
      rw [Computation.final_of_error hrun] at hexact'
      rwa [Computation.final_of_error (Computation.bind_of_error hrun _)]
  | ok complete t =>
      rw [Computation.final, Computation.bind_of_ok hrun, ← Computation.final]
      cases complete with
      | none =>
          have hexact' := hquiet (hunheard fun management hhears => by
            obtain ⟨-, -, message, u, hok, -⟩ := hhears
            rw [hrun] at hok
            cases hok)
          rwa [Computation.final_of_ok hrun] at hexact'
      | some message =>
          obtain ⟨hkind, hmsgno, -⟩ := receive_message hrun
          change (Computation.final (do
            let management ← liftFault (Management.Message.fromPayload message.payload)
            dispatchManagement message.kind message.msgno management : SessionM Unit)
              t).ledger.Exact
          cases hpayload : Management.Message.fromPayload message.payload with
          | error fault =>
              have hexact' := hquiet (hunheard fun management hhears => by
                obtain ⟨-, -, found, u, hok, hfound⟩ := hhears
                rw [hrun] at hok
                cases hok
                rw [hpayload] at hfound
                cases hfound)
              rwa [Computation.final_of_ok hrun] at hexact'
          | ok management =>
              rw [hkind, hmsgno]
              exact exact_dispatch hzero hstate hrun hpayload htallies hexact

theorem exact_handleFrame {frame : Frame} (htallies : frame.Tallies s)
    (hexact : s.ledger.Exact) : (Computation.final (handleFrame frame) s).ledger.Exact := by
  cases frame with
  | seq seq =>
      refine exact_of_path (keeps_handleFrame (.seq seq) s) (fun entry hallowed => ?_) hexact
      cases entry <;> trivial
  | data frame =>
      by_cases hzero : frame.channel = greetingChannel
      · by_cases hstate : s.state = .awaitingGreeting
        · have hrun : handleFrame (.data frame) s = handleGreeting frame s := by
            rw [handleFrame, handleData, if_pos hzero, handleChannelZero_eq hzero]
            change (if s.state = .awaitingGreeting then _ else _ : SessionM Unit) s = _
            rw [if_pos hstate]
          rw [Computation.final, hrun, ← Computation.final]
          exact exact_handleGreeting hzero hstate htallies hexact
        · exact exact_handleZero hzero hstate htallies hexact
      · exact exact_handleOpen hzero htallies hexact

end Frames

theorem exact_fresh (config : Config) : (fresh config).ledger.Exact := by
  refine ⟨fun number book hbook => ?_, .nil⟩
  by_cases hzero : number = greetingChannel
  · rw [Ledger.bookAt, if_pos hzero] at hbook
    exact (Option.some.inj hbook).symm
  · rw [Ledger.bookAt, if_neg hzero] at hbook
    cases hbook

theorem exact_greet (config : Config) :
    (Computation.final greet (fresh config)).ledger.Exact := by
  have hsubmitted : ((fresh config).submitted greetingChannel
      (greetingMessage config)).ledger.Exact :=
    exact_submitted (exact_fresh config) rfl rfl rfl nofun
  have hannounced : Walk Books (Entry.passes greetingChannel)
      ((fresh config).submitted greetingChannel (greetingMessage config))
      (Computation.final greet (fresh config)) :=
    (keeps_flush greetingChannel trivial).bind
      (fun _ => keeps_advertiseWindow greetingChannel trivial) _
  exact exact_of_path hannounced quiet_passes hsubmitted

end SessionCore

/-! ## Runs -/

/-- What an act must be for the sets of the channels to stay exact. -/
def Act.Tallies (trace : Trace) : Act → Prop
  | .call method => method.Tallies trace.core
  | .input octets => ∀ core frame,
      (trace.session.received octets).Meets core frame → frame.Tallies core
  | .pollTransmit | .pollEvent => True

namespace Trace

variable {config : Config} {first last : Trace}

theorem Fresh.exact (hfresh : Fresh config first) : first.core.ledger.Exact := by
  obtain ⟨hnew⟩ := hfresh
  have hgreet := SessionCore.exact_greet config
  unfold Session.new at hnew
  cases hrun : SessionCore.greet (SessionCore.fresh config) with
  | error fault core =>
      rw [hrun] at hnew
      cases hnew
  | ok _ core =>
      rw [hrun] at hnew
      cases hnew
      rwa [Computation.final_of_ok hrun] at hgreet

theorem Run.exact (hfresh : Fresh config first)
    (hrun : Run (fun trace act => act.Tallies trace) first last) :
    last.core.ledger.Exact := by
  refine hrun.keeps (I := fun s => s.ledger.Exact) ?_ ?_ id ?_ hfresh.exact
  · exact fun htallies hexact => SessionCore.exact_call htallies hexact
  · exact fun htallies hmet hexact => SessionCore.exact_handleFrame (htallies _ _ hmet) hexact
  · exact fun hexact => hexact.of_same rfl rfl rfl

theorem Run.numbers {meets : Trace → Act → Prop} (hfresh : Fresh config first)
    (hrun : Run meets first last) : last.core.Numbered := by
  have hmove : ∀ {s s' : SessionCore} {effect : SessionCore.Effect},
      SessionCore.Move s effect s' → s.Numbered → s'.Numbered := by
    intro s s' effect hmove h
    obtain ⟨actions, hlogs⟩ := hmove.logs
    exact hlogs.numbered h
  have hfirst : first.core.Numbered :=
    hfresh.path.preserves (fun _ => hmove) ⟨(by decide : (0 : UInt32) ≤ maxMsgNo), nofun⟩
  refine hrun.preserves (fun hpolled h => ?_) hmove hfirst
  obtain ⟨outbound, events, rfl⟩ := hpolled
  exact h

/-- As long as no exchange of a channel other than 0 ends, every open channel keeps the
sets of its exchanges exactly as the history tells them, no number that is outstanding
is used for another `MSG`, and no call that hands over a `MSG` fails. -/
theorem Run.exchanges_exact (hfresh : Fresh config first)
    (hrun : Run (fun trace act => act.Tallies trace) first last) :
    (∀ number channel, last.core.channelAt number = some channel →
      channel.outstanding = (reckon number last.core.history).outstanding ∧
      channel.awaitingReply = (reckon number last.core.history).awaitingReply) ∧
    Unrepeated last.core.history ∧
    ∀ call : Call, call.Tallies last.core → Computation.Fails call.run last.core →
      ∀ number, askedOn number (Computation.final call.run last.core).history =
        askedOn number last.core.history := by
  have hexact := hrun.exact hfresh
  refine ⟨fun number channel hchannel => ?_, hexact.unrepeated.of_entered,
    fun call htallies hfails number => SessionCore.asked_of_fails htallies
      (hrun.accounted hfresh).placed (hrun.numbers hfresh) hfails⟩
  have hbook : last.core.ledger.bookAt number = some channel.book := by
    rw [SessionCore.bookAt_ledger, hchannel, Option.map_some]
  have hreckoned := hexact.books number channel.book hbook
  rw [SessionCore.ledger, reckon_entered] at hreckoned
  exact ⟨congrArg Book.outstanding hreckoned, congrArg Book.awaitingReply hreckoned⟩

end Trace

/-- Each end has sent a message on a channel and waits for the reply.  A `MSG` for a
channel that is not open is not handed over. -/
theorem exchanges_exact_both :
    ∃ first last channel, Trace.Fresh (Config.new .listener) first ∧
      last = first.replay [.call (.acceptStart 1 0 (.new "urn:x")),
        .call (.sendMsg 1 [97]), .input (peerFrame .msg 1 4 0 [98])] ∧
      last.core.channelAt 1 = some channel ∧
      channel.outstanding = {0} ∧ channel.awaitingReply = {4} ∧
      channel.outstanding = (reckon 1 last.core.history).outstanding ∧
      channel.awaitingReply = (reckon 1 last.core.history).awaitingReply ∧
      Unrepeated last.core.history ∧
      Computation.Fails (Call.sendMsg 3 []).run last.core ∧
      ∀ number, askedOn number
          (Computation.final (Call.sendMsg 3 []).run last.core).history =
        askedOn number last.core.history := by
  have hrun : (Session.new (Config.new .listener)).toOption.any fun session =>
      let opened := Trace.replay ⟨session, []⟩ [.call (.acceptStart 1 0 (.new "urn:x"))]
      let asked := opened.act (.call (.sendMsg 1 [97]))
      let told := asked.session.received (peerFrame .msg 1 4 0 [98])
      let last := asked.act (.input (peerFrame .msg 1 4 0 [98]))
      decide ((opened.core.lane 1).queue = []) &&
        ((told.met told.inbound.length).all (fun met => met.2.asData.all fun frame =>
          decide (frame.kind = .msg) && (met.1.channelAt frame.channel).all fun channel =>
            (channel.book.joined frame).isSome) &&
        ((last.core.channels 3).isNone &&
          (last.core.channelAt 1).any fun channel =>
            decide (channel.outstanding = {0}) &&
              decide (channel.awaitingReply = {4}))) := by
    decide +kernel
  obtain ⟨session, hnew⟩ := Session.new_ok (Config.new .listener)
  rw [hnew] at hrun
  obtain ⟨first, hfirst⟩ : ∃ first : Trace, first = ⟨session, []⟩ := ⟨_, rfl⟩
  have hfresh : Trace.Fresh (Config.new .listener) first := hfirst ▸ .new hnew
  obtain ⟨opened, hopened⟩ : ∃ opened, opened = first.replay
    [.call (.acceptStart 1 0 (.new "urn:x"))] := ⟨_, rfl⟩
  obtain ⟨asked, hasked⟩ : ∃ asked, asked = opened.act (.call (.sendMsg 1 [97])) := ⟨_, rfl⟩
  simp only [Except.toOption, Option.any_some, ← hfirst, ← hopened, ← hasked] at hrun
  simp only [Bool.and_eq_true, decide_eq_true_eq, Option.any_eq_true] at hrun
  obtain ⟨hqueue, hmet, hclosed, channel, hchannel, hsets⟩ := hrun
  have hstart : Trace.Run (fun trace act => act.Tallies trace) first opened := by
    rw [hopened]
    refine Trace.Run.replay_of _ fun act hmem trace => ?_
    rw [List.mem_singleton] at hmem
    subst hmem
    trivial
  have hcall : Act.Tallies opened (.call (.sendMsg 1 [97])) := by
    refine fun _ => ⟨by decide, by decide, ?_⟩
    rintro ⟨flow, -, hjams⟩
    rw [hqueue] at hjams
    exact Flow.not_jams_nil hjams
  have hcalls := hstart.act _ hcall
  rw [← hasked] at hcalls
  have hinput : Act.Tallies asked (.input (peerFrame .msg 1 4 0 [98])) := by
    intro core frame hmeets
    have hchecked := hmeets.of_all hmet
    cases frame with
    | seq => trivial
    | data frame =>
        rw [Frame.asData, Option.all_some, Bool.and_eq_true, decide_eq_true_eq,
          Option.all_eq_true] at hchecked
        obtain ⟨hkind, hjoined⟩ := hchecked
        refine fun found hfound _ => ⟨fun _ _ => .inl (hjoined found hfound), ?_⟩
        rintro ⟨-, hcompletes, -⟩
        rw [hkind] at hcompletes
        cases hcompletes
  obtain ⟨hexact, hunrepeated, hasks⟩ :=
    Trace.Run.exchanges_exact hfresh (hcalls.act _ hinput)
  obtain ⟨last, hlast⟩ : ∃ last, last = asked.act (.input (peerFrame .msg 1 4 0 [98])) :=
    ⟨_, rfl⟩
  rw [← hlast] at hchannel hclosed hexact hunrepeated hasks
  have hnone : last.core.channels 3 = none := Option.isNone_iff_eq_none.mp hclosed
  have hfails : Computation.Fails (Call.sendMsg 3 []).run last.core :=
    ⟨_, _, Computation.bind_of_error (SessionCore.sendMsg_closed [] hnone) _⟩
  have htallies : (Call.sendMsg 3 []).Tallies last.core := by
    intro hopen
    rw [hnone] at hopen
    cases hopen
  refine ⟨first, last, channel, hfresh, ?_, hchannel, hsets.1, hsets.2,
    (hexact 1 channel hchannel).1, (hexact 1 channel hchannel).2, hunrepeated, hfails,
    hasks _ htallies hfails⟩
  rw [hlast, hasked, hopened]
  rfl

/-- The reply has come, and the number of the message is outstanding still. -/
theorem exchange_kept_open :
    ∃ first last channel, Trace.Fresh (Config.new .listener) first ∧
      last = first.replay [.call (.acceptStart 1 0 (.new "urn:x")),
        .call (.sendMsg 1 []), .input (peerFrame .rpy 1 0 0 [])] ∧
      last.core.channelAt 1 = some channel ∧
      (reckon 1 last.core.history).outstanding = ∅ ∧ channel.outstanding = {0} := by
  have hrun : (Session.new (Config.new .listener)).toOption.any fun session =>
      let last := Trace.replay ⟨session, []⟩
        [.call (.acceptStart 1 0 (.new "urn:x")), .call (.sendMsg 1 []),
          .input (peerFrame .rpy 1 0 0 [])]
      (last.core.channelAt 1).any fun channel =>
        decide ((reckon 1 last.core.history).outstanding = ∅) &&
          decide (channel.outstanding = {0}) := by
    decide +kernel
  obtain ⟨session, hnew⟩ := Session.new_ok (Config.new .listener)
  rw [hnew] at hrun
  simp only [Except.toOption, Option.any_some, Option.any_eq_true, Bool.and_eq_true,
    decide_eq_true_eq] at hrun
  obtain ⟨channel, hchannel, hover, hkept⟩ := hrun
  exact ⟨⟨session, []⟩, _, channel, .new hnew, rfl, hchannel, hover, hkept⟩

end Vortice.Proto
