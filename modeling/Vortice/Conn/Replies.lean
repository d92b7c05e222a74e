import Vortice.Conn.Steps

/-!
# Replies and the requests they answer

A request is answered with what the peer sent under its channel and message number after it
was made: the first `RPY` or `ERR`, or the bodies of the `ANS` messages before the `NUL`.
-/

namespace Vortice.Conn

open Vortice.Foundation Vortice.Proto

/-- What one more message makes of the answers gathered: more answers, or a reply, which ends
the gathering. -/
def gather (answers : List Octets) (message : Message) : Except Reply (List Octets) :=
  match message.kind with
  | .msg => .ok answers
  | .rpy => .error (.rpy (bodyOf message.payload))
  | .err => .error (.err (bodyOf message.payload))
  | .ans => .ok (answers ++ [bodyOf message.payload])
  | .nul => .error (.answers answers)

/-- What the messages that came in for a request amount to. -/
def gathered (messages : List Message) : Except Reply (List Octets) := messages.foldlM gather []

/-- The messages received under a channel and message number. -/
def receivedFor (channel msgno : UInt32) (journal : List Note) : List Message :=
  journal.filterMap fun
    | .received other message =>
        if other = channel ∧ message.msgno = msgno then some message else none
    | _ => none

@[simp] theorem receivedFor_append (channel msgno : UInt32) (first second : List Note) :
    receivedFor channel msgno (first ++ second) =
      receivedFor channel msgno first ++ receivedFor channel msgno second :=
  List.filterMap_append

theorem gathered_of_error {first : List Message} {reply : Reply} (h : gathered first = .error reply)
    (second : List Message) : gathered (first ++ second) = .error reply := by
  rw [gathered, List.foldlM_append, ← gathered, h]
  rfl

theorem gathered_append {first : List Message} {answers : List Octets}
    (h : gathered first = .ok answers) (message : Message) :
    gathered (first ++ [message]) = gather answers message := by
  rw [gathered, List.foldlM_append, ← gathered, h]
  change List.foldlM gather answers [message] = _
  rw [List.foldlM_cons]
  cases gather answers message <;> rfl

/-- A request, and what came in for it since it was made. -/
def Heard (journal : List Note) (ticket : Ticket) (channel msgno : UInt32)
    (result : Except Reply (List Octets)) : Prop :=
  ∃ before after, journal = before ++ .requested ticket channel msgno :: after ∧
    gathered (receivedFor channel msgno after) = result

section Heard

variable {journal : List Note} {ticket : Ticket} {channel msgno : UInt32}

theorem heard_new (journal : List Note) (ticket : Ticket) (channel msgno : UInt32) :
    Heard (journal ++ [.requested ticket channel msgno]) ticket channel msgno (.ok []) :=
  ⟨journal, [], rfl, rfl⟩

theorem Heard.of_error {reply : Reply} (h : Heard journal ticket channel msgno (.error reply))
    (entries : List Note) : Heard (journal ++ entries) ticket channel msgno (.error reply) := by
  obtain ⟨before, after, rfl, hgathered⟩ := h
  refine ⟨before, after ++ entries, by simp, ?_⟩
  rw [receivedFor_append]
  exact gathered_of_error hgathered _

theorem Heard.note {answers : List Octets} (h : Heard journal ticket channel msgno (.ok answers))
    {entry : Note} (hentry : receivedFor channel msgno [entry] = []) :
    Heard (journal ++ [entry]) ticket channel msgno (.ok answers) := by
  obtain ⟨before, after, rfl, hgathered⟩ := h
  refine ⟨before, after ++ [entry], by simp, ?_⟩
  rwa [receivedFor_append, hentry, List.append_nil]

theorem Heard.received {answers : List Octets}
    (h : Heard journal ticket channel msgno (.ok answers)) (message : Message)
    (hmsgno : message.msgno = msgno) :
    Heard (journal ++ [.received channel message]) ticket channel msgno
      (gather answers message) := by
  obtain ⟨before, after, rfl, hgathered⟩ := h
  refine ⟨before, after ++ [.received channel message], by simp, ?_⟩
  have hmessage : receivedFor channel msgno [.received channel message] = [message] := by
    simp [receivedFor, hmsgno]
  rw [receivedFor_append, hmessage]
  exact gathered_append hgathered message

end Heard

namespace Driver

variable {H : Type} {router : Router H} {act : Act} {d d' : Driver H}

/-- What callers have been told, and what is gathered for those who wait, is what came in. -/
structure Correlated (d : Driver H) : Prop where
  pending : ∀ channel msgno found, d.routes.requests.lookup (channel, msgno) = some found →
    Heard d.journal found.reply channel msgno (.ok found.answers)
  answered : ∀ ticket reply, (ticket, .reply (.ok reply)) ∈ d.answered →
    ∃ channel msgno, Heard d.journal ticket channel msgno (.error reply)

theorem Correlated.of_same (h : d.Correlated)
    (hrequests : d'.routes.requests = d.routes.requests) (hjournal : d'.journal = d.journal)
    (hanswered : ∀ ticket reply, (ticket, .reply (.ok reply)) ∈ d'.answered →
      (ticket, .reply (.ok reply)) ∈ d.answered) : d'.Correlated where
  pending := by rw [hrequests, hjournal]; exact h.pending
  answered ticket reply hmem := by
    rw [hjournal]
    exact h.answered ticket reply (hanswered ticket reply hmem)

theorem mem_of_prompt {answered : List (Ticket × Answer)} {given : List Ticket} {answer : Answer}
    (hprompt : answer.prompt) {ticket : Ticket} {reply : Reply}
    (hmem : (ticket, .reply (.ok reply)) ∈ answered ++ given.map (·, answer)) :
    (ticket, .reply (.ok reply)) ∈ answered := by
  rcases List.mem_append.mp hmem with hmem | hmem
  · exact hmem
  · obtain ⟨other, -, heq⟩ := List.mem_map.mp hmem
    cases heq
    cases hprompt

theorem Correlated.told (h : d.Correlated) (hrequests : d'.routes.requests = d.routes.requests)
    (hjournal : d'.journal = d.journal) {given : List Ticket} {answer : Answer}
    (hanswered : d'.answered = d.answered ++ given.map (·, answer)) (hprompt : answer.prompt) :
    d'.Correlated :=
  h.of_same hrequests hjournal fun _ _ hmem => mem_of_prompt hprompt (hanswered ▸ hmem)

theorem Correlated.note (h : d.Correlated) {entry : Note}
    (hentry : ∀ channel msgno found, d.routes.requests.lookup (channel, msgno) = some found →
      receivedFor channel msgno [entry] = []) : (d.note entry).Correlated where
  pending channel msgno found hfound :=
    (h.pending channel msgno found hfound).note (hentry channel msgno found hfound)
  answered ticket reply hmem := by
    obtain ⟨channel, msgno, hheard⟩ := h.answered ticket reply hmem
    exact ⟨channel, msgno, hheard.of_error _⟩

theorem Correlated.complete (h : d.Correlated) {event : Event} (hcompletes : completes event) :
    (d.handleEvent router event).Correlated := by
  cases event with
  | startRequested | closeRequested | messageReceived => cases hcompletes
  | _ =>
      simp only [handleEvent, channelOpened, answerAny_eq]
      exact h.told rfl rfl rfl rfl

theorem Correlated.shutdown (h : d.Correlated) : d.shutdown.Correlated where
  pending channel msgno found hfound := by simp [Driver.shutdown, Routes.new] at hfound
  answered ticket reply hmem := by
    refine h.answered ticket reply ?_
    simp only [Driver.shutdown, List.mem_append] at hmem
    rcases hmem with (((hmem | hmem) | hmem) | hmem) | hmem
    · exact hmem
    all_goals
      obtain ⟨found, -, heq⟩ := List.mem_map.mp hmem
      cases heq

theorem Correlated.awaitReply (h : d.Correlated) (channel msgno : UInt32) (ticket : Ticket) :
    ((d.awaitReply channel msgno ticket).note (.requested ticket channel msgno)).Correlated := by
  rw [Driver.awaitReply, answerAny_eq]
  refine ⟨fun other number found hfound => ?_, fun other reply hmem => ?_⟩
  · by_cases hkey : (other, number) = (channel, msgno)
    · cases hkey
      change AList.lookup (channel, msgno) (AList.insert _ _ _) = _ at hfound
      rw [AList.lookup_insert] at hfound
      cases hfound
      exact heard_new d.journal ticket channel msgno
    · change AList.lookup (other, number) (AList.insert _ _ _) = _ at hfound
      rw [AList.lookup_insert_ne hkey] at hfound
      exact (h.pending other number found hfound).note rfl
  · obtain ⟨channel, msgno, hheard⟩ := h.answered other reply (mem_of_prompt rfl hmem)
    exact ⟨channel, msgno, hheard.of_error _⟩

theorem Correlated.received (h : d.Correlated) {channel : UInt32} {message : Message}
    (hunasked : d.Unasked channel message) :
    (d.note (.received channel message)).Correlated := by
  refine ⟨fun other msgno found hfound => ?_, fun ticket reply hmem => ?_⟩
  · have hheard := h.pending other msgno found hfound
    by_cases hkey : (channel, message.msgno) = (other, msgno)
    · cases hkey
      rcases hunasked with hkind | hnone
      · have hreceived := hheard.received message rfl
        rwa [gather, hkind] at hreceived
      · cases hnone.symm.trans hfound
    · refine hheard.note ?_
      simp only [Prod.mk.injEq] at hkey
      simp [receivedFor, hkey]
  · obtain ⟨other, msgno, hheard⟩ := h.answered ticket reply hmem
    exact ⟨other, msgno, hheard.of_error _⟩

/-- A message that a request waits for adds to the answers, or is the reply. -/
theorem Correlated.reply (h : d.Correlated) {channel : UInt32} {message : Message}
    {pending : PendingRequest} (hkind : message.kind ≠ .msg)
    (hpending : d.routes.requests.lookup (channel, message.msgno) = some pending) :
    ((d.note (.received channel message)).answerRequest (channel, message.msgno) pending
      message.kind (bodyOf message.payload)).Correlated := by
  have hheard := (h.pending channel message.msgno pending hpending).received message rfl
  have hothers : ∀ other msgno found, (other, msgno) ≠ (channel, message.msgno) →
      d.routes.requests.lookup (other, msgno) = some found →
      Heard (d.journal ++ [.received channel message]) found.reply other msgno
        (.ok found.answers) := by
    intro other msgno found hkey hfound
    refine (h.pending other msgno found hfound).note ?_
    have hne : ¬(channel = other ∧ message.msgno = msgno) := by
      rintro ⟨rfl, rfl⟩
      exact hkey rfl
    simp [receivedFor, hne]
  have hnoted : ∀ ticket reply, (ticket, .reply (.ok reply)) ∈ d.answered →
      ∃ channel' msgno, Heard (d.journal ++ [.received channel message]) ticket channel' msgno
        (.error reply) := by
    intro ticket reply hmem
    obtain ⟨other, msgno, hheard⟩ := h.answered ticket reply hmem
    exact ⟨other, msgno, hheard.of_error _⟩
  have herased : ∀ {reply : Reply}, gather pending.answers message = .error reply →
      Correlated (Driver.answer { d.note (.received channel message) with
        routes := { d.routes with
          requests := d.routes.requests.erase (channel, message.msgno) } }
        pending.reply (.reply (.ok reply))) := by
    intro reply hgather
    rw [hgather] at hheard
    refine ⟨fun other msgno found hfound => ?_, fun ticket found hmem => ?_⟩
    · change AList.lookup (other, msgno) (AList.erase _ _) = _ at hfound
      by_cases hkey : (other, msgno) = (channel, message.msgno)
      · rw [hkey, AList.lookup_erase] at hfound
        cases hfound
      · rw [AList.lookup_erase_ne hkey] at hfound
        exact hothers other msgno found hkey hfound
    · rcases List.mem_append.mp hmem with hmem | hmem
      · exact hnoted ticket found hmem
      · cases List.mem_singleton.mp hmem
        exact ⟨channel, message.msgno, hheard⟩
  unfold answerRequest
  cases hreply : message.kind with
  | msg => exact absurd hreply hkind
  | rpy => exact herased (by rw [gather, hreply])
  | err => exact herased (by rw [gather, hreply])
  | nul => exact herased (by rw [gather, hreply])
  | ans =>
      rw [gather, hreply] at hheard
      refine ⟨fun other msgno found hfound => ?_, hnoted⟩
      change AList.lookup (other, msgno) (AList.insert _ _ (AList.erase _ _)) = _ at hfound
      by_cases hkey : (other, msgno) = (channel, message.msgno)
      · cases hkey
        rw [AList.lookup_insert] at hfound
        cases hfound
        exact hheard
      · rw [AList.lookup_insert_ne hkey, AList.lookup_erase_ne hkey] at hfound
        exact hothers other msgno found hkey hfound

theorem Correlated.step (hstep : Step router act d d') (h : d.Correlated) : d'.Correlated := by
  have hcalled : ∀ (ticket : Ticket) (call : Call), ((d.call call).hear ticket).Correlated :=
    fun _ _ => h.of_same rfl rfl fun _ _ => id
  have hnoted : ∀ msgno answered, (d.note (.wanted msgno answered)).Correlated := fun _ _ =>
    h.note fun _ _ _ _ => rfl
  cases hstep with
  | settle => exact (hnoted _ _).of_same rfl rfl fun _ _ => id
  | neglect => exact (hnoted _ _).of_same rfl rfl fun _ _ => id
  | @answer ticket _ answer _ hprompt =>
      change ((d.hear ticket).answerAny (some ticket) answer).Correlated
      rw [answerAny_eq]
      exact h.told rfl rfl rfl hprompt
  | awaitOpen | awaitClose | awaitEnd =>
      simp only [awaitOpen, awaitClose, awaitEnd, answerAny_eq]
      exact (hcalled _ _).told rfl rfl rfl rfl
  | awaitReply => exact (hcalled _ _).awaitReply _ _ _
  | complete hcompletes => exact h.complete hcompletes
  | reply hkind hpending => exact h.reply hkind hpending
  | spawn tasks hunasked => exact (h.received hunasked).of_same rfl rfl fun _ _ => id
  | push hunasked => exact (h.received hunasked).of_same rfl rfl fun _ _ => id
  | @replace ticket _ _ config =>
      unfold Driver.replace
      split
      · change Correlated { (d.hear ticket).answerAny (some ticket) .dropped with stage := _ }
        rw [answerAny_eq]
        exact h.told rfl rfl rfl rfl
      · have hheard : (d.hear ticket).Correlated := h.of_same rfl rfl fun _ _ => id
        rw [answerAny_eq]
        have htold : Correlated { (d.hear ticket).shutdown with
            answered := (d.hear ticket).shutdown.answered ++ d.ready.toList.map (·, .dropped) } :=
          hheard.shutdown.told rfl rfl rfl rfl
        exact (htold.note fun _ _ _ _ => rfl).of_same rfl rfl fun _ _ => id
  | @finish result hstage =>
      rw [tick_of_returned hstage]
      have htold : Correlated (Driver.answerAny { d with ready := none } d.ready
          (.greeting (.error (Failure.ofEnd result)))) := by
        rw [answerAny_eq]
        exact h.told rfl rfl rfl rfl
      exact htold.shutdown.of_same rfl rfl fun _ _ => id
  | _ => exact h.of_same rfl rfl fun _ _ => id

/-- A caller is given the reply that came in for its request, and while it waits nothing but
answers have come in. -/
theorem replies_are_what_came_in {session : Session} {ready : Ticket} {last : Driver H}
    (hrun : Run (Driver.act router) (fun _ _ => True) (Driver.new session ready) last) :
    (∀ ticket reply, (ticket, .reply (.ok reply)) ∈ last.answered →
      ∃ channel msgno, Heard last.journal ticket channel msgno (.error reply)) ∧
    ∀ channel msgno found, last.routes.requests.lookup (channel, msgno) = some found →
      Heard last.journal found.reply channel msgno (.ok found.answers) := by
  have hcorrelated : last.Correlated :=
    preserves_of_steps (fun _ => Correlated.step) hrun
      ⟨by simp [Driver.new, Routes.new], by simp [Driver.new]⟩
  exact ⟨hcorrelated.answered, hcorrelated.pending⟩

/-- A request is made, and the peer replies to it. -/
def exchange : List Act :=
  opened ++ .command 2 (.request 2 [120]) :: idle ++
    .read (peerFrame .rpy 2 0 0 (withMime [121])) :: idle

/-- The reply in an answer, if there is one. -/
def replyOf : Answer → Option Reply
  | .reply (.ok reply) => some reply
  | _ => none

theorem eq_of_replyOf {answer : Answer} {reply : Reply} (h : replyOf answer = some reply) :
    answer = .reply (.ok reply) := by
  unfold replyOf at h
  split at h
  · rw [Option.some.inj h]
  · cases h

/-- A caller hears the reply to its request. -/
theorem caller_hears_reply :
    ∃ session last, Session.new (Config.new .listener) = .ok session ∧
      last = replay (.agreeing false) session exchange ∧
      ∃ channel msgno, Heard last.journal 2 channel msgno (.error (.rpy [121])) := by
  have hrun : (Session.new (Config.new .listener)).toOption.any fun session =>
      (replay (.agreeing false) session exchange).answered.any fun answer =>
        answer.1 = 2 ∧ replyOf answer.2 = some (.rpy [121]) := by
    decide +kernel
  obtain ⟨session, hnew⟩ := Session.new_ok (Config.new .listener)
  rw [hnew] at hrun
  obtain ⟨last, hlast⟩ : ∃ last, last = replay (.agreeing false) session exchange := ⟨_, rfl⟩
  simp only [Except.toOption, Option.any_some, ← hlast] at hrun
  obtain ⟨⟨ticket, answer⟩, hmem, hanswer⟩ := List.any_eq_true.mp hrun
  obtain ⟨rfl, hreply⟩ : ticket = 2 ∧ replyOf answer = _ := of_decide_eq_true hanswer
  rw [eq_of_replyOf hreply] at hmem
  exact ⟨session, last, hnew, hlast, (replies_are_what_came_in (replay_run _ hlast)).1 _ _ hmem⟩

end Driver

end Vortice.Conn
