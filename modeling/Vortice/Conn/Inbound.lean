import Vortice.Conn.Steps

/-!
# The queues to the readers of channels

A reader is given messages of its own channel, in the order in which they came in and none
twice.  A message is lost only to a reader that is gone or has a full queue.
-/

namespace Vortice.Conn

open Vortice.Foundation Vortice.Proto

/-- The messages that came in on a channel, as they are handed on. -/
def deliveredOn (channel : UInt32) (journal : List Note) : List Message :=
  journal.filterMap fun
    | .received other message =>
        if other = channel then some (Driver.delivered message) else none
    | _ => none

@[simp] theorem deliveredOn_append (channel : UInt32) (first second : List Note) :
    deliveredOn channel (first ++ second) =
      deliveredOn channel first ++ deliveredOn channel second :=
  List.filterMap_append

namespace Inbound

/-- A queue has kept the order of what was reported for it, and has room for so many. -/
structure Kept (journal : List Note) (inbound : Inbound) : Prop where
  bounded : inbound.waiting.length ≤ inboundQueue
  inOrder : (inbound.taken ++ inbound.waiting).Sublist inbound.reported
  own : inbound.reported.Sublist (deliveredOn inbound.channel journal)

/-- A reader that is still there has been given everything, or will be. -/
def Complete (inbound : Inbound) : Prop :=
  inbound.alive → inbound.taken ++ inbound.waiting = inbound.reported

def receive (inbound : Inbound) : Inbound :=
  if inbound.alive then
    { inbound with
      waiting := inbound.waiting.drop 1
      taken := inbound.taken ++ inbound.waiting.take 1 }
  else inbound

def push (inbound : Inbound) (message : Message) : Inbound :=
  { inbound with
    reported := inbound.reported ++ [message]
    waiting :=
      if inbound.alive ∧ inbound.waiting.length < inboundQueue then inbound.waiting ++ [message]
      else inbound.waiting }

variable {journal : List Note} {inbound : Inbound}

theorem Kept.mono (h : inbound.Kept journal) (entries : List Note) :
    inbound.Kept (journal ++ entries) where
  bounded := h.bounded
  inOrder := h.inOrder
  own := by
    rw [deliveredOn_append]
    exact h.own.trans (List.sublist_append_left _ _)

theorem Kept.receive (h : inbound.Kept journal) : inbound.receive.Kept journal := by
  unfold Inbound.receive
  split
  · refine ⟨?_, ?_, h.own⟩
    · rw [List.length_drop]
      exact (Nat.sub_le _ _).trans h.bounded
    · rw [List.append_assoc, List.take_append_drop]
      exact h.inOrder
  · exact h

theorem Kept.push (h : inbound.Kept journal) (message : Message) :
    (inbound.push (Driver.delivered message)).Kept
      (journal ++ [.received inbound.channel message]) := by
  have hown : (inbound.reported ++ [Driver.delivered message]).Sublist
      (deliveredOn inbound.channel (journal ++ [.received inbound.channel message])) := by
    rw [deliveredOn_append]
    refine h.own.append ?_
    simp [deliveredOn]
  unfold Inbound.push
  split_ifs with hroom
  · refine ⟨?_, ?_, hown⟩
    · rw [List.length_append]
      exact hroom.2
    · rw [← List.append_assoc]
      exact h.inOrder.append (List.Sublist.refl _)
  · exact ⟨h.bounded, h.inOrder.trans (List.sublist_append_left _ _), hown⟩

theorem Complete.receive (h : inbound.Complete) : inbound.receive.Complete := by
  unfold Inbound.receive
  split
  · intro halive
    rw [List.append_assoc, List.take_append_drop]
    exact h halive
  · exact h

theorem Complete.push (h : inbound.Complete)
    (hroom : inbound.alive → inbound.waiting.length < inboundQueue) (message : Message) :
    (inbound.push message).Complete := by
  intro halive
  change inbound.taken ++ (if inbound.alive ∧ _ then _ else _) = inbound.reported ++ [message]
  rw [if_pos ⟨halive, hroom halive⟩, ← List.append_assoc, h halive]

end Inbound

namespace Driver

variable {H : Type} {router : Router H} {act : Act} {d d' : Driver H}

/-- Every queue is kept, and a message is put in a queue of its channel. -/
structure Piped (d : Driver H) : Prop where
  routed : ∀ channel pipe, d.routes.inbound.lookup channel = some pipe →
    ∃ inbound, d.pipes[pipe]? = some inbound ∧ inbound.channel = channel
  kept : ∀ (pipe : Pipe) (inbound : Inbound), d.pipes[pipe]? = some inbound →
    inbound.Kept d.journal

theorem Piped.of_same (h : d.Piped) (hpipes : d'.pipes = d.pipes)
    (hinbound : ∀ channel pipe, d'.routes.inbound.lookup channel = some pipe →
      d.routes.inbound.lookup channel = some pipe)
    {entries : List Note} (hjournal : d'.journal = d.journal ++ entries) : d'.Piped where
  routed channel pipe hlookup := by
    rw [hpipes]
    exact h.routed channel pipe (hinbound channel pipe hlookup)
  kept pipe inbound hget := by
    rw [hpipes] at hget
    rw [hjournal]
    exact (h.kept pipe inbound hget).mono entries

theorem Piped.modify (h : d.Piped) {pipe : Pipe} {f : Inbound → Inbound}
    (hpipes : d'.pipes = d.pipes.modify pipe f)
    (hinbound : d'.routes.inbound = d.routes.inbound) {entries : List Note}
    (hjournal : d'.journal = d.journal ++ entries)
    (hchannel : ∀ inbound, (f inbound).channel = inbound.channel)
    (hf : ∀ inbound, d.pipes[pipe]? = some inbound → (f inbound).Kept d'.journal) :
    d'.Piped where
  routed channel other hlookup := by
    rw [hinbound] at hlookup
    obtain ⟨inbound, hget, hfound⟩ := h.routed channel other hlookup
    rw [hpipes, List.getElem?_modify, hget]
    refine ⟨if pipe = other then f inbound else inbound, rfl, ?_⟩
    split
    · rw [hchannel, hfound]
    · exact hfound
  kept other inbound hget := by
    rw [hpipes, List.getElem?_modify] at hget
    obtain ⟨before, hbefore, rfl⟩ := Option.map_eq_some_iff.mp hget
    split
    · rename_i hpipe
      subst hpipe
      exact hf before hbefore
    · rw [hjournal]
      exact (h.kept other before hbefore).mono entries

theorem Piped.open (h : d.Piped) {channel : UInt32} {alive : Bool}
    (hpipes : d'.pipes = d.pipes ++ [⟨channel, alive, [], [], []⟩])
    (hinbound : d'.routes.inbound = d.routes.inbound.insert channel d.pipes.length)
    (hjournal : d'.journal = d.journal) : d'.Piped where
  routed other pipe hlookup := by
    rw [hinbound] at hlookup
    rw [hpipes]
    by_cases hother : other = channel
    · subst hother
      rw [AList.lookup_insert] at hlookup
      cases hlookup
      exact ⟨_, List.getElem?_concat_length, rfl⟩
    · rw [AList.lookup_insert_ne hother] at hlookup
      obtain ⟨inbound, hget, hchannel⟩ := h.routed other pipe hlookup
      refine ⟨inbound, ?_, hchannel⟩
      rw [List.getElem?_append_left (List.getElem?_eq_some_iff.mp hget).1]
      exact hget
  kept pipe inbound hget := by
    rw [hjournal]
    rw [hpipes, List.getElem?_append] at hget
    split at hget
    · exact h.kept pipe inbound hget
    · rw [List.getElem?_singleton] at hget
      split at hget <;> cases hget
      exact ⟨Nat.zero_le _, List.nil_sublist _, List.nil_sublist _⟩

theorem Piped.complete (h : d.Piped) {event : Event} (hcompletes : completes event) :
    (d.handleEvent router event).Piped := by
  cases event with
  | startRequested | closeRequested | messageReceived => cases hcompletes
  | channelOpened channel profile =>
      simp only [handleEvent, channelOpened, answerAny_eq]
      exact h.open rfl rfl rfl
  | channelClosed channel =>
      simp only [handleEvent, answerAny_eq]
      refine h.of_same rfl (fun other pipe hlookup => ?_) (List.append_nil _).symm
      by_cases hother : other = channel
      · subst hother
        change AList.lookup other (AList.erase other _) = _ at hlookup
        rw [AList.lookup_erase] at hlookup
        cases hlookup
      · change AList.lookup other (AList.erase channel _) = _ at hlookup
        rwa [AList.lookup_erase_ne hother] at hlookup
  | _ =>
      simp only [handleEvent, answerAny_eq]
      exact h.of_same rfl (fun _ _ => id) (List.append_nil _).symm

theorem Piped.step (hstep : Step router act d d') (h : d.Piped) : d'.Piped := by
  have hsame : ∀ {d' : Driver H}, d'.pipes = d.pipes → d'.routes.inbound = d.routes.inbound →
      d'.journal = d.journal → d'.Piped := fun hpipes hinbound hjournal =>
    h.of_same hpipes (fun _ _ hlookup => hinbound ▸ hlookup)
      (hjournal.trans (List.append_nil _).symm)
  cases hstep with
  | settle => exact h.of_same rfl (fun _ _ => id) rfl
  | neglect => exact h.of_same rfl (fun _ _ => id) rfl
  | awaitOpen | awaitClose | awaitEnd =>
      simp only [awaitOpen, awaitClose, awaitEnd, answerAny_eq]
      exact hsame rfl rfl rfl
  | awaitReply =>
      simp only [awaitReply, answerAny_eq]
      exact h.of_same rfl (fun _ _ => id) rfl
  | complete hcompletes => exact h.complete hcompletes
  | @reply channel message pending =>
      obtain ⟨requests, answered, hreply⟩ := answerRequest_eq (d.note (.received channel message))
        (channel, message.msgno) pending message.kind (bodyOf message.payload)
      rw [hreply]
      exact h.of_same rfl (fun _ _ => id) rfl
  | spawn => exact h.of_same rfl (fun _ _ => id) rfl
  | @push channel message pipe _ hpipe =>
      obtain ⟨inbound, hget, hchannel⟩ := h.routed channel pipe hpipe
      refine h.modify rfl rfl rfl (fun _ => rfl) fun found hfound => ?_
      cases hget.symm.trans hfound
      subst hchannel
      exact (h.kept pipe inbound hget).push message
  | replace =>
      unfold Driver.replace
      split
      · exact hsame rfl rfl rfl
      · rw [answerAny_eq]
        exact h.of_same rfl (fun _ _ hlookup => absurd hlookup (Option.some_ne_none _).symm) rfl
  | finish hstage =>
      rw [tick_of_returned hstage, answerAny_eq]
      exact h.of_same rfl (fun _ _ hlookup => absurd hlookup (Option.some_ne_none _).symm)
        (List.append_nil _).symm
  | receive pipe =>
      refine h.modify rfl rfl (List.append_nil _).symm (fun inbound => ?_) fun inbound hget => ?_
      · split <;> rfl
      · exact (h.kept pipe inbound hget).receive
  | dropReader pipe =>
      refine h.modify rfl rfl (List.append_nil _).symm (fun _ => rfl) fun inbound hget => ?_
      exact ⟨(h.kept pipe inbound hget).bounded, (h.kept pipe inbound hget).inOrder,
        (h.kept pipe inbound hget).own⟩
  | _ => exact hsame rfl rfl rfl

theorem Piped.run {meets : Driver H → Act → Prop} {session : Session} {ready : Ticket}
    {last : Driver H}
    (hrun : Run (Driver.act router) meets (Driver.new session ready) last) : last.Piped :=
  preserves_of_steps (fun _ => Piped.step) hrun
    ⟨by simp [Driver.new, Routes.new], by simp [Driver.new]⟩

/-- How the queues change when no message is put in one. -/
inductive Flows (pipes : List Inbound) : List Inbound → Prop where
  | same : Flows pipes pipes
  | open (channel : UInt32) (alive : Bool) :
      Flows pipes (pipes ++ [⟨channel, alive, [], [], []⟩])
  | receive (pipe : Pipe) : Flows pipes (pipes.modify pipe Inbound.receive)
  | drop (pipe : Pipe) :
      Flows pipes (pipes.modify pipe fun inbound => { inbound with alive := false })

/-- A queue that nothing is missing from. -/
def Lossless (pipe : Pipe) (pipes : List Inbound) : Prop :=
  ∀ inbound, pipes[pipe]? = some inbound → inbound.Complete

theorem lossless_modify {pipe other : Pipe} {pipes : List Inbound} {f : Inbound → Inbound}
    (h : Lossless pipe pipes)
    (hf : ∀ inbound, pipes[pipe]? = some inbound → inbound.Complete → (f inbound).Complete) :
    Lossless pipe (pipes.modify other f) := by
  intro inbound hget
  rw [List.getElem?_modify] at hget
  obtain ⟨before, hbefore, rfl⟩ := Option.map_eq_some_iff.mp hget
  split
  · exact hf before hbefore (h before hbefore)
  · exact h before hbefore

theorem Flows.lossless {pipe : Pipe} {pipes pipes' : List Inbound} (hflows : Flows pipes pipes')
    (h : Lossless pipe pipes) : Lossless pipe pipes' := by
  cases hflows with
  | same => exact h
  | «open» channel alive =>
      intro inbound hget
      rw [List.getElem?_append] at hget
      split at hget
      · exact h inbound hget
      · rw [List.getElem?_singleton] at hget
        split at hget <;> cases hget
        exact fun _ => rfl
  | receive => exact lossless_modify h fun _ _ hcomplete => hcomplete.receive
  | drop => exact lossless_modify h fun _ _ _ halive => absurd halive Bool.false_ne_true

theorem dispatch_pipes (ticket : Ticket) (asked : Command) :
    (d.dispatch ticket asked).pipes = d.pipes := by
  have hreplace : ∀ (d : Driver H) (config : Config),
      (d.replace config ticket).pipes = d.pipes := by
    intro d config
    unfold Driver.replace
    split
    · rfl
    · rw [answerAny_eq]
      rfl
  have hswap : ∀ (d : Driver H) (swap : Swap) (config : Config),
      (d.swapOut ticket swap config).pipes = d.pipes := by
    intro d swap config
    unfold swapOut
    split
    · rfl
    · dsimp only
      split
      · rfl
      · exact hreplace _ config
  unfold dispatch
  dsimp only
  split
  · unfold upgrade
    split
    · exact hswap _ _ _
    · split <;> rename_i hsession <;> obtain ⟨core, rfl⟩ := moveTo_of_session hsession
      · rfl
      · exact hswap _ _ _
  · obtain ⟨core, routes, answered, journal, happly⟩ :=
      apply_eq (d := d.hear ticket) asked
    change ((d.hear ticket).apply ticket asked).pipes = _
    rw [happly]
    rfl

theorem handleEvent_flows (d : Driver H) (event : Event) :
    Flows d.pipes (d.handleEvent router event).pipes ∨
      ∃ pipe message, (d.handleEvent router event).pipes =
        d.pipes.modify pipe fun inbound => inbound.push message := by
  cases event with
  | startRequested channel msgno start =>
      obtain ⟨core, served, awaitingUpgrade, asked, tasks, hstart⟩ :=
        startRequested_eq (d := d.note (.wanted msgno (d.answers router channel start))) channel
          msgno start
      rw [handleEvent, hstart]
      exact .inl .same
  | messageReceived channel message =>
      rw [handleEvent]
      rcases (d.note (.received channel message)).deliver_cases channel message with
        ⟨pending, -, -, hdeliver⟩ | ⟨-, ⟨tasks, hdeliver⟩ | ⟨pipe, -, hdeliver⟩⟩ <;>
      rw [hdeliver]
      · obtain ⟨requests, answered, hreply⟩ := answerRequest_eq
          (d.note (.received channel message)) (channel, message.msgno) pending message.kind
          (bodyOf message.payload)
        rw [hreply]
        exact .inl .same
      · exact .inl .same
      · exact .inr ⟨pipe, delivered message, rfl⟩
  | channelOpened channel profile =>
      simp only [handleEvent, channelOpened, answerAny_eq]
      exact .inl (.open channel _)
  | closeRequested => exact .inl .same
  | _ =>
      simp only [handleEvent, answerAny_eq]
      exact .inl .same

theorem tick_flows (router : Router H) (d : Driver H) :
    Flows d.pipes (d.tick router).pipes ∨
      ∃ pipe message, (d.tick router).pipes =
        d.pipes.modify pipe fun inbound => inbound.push message := by
  unfold tick
  split
  · split_ifs <;> exact .inl .same
  · split
    · exact handleEvent_flows { d with trace := d.trace.act .pollEvent } _
    · split_ifs <;> exact .inl .same
  · rw [answerAny_eq]
    exact .inl .same
  · exact .inl .same
  · exact .inl .same

theorem wait_pipes (act : Act) : (d.wait act).pipes = d.pipes := by
  cases act with
  | command ticket asked => exact dispatch_pipes ticket asked
  | read chunk =>
      simp only [wait]
      split_ifs
      · rfl
      · rfl
      · unfold read
        split <;> rfl
  | wrote count flushed =>
      simp only [wait]
      split_ifs
      · rfl
      · unfold wrote
        split
        · dsimp only
          split_ifs <;> rfl
        · rfl
  | noCommands =>
      simp only [wait]
      split_ifs <;> rfl
  | failed failure =>
      simp only [wait]
      split_ifs <;> rfl
  | _ => rfl

theorem attend_pipes (d : Driver H) (act : Act) : (d.attend act).pipes = d.pipes := by
  unfold attend
  split
  · exact wait_pipes act
  · rfl

theorem act_flows {act : Act} (h : act ≠ .tick) : Flows d.pipes (d.act router act).pipes := by
  cases act with
  | tick => exact absurd rfl h
  | dropHandles => exact .same
  | receive pipe => exact .receive pipe
  | dropReader pipe => exact .drop pipe
  | _ =>
      change Flows d.pipes (d.attend _).pipes
      rw [attend_pipes]
      exact .same

/-- A reader is given messages of its own channel in the order in which they came in, none twice,
and at most so many wait for it. -/
theorem readers_are_served_in_order {session : Session} {ready : Ticket} {last : Driver H}
    (hrun : Run (Driver.act router) (fun _ _ => True) (Driver.new session ready) last) :
    ∀ inbound ∈ last.pipes, inbound.waiting.length ≤ inboundQueue ∧
      (inbound.taken ++ inbound.waiting).Sublist (deliveredOn inbound.channel last.journal) := by
  intro inbound hmem
  obtain ⟨pipe, hget⟩ := List.mem_iff_getElem?.mp hmem
  have hkept := (Piped.run hrun).kept pipe inbound hget
  exact ⟨hkept.bounded, hkept.inOrder.trans hkept.own⟩

/-- Two messages come in, and a reader takes one. -/
def twoMessages : List Act :=
  opened ++ .read (peerFrame .msg 2 0 0 (withMime [120])) :: idle ++
    .read (peerFrame .msg 2 1 3 (withMime [121])) :: idle ++ [.receive 0]

/-- The reader has taken the first message. -/
theorem reader_takes_first :
    ∃ session last, Session.new (Config.new .listener) = .ok session ∧
      last = replay (.agreeing false) session twoMessages ∧
      ∃ inbound ∈ last.pipes, (inbound.taken.map Message.payload = [[120]] ∧
        inbound.waiting.map Message.payload = [[121]]) ∧
        (inbound.taken ++ inbound.waiting).Sublist
          (deliveredOn inbound.channel last.journal) := by
  have hrun : (Session.new (Config.new .listener)).toOption.any fun session =>
      (replay (.agreeing false) session twoMessages).pipes.any fun inbound =>
        inbound.taken.map Message.payload = [[120]] ∧
          inbound.waiting.map Message.payload = [[121]] := by
    decide +kernel
  obtain ⟨session, hnew⟩ := Session.new_ok (Config.new .listener)
  rw [hnew] at hrun
  obtain ⟨inbound, hmem, hpayloads⟩ := List.any_eq_true.mp hrun
  exact ⟨session, _, hnew, rfl, inbound, hmem, of_decide_eq_true hpayloads,
    (readers_are_served_in_order (replay_run _ rfl) inbound hmem).2⟩

/-- A reader that is there is given everything reported for it, which came in on its channel
in this order, as long as its queue is never full when the loop goes on. -/
theorem nothing_is_lost_with_room {session : Session} {ready : Ticket} {last : Driver H}
    {pipe : Pipe}
    (hrun : Run (Driver.act router) (fun d act => act = .tick →
      ∀ inbound, d.pipes[pipe]? = some inbound → inbound.waiting.length < inboundQueue)
      (Driver.new session ready) last) :
    ∀ inbound, last.pipes[pipe]? = some inbound → inbound.alive →
      inbound.taken ++ inbound.waiting = inbound.reported ∧
        inbound.reported.Sublist (deliveredOn inbound.channel last.journal) := by
  have hlossless : Lossless pipe last.pipes := by
    refine hrun.preserves (I := fun d => Lossless pipe d.pipes)
      (fun {d act} hroom hlossless => ?_) (by simp [Lossless, Driver.new])
    by_cases hact : act = .tick
    · subst hact
      rcases tick_flows router d with hflows | ⟨other, message, hpush⟩
      · exact hflows.lossless hlossless
      · change Lossless pipe (d.tick router).pipes
        rw [hpush]
        exact lossless_modify hlossless fun inbound hget hcomplete =>
          hcomplete.push (fun _ => hroom rfl inbound hget) message
    · exact (act_flows hact).lossless hlossless
  intro inbound hget halive
  exact ⟨hlossless inbound hget halive, ((Piped.run hrun).kept pipe inbound hget).own⟩

/-- The reader that has taken the first message is given the second. -/
theorem reader_is_given_both :
    ∃ session last, Session.new (Config.new .listener) = .ok session ∧
      last = replay (.agreeing false) session twoMessages ∧
      ∃ inbound, last.pipes[0]? = some inbound ∧ inbound.reported.length = 2 ∧
        inbound.taken ++ inbound.waiting = inbound.reported ∧
        inbound.reported.Sublist (deliveredOn inbound.channel last.journal) := by
  have hrun : (Session.new (Config.new .listener)).toOption.any fun session =>
      Run.checks (Driver.act (.agreeing false))
          (fun d act => !(act matches .tick) ||
            d.pipes[0]?.all fun inbound => inbound.waiting.length < inboundQueue)
          (Driver.new session 0) twoMessages &&
        (replay (.agreeing false) session twoMessages).pipes[0]?.any fun inbound =>
          inbound.alive ∧ inbound.reported.length = 2 := by
    decide +kernel
  obtain ⟨session, hnew⟩ := Session.new_ok (Config.new .listener)
  rw [hnew] at hrun
  simp only [Except.toOption, Option.any_some, Bool.and_eq_true] at hrun
  obtain ⟨hroom, hgiven⟩ := hrun
  obtain ⟨inbound, hget, hgiven⟩ := (Option.any_eq_true _ _).mp hgiven
  obtain ⟨halive, hlength⟩ := of_decide_eq_true hgiven
  refine ⟨session, _, hnew, rfl, inbound, hget, hlength, ?_⟩
  refine nothing_is_lost_with_room (.of_checks _ (fun {d act} hcheck hact => ?_) hroom) inbound hget
    halive
  subst hact
  intro inbound hget
  simpa [hget] using hcheck

end Driver

end Vortice.Conn
