import Vortice.Proto.History

/-!
# Messages on their way out

Messages leave a channel in the order in which they were queued, none lost and
none twice: what the frames written so far complete, what is still queued and
what is held back account for everything that was handed over.
-/

namespace Vortice.Proto

open Vortice.Foundation

/-- The frames written on a channel number, as fragments. -/
def fragmentsOn (number : UInt32) (past : List Action) :
    List (Fragment Tag UInt8) :=
  (writtenOn number past).map DataFrame.fragment

/-- The messages the frames written on a channel number complete. -/
def completedOn (number : UInt32) (past : List Action) : List (Whole Tag UInt8) :=
  ((Fragment.assemble none (fragmentsOn number past)).map Prod.snd).getD []

theorem Queued.whole_injective : Function.Injective Queued.whole := by
  intro first second h
  obtain ⟨kind, msgno, ansno, payload⟩ := first
  cases second
  cases h
  rfl

theorem Queued.exists_whole (whole : Whole Tag UInt8) :
    ∃ message : Queued, message.whole = whole :=
  ⟨⟨whole.tag.1, whole.tag.2.1, whole.tag.2.2, whole.payload⟩, rfl⟩

namespace Lane

/-- What is written, queued and held accounts for what was handed over. -/
structure Fifo (number : UInt32) (lane : Lane) (past : List Action) : Prop where
  closed : lane.flow = none → lane = shut
  delivers : ∃ held done rest,
    Fragment.assemble none (fragmentsOn number past) = some (held, done) ∧
    Fragment.Continues held (lane.queue.map Queued.whole) rest ∧
    (queuedOn number past).map Queued.whole = done ++ rest
  accounts : ∀ message : Queued, (handedOn number past).count message =
    (queuedOn number past).count message +
      (lane.held message.msgno).count message
  keyed : ∀ msgno, ∀ message ∈ lane.held msgno, message.msgno = msgno

variable {number : UInt32} {lane lane' : Lane} {effect : Effect}
variable {past actions : List Action}

section Projections

variable {frames : List DataFrame}

theorem handedOn_wrote : handedOn number (wrote frames) = [] := by
  induction frames with
  | nil => rfl
  | cons frame frames ih => exact ih

theorem queuedOn_wrote : queuedOn number (wrote frames) = [] := by
  induction frames with
  | nil => rfl
  | cons frame frames ih => exact ih

theorem writtenOn_wrote (h : ∀ frame ∈ frames, frame.channel = number) :
    writtenOn number (wrote frames) = frames := by
  induction frames with
  | nil => rfl
  | cons frame frames ih =>
      have hrest := ih fun other hmem => h other (List.mem_cons_of_mem _ hmem)
      have hfirst := h frame (List.mem_cons_self ..)
      simp only [wrote, List.map_cons, writtenOn, List.filterMap_cons, hfirst,
        if_true] at hrest ⊢
      rw [hrest]

theorem queuedOn_queued (messages : List Queued) :
    queuedOn number (messages.map (.queued number)) = messages := by
  induction messages with
  | nil => rfl
  | cons message messages ih => simp_all [queuedOn]

theorem handedOn_queued (messages : List Queued) :
    handedOn number (messages.map (.queued number)) = [] := by
  induction messages with
  | nil => rfl
  | cons message messages ih => exact ih

theorem writtenOn_queued (messages : List Queued) :
    writtenOn number (messages.map (.queued number)) = [] := by
  induction messages with
  | nil => rfl
  | cons message messages ih => exact ih

end Projections

/-- What is queued is what is complete and what the queue still has to complete. -/
theorem Fifo.reassembles (h : Fifo number lane past) :
    ∃ held rest, Fragment.assemble none (fragmentsOn number past) =
        some (held, completedOn number past) ∧
      Fragment.Continues held (lane.queue.map Queued.whole) rest ∧
      (queuedOn number past).map Queued.whole = completedOn number past ++ rest := by
  obtain ⟨held, done, rest, hassemble, hcontinues, hall⟩ := h.delivers
  have hdone : completedOn number past = done := by
    rw [completedOn, hassemble]
    rfl
  rw [hdone]
  exact ⟨held, rest, hassemble, hcontinues, hall⟩

/-- Nothing has been left behind. -/
def Drained (lane : Lane) : Prop := lane.queue = [] ∧ ∀ msgno, lane.held msgno = []

/-- Every message handed over is complete exactly when none is queued or held. -/
theorem Fifo.complete_iff_drained (h : Fifo number lane past) :
    (∀ message : Queued, (handedOn number past).count message ≤
      (completedOn number past).count message.whole) ↔ lane.Drained := by
  obtain ⟨held, rest, -, hcontinues, hall⟩ := h.reassembles
  have hcount : ∀ message : Queued, (queuedOn number past).count message =
      (completedOn number past).count message.whole + rest.count message.whole := by
    intro message
    rw [← List.count_append, ← hall,
      List.count_map_of_injective _ _ Queued.whole_injective]
  constructor
  · intro hcomplete
    have hnone : ∀ message : Queued, rest.count message.whole = 0 ∧
        (lane.held message.msgno).count message = 0 := by
      intro message
      have haccounts := h.accounts message
      have hle := hcomplete message
      have hqueued := hcount message
      omega
    constructor
    · have hrest : rest = [] := by
        refine List.eq_nil_iff_forall_not_mem.mpr fun whole hmem => ?_
        obtain ⟨message, rfl⟩ := Queued.exists_whole whole
        exact List.count_eq_zero.mp (hnone message).1 hmem
      subst hrest
      exact List.map_eq_nil_iff.mp hcontinues.of_pending_nil
    · intro msgno
      refine List.eq_nil_iff_forall_not_mem.mpr fun message hmem => ?_
      have hmsgno := h.keyed msgno message hmem
      subst hmsgno
      exact List.count_eq_zero.mp (hnone message).2 hmem
  · rintro ⟨hqueue, hheld⟩ message
    rw [hqueue, List.map_nil] at hcontinues
    obtain ⟨-, rfl⟩ := hcontinues.of_nil
    have haccounts := h.accounts message
    rw [hheld, hcount] at haccounts
    simp only [List.count_nil, Nat.add_zero] at haccounts
    exact haccounts.le

/-- Messages queued behind the others, and frames written from the whole queue. -/
theorem Fifo.writes {flow : Flow} {messages queue' : List Queued}
    {frames : List DataFrame} {count : Nat}
    (h : Fifo number lane past) (hnumber : flow.number = number)
    (hwrites : flow.Writes (lane.queue ++ messages) frames queue' count)
    (hqueued : queuedOn number actions = messages)
    (hsilent : writtenOn number actions = []) :
    ∃ held done rest,
      Fragment.assemble none (fragmentsOn number (past ++ (actions ++ wrote frames))) =
        some (held, done) ∧
      Fragment.Continues held (queue'.map Queued.whole) rest ∧
      (queuedOn number (past ++ (actions ++ wrote frames))).map Queued.whole =
        done ++ rest := by
  have hwritten : writtenOn number (actions ++ wrote frames) = frames := by
    rw [writtenOn_append, hsilent, List.nil_append]
    exact writtenOn_wrote fun frame hmem => (hwrites.confined frame hmem).trans hnumber
  have hmessages : queuedOn number (actions ++ wrote frames) = messages := by
    rw [queuedOn_append, queuedOn_wrote, List.append_nil, hqueued]
  obtain ⟨held, done, rest, hassemble, hcontinues, hall⟩ := h.delivers
  have hmore := hcontinues.append (messages.map Queued.whole)
  rw [← List.map_append] at hmore
  obtain ⟨held', more, rest', hjoin, hcontinues', hrest⟩ := hwrites.joins hmore
  refine ⟨held', done ++ more, rest', ?_, hcontinues', ?_⟩
  · rw [fragmentsOn, writtenOn_append, List.map_append, hwritten]
    exact Fragment.assemble_append_some hassemble hjoin
  · rw [queuedOn_append, List.map_append, hmessages, hall, List.append_assoc,
      List.append_assoc, hrest]

/-- A step that queues and writes nothing changes nothing that was delivered. -/
theorem Fifo.delivers_of_nil (h : Fifo number lane past)
    (hqueued : queuedOn number actions = [])
    (hwritten : writtenOn number actions = []) :
    ∃ held done rest,
      Fragment.assemble none (fragmentsOn number (past ++ actions)) =
        some (held, done) ∧
      Fragment.Continues held (lane.queue.map Queued.whole) rest ∧
      (queuedOn number (past ++ actions)).map Queued.whole = done ++ rest := by
  simpa [fragmentsOn, hqueued, hwritten] using h.delivers

/-- What a step hands over it queues or holds, and it queues nothing else but what was
held. -/
theorem Fifo.accounts_append (h : Fifo number lane past) {held : UInt32 → List Queued}
    (hbalance : ∀ message : Queued,
      (handedOn number actions).count message + (lane.held message.msgno).count message =
        (queuedOn number actions).count message + (held message.msgno).count message)
    (message : Queued) :
    (handedOn number (past ++ actions)).count message =
      (queuedOn number (past ++ actions)).count message +
        (held message.msgno).count message := by
  have haccounts := h.accounts message
  have hmore := hbalance message
  rw [handedOn_append, queuedOn_append, List.count_append, List.count_append]
  omega

theorem Fifo.accounts_of_nil (h : Fifo number lane past)
    (hhanded : handedOn number actions = [])
    (hqueued : queuedOn number actions = []) (message : Queued) :
    (handedOn number (past ++ actions)).count message =
      (queuedOn number (past ++ actions)).count message +
        (lane.held message.msgno).count message :=
  h.accounts_append (fun _ => by rw [hhanded, hqueued]) message

theorem Fifo.of_same (h : Fifo number lane past)
    (hclosed : lane'.flow = none → lane' = shut) (hqueue : lane'.queue = lane.queue)
    (hheld : lane'.held = lane.held) (hhanded : handedOn number actions = [])
    (hqueued : queuedOn number actions = [])
    (hwritten : writtenOn number actions = []) :
    Fifo number lane' (past ++ actions) where
  closed := hclosed
  delivers := by
    rw [hqueue]
    exact h.delivers_of_nil hqueued hwritten
  accounts := by
    rw [hheld]
    exact h.accounts_of_nil hhanded hqueued
  keyed := by
    rw [hheld]
    exact h.keyed

theorem Counts.silent {flow : Flow} {octets : UInt32}
    (h : Counts lane flow octets actions lane') (number : UInt32) :
    lane'.flow ≠ none ∧ lane'.queue = lane.queue ∧ lane'.held = lane.held ∧
      handedOn number actions = [] ∧ queuedOn number actions = [] ∧
      writtenOn number actions = [] := by
  cases h with
  | charge => exact ⟨nofun, rfl, rfl, rfl, rfl, rfl⟩
  | acknowledge => exact ⟨nofun, rfl, rfl, rfl, rfl, rfl⟩
  | stumble => exact ⟨nofun, rfl, rfl, rfl, rfl, rfl⟩

theorem Fifo.push {flow : Flow} {frames : List DataFrame} {queue' : List Queued}
    {count : Nat} {message : Queued} (h : Fifo number lane past)
    (hplaced : Placed number lane) (hflow : lane.flow = some flow)
    (hwrites : flow.Writes (lane.queue ++ [message]) frames queue' count) :
    Fifo number { lane with flow := some (flow.advance count), queue := queue' }
      (past ++ ([.handed number message, .queued number message] ++ wrote frames)) where
  closed := by simp
  delivers := h.writes (hplaced _ hflow) hwrites (by simp [queuedOn]) rfl
  accounts := h.accounts_append fun other => by
    rw [handedOn_append, handedOn_wrote, queuedOn_append, queuedOn_wrote]
    simp [handedOn, queuedOn]
  keyed := h.keyed

theorem Fifo.hold {message : Queued} (h : Fifo number lane past)
    (hopen : lane.flow.isSome) :
    Fifo number
      { lane with
        held := Function.update lane.held message.msgno
          (lane.held message.msgno ++ [message]) }
      (past ++ [.handed number message]) where
  closed hnone := by
    rw [hnone] at hopen
    cases hopen
  delivers := h.delivers_of_nil rfl rfl
  accounts := h.accounts_append fun other => by
    have hhanded : handedOn number [.handed number message] = [message] := by
      simp [handedOn]
    have hqueued : queuedOn number [.handed number message] = [] := rfl
    rw [hhanded, hqueued]
    dsimp only
    by_cases hmsgno : other.msgno = message.msgno
    · simp only [hmsgno, Function.update_self, List.count_append, List.count_nil]
      omega
    · have hne : message ≠ other := fun heq => hmsgno (by rw [heq])
      rw [Function.update_of_ne hmsgno, List.count_singleton, if_neg (by simpa using hne)]
      simp
  keyed msgno other hmem := by
    dsimp only at hmem
    by_cases hmsgno : msgno = message.msgno
    · subst hmsgno
      rw [Function.update_self] at hmem
      rcases List.mem_append.mp hmem with hmem | hmem
      · exact h.keyed _ other hmem
      · rw [List.mem_singleton.mp hmem]
    · rw [Function.update_of_ne hmsgno] at hmem
      exact h.keyed msgno other hmem

theorem Fifo.release {flow : Flow} {frames : List DataFrame} {queue' : List Queued}
    {count : Nat} {msgno : UInt32} (h : Fifo number lane past)
    (hplaced : Placed number lane) (hflow : lane.flow = some flow)
    (hwrites : flow.Writes (lane.queue ++ lane.held msgno) frames queue' count) :
    Fifo number
      { lane with
        flow := some (flow.advance count)
        queue := queue'
        held := Function.update lane.held msgno [] }
      (past ++ ((lane.held msgno).map (.queued number) ++ wrote frames)) where
  closed := by simp
  delivers := h.writes (hplaced _ hflow) hwrites (queuedOn_queued _) (writtenOn_queued _)
  accounts := h.accounts_append fun other => by
    rw [handedOn_append, handedOn_wrote, handedOn_queued, queuedOn_append, queuedOn_wrote,
      queuedOn_queued, List.append_nil, List.append_nil]
    dsimp only
    by_cases hmsgno : other.msgno = msgno
    · subst hmsgno
      rw [Function.update_self]
      simp only [List.count_nil]
      omega
    · have hzero : (lane.held msgno).count other = 0 :=
        List.count_eq_zero.mpr fun hmem => hmsgno (h.keyed msgno other hmem)
      rw [Function.update_of_ne hmsgno, hzero]
      simp
  keyed other found hmem := by
    dsimp only at hmem
    by_cases hmsgno : other = msgno
    · subst hmsgno
      rw [Function.update_self] at hmem
      cases hmem
    · rw [Function.update_of_ne hmsgno] at hmem
      exact h.keyed other found hmem

theorem Fifo.step (h : Fifo number lane past) (hplaced : Placed number lane)
    (hstep : Step number lane effect actions lane') (hclosed : effect ≠ .closed) :
    Fifo number lane' (past ++ actions) := by
  cases hstep with
  | push hflow hwrites => exact h.push hplaced hflow hwrites
  | hold hopen => exact h.hold hopen
  | release hflow hwrites => exact h.release hplaced hflow hwrites
  | @react flow frames queue' count seq hflow _ hwrites =>
      have hnumber : (flow.applySeq seq).number = number := hplaced flow hflow
      rw [← List.append_nil lane.queue] at hwrites
      have hqueued : queuedOn number [] = [] := rfl
      exact ⟨(by simp), h.writes hnumber hwrites hqueued rfl,
        h.accounts_of_nil handedOn_wrote queuedOn_wrote, h.keyed⟩
  | take _ _ _ _ hcounts =>
      obtain ⟨hopen, hqueue, hheld, hhanded, hqueued, hwritten⟩ :=
        hcounts.silent number
      exact h.of_same (fun hnone => absurd hnone hopen) hqueue hheld hhanded hqueued
        hwritten
  | reject => exact h.of_same (by simp) rfl rfl rfl rfl rfl
  | opened => exact h.of_same (by simp) rfl rfl rfl rfl rfl
  | closed => exact absurd rfl hclosed
  | resize => exact h.of_same (by simp) rfl rfl rfl rfl rfl
  | advertise hflow =>
      refine h.of_same (fun hnone => ?_) rfl rfl rfl rfl rfl
      rw [hflow] at hnone
      cases hnone

theorem Fifo.shut : Fifo number shut [] where
  closed := fun _ => rfl
  delivers := ⟨none, [], [], rfl, .fresh [], rfl⟩
  accounts := fun _ => rfl
  keyed := nofun

theorem Fifo.advance {past' : List Action} {found : Option Effect}
    (h : Fifo number lane past) (hplaced : Placed number lane)
    (hadvance : Advance number found lane past lane' past') :
    Fifo number lane' past' := by
  cases hadvance with
  | step hstep hclosed => exact h.step hplaced hstep hclosed
  | elsewhere hother =>
      exact h.of_same h.closed rfl rfl hother.handedOn hother.queuedOn
        hother.writtenOn
  | close => exact Fifo.shut
  | shut =>
      refine ⟨fun hnone => ?_, Fifo.shut.delivers, fun _ => rfl, nofun⟩
      rw [Lane.shut, hnone]
  | reopen => exact h.of_same h.closed rfl rfl rfl rfl rfl

/-- An open lane writes all it can: its queue starts with a message that stays. -/
def Settled (lane : Lane) : Prop :=
  ∀ flow, lane.flow = some flow → flow.Stopped lane.queue

theorem Counts.settled {flow : Flow} {octets : UInt32}
    (h : Counts lane flow octets actions lane') (hstopped : flow.Stopped lane.queue) :
    lane'.Settled := by
  cases h with
  | charge =>
      rintro _ ⟨⟩
      exact hstopped
  | acknowledge =>
      rintro _ ⟨⟩
      exact hstopped
  | stumble =>
      rintro _ ⟨⟩
      exact hstopped

theorem Settled.step (h : lane.Settled)
    (hstep : Step number lane effect actions lane')
    (hopened : ∀ windowSize, effect ≠ .opened windowSize) : lane'.Settled := by
  cases hstep with
  | push _ hwrites =>
      rintro _ ⟨⟩
      exact hwrites.stops
  | hold => exact h
  | release _ hwrites =>
      rintro _ ⟨⟩
      exact hwrites.stops
  | react _ _ hwrites =>
      rintro _ ⟨⟩
      exact hwrites.stops
  | take hflow _ _ _ hcounts =>
      have hstopped := h _ hflow
      exact hcounts.settled hstopped
  | reject hflow =>
      have hstopped := h _ hflow
      rintro _ ⟨⟩
      exact hstopped
  | opened => exact absurd rfl (hopened _)
  | closed => rintro _ ⟨⟩
  | resize _ hflow =>
      have hstopped := h _ hflow
      rintro _ ⟨⟩
      exact hstopped
  | advertise => exact h

theorem Settled.advance {past' : List Action} {found : Option Effect}
    (h : lane.Settled) (hzero : number = greetingChannel)
    (hadvance : Advance number found lane past lane' past') : lane'.Settled := by
  cases hadvance with
  | step hstep =>
      refine h.step hstep ?_
      rintro windowSize rfl
      cases hstep with
      | opened hne => exact hne hzero
  | elsewhere => exact h
  | close hne => exact absurd hzero hne
  | shut =>
      intro flow _ front hfront
      cases hfront
  | reopen => exact h

end Lane

namespace SessionCore

/-- The account of every channel number. -/
structure Accounted (s : SessionCore) : Prop where
  placed : s.Placed
  fifo : ∀ number, Lane.Fifo number (s.lane number) (s.past number)
  settled : (s.lane greetingChannel).Settled

theorem Accounted.move {s s' : SessionCore} {effect : Effect} (h : s.Accounted)
    (hmove : Move s effect s') : s'.Accounted where
  placed := hmove.placed h.placed
  fifo := fun number => by
    obtain ⟨lane, -, hadvance⟩ := hmove.advance h.placed number
    exact (h.fifo number).advance (h.placed number) hadvance
  settled := by
    obtain ⟨lane, -, hadvance⟩ := hmove.advance h.placed greetingChannel
    exact h.settled.advance rfl hadvance

theorem fresh_accounted (config : Config) : (fresh config).Accounted where
  placed := fresh_placed config
  fifo := fun number => by
    refine ⟨fun hnone => ?_, Lane.Fifo.shut.delivers, fun _ => rfl, nofun⟩
    exact Lane.ext hnone rfl rfl rfl
  settled := fun _ _ _ hfront => by cases hfront

end SessionCore

theorem Trace.Run.accounted {meets : Trace → Act → Prop} {config : Config}
    {first last : Trace} (hfresh : Trace.Fresh config first)
    (hrun : Trace.Run meets first last) : last.core.Accounted := by
  have hfirst : first.core.Accounted :=
    hfresh.path.preserves (fun _ hmove h => h.move hmove)
      (SessionCore.fresh_accounted config)
  refine hrun.preserves (fun hpolled h => ?_) (fun hmove h => h.move hmove) hfirst
  obtain ⟨outbound, events, rfl⟩ := hpolled
  exact ⟨h.placed, h.fifo, h.settled⟩

end Vortice.Proto
