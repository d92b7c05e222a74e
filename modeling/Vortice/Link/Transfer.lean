import Vortice.Link.Wiring
import Vortice.Proto.Arrival

/-!
# Messages that arrive

The frames of a channel that an end has met join up to the messages it has reported there.
With the other end's account of what it has queued and written this makes every channel that
stays a queue: what one end reports is a beginning of what the other has queued.
-/

namespace Vortice.Link

open Vortice.Foundation Vortice.Proto

section Projections

variable (number : UInt32)

def dataOn (frames : List Frame) : List DataFrame :=
  frames.filterMap fun
    | .data frame => if frame.channel = number then some frame else none
    | .seq _ => none

def seqsOn (frames : List Frame) : List SeqFrame :=
  frames.filterMap fun
    | .seq seq => if seq.channel = number then some seq else none
    | .data _ => none

def reportedOn (events : List Event) : List Message :=
  events.filterMap fun
    | .messageReceived channel message => if channel = number then some message else none
    | _ => none

variable {number}

@[simp] theorem dataOn_append (first second : List Frame) :
    dataOn number (first ++ second) = dataOn number first ++ dataOn number second := by
  simp [dataOn]

@[simp] theorem seqsOn_append (first second : List Frame) :
    seqsOn number (first ++ second) = seqsOn number first ++ seqsOn number second := by
  simp [seqsOn]

@[simp] theorem reportedOn_append (first second : List Event) :
    reportedOn number (first ++ second) =
      reportedOn number first ++ reportedOn number second := by
  simp [reportedOn]

theorem dataOn_written (history : List Action) :
    dataOn number (written history) = writtenOn number history := by
  induction history with
  | nil => rfl
  | cons action history ih =>
      rw [← List.singleton_append, written_append, dataOn_append, writtenOn_append, ih]
      congr 1
      cases action with
      | wrote frame => cases frame <;> rfl
      | _ => rfl

theorem seqsOn_written (history : List Action) :
    seqsOn number (written history) = grantsOn number history := by
  induction history with
  | nil => rfl
  | cons action history ih =>
      rw [← List.singleton_append, written_append, seqsOn_append, grantsOn_append, ih]
      congr 1
      cases action with
      | wrote frame => cases frame <;> rfl
      | _ => rfl

theorem dataOn_prefix {first second : List Frame} (h : first <+: second) :
    dataOn number first <+: dataOn number second := by
  obtain ⟨more, rfl⟩ := h
  simp

end Projections

/-! ## What the frames of a channel join up to -/

/-- What a channel holds of a message that is not complete. -/
def heldOn (number : UInt32) (s : SessionCore) : Option (Whole Tag UInt8) :=
  (s.lane number).flow.bind Flow.held

section Held

variable {number : UInt32} {s t : SessionCore}

theorem held_of_step {lane lane' : Lane} {effect : Lane.Effect} {actions : List Action}
    (h : Lane.Step number lane effect actions lane') (hclosed : effect ≠ .closed)
    (hopened : ∀ size, effect = .opened size → lane = Lane.shut)
    (htake : ∀ frame, effect ≠ .take frame ∧ effect ≠ .reject frame) :
    lane'.flow.bind Flow.held = lane.flow.bind Flow.held := by
  cases h with
  | push hflow | release hflow | react hflow | resize _ hflow => rw [hflow]; rfl
  | hold | advertise => rfl
  | opened => rw [hopened _ rfl]; rfl
  | closed => exact absurd rfl hclosed
  | take => exact absurd rfl (htake _).1
  | reject => exact absurd rfl (htake _).2

theorem held_of_path {allowed : SessionCore.Effect → Prop}
    (hpath : Walk SessionCore.Move allowed s t) (habides : s.Abides number)
    (hsteady : Steady number t.history)
    (htake : ∀ {effect}, allowed effect → ∀ frame,
      effect ≠ .lane number (.take frame) ∧ effect ≠ .lane number (.reject frame)) :
    heldOn number t = heldOn number s := by
  refine habides.path (J := fun u => heldOn number u = heldOn number s)
    (fun {u u' effect} hallowed hmove hsteady habides hheld => ?_) hpath hsteady rfl
  obtain ⟨actions, hhistory, ⟨hlane, -, -⟩ | ⟨found, heffect, hclosed, hstep⟩⟩ :=
    hmove.shift habides.accounted.placed hsteady
  · rw [← hheld, heldOn, hlane]
    rfl
  · rw [← hheld]
    refine held_of_step hstep hclosed ?_ fun frame => ?_
    · rintro size rfl
      exact habides.shut hstep (hhistory ▸ hsteady)
    · rcases heffect with rfl | rfl
      · exact ⟨fun heq => (htake hallowed frame).1 (heq ▸ rfl),
          fun heq => (htake hallowed frame).2 (heq ▸ rfl)⟩
      · exact ⟨nofun, nofun⟩

theorem reportedOn_of_books {allowed : Entry → Prop}
    (hpath : Walk SessionCore.Books allowed s t)
    (hspares : ∀ {entry}, allowed entry →
      entry ≠ .polled ∧ ∀ message, entry ≠ .delivered number message) :
    reportedOn number t.events = reportedOn number s.events := by
  refine hpath.preserves (I := fun u => reportedOn number u.events = reportedOn number s.events)
    (fun {u u' entry} hallowed hbooks hreported => ?_) rfl
  rw [← hreported]
  obtain ⟨hpolled, hdelivered⟩ := hspares hallowed
  change reportedOn number u'.ledger.events = reportedOn number u.ledger.events
  unfold SessionCore.Books at hbooks
  generalize u.ledger = l, u'.ledger = l' at hbooks
  have hclose : ∀ (l : Ledger) (other : UInt32),
      reportedOn number (l.close other).events = reportedOn number l.events := by
    intro l other
    unfold Ledger.close
    split
    · simp [Ledger.closeSession, reportedOn]
    · simp [Ledger.closeChannel, reportedOn]
  cases hbooks with
  | @delivered other message =>
      have hother : other ≠ number := by
        rintro rfl
        exact hdelivered message rfl
      simp [Ledger.deliver, reportedOn, hother]
  | @told event hrequest => cases event <;> simp_all [Ledger.report, reportedOn, Event.isRequest]
  | greeted | answered | startRefused | closeRefused => simp [Ledger.report, reportedOn] <;> rfl
  | agreed | closed => exact hclose _ _
  | @accepted frame book =>
      simp only [Ledger.enter, Ledger.setBook]
      split <;> rfl
  | polled => exact absurd rfl hpolled
  | _ => rfl

end Held

namespace End

variable {number : UInt32} {allowed : End → Call → Prop} {far near near' : End}

/-- What has been reported on a channel, in the terms of what is written and queued. -/
def wholesOn (number : UInt32) (e : End) : List (Whole Tag UInt8) :=
  (reportedOn number e.reported).map Message.whole

/-- The messages reported are those that frames met join up to: all of them, unless the end has
failed. -/
structure Joined (number : UInt32) (e : End) : Prop where
  some : ∃ taken held, taken <+: dataOn number e.met ∧
    Fragment.assemble none (taken.map DataFrame.fragment) = some (held, e.wholesOn number)
  all : e.failure = none →
    Fragment.assemble none ((dataOn number e.met).map DataFrame.fragment) =
      Option.some (heldOn number e.core, e.wholesOn number)

theorem Joined.of_same {e e' : End} (h : e.Joined number)
    (hmet : dataOn number e'.met = dataOn number e.met)
    (hreported : reportedOn number e'.reported = reportedOn number e.reported)
    (hheld : heldOn number e'.core = heldOn number e.core)
    (hfailure : e'.failure = none → e.failure = none) : e'.Joined number := by
  constructor
  · rw [wholesOn, hmet, hreported]
    exact h.some
  · intro hnone
    rw [wholesOn, hmet, hreported, hheld]
    exact h.all (hfailure hnone)

theorem reportedOn_call (e : End) (call : Call) :
    reportedOn number (e.call call).reported = reportedOn number e.reported := by
  have hevents : reportedOn number (e.call call).core.events = reportedOn number e.core.events := by
    refine reportedOn_of_books (SessionCore.keeps_call call e.core) fun {entry} hentry => ?_
    constructor
    · rintro rfl
      cases call <;> first | exact hentry.elim | cases hentry
    · rintro message rfl
      cases call <;> first | exact hentry.elim | cases hentry
  rw [reported, reported, reportedOn_append, reportedOn_append, hevents]
  rfl

theorem reported_pollEvent (e : End) : e.pollEvent.reported = e.reported := by
  have hevents : e.pollEvent.core.events = e.core.events.tail :=
    congrArg SessionCore.events (Trace.final_pollEvent e.core)
  rw [reported, hevents, reported]
  change (e.told ++ e.core.events.head?.toList) ++ e.core.events.tail = _
  cases e.core.events <;> simp

/-- What every move and every poll preserves, every step of an end preserves. -/
theorem Step.preserves {I : SessionCore → Prop}
    (hpolled : ∀ {s s' : SessionCore}, Trace.Polled s s' → I s → I s')
    (hmove : ∀ {s s' : SessionCore} {effect : SessionCore.Effect},
      SessionCore.Move s effect s' → I s → I s')
    (hstep : Step allowed far near near') (h : I near.core) : I near'.core := by
  cases hstep with
  | call call _ => exact (SessionCore.path_call call near.core).preserves (fun _ => hmove) h
  | pollTransmit =>
      exact hpolled ⟨[], near.core.events, Trace.act_pollTransmit_core near.trace⟩ h
  | pollEvent =>
      exact hpolled ⟨near.core.outbound, near.core.events.tail,
        Trace.act_pollEvent_core near.trace⟩ h
  | @meet frame =>
      exact (SessionCore.path_handleFrame frame near.core).preserves (fun _ => hmove) h
  | arrive | rest | garble => exact h

theorem Step.abides (hstep : Step allowed far near near') (h : near.core.Abides number) :
    near'.core.Abides number := by
  refine hstep.preserves (fun hpolled h => ?_) (fun hmove h => h.move hmove) h
  obtain ⟨outbound, events, rfl⟩ := hpolled
  exact ⟨⟨h.accounted.placed, h.accounted.fifo, h.accounted.settled⟩, h.begun, h.settled⟩

theorem held_of_takes {s s' : SessionCore} {frame : DataFrame} {complete : Option (Whole Tag UInt8)}
    (h : s.Takes frame s' complete) :
    Fragment.absorb (heldOn frame.channel s) frame.fragment =
      some (heldOn frame.channel s', complete) := by
  obtain ⟨flow, held, hflow, habsorb⟩ := h.joins
  have hheld : heldOn frame.channel s = flow.held := by rw [heldOn, hflow]; rfl
  rw [hheld, habsorb]
  congr 2
  cases h.move with
  | lane _ hstep hlane =>
      rw [heldOn, hlane, Function.update_self]
      cases hstep with
      | take hfound _ _ _ hcounts =>
          cases hflow.symm.trans hfound
          have htaken : (flow.taken frame).held = held := by simp [Flow.taken, habsorb]
          cases hcounts with
          | charge | acknowledge | stumble => exact htaken.symm

theorem Joined.data {frame : DataFrame} {decoder : Decoder} {inbound : Octets}
    (h : near.Joined number) (hfailure : near.failure = none) (hchannel : frame.channel = number)
    (hzero : number ≠ greetingChannel) :
    (near.meet (.data frame) decoder inbound).Joined number := by
  subst hchannel
  have hdata : dataOn frame.channel (near.meet (.data frame) decoder inbound).met =
      dataOn frame.channel near.met ++ [frame] := by
    simp [End.meet, dataOn]
  rcases SessionCore.handleOpen_cases hzero near.core with
    ⟨fault, s', hrun, hevents⟩ | ⟨complete, mid, s', hrun, htakes, hlane, -, -, hevents⟩
  · have hcore : (near.meet (.data frame) decoder inbound).core = s' :=
      Computation.final_of_error hrun
    have hreported : (near.meet (.data frame) decoder inbound).reported = near.reported := by
      rw [reported, hcore, hevents]
      rfl
    constructor
    · obtain ⟨taken, held, hprefix, hassemble⟩ := h.some
      rw [wholesOn, hreported, hdata]
      exact ⟨taken, held, hprefix.trans (List.prefix_append _ _), hassemble⟩
    · intro hnone
      simp [End.meet, Computation.outcome, hrun] at hnone
  · have hcore : (near.meet (.data frame) decoder inbound).core = s' :=
      Computation.final_of_ok hrun
    have hwholes : (near.meet (.data frame) decoder inbound).wholesOn frame.channel =
        near.wholesOn frame.channel ++ (complete.map Message.whole).toList := by
      rw [wholesOn, reported, hcore, hevents, ← List.append_assoc, reportedOn_append,
        List.map_append]
      cases complete <;> simp [reportedOn, wholesOn, reported, End.meet, goOn]
    have hheld : heldOn frame.channel s' = heldOn frame.channel mid := by
      rw [heldOn, hlane]
      rfl
    have hassemble : Fragment.assemble none
        ((dataOn frame.channel (near.meet (.data frame) decoder inbound).met).map
          DataFrame.fragment) = Option.some (heldOn frame.channel s',
            (near.meet (.data frame) decoder inbound).wholesOn frame.channel) := by
      rw [hdata, hwholes, hheld, List.map_append]
      apply Fragment.assemble_append_some (h.all hfailure)
      simp [Fragment.assemble, held_of_takes htakes]
    exact ⟨⟨_, _, List.prefix_rfl, hassemble⟩, fun _ => hcore ▸ hassemble⟩

theorem spares_of_handles {s : SessionCore} {failed : Prop} {frame : Frame} {entry : Entry}
    (hother : ∀ data, frame = .data data → data.channel ≠ number)
    (h : Entry.handles s failed frame entry) :
    entry ≠ .polled ∧ ∀ message, entry ≠ .delivered number message := by
  cases frame with
  | seq =>
      constructor
      · rintro rfl
        exact h
      · rintro message rfl
        exact h
  | data data =>
      constructor
      · rintro rfl
        obtain ⟨_, -, hdispatches⟩ := h
        exact hdispatches
      · rintro message rfl
        exact hother data rfl h.1.symm

theorem Joined.step (h : near.Joined number) (hzero : number ≠ greetingChannel)
    (habides : near.core.Abides number) (hsteady : Steady number near'.core.history)
    (hstep : Step allowed far near near') : near'.Joined number := by
  cases hstep with
  | call call _ =>
      refine h.of_same rfl (reportedOn_call near call) ?_ id
      refine held_of_path (SessionCore.path_call call near.core) habides hsteady ?_
      intro effect heffect frame
      constructor
      · rintro rfl
        rcases SessionCore.ofCaller_of_call heffect with hcaller | ⟨_, hsize, -⟩
        · exact hcaller
        · cases hsize
      · rintro rfl
        rcases SessionCore.ofCaller_of_call heffect with hcaller | ⟨_, hsize, -⟩
        · exact hcaller
        · cases hsize
  | pollTransmit =>
      have hcore := Trace.act_pollTransmit_core near.trace
      refine h.of_same rfl ?_ ?_ id
      · rw [reported]
        change reportedOn number (near.told ++ (near.trace.act .pollTransmit).core.events) = _
        rw [hcore]
        rfl
      · change heldOn number (near.trace.act .pollTransmit).core = _
        rw [hcore]
        rfl
  | pollEvent =>
      refine h.of_same rfl (congrArg _ (reported_pollEvent near)) ?_ id
      change heldOn number (near.trace.act .pollEvent).core = _
      rw [Trace.act_pollEvent_core]
      rfl
  | @meet frame decoder inbound hfailure hdecode =>
      have hspares : (∀ data, frame = .data data → data.channel ≠ number) →
          (near.meet frame decoder inbound).Joined number := by
        intro hother
        refine h.of_same ?_ ?_ ?_ fun _ => hfailure
        · cases frame with
          | data data => simp [End.meet, dataOn, hother data rfl]
          | seq seq => simp [End.meet, dataOn]
        · rw [reported, reported, reportedOn_append, reportedOn_append]
          refine congrArg _ (reportedOn_of_books (SessionCore.keeps_handleFrame frame near.core) ?_)
          intro entry hentry
          exact spares_of_handles hother hentry
        · refine held_of_path (SessionCore.does_handleFrame frame near.core) habides hsteady ?_
          intro effect heffect data
          constructor
          · rintro rfl
            exact hother data heffect.1 heffect.2.symm
          · rintro rfl
            exact hother data heffect.1 heffect.2.symm
      cases frame with
      | data data =>
          by_cases hchannel : data.channel = number
          · exact h.data hfailure hchannel hzero
          · exact hspares fun found heq => by
              cases heq
              exact hchannel
      | seq =>
          apply hspares
          rintro _ ⟨⟩
  | arrive _ hfailure => exact h.of_same rfl rfl rfl id
  | rest hfailure => exact h.of_same rfl rfl rfl id
  | garble hfailure =>
      refine h.of_same rfl rfl rfl ?_
      rintro ⟨⟩

/-- An end reads what the other transmits, and has reported what it met. -/
structure Linked (number : UInt32) (near far : End) : Prop where
  synced : Synced far near
  abides : near.core.Abides number
  joined : number ≠ greetingChannel → Steady number near.core.history → near.Joined number

theorem linked_new {near far : Session} {nearConfig farConfig : Config}
    (hnear : Session.new nearConfig = .ok near) (hfar : Session.new farConfig = .ok far) :
    Linked number (.new near) (.new far) := by
  have hfresh : Trace.Fresh nearConfig ⟨near, []⟩ := .new hnear
  refine ⟨synced_new hnear hfar, ?_, fun hzero hsteady => ?_⟩
  · exact hfresh.path.preserves (fun _ hmove h => h.move hmove) (.fresh nearConfig)
  · have hheld : heldOn number near.core = heldOn number (.fresh nearConfig) := by
      refine held_of_path hfresh.path (.fresh nearConfig) hsteady fun {effect} heffect frame => ?_
      constructor
      · rintro rfl
        exact heffect
      · rintro rfl
        exact heffect
    have hreported : reportedOn number near.core.events = [] := by
      refine reportedOn_of_books hfresh.books fun {entry} hentry => ?_
      constructor
      · rintro rfl
        exact hentry
      · rintro message rfl
        exact hentry
    have hassemble : Fragment.assemble none ([].map DataFrame.fragment) =
        Option.some (heldOn number (End.new near).core, (End.new near).wholesOn number) := by
      have hnone : heldOn number (End.new near).core = none := by
        change heldOn number near.core = none
        rw [hheld]
        simp [heldOn, SessionCore.lane, SessionCore.channelAt, SessionCore.fresh, hzero]
      have hwholes : (End.new near).wholesOn number = [] := by
        change (reportedOn number near.core.events).map _ = []
        rw [hreported]
        rfl
      rw [hnone, hwholes]
      rfl
    exact ⟨⟨[], _, List.prefix_rfl, hassemble⟩, fun _ => hassemble⟩

theorem Linked.reader (h : Linked number near far) (hstep : Step allowed far near near') :
    Linked number near' far where
  synced := h.synced.step hstep
  abides := hstep.abides h.abides
  joined hzero hsteady :=
    (h.joined hzero (hsteady.of_prefix hstep.grows.history)).step hzero h.abides hsteady hstep

theorem Linked.sender (h : Linked number far near) (hstep : Step allowed far near near') :
    Linked number far near' :=
  { h with synced := h.synced.sender hstep.grows }

/-- What an end has reported on a channel is a beginning of what the other has queued there. -/
def InOrder (number : UInt32) (near far : End) : Prop :=
  (reportedOn number near.reported).map Message.whole <+:
    (queuedOn number far.core.history).map Queued.whole

theorem Linked.inOrder (h : Linked number near far) (hfar : far.core.Abides number)
    (hzero : number ≠ greetingChannel) (hsteady : Steady number near.core.history)
    (hsteady' : Steady number far.core.history) : InOrder number near far := by
  obtain ⟨taken, held, htaken, hjoined⟩ := (h.joined hzero hsteady).some
  obtain ⟨_, rest, hwritten, -, hqueued⟩ := (hfar.fifo hsteady').reassembles
  have hmet : dataOn number near.met <+: dataOn number (written far.core.history) :=
    dataOn_prefix h.synced.met
  rw [dataOn_written] at hmet
  have hprefix : taken <+: writtenOn number far.core.history := htaken.trans hmet
  obtain ⟨more, hmore⟩ := hprefix
  rw [fragmentsOn, ← hmore, List.map_append] at hwritten
  obtain ⟨middle, done, later, hdone, -, hcompleted⟩ := Fragment.assemble_split hwritten
  rw [hjoined] at hdone
  cases hdone
  rw [InOrder, hqueued, hcompleted, List.append_assoc]
  exact List.prefix_append _ _

end End

theorem Pair.meets_all (pair : Pair) (label : Bool × Act) :
    pair.meets (fun _ _ => True) label := by
  obtain ⟨side, act⟩ := label
  cases side <;> cases act <;> trivial

/-- Whatever two ends do, and however what they transmit is cut and delayed: on a channel that
neither of them drops, each reports a beginning of what the other has queued, in that order,
nothing twice and nothing else. -/
theorem reports_in_order {near far : Session} {nearConfig farConfig : Config} {number : UInt32}
    {last : Pair} (hnear : Session.new nearConfig = .ok near)
    (hfar : Session.new farConfig = .ok far) (hzero : number ≠ greetingChannel)
    (hrun : Run Pair.act (fun _ _ => True) (Pair.new near far) last)
    (hsteady : Steady number last.near.core.history)
    (hsteady' : Steady number last.far.core.history) :
    End.InOrder number last.near last.far ∧ End.InOrder number last.far last.near := by
  have hlinked : End.Linked number last.near last.far ∧ End.Linked number last.far last.near := by
    refine Pair.preserves (I := fun near far => End.Linked number near far ∧
      End.Linked number far near)
      And.symm (fun hstep h => ⟨h.1.reader hstep, h.2.sender hstep⟩)
      (hrun.mono fun _ => Pair.meets_all _ _) ?_
    exact ⟨End.linked_new hnear hfar, End.linked_new hfar hnear⟩
  exact ⟨hlinked.1.inOrder hlinked.2.abides hzero hsteady hsteady',
    hlinked.2.inOrder hlinked.1.abides hzero hsteady' hsteady⟩

/-- Two ends greet each other, open a channel, widen a window and exchange a message. -/
def conversation : List (Bool × Act) :=
  [(true, .pollTransmit), (false, .pollTransmit), (true, .arrive 1000), (false, .arrive 1000),
    (true, .call (.startChannel (.new "urn:x"))), (true, .pollTransmit), (false, .arrive 30),
    (false, .arrive 1000), (false, .call (.acceptStart 1 0 (.new "urn:x"))),
    (false, .call (.setWindowSize 1 65536)), (false, .pollTransmit), (true, .arrive 1000),
    (true, .call (.sendMsg 1 [120])), (true, .pollTransmit), (false, .arrive 1000)]

/-- The sessions of a conversation, and a check of how it ends. -/
def afterConversation (acts : List (Bool × Act)) (check : Session → Session → Pair → Bool) :
    Bool :=
  (Session.new (Config.new .initiator)).toOption.any fun near =>
    (Session.new (Config.new .listener)).toOption.any fun far =>
      check near far (acts.foldl Pair.act (Pair.new near far))

theorem exists_conversation {acts : List (Bool × Act)} {check : Session → Session → Pair → Bool}
    (h : afterConversation acts check) :
    ∃ near far last, Session.new (Config.new .initiator) = .ok near ∧
      Session.new (Config.new .listener) = .ok far ∧
      last = acts.foldl Pair.act (Pair.new near far) ∧ check near far last := by
  obtain ⟨near, hnear⟩ := Session.new_ok (Config.new .initiator)
  obtain ⟨far, hfar⟩ := Session.new_ok (Config.new .listener)
  rw [afterConversation, hnear, hfar] at h
  exact ⟨near, far, _, hnear, hfar, rfl, h⟩

/-- The listener reports the message that the initiator sends. -/
theorem listener_reports_message :
    ∃ near far last, Session.new (Config.new .initiator) = .ok near ∧
      Session.new (Config.new .listener) = .ok far ∧
      last = conversation.foldl Pair.act (Pair.new near far) ∧
      (reportedOn 1 last.far.reported).map Message.payload = [[120]] ∧
      End.InOrder 1 last.far last.near := by
  have hrun : afterConversation conversation fun _ _ last =>
      Steady 1 last.near.core.history ∧ Steady 1 last.far.core.history ∧
        (reportedOn 1 last.far.reported).map Message.payload = [[120]] := by
    decide +kernel
  obtain ⟨near, far, last, hnear, hfar, hlast, hcheck⟩ := exists_conversation hrun
  obtain ⟨hsteady, hsteady', hreported⟩ := of_decide_eq_true hcheck
  refine ⟨near, far, last, hnear, hfar, hlast, hreported, ?_⟩
  subst hlast
  exact (reports_in_order hnear hfar (by decide) (Run.of_list _ _ _) hsteady hsteady').2

end Vortice.Link
