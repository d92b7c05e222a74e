import Vortice.Foundation.Credit
import Vortice.Link.Transfer

/-!
# Windows between two ends

The counters of a channel's sender and of its receiver, with the data frames and the `SEQ`
frames on their way between them, are a credit: the sender stays within what the receiver
takes, and has room again once everything has arrived.
-/

namespace Vortice.Link

open Vortice.Foundation Vortice.Proto

/-- A `SEQ` frame carries a grant. -/
def Carries (seq : SeqFrame) (grant : Nat × Nat) : Prop :=
  seq.ackno = .ofNat grant.1 ∧ seq.window = .ofNat grant.2

/-- What the two ends of a channel have counted, and what is on its way between them.  The
sender has met the frames `heard`, the receiver the frames `met`. -/
structure Metered (number : UInt32) (sender receiver : SessionCore) (heard met : List Frame)
    (c : Credit) : Prop where
  sound : c.Sound 4096 2048
  window_le : c.window ≤ maxFrameSize.toNat
  sends : (sender.lane number).Sends c.sent c.base c.size
  takes : (receiver.lane number).Takes receiver.config.windowSize c.received c.acked c.window
  flight : ∃ frames, writtenOn number sender.history = dataOn number met ++ frames ∧
    Spans c.received frames c.sent
  granted : ∃ seqs, grantsOn number receiver.history = seqsOn number heard ++ seqs ∧
    List.Forall₂ Carries seqs c.grants
  /-- A channel is granted nothing more before it is used, but for channel 0. -/
  quiet : number ≠ greetingChannel → c.received = 0 → c.grants = []

namespace Metered

variable {number : UInt32} {s s' r r' : SessionCore} {heard met : List Frame} {c : Credit}
variable {effect : SessionCore.Effect}

theorem bounds (h : Metered number s r heard met c) :
    c.base ≤ c.sent ∧ c.sent ≤ c.base + c.size ∧ c.size < 2 ^ 32 := by
  obtain ⟨hbase, hsize⟩ := h.sound.bounds
  have hwindow := h.window_le
  rw [toNat_maxFrameSize] at hwindow
  exact ⟨hbase, h.sound.sent_le, by omega⟩

/-! ## The sender -/

theorem flight_append (h : Metered number s r heard met c) {actions : List Action}
    (hhistory : s'.history = s.history ++ actions) {sent : Nat}
    (hspans : Spans c.sent (writtenOn number actions) sent) :
    ∃ frames, writtenOn number s'.history = dataOn number met ++ frames ∧
      Spans c.received frames sent := by
  obtain ⟨frames, hwritten, hflight⟩ := h.flight
  refine ⟨frames ++ writtenOn number actions, ?_, hflight.append hspans⟩
  rw [hhistory, writtenOn_append, hwritten, List.append_assoc]

theorem sender_move (h : Metered number s r heard met c) (hmove : SessionCore.Move s effect s')
    (habides : s.Abides number) (hsteady : Steady number s'.history)
    (hreact : ∀ seq, effect ≠ .lane number (.react seq)) :
    ∃ c', Metered number s' r heard met c' := by
  obtain ⟨actions, hhistory, ⟨hlane, hwritten, -⟩ | ⟨found, heffect, hclosed, hstep⟩⟩ :=
    hmove.shift habides.accounted.placed hsteady
  · refine ⟨c, h.sound, h.window_le, hlane ▸ h.sends, h.takes, ?_, h.granted, h.quiet⟩
    rw [hhistory, writtenOn_append, hwritten, List.append_nil]
    exact h.flight
  · obtain ⟨hbase, hsent, hsize⟩ := h.bounds
    have hextends : Lane.Extends number (s'.lane number) actions c.sent c.base c.size := by
      refine hstep.sends (habides.accounted.placed number) hclosed ?_ ?_ h.sends hbase hsent hsize
      · rintro size rfl
        exact habides.shut hstep (hhistory ▸ hsteady)
      · rintro seq rfl
        rcases heffect with rfl | ⟨⟨⟩⟩
        exact hreact seq rfl
    obtain ⟨count, hsends, hspans, hroom⟩ := hextends
    exact ⟨c.emit count, h.sound.emit hroom, h.window_le, hsends, h.takes,
      h.flight_append hhistory hspans, h.granted, h.quiet⟩

theorem sender_path {allowed : SessionCore.Effect → Prop} (h : Metered number s r heard met c)
    (hpath : Walk SessionCore.Move allowed s s') (habides : s.Abides number)
    (hsteady : Steady number s'.history)
    (hreact : ∀ {effect}, allowed effect → ∀ seq, effect ≠ .lane number (.react seq)) :
    ∃ c', Metered number s' r heard met c' := by
  refine habides.path (J := fun u => ∃ c, Metered number u r heard met c) ?_ hpath hsteady ⟨c, h⟩
  rintro u u' effect hallowed hmove hsteady habides ⟨c, h⟩
  exact h.sender_move hmove habides hsteady (hreact hallowed)

/-- Another frame than a `SEQ` of the channel changes nothing that the sender counts. -/
theorem hear (h : Metered number s r heard met c) {frame : Frame}
    (hframe : seqsOn number [frame] = []) : Metered number s r (heard ++ [frame]) met c := by
  refine { h with granted := ?_ }
  rw [seqsOn_append, hframe, List.append_nil]
  exact h.granted

/-- The next `SEQ` frame that the sender meets carries the first grant on its way. -/
theorem next_grant (h : Metered number s r heard met c) {seq : SeqFrame}
    (hchannel : seq.channel = number)
    (hheard : heard ++ [.seq seq] <+: written r.history) :
    ∃ base size grants, c.grants = (base, size) :: grants ∧ Carries seq (base, size) ∧
      ∃ seqs, grantsOn number r.history = seqsOn number (heard ++ [.seq seq]) ++ seqs ∧
        List.Forall₂ Carries seqs grants := by
  obtain ⟨seqs, hgranted, hcarries⟩ := h.granted
  obtain ⟨more, hmore⟩ := hheard
  have hseq : seqsOn number [.seq seq] = [seq] := by simp [seqsOn, hchannel]
  have hall : seqsOn number heard ++ seqs =
      seqsOn number heard ++ (seq :: seqsOn number more) := by
    rw [← hgranted, ← seqsOn_written, ← hmore, seqsOn_append, seqsOn_append, hseq]
    simp
  rw [List.append_cancel_left_eq] at hall
  subst hall
  generalize hgrants : c.grants = grants at hcarries
  cases hcarries with
  | @cons _ grant _ grants hfirst hrest =>
      refine ⟨grant.1, grant.2, grants, rfl, hfirst, seqsOn number more, ?_, hrest⟩
      rw [hgranted, seqsOn_append, hseq]
      simp

theorem sender_react (h : Metered number s r heard met c) {seq : SeqFrame}
    (hmove : SessionCore.Move s (.lane number (.react seq)) s') (hplaced : s.Placed)
    (hchannel : seq.channel = number) (hheard : heard ++ [.seq seq] <+: written r.history) :
    ∃ c', Metered number s' r (heard ++ [.seq seq]) met c' := by
  obtain ⟨base, size, grants, hgrants, ⟨hackno, hwindow⟩, hgranted⟩ := h.next_grant hchannel hheard
  have hsound := h.sound.grant hgrants
  obtain ⟨hbase, hsize⟩ := hsound.bounds
  have hwide := h.window_le
  rw [toNat_maxFrameSize] at hwide
  cases hmove with
  | lane _ hstep hlane hlogs =>
      have hextends : Lane.Extends number _ _ c.sent base size :=
        hstep.reacts (hplaced number) h.sends hackno hwindow hbase hsound.sent_le
          (Nat.lt_of_le_of_lt hsize (Nat.lt_of_le_of_lt hwide (by norm_num)))
      obtain ⟨count, hsends, hspans, hroom⟩ := hextends
      refine ⟨(c.grant base size grants).emit count, hsound.emit hroom, h.window_le, ?_, h.takes,
        h.flight_append hlogs.history hspans, hgranted, fun hzero hreceived => ?_⟩
      · rw [hlane, Function.update_self]
        exact hsends
      · have hnone := h.quiet hzero hreceived
        rw [hgrants] at hnone
        cases hnone

theorem not_granted (h : Metered number s r heard met c) {seq : SeqFrame}
    (hflow : (s.lane number).flow = none) (hzero : number ≠ greetingChannel)
    (hchannel : seq.channel = number) :
    ¬ heard ++ [.seq seq] <+: written r.history := by
  intro hheard
  obtain ⟨base, size, grants, hgrants, -⟩ := h.next_grant hchannel hheard
  have hsent := (h.sends.fresh hflow).1
  have hreceived := h.sound.received_le
  have hnone := h.quiet hzero (by omega)
  rw [hgrants] at hnone
  cases hnone

/-! ## The receiver -/

/-- A move that neither takes frames of the channel nor concerns its window. -/
theorem receiver_move (h : Metered number s r heard met c) (hmove : SessionCore.Move r effect r')
    (habides : r.Abides number) (hsteady : Steady number r'.history)
    (hspares : ∀ found, effect = .lane number found → found.spares) :
    Metered number s r' heard met c := by
  obtain ⟨hconfig, -⟩ := hmove.logs.choose_spec
  obtain ⟨actions, hhistory, ⟨hlane, -, hgrants⟩ | ⟨found, heffect, hclosed, hstep⟩⟩ :=
    hmove.shift habides.accounted.placed hsteady
  · refine { h with takes := ?_, granted := ?_ }
    · rw [hlane, hconfig]
      exact h.takes
    · rw [hhistory, grantsOn_append, hgrants, List.append_nil]
      exact h.granted
  · have hafter : (r'.lane number).Takes r.config.windowSize c.received c.acked c.window ∧
        grantsOn number actions = [] := by
      refine hstep.takes ?_ hclosed (fun size hopened => ⟨?_, ?_⟩) h.takes
      · rcases heffect with heffect | rfl
        · exact hspares found heffect
        · trivial
      · subst hopened
        exact habides.shut hstep (hhistory ▸ hsteady)
      · subst hopened
        rcases heffect with rfl | heffect
        · cases hmove with
          | lane hopen => exact absurd rfl (hopen size)
        · exact Lane.Effect.opened.inj heffect
    refine { h with takes := ?_, granted := ?_ }
    · rw [hconfig]
      exact hafter.1
    · rw [hhistory, grantsOn_append, hafter.2, List.append_nil]
      exact h.granted

theorem receiver_path {allowed : SessionCore.Effect → Prop} (h : Metered number s r heard met c)
    (hpath : Walk SessionCore.Move allowed r r') (habides : r.Abides number)
    (hsteady : Steady number r'.history)
    (hspares : ∀ {effect}, allowed effect → ∀ found, effect = .lane number found → found.spares) :
    Metered number s r' heard met c := by
  refine habides.path (J := fun u => Metered number s u heard met c) ?_ hpath hsteady h
  intro u u' effect hallowed hmove hsteady habides h
  exact h.receiver_move hmove habides hsteady (hspares hallowed)

/-- Another frame than a data frame of the channel changes nothing that the receiver counts. -/
theorem meet (h : Metered number s r heard met c) {frame : Frame}
    (hframe : dataOn number [frame] = []) : Metered number s r heard (met ++ [frame]) c := by
  refine { h with flight := ?_ }
  rw [dataOn_append, hframe, List.append_nil]
  exact h.flight

theorem receiver_resize (h : Metered number s r heard met c) {size : UInt32}
    (hmove : SessionCore.Move r (.lane number (.resize size)) r') (hwide : c.window ≤ size.toNat)
    (hsize : size ≤ maxFrameSize) : Metered number s r' heard met (c.widen size.toNat) := by
  cases hmove with
  | lane _ hstep hlane hlogs =>
      obtain ⟨htakes, hgrants⟩ := hstep.resizes h.takes
      refine ⟨h.sound.widen hwide, UInt32.le_iff_toNat_le.mp hsize, h.sends, ?_, h.flight, ?_,
        h.quiet⟩
      · rw [hlane, Function.update_self, hlogs.config]
        exact htakes
      · rw [hlogs.history, grantsOn_append, hgrants, List.append_nil]
        exact h.granted

theorem granted_append (h : Metered number s r heard met c) {actions : List Action}
    (hhistory : r'.history = r.history ++ actions) {seq : SeqFrame} {grant : Nat × Nat}
    (hgrants : grantsOn number actions = [seq]) (hcarries : Carries seq grant) :
    ∃ seqs, grantsOn number r'.history = seqsOn number heard ++ seqs ∧
      List.Forall₂ Carries seqs (c.grants ++ [grant]) := by
  obtain ⟨seqs, hgranted, hall⟩ := h.granted
  refine ⟨seqs ++ [seq], ?_, ?_⟩
  · rw [hhistory, grantsOn_append, hgranted, hgrants, List.append_assoc]
  · exact List.rel_append hall (.cons hcarries .nil)

/-- Only channel 0 is granted more than the initial window before it is used. -/
theorem receiver_advertise (h : Metered number s r heard met c) {seq : SeqFrame}
    (hmove : SessionCore.Move r (.lane number (.advertise seq)) r')
    (hzero : number = greetingChannel) : Metered number s r' heard met c.advertise := by
  cases hmove with
  | lane _ hstep hlane hlogs =>
      obtain ⟨hsame, hgrants, hcarries⟩ := hstep.advertises h.takes
      refine ⟨h.sound.advertise, h.window_le, h.sends, ?_, h.flight,
        h.granted_append hlogs.history hgrants hcarries, fun hne => absurd hzero hne⟩
      rw [hlane, Function.update_self, hlogs.config, hsame]
      exact h.takes

theorem next_frame (h : Metered number s r heard met c) {frame : DataFrame}
    (hchannel : frame.channel = number) (hmet : met ++ [.data frame] <+: written s.history) :
    frame.seqno = .ofNat c.received ∧ c.received + frame.payload.length ≤ c.sent ∧
      ∃ frames, writtenOn number s.history = dataOn number (met ++ [.data frame]) ++ frames ∧
        Spans (c.received + frame.payload.length) frames c.sent := by
  obtain ⟨frames, hwritten, hspans⟩ := h.flight
  obtain ⟨more, hmore⟩ := hmet
  have hdata : dataOn number [.data frame] = [frame] := by simp [dataOn, hchannel]
  have hall : dataOn number met ++ frames =
      dataOn number met ++ (frame :: dataOn number more) := by
    rw [← hwritten, ← dataOn_written, ← hmore, dataOn_append, dataOn_append, hdata]
    simp
  rw [List.append_cancel_left_eq] at hall
  subst hall
  obtain ⟨hseqno, hrest⟩ := hspans
  refine ⟨hseqno, hrest.le, dataOn number more, ?_, hrest⟩
  rw [hwritten, dataOn_append, hdata]
  simp

theorem receiver_take (h : Metered number s r heard met c) {frame : DataFrame}
    (hmove : SessionCore.Move r (.lane number (.take frame)) r') (hplaced : r.Placed)
    (hchannel : frame.channel = number) (hmet : met ++ [.data frame] <+: written s.history) :
    ∃ c', Metered number s r' heard (met ++ [.data frame]) c' := by
  obtain ⟨-, hsent, hflight⟩ := h.next_frame hchannel hmet
  have hwide : 4096 ≤ c.window := h.sound.initial_le.trans h.sound.bounds.2
  cases hmove with
  | lane _ hstep hlane hlogs =>
      rcases hstep.taken (hplaced number) h.takes h.sound.acked_le h.sound.unacked_lt hwide
          h.window_le with
        ⟨hlt, htakes, hgrants⟩ | ⟨hge, htakes, seq, hgrants, hcarries⟩
      · refine ⟨c.receive frame.payload.length, h.sound.receive hsent hlt, h.window_le, h.sends,
          ?_, hflight, ?_, fun hzero hreceived => h.quiet hzero ?_⟩
        · rw [hlane, Function.update_self, hlogs.config]
          exact htakes
        · rw [hlogs.history, grantsOn_append, hgrants, List.append_nil]
          exact h.granted
        · have hnone : c.received + frame.payload.length = 0 := hreceived
          omega
      · refine ⟨(c.receive frame.payload.length).acknowledge,
          h.sound.receive_acknowledge hsent (by norm_num), h.window_le, h.sends, ?_, hflight,
          h.granted_append hlogs.history hgrants hcarries, fun _ hreceived => ?_⟩
        · rw [hlane, Function.update_self, hlogs.config]
          exact htakes
        · have hnone : c.received + frame.payload.length = 0 := hreceived
          omega

/-! ## At the start -/

theorem fresh {senderConfig receiverConfig : Config}
    (hwide : 4096 ≤ receiverConfig.windowSize.toNat)
    (hsize : receiverConfig.windowSize ≤ maxFrameSize) :
    Metered number (.fresh senderConfig) (.fresh receiverConfig) [] []
      (.start 4096 receiverConfig.windowSize.toNat) where
  sound := .start (by norm_num) hwide
  window_le := UInt32.le_iff_toNat_le.mp hsize
  sends := by
    by_cases hzero : number = greetingChannel
    · subst hzero
      constructor
      · intro flow hflow
        cases hflow
        exact ⟨rfl, rfl⟩
      · intro hnone
        cases hnone
    · constructor
      · intro flow hflow
        simp [SessionCore.lane, SessionCore.channelAt, SessionCore.fresh, hzero] at hflow
      · exact fun _ => ⟨rfl, rfl, rfl⟩
  takes := by
    by_cases hzero : number = greetingChannel
    · subst hzero
      constructor
      · intro flow hflow
        cases hflow
        refine ⟨rfl, ?_⟩
        change (⟨0, receiverConfig.windowSize⟩ : Window) =
          ⟨.ofNat 0, .ofNat receiverConfig.windowSize.toNat⟩
        rw [UInt32.ofNat_toNat]
        rfl
      · rfl
      · intro hnone
        cases hnone
    · constructor
      · intro flow hflow
        simp [SessionCore.lane, SessionCore.channelAt, SessionCore.fresh, hzero] at hflow
      · rfl
      · exact fun _ => ⟨rfl, rfl, rfl⟩
  flight := ⟨[], rfl, rfl⟩
  granted := ⟨[], rfl, .nil⟩
  quiet _ _ := rfl

theorem receiver_greets {config : Config} (h : Metered number s (.fresh config) heard met c)
    (hpath : Walk SessionCore.Move SessionCore.Effect.greets (.fresh config) r)
    (hsteady : Steady number r.history) : ∃ c', Metered number s r heard met c' := by
  refine SessionCore.Abides.path (J := fun u => ∃ c, Metered number s u heard met c) ?_ hpath
    (.fresh config) hsteady ⟨c, h⟩
  rintro u u' effect hallowed hmove hsteady habides ⟨c, h⟩
  by_cases hadvertise : ∃ seq, effect = .lane number (.advertise seq)
  · obtain ⟨seq, rfl⟩ := hadvertise
    exact ⟨_, h.receiver_advertise hmove hallowed⟩
  · refine ⟨c, h.receiver_move hmove habides hsteady ?_⟩
    rintro found rfl
    cases found with
    | advertise seq => exact hadvertise ⟨seq, rfl⟩
    | _ => trivial

end Metered

namespace End

variable {number : UInt32} {far near near' : End}

/-- The window of the channel is set to no less than it is, and to what can be advertised. -/
def Widens (number : UInt32) (e : End) (call : Call) : Prop :=
  ∀ size, call = .setWindowSize number size → size ≤ maxFrameSize ∧
    ∀ channel, e.core.channels number = some channel → channel.recvWindow.size ≤ size

/-- As long as an end reads, what both count of the channel fits together. -/
def Metering (number : UInt32) (far near : End) : Prop :=
  near.failure = none → ∃ c, Metered number far.core near.core far.met near.met c

theorem metering_new {far near : Session} {farConfig nearConfig : Config}
    (hfar : Session.new farConfig = .ok far) (hnear : Session.new nearConfig = .ok near)
    (hwide : 4096 ≤ nearConfig.windowSize.toNat) (hsize : nearConfig.windowSize ≤ maxFrameSize)
    (hsteady : Steady number far.core.history) (hsteady' : Steady number near.core.history) :
    Metering number (.new far) (.new near) := by
  intro _
  have hsender : Trace.Fresh farConfig ⟨far, []⟩ := .new hfar
  have hreceiver : Trace.Fresh nearConfig ⟨near, []⟩ := .new hnear
  obtain ⟨c, hstart⟩ : ∃ c, Metered number (.fresh farConfig) near.core [] [] c :=
    (Metered.fresh hwide hsize).receiver_greets hreceiver.path hsteady'
  refine hstart.sender_path hsender.path (.fresh farConfig) hsteady fun {effect} heffect seq => ?_
  rintro rfl
  exact heffect

theorem Metering.called (h : Metering number far near) (habides : near.core.Abides number)
    {call : Call} (hwidens : near.Widens number call)
    (hsteady : Steady number (near.call call).core.history) :
    Metering number far (near.call call) := by
  intro hfailure
  obtain ⟨c, hc⟩ := h hfailure
  have hpath := SessionCore.path_call call near.core
  by_cases hresize : ∃ size, call = .setWindowSize number size
  · obtain ⟨size, rfl⟩ := hresize
    obtain ⟨hsize, hnow⟩ := hwidens size rfl
    have hnarrow : number ≠ greetingChannel → ∀ flow, (near.core.lane number).flow = some flow →
        flow.recvWindow.size ≤ size := by
      intro hzero flow hflow
      simp only [SessionCore.lane, SessionCore.channelAt, hzero, if_false,
        Option.map_eq_some_iff] at hflow
      obtain ⟨channel, hchannel, rfl⟩ := hflow
      exact hnow channel hchannel
    refine (habides.path (J := fun u => (∃ c, Metered number far.core u far.met near.met c) ∧
      (number ≠ greetingChannel → ∀ flow, (u.lane number).flow = some flow →
        flow.recvWindow.size ≤ size)) ?_ hpath hsteady ⟨⟨c, hc⟩, hnarrow⟩).1
    rintro u u' effect (rfl | rfl) hmove hsteady habides ⟨⟨c, hc⟩, hnarrow⟩
    · refine ⟨⟨c, hc.receiver_move hmove habides hsteady (by rintro _ ⟨⟩)⟩, ?_⟩
      cases hmove with
      | idle hlane => rwa [hlane]
    · have hwide : c.window ≤ size.toNat := by
        cases hmove with
        | lane _ hstep =>
            cases hstep with
            | resize hzero hflow =>
                have hle := UInt32.le_iff_toNat_le.mp (hnarrow hzero _ hflow)
                have hmax := hc.window_le
                rw [toNat_maxFrameSize] at hmax
                rw [(hc.takes.counts _ hflow).2, UInt32.toNat_ofNat',
                  Nat.mod_eq_of_lt (by omega)] at hle
                exact hle
      refine ⟨⟨_, hc.receiver_resize hmove hwide hsize⟩, ?_⟩
      cases hmove with
      | lane _ hstep hlane =>
          rw [hlane, Function.update_self]
          cases hstep with
          | resize =>
              rintro - _ ⟨⟩
              exact UInt32.le_refl _
  · refine ⟨c, hc.receiver_path hpath habides hsteady ?_⟩
    rintro effect heffect found rfl
    rcases SessionCore.ofCaller_of_call heffect with hcaller | ⟨size, rfl, rfl⟩
    · cases found <;> trivial
    · exact absurd ⟨size, rfl⟩ hresize

theorem Metering.meet (h : Metering number far near) (hlinked : Linked number near far)
    {frame : Frame} {decoder : Decoder} {inbound : Octets} (hfailure : near.failure = none)
    (hmet : near.met ++ [frame] <+: written far.core.history)
    (hsteady : Steady number (near.meet frame decoder inbound).core.history) :
    Metering number far (near.meet frame decoder inbound) := by
  intro hnone
  obtain ⟨c, hc⟩ := h hfailure
  have hhandled : ∃ s, SessionCore.handleFrame frame near.core = .ok () s ∧
      (near.meet frame decoder inbound).core = s := by
    cases hrun : SessionCore.handleFrame frame near.core with
    | error fault s => simp [End.meet, Computation.outcome, hrun] at hnone
    | ok _ s => exact ⟨s, rfl, Computation.final_of_ok hrun⟩
  obtain ⟨s, hrun, hcore⟩ := hhandled
  rw [hcore] at hsteady ⊢
  by_cases htake : ∃ data, frame = .data data ∧ data.channel = number
  · obtain ⟨data, rfl, hchannel⟩ := htake
    obtain ⟨mid, complete, htakes, hrest⟩ := SessionCore.takes_of_handled hrun
    -- what follows the frame is nothing that a `SEQ` of another session would not do as well
    have hpath := hrest ⟨0, 0, 0, by decide, by decide⟩
    obtain ⟨actions, hlogs⟩ := SessionCore.logs_of_path hpath
    have hmove := htakes.move
    rw [hchannel] at hmove
    obtain ⟨c', hc'⟩ := hc.receiver_take hmove hlinked.abides.accounted.placed hchannel hmet
    refine ⟨c', hc'.receiver_path hpath (hlinked.abides.move hmove) hsteady ?_⟩
    rintro effect heffect found rfl
    cases found with
    | take | reject => cases heffect.1
    | _ => trivial
  · have hpath := SessionCore.does_handleFrame frame near.core
    rw [Computation.final_of_ok hrun] at hpath
    refine ⟨c, (hc.receiver_path hpath hlinked.abides hsteady ?_).meet ?_⟩
    · rintro effect heffect found rfl
      cases found with
      | take data | reject data => exact htake ⟨data, heffect.1, heffect.2.symm⟩
      | _ => trivial
    · cases frame with
      | data data =>
          have hother : data.channel ≠ number := fun heq => htake ⟨data, rfl, heq⟩
          simp [dataOn, hother]
      | seq => rfl

theorem Metering.reader (h : Metering number far near) (hlinked : Linked number near far)
    (hsteady : Steady number near'.core.history) (hstep : Step (Widens number) far near near') :
    Metering number far near' := by
  have hmet := (hlinked.synced.step hstep).met
  cases hstep with
  | call call hwidens => exact h.called hlinked.abides hwidens hsteady
  | pollTransmit =>
      intro hfailure
      obtain ⟨c, hc⟩ := h hfailure
      change ∃ c, Metered number far.core (near.trace.act .pollTransmit).core far.met near.met c
      rw [Trace.act_pollTransmit_core]
      exact ⟨c, hc.sound, hc.window_le, hc.sends, hc.takes, hc.flight, hc.granted, hc.quiet⟩
  | pollEvent =>
      intro hfailure
      obtain ⟨c, hc⟩ := h hfailure
      change ∃ c, Metered number far.core (near.trace.act .pollEvent).core far.met near.met c
      rw [Trace.act_pollEvent_core]
      exact ⟨c, hc.sound, hc.window_le, hc.sends, hc.takes, hc.flight, hc.granted, hc.quiet⟩
  | meet hfailure => exact h.meet hlinked hfailure hmet hsteady
  | arrive | rest => exact h
  | garble => nofun

theorem Metering.hear (h : Metering number near far) (hlinked : Linked number near far)
    {frame : Frame} {decoder : Decoder} {inbound : Octets}
    (hmet : near.met ++ [frame] <+: written far.core.history)
    (hsteady : Steady number (near.meet frame decoder inbound).core.history) :
    Metering number (near.meet frame decoder inbound) far := by
  intro hfailure
  obtain ⟨c, hc⟩ := h hfailure
  by_cases hseq : ∃ seq, frame = .seq seq ∧ seq.channel = number
  · obtain ⟨seq, rfl, hchannel⟩ := hseq
    subst hchannel
    change ∃ c, Metered seq.channel (Computation.final (SessionCore.handleSeq seq) near.core)
      _ _ _ c
    cases hfound : near.core.channelAt seq.channel with
    | none =>
        have hflow : (near.core.lane seq.channel).flow = none := by
          simp [SessionCore.lane, hfound]
        refine absurd hmet (hc.not_granted hflow ?_ rfl)
        intro hzero
        simp [SessionCore.channelAt, hzero] at hfound
    | some channel =>
        obtain ⟨s, result, hrun, hmove, -⟩ := SessionCore.react_run hfound
        rw [SessionCore.final_of_outcome hrun]
        exact hc.sender_react hmove hlinked.abides.accounted.placed rfl hmet
  · have hpath := SessionCore.does_handleFrame frame near.core
    obtain ⟨c', hc'⟩ := hc.sender_path hpath hlinked.abides hsteady fun {effect} heffect seq => by
      rintro rfl
      exact hseq ⟨seq, heffect.1, heffect.2.symm⟩
    refine ⟨c', hc'.hear ?_⟩
    cases frame with
    | seq seq =>
        have hother : seq.channel ≠ number := fun heq => hseq ⟨seq, rfl, heq⟩
        simp [seqsOn, hother]
    | data => rfl

theorem Metering.writer (h : Metering number near far) (hlinked : Linked number near far)
    (hsteady : Steady number near'.core.history) (hstep : Step (Widens number) far near near') :
    Metering number near' far := by
  have hmet := (hlinked.synced.step hstep).met
  cases hstep with
  | call call =>
      intro hfailure
      obtain ⟨c, hc⟩ := h hfailure
      refine hc.sender_path (SessionCore.path_call call near.core) hlinked.abides hsteady ?_
      rintro effect heffect seq rfl
      rcases SessionCore.ofCaller_of_call heffect with hcaller | ⟨size, hsize, -⟩
      · exact hcaller
      · cases hsize
  | pollTransmit =>
      intro hfailure
      obtain ⟨c, hc⟩ := h hfailure
      change ∃ c, Metered number (near.trace.act .pollTransmit).core far.core near.met far.met c
      rw [Trace.act_pollTransmit_core]
      exact ⟨c, hc.sound, hc.window_le, hc.sends, hc.takes, hc.flight, hc.granted, hc.quiet⟩
  | pollEvent =>
      intro hfailure
      obtain ⟨c, hc⟩ := h hfailure
      change ∃ c, Metered number (near.trace.act .pollEvent).core far.core near.met far.met c
      rw [Trace.act_pollEvent_core]
      exact ⟨c, hc.sound, hc.window_le, hc.sends, hc.takes, hc.flight, hc.granted, hc.quiet⟩
  | meet => exact h.hear hlinked hmet hsteady
  | arrive | rest | garble => exact h

end End

end Vortice.Link
