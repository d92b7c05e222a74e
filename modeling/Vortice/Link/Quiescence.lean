import Vortice.Link.Windows
import Vortice.Proto.Chunks

/-!
# Two ends on a channel that stays

A frame of the channel is refused for two reasons only: the channel is not open, or it is a
`SEQ` that lets a message be written which no frame can carry.  Otherwise nothing is left
behind: once everything written has arrived, everything queued has been written and reported.
-/

namespace Vortice.Link

open Vortice.Foundation Vortice.Proto

namespace End

variable {number : UInt32} {allowed : End → Call → Prop} {far near near' : End}

/-! ## Why an end fails -/

/-- An end fails at a frame of the channel because the channel is not open there, or because it
is a `SEQ` into whose window a message is to be written that no frame can carry. -/
def Excused (number : UInt32) (e : End) : Prop :=
  ∀ frame fault, e.failure = some (some frame, fault) → frame.channel = number →
    fault = .error (.noSuchChannel number) ∨
      (∃ seq, frame = .seq seq) ∧ ∃ message ∈ queuedOn number e.core.history,
        ¬ Frameable number message.tag ∧ fault = .error (refusal number message.tag)

theorem Excused.of_grows {e e' : End} (h : e.Excused number) (hgrows : Grows e e')
    (hfailure : e'.failure = e.failure) : e'.Excused number := by
  intro frame fault hfailed hchannel
  rcases h frame fault (hfailure ▸ hfailed) hchannel with hfault | ⟨hseq, message, hmem, hrefused⟩
  · exact .inl hfault
  · obtain ⟨more, hmore⟩ := hgrows.history
    refine .inr ⟨hseq, message, ?_, hrefused⟩
    rw [← hmore, queuedOn_append]
    exact List.mem_append_left _ hmem

theorem handles_next {frame : DataFrame} {channel : Channel} (hlinked : Linked number near far)
    (hfar : far.core.Abides number) (hmetering : Metering number far near)
    (hfailure : near.failure = none) (hchannel : frame.channel = number)
    (hzero : number ≠ greetingChannel)
    (hmet : near.met ++ [.data frame] <+: written far.core.history)
    (hsteady : Steady number near.core.history) (hsteady' : Steady number far.core.history)
    (hopen : near.core.channelAt number = some channel) :
    ∃ s, SessionCore.handleFrame (.data frame) near.core = .ok () s := by
  obtain ⟨c, hc⟩ := hmetering hfailure
  have hflow : (near.core.lane number).flow = some channel.flow := by
    simp [SessionCore.lane, hopen]
  obtain ⟨hexpected, hwindow⟩ := hc.takes.counts _ hflow
  obtain ⟨hseqno, hsent, -⟩ := hc.next_frame hchannel hmet
  have hwide := hc.window_le
  rw [toNat_maxFrameSize] at hwide
  have htoNat : (UInt32.ofNat c.window).toNat = c.window := by
    rw [UInt32.toNat_ofNat', Nat.mod_eq_of_lt (by omega)]
  have hadmits : channel.admits frame := by
    rw [← Channel.flow_admits]
    exact Flow.admits_of_fits hexpected hwindow hseqno hc.sound.acked_le (hc.sound.fits hsent)
      (by omega)
  -- what the sender has written joins up, and so does every beginning of it
  have habsorb : (Fragment.absorb channel.flow.held frame.fragment).isSome := by
    have hjoined := (hlinked.joined hzero hsteady).all hfailure
    have hheld : heldOn number near.core = channel.flow.held := by
      rw [heldOn, hflow]
      rfl
    obtain ⟨_, _, hwritten, -⟩ := (hfar.fifo hsteady').reassembles
    have hprefix : dataOn number (near.met ++ [.data frame]) <+:
        dataOn number (written far.core.history) := dataOn_prefix hmet
    obtain ⟨more, hmore⟩ := hprefix
    have hdata : dataOn number [.data frame] = [frame] := by simp [dataOn, hchannel]
    rw [fragmentsOn, ← dataOn_written, ← hmore, dataOn_append, hdata, List.map_append] at hwritten
    obtain ⟨_, _, _, hfirst, -, -⟩ := Fragment.assemble_split hwritten
    rw [List.map_append, List.map_singleton, Fragment.assemble_append hjoined, hheld] at hfirst
    cases habsorbed : Fragment.absorb channel.flow.held frame.fragment with
    | some => rfl
    | none => simp [Fragment.assemble, habsorbed] at hfirst
  subst hchannel
  refine SessionCore.handleOpen_ok hzero hopen hadmits habsorb ?_ ?_
  · have hsize : channel.recvWindow.size = .ofNat c.window := congrArg Window.size hwindow
    rw [hsize, UInt32.le_iff_toNat_le, htoNat]
    exact hc.window_le
  · have hnumber : channel.number = frame.channel :=
      hlinked.abides.accounted.placed frame.channel _ hflow
    rw [hnumber]
    exact frame.channel_le

theorem Excused.step (h : near.Excused number) (hlinked : Linked number near far)
    (hfar : far.core.Abides number) (hmetering : Metering number far near)
    (hzero : number ≠ greetingChannel) (hsteady : Steady number near'.core.history)
    (hsteady' : Steady number far.core.history) (hstep : Step allowed far near near') :
    near'.Excused number := by
  have hsynced := hlinked.synced.step hstep
  have habides := hstep.abides hlinked.abides
  have hgrows := hstep.grows
  have hearlier := hsteady.of_prefix hgrows.history
  cases hstep with
  | call | pollTransmit | pollEvent | arrive | rest => exact h.of_grows hgrows rfl
  | garble =>
      rintro frame fault ⟨⟩
  | @meet frame decoder inbound hfailure =>
      intro failed fault hfailed hchannel
      cases hrun : SessionCore.handleFrame frame near.core with
      | ok _ s => simp [End.meet, Computation.outcome, hrun] at hfailed
      | error found s =>
          have hcore : (near.meet frame decoder inbound).core = s :=
            Computation.final_of_error hrun
          obtain ⟨rfl, rfl⟩ : frame = failed ∧ found = fault := by
            simpa [End.meet, Computation.outcome, hrun] using hfailed
          cases hopen : near.core.channelAt number with
          | none =>
              left
              subst hchannel
              rw [SessionCore.handleFrame_none hzero hopen] at hrun
              cases hrun
              rfl
          | some channel =>
              right
              cases frame with
              | data data =>
                  obtain ⟨_, hok⟩ := handles_next hlinked hfar hmetering hfailure hchannel hzero
                    hsynced.met hearlier hsteady' hopen
                  rw [hrun] at hok
                  cases hok
              | seq seq =>
                  have hchannel : seq.channel = number := hchannel
                  subst hchannel
                  obtain ⟨front, hfront, hframeable, rfl⟩ := SessionCore.react_error hopen hrun
                  rw [hcore] at hsteady habides ⊢
                  obtain ⟨message, hmem, htag⟩ := habides.head_queued hsteady hfront
                  have hnumber : channel.number = seq.channel :=
                    hlinked.abides.accounted.placed seq.channel channel.flow
                      (by simp [SessionCore.lane, hopen])
                  rw [hnumber] at hframeable ⊢
                  exact ⟨⟨seq, rfl⟩, message, hmem, htag ▸ hframeable, by rw [htag]⟩

/-! ## When everything has arrived -/

/-- An end that reads has come to the end of what it has read. -/
def Rested (e : End) : Prop := e.failure = none → e.trace.session.Idle

theorem rested_new {session : Session} {config : Config} (hnew : Session.new config = .ok session) :
    (End.new session).Rested := by
  intro _
  unfold Session.new at hnew
  split at hnew
  · cases hnew
    rfl
  · cases hnew

theorem Rested.act (h : near.Rested) (act : Act) : (far.act near act).Rested := by
  cases act with
  | call | pollEvent => exact h
  | pollTransmit =>
      intro hfailure
      have hidle := h hfailure
      change (near.trace.act .pollTransmit).session.Idle
      rw [Trace.act_pollTransmit]
      exact hidle
  | arrive count =>
      intro hfailure
      change (near.receive (far.next near count)).failure = none at hfailure
      change (near.receive (far.next near count)).trace.session.Idle
      unfold receive at hfailure ⊢
      split at hfailure
      · rename_i hfailed
        rw [if_pos hfailed]
        exact h hfailure
      · rename_i hfailed
        rw [if_neg hfailed]
        have hresult : (near.trace.session.handleInput (far.next near count)).2 = .ok () := by
          change (Session.handleFrames _ _).2 = _
          rw [meetFrames_result]
          change (meetFrames _ _).2 = none at hfailure
          simp only [hfailure]
        exact Session.idle_of_handleInput (Prod.ext rfl hresult)

/-- Everything that the far end has written has arrived, and the near end still reads. -/
structure Arrived (far near : End) : Prop where
  reading : near.failure = none
  read : near.read = far.trace.transmitted
  sent : far.core.outbound = []

theorem Synced.met_all (h : Synced far near) (hrested : near.Rested) (harrived : Arrived far near) :
    near.met = written far.core.history := by
  rcases h.next harrived.reading with ⟨_, _, -, hall⟩ | ⟨_, _, hfound, -⟩
  · exact hall harrived.read harrived.sent
  · have hidle := hrested harrived.reading
    rw [Session.Idle, hfound] at hidle
    simp at hidle

/-- Everything queued on the channel can be framed. -/
def Framed (number : UInt32) (e : End) : Prop :=
  ∀ message ∈ queuedOn number e.core.history, Frameable number message.tag

/-- Once everything has arrived there is room in the window, so nothing waits for it. -/
theorem queue_empty (hfar : far.core.Abides number) (hsteady : Steady number far.core.history)
    (hmetering : Metering number far near) (hreading : near.failure = none)
    (hmet : near.met = written far.core.history) (hheard : far.met = written near.core.history)
    (hframed : far.Framed number) : (far.core.lane number).queue = [] := by
  obtain ⟨c, hc⟩ := hmetering hreading
  cases hflow : (far.core.lane number).flow with
  | none => rw [(hfar.fifo hsteady).closed hflow]; rfl
  | some flow =>
      have hreceived : c.received = c.sent := by
        obtain ⟨frames, hwritten, hspans⟩ := hc.flight
        rw [hmet, dataOn_written, List.self_eq_append_right] at hwritten
        subst hwritten
        exact hspans
      have hgrants : c.grants = [] := by
        obtain ⟨seqs, hgranted, hall⟩ := hc.granted
        rw [hheard, seqsOn_written, List.self_eq_append_right] at hgranted
        subst hgranted
        exact List.forall₂_nil_left_iff.mp hall
      have hroom := hc.sound.room (by norm_num) hgrants hreceived
      obtain ⟨hbase, hsent, hsize⟩ := hc.bounds
      obtain ⟨hseqno, hwindow⟩ := hc.sends.counts flow hflow
      have hwritable := Flow.toNat_writable hseqno hwindow hbase hsent hsize
      cases hqueue : (far.core.lane number).queue with
      | nil => rfl
      | cons front queue =>
          have hfront : front ∈ (far.core.lane number).queue.head? := by
            rw [hqueue]
            rfl
          exfalso
          rcases hfar.settled hsteady flow hflow front hfront with ⟨-, hzero⟩ | ⟨hframeable, -⟩
          · rw [hzero] at hwritable
            change 0 = _ at hwritable
            omega
          · obtain ⟨message, hmem, htag⟩ := hfar.head_queued hsteady hfront
            rw [hfar.accounted.placed number flow hflow] at hframeable
            exact hframeable (htag ▸ hframed message hmem)

/-- What an end has reported on a channel is what the other has queued there. -/
def Delivered (number : UInt32) (near far : End) : Prop :=
  (reportedOn number near.reported).map Message.whole =
    (queuedOn number far.core.history).map Queued.whole

theorem Linked.delivered (h : Linked number near far) (hfar : far.core.Abides number)
    (hzero : number ≠ greetingChannel) (hsteady : Steady number near.core.history)
    (hsteady' : Steady number far.core.history) (hreading : near.failure = none)
    (hmet : near.met = written far.core.history) (hqueue : (far.core.lane number).queue = []) :
    Delivered number near far := by
  have hjoined := (h.joined hzero hsteady).all hreading
  obtain ⟨held, rest, hwritten, hcontinues, hqueued⟩ := (hfar.fifo hsteady').reassembles
  rw [hqueue] at hcontinues
  obtain ⟨-, rfl⟩ := Fragment.Continues.of_nil hcontinues
  rw [hmet, dataOn_written] at hjoined
  rw [fragmentsOn, hjoined] at hwritten
  rw [Delivered, hqueued, List.append_nil]
  exact congrArg Prod.snd (Option.some.inj hwritten)

/-! ## Along a run -/

/-- What the near end has of a channel of the far end. -/
structure Coupled (number : UInt32) (near far : End) : Prop where
  linked : Linked number near far
  metering : Steady number near.core.history → Steady number far.core.history →
    Metering number far near
  excused : number ≠ greetingChannel → Steady number near.core.history →
    Steady number far.core.history → near.Excused number

theorem coupled_new {near far : Session} {nearConfig farConfig : Config}
    (hnear : Session.new nearConfig = .ok near) (hfar : Session.new farConfig = .ok far)
    (hwide : 4096 ≤ nearConfig.windowSize.toNat) (hsize : nearConfig.windowSize ≤ maxFrameSize) :
    Coupled number (.new near) (.new far) where
  linked := linked_new hnear hfar
  metering hsteady hsteady' := metering_new hfar hnear hwide hsize hsteady' hsteady
  excused _ _ _ := by
    rintro frame fault ⟨⟩

theorem Coupled.reader (h : Coupled number near far) (hfar : far.core.Abides number)
    (hstep : Step (Widens number) far near near') : Coupled number near' far where
  linked := h.linked.reader hstep
  metering hsteady hsteady' :=
    (h.metering (hsteady.of_prefix hstep.grows.history) hsteady').reader h.linked hsteady hstep
  excused hzero hsteady hsteady' := by
    have hearlier := hsteady.of_prefix hstep.grows.history
    exact (h.excused hzero hearlier hsteady').step h.linked hfar (h.metering hearlier hsteady')
      hzero hsteady hsteady' hstep

theorem Coupled.sender (h : Coupled number far near) (hlinked : Linked number near far)
    (hstep : Step (Widens number) far near near') : Coupled number far near' where
  linked := h.linked.sender hstep
  metering hsteady hsteady' :=
    (h.metering hsteady (hsteady'.of_prefix hstep.grows.history)).writer hlinked hsteady' hstep
  excused hzero hsteady hsteady' :=
    h.excused hzero hsteady (hsteady'.of_prefix hstep.grows.history)

end End

section Runs

variable {near far : Session} {nearConfig farConfig : Config} {number : UInt32} {last : Pair}

theorem coupled_of_run (hnear : Session.new nearConfig = .ok near)
    (hfar : Session.new farConfig = .ok far)
    (hwindows : 4096 ≤ nearConfig.windowSize.toNat ∧ 4096 ≤ farConfig.windowSize.toNat)
    (hsizes : nearConfig.windowSize ≤ maxFrameSize ∧ farConfig.windowSize ≤ maxFrameSize)
    (hrun : Run Pair.act (Pair.meets (End.Widens number)) (Pair.new near far) last) :
    End.Coupled number last.near last.far ∧ End.Coupled number last.far last.near := by
  refine Pair.preserves (I := fun near far => End.Coupled number near far ∧
    End.Coupled number far near) And.symm ?_ hrun ⟨?_, ?_⟩
  · rintro near far near' hstep ⟨hreader, hsender⟩
    exact ⟨hreader.reader hsender.linked.abides hstep, hsender.sender hreader.linked hstep⟩
  · exact End.coupled_new hnear hfar hwindows.1 hsizes.1
  · exact End.coupled_new hfar hnear hwindows.2 hsizes.2

/-- Flow control never ends a session: on a channel other than 0 that both ends keep, with
windows that are not narrowed, a frame is refused only because the channel is not open yet, or
is a `SEQ` that lets a message be written which no frame can carry. -/
theorem refuses_for_two_reasons (hnear : Session.new nearConfig = .ok near)
    (hfar : Session.new farConfig = .ok far)
    (hwindows : 4096 ≤ nearConfig.windowSize.toNat ∧ 4096 ≤ farConfig.windowSize.toNat)
    (hsizes : nearConfig.windowSize ≤ maxFrameSize ∧ farConfig.windowSize ≤ maxFrameSize)
    (hrun : Run Pair.act (Pair.meets (End.Widens number)) (Pair.new near far) last)
    (hzero : number ≠ greetingChannel) (hsteady : Steady number last.near.core.history)
    (hsteady' : Steady number last.far.core.history) :
    last.near.Excused number ∧ last.far.Excused number := by
  obtain ⟨hreader, hsender⟩ := coupled_of_run hnear hfar hwindows hsizes hrun
  exact ⟨hreader.excused hzero hsteady hsteady', hsender.excused hzero hsteady' hsteady⟩

/-- Whether an act narrows no window, and sets none that cannot be advertised. -/
def End.widens (e : End) : Act → Bool
  | .call (.setWindowSize channel size) =>
      size ≤ maxFrameSize && (e.core.channels channel).all fun found =>
        found.recvWindow.size ≤ size
  | _ => true

def Pair.widens (pair : Pair) : Bool × Act → Bool
  | (true, act) => pair.near.widens act
  | (false, act) => pair.far.widens act

theorem End.meets_of_widens {e : End} {act : Act} (h : e.widens act) :
    e.meets (Widens number) act := by
  cases act with
  | call call =>
      rintro size rfl
      obtain ⟨hsize, hwindow⟩ := Bool.and_eq_true_iff.mp h
      refine ⟨of_decide_eq_true hsize, fun channel hchannel => ?_⟩
      rw [hchannel] at hwindow
      exact of_decide_eq_true hwindow
  | _ => trivial

theorem Pair.meets_of_widens {pair : Pair} {label : Bool × Act} (h : pair.widens label) :
    pair.meets (End.Widens number) label := by
  obtain ⟨side, act⟩ := label
  cases side with
  | true | false => exact End.meets_of_widens h

/-- The conversation goes on, and the initiator queues a reply that no frame can carry before
the listener acknowledges what it has read. -/
def refusedConversation : List (Bool × Act) :=
  conversation ++ [(true, .call (.sendMsg 1 (List.replicate 2048 120))), (true, .pollTransmit),
    (true, .call (.send 1 .rpy 3000000000 none [])), (false, .arrive 5000),
    (false, .pollTransmit), (true, .arrive 1000)]

/-- The initiator fails at the window it is given, and the listener does not fail. -/
theorem conversation_refuses_reply :
    ∃ near far last frame, Session.new (Config.new .initiator) = .ok near ∧
      Session.new (Config.new .listener) = .ok far ∧
      last = refusedConversation.foldl Pair.act (Pair.new near far) ∧
      last.near.failure = some (some frame, .error (.valueOutOfRange "msgno" maxMsgNo)) ∧
      frame.channel = 1 ∧ last.far.failure = none ∧
      last.near.Excused 1 ∧ last.far.Excused 1 := by
  have hrun : afterConversation refusedConversation fun near far last =>
      Run.checks Pair.act Pair.widens (Pair.new near far) refusedConversation &&
        (Steady 1 last.near.core.history && (Steady 1 last.far.core.history &&
          (last.far.failure.isNone && last.near.failure.any fun failure =>
            failure.1.any fun frame => decide (frame.channel = 1) &&
              decide (failure.2 = .error (.valueOutOfRange "msgno" maxMsgNo))))) := by
    decide +kernel
  obtain ⟨near, far, last, hnear, hfar, hlast, hcheck⟩ := exists_conversation hrun
  simp only [Bool.and_eq_true, decide_eq_true_eq, Option.any_eq_true] at hcheck
  obtain ⟨hchecks, hsteady, hsteady', hreads, ⟨_, fault⟩, hfailure, frame, rfl, hchannel, rfl⟩ :=
    hcheck
  refine ⟨near, far, last, frame, hnear, hfar, hlast, hfailure, hchannel,
    Option.isNone_iff_eq_none.mp hreads, ?_⟩
  subst hlast
  exact refuses_for_two_reasons hnear hfar (by decide) (by decide)
    (Run.of_checks Pair.widens Pair.meets_of_widens hchecks) (by decide) hsteady hsteady'

/-- Flow control leaves nothing behind that frames can carry: once everything written has
arrived at either end, nothing waits for a window, and everything queued on a channel other
than 0 has been reported, in order. -/
theorem leaves_nothing_behind (hnear : Session.new nearConfig = .ok near)
    (hfar : Session.new farConfig = .ok far)
    (hwindows : 4096 ≤ nearConfig.windowSize.toNat ∧ 4096 ≤ farConfig.windowSize.toNat)
    (hsizes : nearConfig.windowSize ≤ maxFrameSize ∧ farConfig.windowSize ≤ maxFrameSize)
    (hrun : Run Pair.act (Pair.meets (End.Widens number)) (Pair.new near far) last)
    (hsteady : Steady number last.near.core.history)
    (hsteady' : Steady number last.far.core.history)
    (harrived : End.Arrived last.far last.near) (harrived' : End.Arrived last.near last.far)
    (hframed : last.near.Framed number) (hframed' : last.far.Framed number) :
    (last.near.core.lane number).queue = [] ∧ (last.far.core.lane number).queue = [] ∧
      (number ≠ greetingChannel → End.Delivered number last.near last.far ∧
        End.Delivered number last.far last.near) := by
  obtain ⟨hreader, hsender⟩ := coupled_of_run hnear hfar hwindows hsizes hrun
  have hrested : last.near.Rested ∧ last.far.Rested := by
    refine hrun.preserves (I := fun pair => pair.near.Rested ∧ pair.far.Rested) ?_
      ⟨End.rested_new hnear, End.rested_new hfar⟩
    rintro pair ⟨side, act⟩ - ⟨hrested, hrested'⟩
    cases side with
    | true => exact ⟨hrested.act act, hrested'⟩
    | false => exact ⟨hrested, hrested'.act act⟩
  have hmet := hreader.linked.synced.met_all hrested.1 harrived
  have hmet' := hsender.linked.synced.met_all hrested.2 harrived'
  have hqueue : (last.near.core.lane number).queue = [] :=
    End.queue_empty hreader.linked.abides hsteady (hsender.metering hsteady' hsteady)
      harrived'.reading hmet' hmet hframed
  have hqueue' : (last.far.core.lane number).queue = [] :=
    End.queue_empty hsender.linked.abides hsteady' (hreader.metering hsteady hsteady')
      harrived.reading hmet hmet' hframed'
  exact ⟨hqueue, hqueue', fun hzero =>
    ⟨hreader.linked.delivered hsender.linked.abides hzero hsteady hsteady' harrived.reading hmet
        hqueue',
      hsender.linked.delivered hreader.linked.abides hzero hsteady' hsteady harrived'.reading hmet'
        hqueue⟩⟩

/-- At the end of the conversation the message has been reported. -/
theorem conversation_leaves_nothing :
    ∃ near far last, Session.new (Config.new .initiator) = .ok near ∧
      Session.new (Config.new .listener) = .ok far ∧
      last = conversation.foldl Pair.act (Pair.new near far) ∧
      (queuedOn 1 last.near.core.history).map Queued.payload = [[120]] ∧
      End.Delivered 1 last.far last.near := by
  have hrun : afterConversation conversation fun near far last =>
      Run.checks Pair.act Pair.widens (Pair.new near far) conversation &&
        (Steady 1 last.near.core.history ∧ Steady 1 last.far.core.history ∧
          (last.near.failure.isNone ∧ last.near.read = last.far.trace.transmitted ∧
            last.far.core.outbound = []) ∧
          (last.far.failure.isNone ∧ last.far.read = last.near.trace.transmitted ∧
            last.near.core.outbound = []) ∧
          (∀ message ∈ queuedOn 1 last.near.core.history, Frameable 1 message.tag) ∧
          (∀ message ∈ queuedOn 1 last.far.core.history, Frameable 1 message.tag) ∧
          (queuedOn 1 last.near.core.history).map Queued.payload = [[120]]) := by
    decide +kernel
  obtain ⟨near, far, last, hnear, hfar, hlast, hcheck⟩ := exists_conversation hrun
  obtain ⟨hchecks, hsteady, hsteady', ⟨hreading, hread, hsent⟩, ⟨hreading', hread', hsent'⟩,
    hframed, hframed', hqueued⟩ := by
    simpa only [Bool.and_eq_true, decide_eq_true_eq] using hcheck
  refine ⟨near, far, last, hnear, hfar, hlast, hqueued, ?_⟩
  subst hlast
  obtain ⟨-, -, hdelivered⟩ := leaves_nothing_behind hnear hfar (by decide) (by decide)
    (Run.of_checks Pair.widens Pair.meets_of_widens hchecks) hsteady hsteady'
    ⟨Option.isNone_iff_eq_none.mp hreading, hread, hsent⟩
    ⟨Option.isNone_iff_eq_none.mp hreading', hread', hsent'⟩ hframed hframed'
  exact (hdelivered (by decide)).2

end Runs

end Vortice.Link
