import Vortice.Proto.Steady

/-!
# Counting the octets of a lane

The sequence numbers and the windows of a lane are unbounded counters modulo 2^32: what its
sender has sent and was granted, and what its receiver has taken, has acknowledged and
offers.  Every step of a lane keeps the counters of either side, or moves them as the frames
it writes and takes say.
-/

namespace Vortice.Proto

open Vortice.Foundation

theorem SeqNo.toNat_sub {later earlier : Nat} (hle : earlier ≤ later)
    (hlt : later - earlier < 2 ^ 32) :
    (UInt32.ofNat later - UInt32.ofNat earlier).toNat = later - earlier := by
  have hlater : UInt32.ofNat later = UInt32.ofNat earlier + UInt32.ofNat (later - earlier) := by
    rw [← UInt32.ofNat_add, Nat.add_sub_cancel' hle]
  rw [hlater, UInt32.add_comm, UInt32.add_sub_cancel, UInt32.toNat_ofNat', Nat.mod_eq_of_lt hlt]

/-- Of a window as wide as the initial one, half of the initial one is the threshold. -/
theorem toNat_ackThreshold {size : UInt32} (h : 4096 ≤ size.toNat) :
    (ackThreshold size).toNat = 2048 := by
  have hhalf : (2048 : UInt32) ≤ size / 2 := by
    rw [UInt32.le_iff_toNat_le, UInt32.toNat_div]
    change 2048 ≤ size.toNat / 2
    omega
  have hmin : min (size / 2) (initialWindowSize / 2) = 2048 := by
    change (if size / 2 ≤ initialWindowSize / 2 then size / 2 else initialWindowSize / 2) = _
    split
    · rename_i hle
      exact UInt32.le_antisymm hle hhalf
    · rfl
  rw [ackThreshold, hmin]
  rfl

namespace Flow

variable {flow : Flow} {sent base size received acked window : Nat}

theorem toNat_writable (hseqno : flow.nextSeqno = .ofNat sent)
    (hwindow : flow.sendWindow = ⟨.ofNat base, .ofNat size⟩) (hbase : base ≤ sent)
    (hsent : sent ≤ base + size) (hsize : size < 2 ^ 32) :
    flow.writable.toNat = base + size - sent := by
  have hdistance := SeqNo.toNat_sub hbase (by omega)
  have htoNat : (UInt32.ofNat size).toNat = size := by
    rw [UInt32.toNat_ofNat', Nat.mod_eq_of_lt hsize]
  rw [writable, hwindow, hseqno, Window.toNat_remaining]
  · simp only [hdistance, htoNat]
    omega
  · simp only [hdistance, htoNat]
    omega

theorem admits_of_fits {frame : DataFrame} (hseqno : flow.expectedSeqno = .ofNat received)
    (hwindow : flow.recvWindow = ⟨.ofNat acked, .ofNat window⟩)
    (hframe : frame.seqno = .ofNat received) (hacked : acked ≤ received)
    (hfits : received - acked + frame.payload.length ≤ window) (hlt : window < 2 ^ 32) :
    flow.admits frame := by
  have hdistance := SeqNo.toNat_sub hacked (by omega)
  have htoNat : (UInt32.ofNat window).toNat = window := by
    rw [UInt32.toNat_ofNat', Nat.mod_eq_of_lt hlt]
  simp [admits, hseqno, hframe, hwindow, Window.accepts, SeqNo.distanceFrom, hdistance, htoNat,
    frame.toNat_size, hfits]

theorem Writes.sends {queue queue' : List Queued} {frames : List DataFrame} {count : Nat}
    (h : flow.Writes queue frames queue' count) (hseqno : flow.nextSeqno = .ofNat sent)
    (hwindow : flow.sendWindow = ⟨.ofNat base, .ofNat size⟩) (hbase : base ≤ sent)
    (hsent : sent ≤ base + size) (hsize : size < 2 ^ 32) :
    Spans sent frames (sent + count) ∧ sent + count ≤ base + size ∧
      (flow.advance count).nextSeqno = .ofNat (sent + count) := by
  have hfits := h.fits
  rw [toNat_writable hseqno hwindow hbase hsent hsize] at hfits
  refine ⟨h.spans sent hseqno, by omega, ?_⟩
  rw [advance, hseqno, ← UInt32.ofNat_add]

end Flow

namespace Lane

variable {number offer : UInt32} {lane lane' : Lane} {effect : Effect} {actions : List Action}
variable {sent base size received acked window : Nat}

/-! ## The sender -/

/-- The octets written on a lane since it was opened, and the window granted last. -/
structure Sends (lane : Lane) (sent base size : Nat) : Prop where
  counts : ∀ flow, lane.flow = some flow →
    flow.nextSeqno = .ofNat sent ∧ flow.sendWindow = ⟨.ofNat base, .ofNat size⟩
  fresh : lane.flow = none → sent = 0 ∧ base = 0 ∧ size = 4096

/-- What a step has written, in a window. -/
def Extends (number : UInt32) (lane' : Lane) (actions : List Action)
    (sent base size : Nat) : Prop :=
  ∃ count, lane'.Sends (sent + count) base size ∧
    Spans sent (writtenOn number actions) (sent + count) ∧ sent + count ≤ base + size

theorem Sends.stay (h : lane.Sends sent base size) (hroom : sent ≤ base + size)
    {flow flow' : Flow} (hflow : lane.flow = some flow) (hflow' : lane'.flow = some flow')
    (hseqno : flow'.nextSeqno = flow.nextSeqno) (hwindow : flow'.sendWindow = flow.sendWindow)
    (hwritten : writtenOn number actions = []) : Extends number lane' actions sent base size := by
  refine ⟨0, ⟨fun found hfound => ?_, fun hnone => ?_⟩, ?_, hroom⟩
  · rw [hflow'] at hfound
    cases hfound
    rw [hseqno, hwindow]
    exact h.counts flow hflow
  · rw [hflow'] at hnone
    cases hnone
  · rw [hwritten]
    rfl

theorem extends_of_writes {flow : Flow} {queue queue' : List Queued} {frames : List DataFrame}
    {count : Nat} (hwrites : flow.Writes queue frames queue' count)
    (hflow' : lane'.flow = some (flow.advance count)) (hseqno : flow.nextSeqno = .ofNat sent)
    (hwindow : flow.sendWindow = ⟨.ofNat base, .ofNat size⟩) (hbase : base ≤ sent)
    (hsent : sent ≤ base + size) (hsize : size < 2 ^ 32)
    (hwritten : writtenOn number actions = frames) :
    Extends number lane' actions sent base size := by
  obtain ⟨hspans, hroom, hadvanced⟩ := hwrites.sends hseqno hwindow hbase hsent hsize
  refine ⟨count, ⟨fun found hfound => ?_, fun hnone => ?_⟩, hwritten ▸ hspans, hroom⟩
  · rw [hflow'] at hfound
    cases hfound
    exact ⟨hadvanced, hwindow⟩
  · rw [hflow'] at hnone
    cases hnone

theorem Step.sends (h : Step number lane effect actions lane') (hplaced : Placed number lane)
    (hclosed : effect ≠ .closed) (hopened : ∀ size, effect = .opened size → lane = shut)
    (hreact : ∀ seq, effect ≠ .react seq) (hsends : lane.Sends sent base size)
    (hbase : base ≤ sent) (hsent : sent ≤ base + size) (hsize : size < 2 ^ 32) :
    Extends number lane' actions sent base size := by
  cases h with
  | push hflow hwrites =>
      obtain ⟨hseqno, hwindow⟩ := hsends.counts _ hflow
      have hnumber := hplaced _ hflow
      refine extends_of_writes hwrites rfl hseqno hwindow hbase hsent hsize ?_
      have hconfined := writtenOn_wrote fun frame hmem =>
        (hwrites.confined frame hmem).trans hnumber
      rw [writtenOn_append, hconfined]
      rfl
  | hold hopen =>
      obtain ⟨flow, hflow⟩ := Option.isSome_iff_exists.mp hopen
      exact hsends.stay hsent hflow hflow rfl rfl rfl
  | release hflow hwrites =>
      obtain ⟨hseqno, hwindow⟩ := hsends.counts _ hflow
      have hnumber := hplaced _ hflow
      refine extends_of_writes hwrites rfl hseqno hwindow hbase hsent hsize ?_
      have hconfined := writtenOn_wrote fun frame hmem =>
        (hwrites.confined frame hmem).trans hnumber
      rw [writtenOn_append, hconfined, writtenOn_queued, List.nil_append]
  | react => exact absurd rfl (hreact _)
  | take hflow _ _ _ hcounts =>
      cases hcounts with
      | charge | acknowledge | stumble => exact hsends.stay hsent hflow rfl rfl rfl rfl
  | reject hflow => exact hsends.stay hsent hflow rfl rfl rfl rfl
  | opened =>
      have hshut := hopened _ rfl
      obtain ⟨rfl, rfl, rfl⟩ := hsends.fresh (by rw [hshut]; rfl)
      refine ⟨0, ⟨?_, nofun⟩, rfl, by omega⟩
      rintro _ ⟨⟩
      exact ⟨rfl, rfl⟩
  | closed => exact absurd rfl hclosed
  | resize _ hflow => exact hsends.stay hsent hflow rfl rfl rfl rfl
  | advertise hflow => exact hsends.stay hsent hflow hflow rfl rfl rfl

theorem Step.reacts {seq : SeqFrame} (h : Step number lane (.react seq) actions lane')
    (hplaced : Placed number lane) (hsends : lane.Sends sent base size)
    {base' size' : Nat} (hackno : seq.ackno = .ofNat base') (hwindow : seq.window = .ofNat size')
    (hbase : base' ≤ sent) (hsent : sent ≤ base' + size') (hsize : size' < 2 ^ 32) :
    Extends number lane' actions sent base' size' := by
  cases h with
  | @react flow frames queue' count _ hflow _ hwrites =>
      have hnumber : (flow.applySeq seq).number = number := hplaced flow hflow
      have happlied : (flow.applySeq seq).sendWindow = ⟨.ofNat base', .ofNat size'⟩ := by
        rw [Flow.applySeq, hackno, hwindow]
      refine extends_of_writes hwrites rfl (hsends.counts _ hflow).1 happlied hbase hsent
        hsize ?_
      exact writtenOn_wrote fun frame hmem => (hwrites.confined frame hmem).trans hnumber

/-! ## The receiver -/

/-- The octets taken on a lane since it was opened, those acknowledged, and the window that is
offered from there. -/
structure Takes (offer : UInt32) (lane : Lane) (received acked window : Nat) : Prop where
  counts : ∀ flow, lane.flow = some flow →
    flow.expectedSeqno = .ofNat received ∧ flow.recvWindow = ⟨.ofNat acked, .ofNat window⟩
  pending : lane.unacked.toNat = received - acked
  fresh : lane.flow = none → received = 0 ∧ acked = 0 ∧ window = offer.toNat

theorem Takes.stay (h : lane.Takes offer received acked window) {flow flow' : Flow}
    (hflow : lane.flow = some flow) (hflow' : lane'.flow = some flow')
    (hseqno : flow'.expectedSeqno = flow.expectedSeqno)
    (hwindow : flow'.recvWindow = flow.recvWindow) (hunacked : lane'.unacked = lane.unacked) :
    lane'.Takes offer received acked window := by
  refine ⟨fun found hfound => ?_, hunacked ▸ h.pending, fun hnone => ?_⟩
  · rw [hflow'] at hfound
    cases hfound
    rw [hseqno, hwindow]
    exact h.counts flow hflow
  · rw [hflow'] at hnone
    cases hnone

/-- What neither takes frames off a lane nor concerns the window it offers. -/
def Effect.spares : Effect → Prop
  | .take _ | .reject _ | .resize _ | .advertise _ => False
  | _ => True

theorem Step.takes (h : Step number lane effect actions lane') (hspares : effect.spares)
    (hclosed : effect ≠ .closed)
    (hopened : ∀ size, effect = .opened size → lane = shut ∧ size = offer)
    (htakes : lane.Takes offer received acked window) :
    lane'.Takes offer received acked window ∧ grantsOn number actions = [] := by
  cases h with
  | push hflow =>
      refine ⟨htakes.stay hflow rfl rfl rfl rfl, ?_⟩
      rw [grantsOn_append, grantsOn_wrote]
      rfl
  | hold hopen =>
      obtain ⟨flow, hflow⟩ := Option.isSome_iff_exists.mp hopen
      exact ⟨htakes.stay hflow hflow rfl rfl rfl, rfl⟩
  | release hflow =>
      refine ⟨htakes.stay hflow rfl rfl rfl rfl, ?_⟩
      rw [grantsOn_append, grantsOn_wrote, List.append_nil]
      simp [grantsOn]
  | react hflow => exact ⟨htakes.stay hflow rfl rfl rfl rfl, grantsOn_wrote⟩
  | opened =>
      obtain ⟨rfl, rfl⟩ := hopened _ rfl
      obtain ⟨rfl, rfl, rfl⟩ := htakes.fresh rfl
      refine ⟨⟨?_, rfl, by rintro ⟨⟩⟩, rfl⟩
      rintro _ ⟨⟩
      exact ⟨rfl, by simp [Flow.fresh]⟩
  | closed => exact absurd rfl hclosed
  | take | reject | resize | advertise => exact hspares.elim

theorem Step.resizes {offered : UInt32} (h : Step number lane (.resize offered) actions lane')
    (htakes : lane.Takes offer received acked window) :
    lane'.Takes offer received acked offered.toNat ∧ grantsOn number actions = [] := by
  cases h with
  | resize _ hflow =>
      obtain ⟨hseqno, hwindow⟩ := htakes.counts _ hflow
      refine ⟨⟨?_, htakes.pending, by rintro ⟨⟩⟩, rfl⟩
      rintro _ ⟨⟩
      exact ⟨hseqno, by simp [Flow.resized, Window.resized, hwindow]⟩

theorem Step.advertises {seq : SeqFrame} (h : Step number lane (.advertise seq) actions lane')
    (htakes : lane.Takes offer received acked window) :
    lane' = lane ∧ grantsOn number actions = [seq] ∧ seq.ackno = .ofNat acked ∧
      seq.window = .ofNat window := by
  cases h with
  | advertise hflow hseq =>
      obtain ⟨hchannel, hackno, hsize⟩ := SeqFrame.new_eq_ok.mp hseq
      have hwindow := (htakes.counts _ hflow).2
      exact ⟨rfl, by simp [grantsOn, hchannel], by rw [hackno, hwindow], by rw [hsize, hwindow]⟩

/-- A frame is taken: its octets are charged, or everything taken is acknowledged. -/
theorem Step.taken {frame : DataFrame} (h : Step number lane (.take frame) actions lane')
    (hplaced : Placed number lane) (htakes : lane.Takes offer received acked window)
    (hacked : acked ≤ received) (hunacked : received < acked + 2048) (hwide : 4096 ≤ window)
    (hwindow : window ≤ maxFrameSize.toNat) :
    let received' := received + frame.payload.length
    (received' < acked + 2048 ∧ lane'.Takes offer received' acked window ∧
        grantsOn number actions = []) ∨
      (acked + 2048 ≤ received' ∧ lane'.Takes offer received' received' window ∧
        ∃ seq, grantsOn number actions = [seq] ∧ seq.ackno = .ofNat received' ∧
          seq.window = .ofNat window) := by
  intro received'
  cases h with
  | @take _ flow _ counted hflow hframe _ _ hcounts =>
      obtain ⟨hseqno, hrecv⟩ := htakes.counts _ hflow
      have hnumber := hplaced _ hflow
      have hpending := htakes.pending
      have hpayload := frame.payload_le
      rw [toNat_maxFrameSize] at hwindow hpayload
      have htoNat : (UInt32.ofNat window).toNat = window := by
        rw [UInt32.toNat_ofNat', Nat.mod_eq_of_lt (by omega)]
      have hexpected : (flow.taken frame).expectedSeqno = .ofNat received' := by
        change flow.expectedSeqno + frame.size = _
        rw [hseqno, DataFrame.size, ← UInt32.ofNat_add]
      have hsum : (saturatingAdd lane.unacked frame.size).toNat = received' - acked := by
        have hsize := frame.toNat_size
        rw [saturatingAdd, if_pos (by omega), UInt32.toNat_add, hsize, hpending,
          Nat.mod_eq_of_lt (by omega)]
        omega
      have hthreshold : (ackThreshold (flow.taken frame).recvWindow.size).toNat = 2048 := by
        change (ackThreshold flow.recvWindow.size).toNat = 2048
        rw [hrecv]
        exact toNat_ackThreshold (by rw [htoNat]; exact hwide)
      have hconsumed : ((flow.taken frame).consumed
          (saturatingAdd lane.unacked frame.size)).recvWindow =
            ⟨.ofNat received', .ofNat window⟩ := by
        have hpart : saturatingAdd lane.unacked frame.size = .ofNat (received' - acked) := by
          rw [← hsum, UInt32.ofNat_toNat]
        have hbase : UInt32.ofNat acked + UInt32.ofNat (received' - acked) = .ofNat received' := by
          rw [← UInt32.ofNat_add]
          congr 1
          omega
        change (flow.recvWindow.consumed _) = _
        rw [hrecv, Window.consumed, SeqNo.advance, hpart, hbase]
      cases hcounts with
      | charge hlt =>
          left
          rw [UInt32.lt_iff_toNat_lt, hthreshold, hsum] at hlt
          refine ⟨by omega, ⟨?_, hsum, by rintro ⟨⟩⟩, rfl⟩
          rintro _ ⟨⟩
          exact ⟨hexpected, hrecv⟩
      | @acknowledge seq hle hseq =>
          right
          rw [UInt32.le_iff_toNat_le, hthreshold, hsum] at hle
          rw [hconsumed] at hseq
          obtain ⟨hseqchannel, hackno, hsize⟩ := SeqFrame.new_eq_ok.mp hseq
          have hgrant : seq.channel = number := hseqchannel.trans hnumber
          refine ⟨by omega, ⟨?_, by simp, by rintro ⟨⟩⟩, seq,
            by simp [grantsOn, hgrant], hackno, hsize⟩
          rintro _ ⟨⟩
          exact ⟨hexpected, hconsumed⟩
      | stumble _ hseq =>
          -- a window that can be offered can be advertised
          rw [hconsumed] at hseq
          have hsize : UInt32.ofNat window ≤ maxFrameSize := by
            rw [UInt32.le_iff_toNat_le, htoNat]
            exact hwindow
          have hchannel : (flow.taken frame).number ≤ maxChannelNo := by
            change flow.number ≤ maxChannelNo
            rw [hnumber, ← hframe]
            exact frame.channel_le
          have hok : ∃ seq, Window.toSeqFrame ⟨.ofNat received', .ofNat window⟩
              (flow.taken frame).number = .ok seq := SessionCore.toSeqFrame_ok hsize hchannel
          rw [hseq] at hok
          obtain ⟨_, ⟨⟩⟩ := hok

end Lane

end Vortice.Proto
