import Vortice.Foundation.Fragment
import Vortice.Proto.Session

/-!
# What writing a queue does

`emit` cuts a payload into fragments that fit the window, and fails without
touching the channel or not at all.  `flush` is a sequence of such emissions:
`Flushes` says which frames it writes and what it leaves, and everything later
modules need to know about writing follows from it by induction.
-/

namespace Vortice.Proto

open Vortice.Foundation

/-- What the fragments of one message have in common. -/
abbrev Tag := FrameKind × UInt32 × Option UInt32

def DataFrame.fragment (frame : DataFrame) : Fragment Tag UInt8 :=
  ⟨(frame.kind, frame.msgno, frame.ansno), frame.more, frame.payload⟩

def Queued.tag (queued : Queued) : Tag := (queued.kind, queued.msgno, queued.ansno)

def Queued.whole (queued : Queued) : Whole Tag UInt8 := ⟨queued.tag, queued.payload⟩

def Message.whole (message : Message) : Whole Tag UInt8 :=
  ⟨(message.kind, message.msgno, message.ansno), message.payload⟩

def Partial.whole (fragment : Partial) : Whole Tag UInt8 :=
  ⟨(fragment.kind, fragment.msgno, fragment.ansno), fragment.payload⟩

/-- A message the frame constructors accept on a channel. -/
def Frameable (number : UInt32) (tag : Tag) : Prop :=
  tag.1.hasAnsno = tag.2.2.isSome ∧ number ≤ maxChannelNo ∧
    tag.2.1 ≤ maxMsgNo ∧ ∀ n ∈ tag.2.2, n ≤ maxAnsNo

instance (number : UInt32) (tag : Tag) : Decidable (Frameable number tag) :=
  inferInstanceAs (Decidable (_ ∧ _))

/-- The error of the frame constructors for a message they do not accept on a channel. -/
def refusal (number : UInt32) (tag : Tag) : Error :=
  if tag.1.hasAnsno ≠ tag.2.2.isSome then .missingField "ansno"
  else if ¬ number ≤ maxChannelNo then .valueOutOfRange "channel" maxChannelNo
  else if ¬ tag.2.1 ≤ maxMsgNo then .valueOutOfRange "msgno" maxMsgNo
  else .valueOutOfRange "ansno" maxAnsNo

/-- Frames whose payloads follow each other in the octet stream of a channel. -/
def Spans : Nat → List DataFrame → Nat → Prop
  | first, [], last => first = last
  | first, frame :: frames, last =>
      frame.seqno = UInt32.ofNat first ∧
        Spans (first + frame.payload.length) frames last

theorem Spans.append {first middle last : Nat} {front back : List DataFrame}
    (hfront : Spans first front middle) (hback : Spans middle back last) :
    Spans first (front ++ back) last := by
  induction front generalizing first with
  | nil =>
      cases hfront
      exact hback
  | cons frame front ih => exact ⟨hfront.1, ih hfront.2⟩

theorem Spans.le {first last : Nat} {frames : List DataFrame}
    (h : Spans first frames last) : first ≤ last := by
  induction frames generalizing first with
  | nil => exact Nat.le_of_eq h
  | cons frame frames ih => exact Nat.le_trans (Nat.le_add_right _ _) (ih h.2)

namespace Window

theorem toNat_remaining {window : Window} {next : SeqNo}
    (h : (next - window.base).toNat ≤ window.size.toNat) :
    (window.remaining next).toNat =
      window.size.toNat - (next - window.base).toNat := by
  have hle : SeqNo.distanceFrom next window.base ≤ window.size :=
    UInt32.le_iff_toNat_le.mpr h
  rw [remaining, if_pos hle, UInt32.toNat_sub_of_le _ _ hle]
  rfl

theorem remaining_of_lt {window : Window} {next : SeqNo}
    (h : window.size.toNat < (next - window.base).toNat) :
    window.remaining next = 0 := by
  have hle : ¬ SeqNo.distanceFrom next window.base ≤ window.size :=
    fun hle => absurd (UInt32.le_iff_toNat_le.mp hle) (Nat.not_le.mpr h)
  rw [remaining, if_neg hle]

theorem toNat_remaining_add {window : Window} {next : SeqNo} {count : Nat}
    (h : count ≤ (window.remaining next).toNat) :
    (window.remaining (next + UInt32.ofNat count)).toNat =
      (window.remaining next).toNat - count := by
  by_cases hle : (next - window.base).toNat ≤ window.size.toNat
  · rw [toNat_remaining hle] at h ⊢
    have hsize := window.size.toNat_lt
    have hcount : (UInt32.ofNat count).toNat = count := by
      rw [UInt32.toNat_ofNat']
      omega
    have hdistance : (next + UInt32.ofNat count - window.base).toNat =
        (next - window.base).toNat + count := by
      have hcomm : next + UInt32.ofNat count - window.base =
          next - window.base + UInt32.ofNat count := by
        grind
      rw [hcomm, UInt32.toNat_add, hcount]
      omega
    rw [toNat_remaining (by omega), hdistance]
    omega
  · have hzero := remaining_of_lt (Nat.lt_of_not_le hle)
    rw [hzero] at h ⊢
    have : count = 0 := Nat.le_zero.mp h
    subst this
    simp [hzero]

end Window

namespace Channel

/-- The channel after `count` octets have been charged to it. -/
def advance (channel : Channel) (count : Nat) : Channel :=
  { channel with nextSeqno := channel.nextSeqno + UInt32.ofNat count }

@[simp] theorem advance_zero (channel : Channel) : channel.advance 0 = channel := by
  simp [advance]

theorem advance_advance (channel : Channel) (first second : Nat) :
    (channel.advance first).advance second = channel.advance (first + second) := by
  simp only [advance, UInt32.ofNat_add, UInt32.add_assoc]

theorem toNat_writable_advance {channel : Channel} {count : Nat}
    (h : count ≤ channel.writable.toNat) :
    (channel.advance count).writable.toNat = channel.writable.toNat - count :=
  Window.toNat_remaining_add h

theorem newFrame_eq_build {channel : Channel} {kind : FrameKind}
    {msgno : UInt32} {ansno : Option UInt32} {payload : Octets}
    (hansno : kind.hasAnsno = ansno.isSome) :
    channel.newFrame kind msgno ansno payload =
      DataFrame.build kind channel.number msgno channel.nextSeqno ansno payload
        hansno := by
  cases ansno with
  | none =>
      have hkind : ¬ kind.hasAnsno := by simp [hansno]
      rw [newFrame, DataFrame.new, dif_neg hkind]
  | some n =>
      have hkind : kind = .ans := by
        revert hansno
        cases kind <;> simp [FrameKind.hasAnsno]
      subst hkind
      rfl

theorem newFrame_of_not_frameable {channel : Channel} {kind : FrameKind}
    {msgno : UInt32} {ansno : Option UInt32} (payload : Octets)
    (hansno : kind.hasAnsno = ansno.isSome)
    (h : ¬ Frameable channel.number (kind, msgno, ansno)) :
    channel.newFrame kind msgno ansno payload =
      .error (refusal channel.number (kind, msgno, ansno)) := by
  rw [newFrame_eq_build hansno, DataFrame.build, refusal, if_neg (not_not_intro hansno)]
  by_cases hchannel : channel.number ≤ maxChannelNo
  · rw [dif_pos hchannel, if_neg (not_not_intro hchannel)]
    by_cases hmsgno : msgno ≤ maxMsgNo
    · have hansno' : ¬ ∀ n ∈ ansno, n ≤ maxAnsNo :=
        fun hle => h ⟨hansno, hchannel, hmsgno, hle⟩
      rw [dif_pos hmsgno, if_neg (not_not_intro hmsgno), dif_neg hansno']
    · rw [dif_neg hmsgno, if_pos hmsgno]
  · rw [dif_neg hchannel, if_pos hchannel]

theorem newFrame_eq_ok {channel : Channel} {kind : FrameKind}
    {msgno : UInt32} {ansno : Option UInt32} {payload : Octets} {frame : DataFrame}
    (hansno : kind.hasAnsno = ansno.isSome) :
    channel.newFrame kind msgno ansno payload = .ok frame ↔
      frame.channel = channel.number ∧ frame.seqno = channel.nextSeqno ∧
        frame.fragment = ⟨(kind, msgno, ansno), false, payload⟩ := by
  rw [newFrame_eq_build hansno, DataFrame.build_eq_ok]
  simp only [DataFrame.fragment, Fragment.mk.injEq, Prod.mk.injEq]
  tauto

theorem exists_newFrame {channel : Channel} {kind : FrameKind}
    {msgno : UInt32} {ansno : Option UInt32} (payload : Octets)
    (h : Frameable channel.number (kind, msgno, ansno))
    (hlen : payload.length ≤ maxFrameSize.toNat) :
    ∃ frame, channel.newFrame kind msgno ansno payload = .ok frame := by
  obtain ⟨hansno, hchannel, hmsgno, hle⟩ := h
  exact ⟨{ kind, channel := channel.number, msgno, more := false
           seqno := channel.nextSeqno, ansno, payload, channel_le := hchannel
           msgno_le := hmsgno, ansno_le := hle, hasAnsno_eq := hansno
           payload_le := hlen },
    (newFrame_eq_ok hansno).mpr ⟨rfl, rfl, rfl⟩⟩

theorem build_eq (channel : Channel) (kind : FrameKind) (msgno : UInt32)
    (ansno : Option UInt32) (payload : Octets) (more : Bool)
    (hsize : payload.length < 2 ^ 32) :
    build kind msgno ansno payload more channel =
      match channel.newFrame kind msgno ansno payload with
      | .ok frame =>
          .ok (frame.withMore more) (channel.advance payload.length)
      | .error error => .error (.error error) channel := by
  have hget : (get : Op Channel Channel) channel = .ok channel channel := rfl
  rw [build, if_pos hsize, Computation.bind_of_ok hget]
  cases channel.newFrame kind msgno ansno payload <;> rfl

section EmitLoop

variable {kind : FrameKind} {msgno : UInt32} {ansno : Option UInt32}
variable {limit : UInt32} {remaining head : Octets} {fuel : Nat}
variable {channel channel' : Channel}

theorem emitLoop_nil (h : 0 < fuel) :
    emitLoop kind msgno ansno limit remaining fuel [] channel = .ok [] channel := by
  cases fuel with
  | zero => omega
  | succ fuel => rfl

theorem emitLoop_cons {frame : DataFrame} {frames : List DataFrame}
    (hhead : head ≠ [])
    (hnew : channel.newFrame kind msgno ansno (head.take (chunkLen limit head)) =
      .ok frame)
    (hrest : emitLoop kind msgno ansno limit remaining fuel
      (head.drop (chunkLen limit head))
      (channel.advance (head.take (chunkLen limit head)).length) =
        .ok frames channel') :
    emitLoop kind msgno ansno limit remaining (fuel + 1) head channel =
      .ok (frame.withMore
        (head.drop (chunkLen limit head) ≠ [] || remaining ≠ []) :: frames)
        channel' := by
  have hsize : (head.take (chunkLen limit head)).length < 2 ^ 32 := by
    rw [List.length_take, chunkLen]
    omega
  have hbuild := channel.build_eq kind msgno ansno
    (head.take (chunkLen limit head))
    (head.drop (chunkLen limit head) ≠ [] || remaining ≠ []) hsize
  rw [hnew] at hbuild
  rw [emitLoop, if_neg hhead]
  refine (Computation.bind_of_ok hbuild _).trans ?_
  exact Computation.bind_of_ok hrest _

theorem emitLoop_of_error {error : Error} (hhead : head ≠ [])
    (hnew : channel.newFrame kind msgno ansno (head.take (chunkLen limit head)) =
      .error error) :
    emitLoop kind msgno ansno limit remaining (fuel + 1) head channel =
      .error (.error error) channel := by
  have hsize : (head.take (chunkLen limit head)).length < 2 ^ 32 := by
    rw [List.length_take, chunkLen]
    omega
  have hbuild := channel.build_eq kind msgno ansno
    (head.take (chunkLen limit head))
    (head.drop (chunkLen limit head) ≠ [] || remaining ≠ []) hsize
  rw [hnew] at hbuild
  rw [emitLoop, if_neg hhead]
  exact Computation.bind_of_error hbuild _

/-- A frameable message is cut to its last octet, the next sequence number along. -/
theorem emitLoop_of_frameable (hlimit : 0 < limit.toNat)
    (hmax : limit.toNat ≤ maxFrameSize.toNat) (hhead : head ≠ [])
    (hfuel : head.length < fuel)
    (h : Frameable channel.number (kind, msgno, ansno)) :
    ∃ frames, emitLoop kind msgno ansno limit remaining fuel head channel =
        .ok frames (channel.advance head.length) ∧
      Fragment.Cut (kind, msgno, ansno) (remaining ≠ []) head
        (frames.map DataFrame.fragment) ∧
      (∀ frame ∈ frames, frame.channel = channel.number) ∧
      ∀ first, channel.nextSeqno = UInt32.ofNat first →
        Spans first frames (first + head.length) := by
  induction fuel generalizing head channel with
  | zero => omega
  | succ fuel ih =>
      rw [toNat_maxFrameSize] at hmax
      have hpos : 0 < head.length := List.length_pos_iff.mpr hhead
      have htake : 0 < chunkLen limit head ∧ chunkLen limit head ≤ head.length ∧
          chunkLen limit head ≤ limit.toNat := by
        rw [chunkLen]
        omega
      have hchunk : (head.take (chunkLen limit head)).length =
          chunkLen limit head := by
        rw [List.length_take]
        omega
      obtain ⟨frame, hnew⟩ := exists_newFrame (head.take (chunkLen limit head)) h
        (by rw [hchunk, toNat_maxFrameSize]; omega)
      obtain ⟨hchannel, hseqno, hfragment⟩ := (newFrame_eq_ok h.1).mp hnew
      have hpayload : frame.payload = head.take (chunkLen limit head) :=
        congrArg Fragment.payload hfragment
      have htag : (frame.kind, frame.msgno, frame.ansno) = (kind, msgno, ansno) :=
        congrArg Fragment.tag hfragment
      have hsplit := List.take_append_drop (chunkLen limit head) head
      by_cases hrest : head.drop (chunkLen limit head) = []
      · have hall : head.take (chunkLen limit head) = head := by
          rwa [hrest, List.append_nil] at hsplit
        have hnil : emitLoop kind msgno ansno limit remaining fuel
            (head.drop (chunkLen limit head))
            (channel.advance (head.take (chunkLen limit head)).length) =
            .ok [] (channel.advance (head.take (chunkLen limit head)).length) := by
          rw [hrest]
          exact emitLoop_nil (by omega)
        have hrun := emitLoop_cons hhead hnew hnil
        refine ⟨_, by rwa [hall] at hrun, ?_, ?_, ?_⟩
        · simp only [hrest, List.map_cons, List.map_nil, DataFrame.fragment,
            DataFrame.withMore, htag, hpayload, hall]
          exact .last head
        · simpa [DataFrame.withMore] using hchannel
        · intro first hfirst
          exact ⟨hseqno.trans hfirst, by simp [DataFrame.withMore, hpayload, hall,
            Spans]⟩
      · have h' : Frameable (channel.advance (chunkLen limit head)).number
            (kind, msgno, ansno) := h
        obtain ⟨frames, hloop, hcut, hconfined, hspans⟩ := ih hrest
          (by rw [List.length_drop]; omega) h'
        have hrun := emitLoop_cons hhead hnew (by rw [hchunk]; exact hloop)
        rw [advance_advance, List.length_drop,
          Nat.add_sub_cancel' htake.2.1] at hrun
        refine ⟨_, hrun, ?_, ?_, ?_⟩
        · have hfirst : (frame.withMore (head.drop (chunkLen limit head) ≠ [] ||
              remaining ≠ [])).fragment =
              ⟨(kind, msgno, ansno), true, head.take (chunkLen limit head)⟩ := by
            simp [DataFrame.fragment, DataFrame.withMore, htag, hpayload, hrest]
          rw [List.map_cons, hfirst]
          have hcons := Fragment.Cut.cons (head.take (chunkLen limit head)) hcut
          rwa [hsplit] at hcons
        · intro found hmem
          rcases List.mem_cons.mp hmem with rfl | hmem
          · exact hchannel
          · exact hconfined found hmem
        · intro first hfirst
          refine ⟨hseqno.trans hfirst, ?_⟩
          have hnext := hspans (first + chunkLen limit head) (by
            simp only [advance, hfirst, UInt32.ofNat_add])
          have hlen : first + chunkLen limit head +
              (head.drop (chunkLen limit head)).length = first + head.length := by
            rw [List.length_drop]
            omega
          have hframe : (frame.withMore (head.drop (chunkLen limit head) ≠ [] ||
              remaining ≠ [])).payload.length = chunkLen limit head := by
            simp only [DataFrame.withMore, hpayload, hchunk]
          rw [hlen] at hnext
          rw [hframe]
          exact hnext

end EmitLoop

theorem toNat_clampChunk (size : UInt32) :
    0 < (clampChunk size).toNat ∧
      (clampChunk size).toNat ≤ Proto.maxFrameSize.toNat := by
  have hone : (1 : UInt32).toNat = 1 := rfl
  rw [clampChunk, UInt32.toNat_max, UInt32.toNat_min, hone, toNat_maxFrameSize]
  omega

end Channel

/-- The frames of one emission, and the octets of the payload they carry. -/
structure Emission (channel : Channel) (front : Queued) (frames : List DataFrame)
    (sent remaining : Octets) : Prop where
  split : front.payload = sent ++ remaining
  cut : Fragment.Cut front.tag (remaining ≠ []) sent (frames.map DataFrame.fragment)
  confined : ∀ frame ∈ frames, frame.channel = channel.number
  spans : ∀ first, channel.nextSeqno = UInt32.ofNat first →
    Spans first frames (first + sent.length)
  fits : sent.length ≤ channel.writable.toNat
  exhausts : remaining ≠ [] → sent.length = channel.writable.toNat
  frameable : Frameable channel.number front.tag

namespace Channel

private theorem get_run (channel : Channel) :
    (get : Op Channel Channel) channel = .ok channel channel := rfl

/-- How many octets of a payload the window lets go. -/
def budgetOf (channel : Channel) (payload : Octets) : Nat :=
  min channel.writable.toNat (min payload.length (2 ^ 32 - 1))

theorem emit_nonempty {channel : Channel} {kind : FrameKind} {msgno : UInt32}
    {ansno : Option UInt32} {payload : Octets} (maxFrameSize : UInt32)
    (hansno : kind.hasAnsno = ansno.isSome) (hpayload : payload ≠ [])
    (hbudget : channel.writable ≠ 0) :
    emit kind msgno ansno payload maxFrameSize channel =
      (do
        let frames ← emitLoop kind msgno ansno (clampChunk maxFrameSize)
          (payload.drop (channel.budgetOf payload))
          ((payload.take (channel.budgetOf payload)).length + 1)
          (payload.take (channel.budgetOf payload))
        return Emitted.mk frames (payload.drop (channel.budgetOf payload)))
        channel := by
  rw [emit, if_neg (not_not_intro hansno), if_neg hpayload]
  refine (Computation.bind_of_ok (get_run channel) _).trans ?_
  rw [if_neg hbudget]
  rfl

theorem emit_stalled {channel : Channel} {kind : FrameKind} {msgno : UInt32}
    {ansno : Option UInt32} {payload : Octets} (maxFrameSize : UInt32)
    (hansno : kind.hasAnsno = ansno.isSome) (hpayload : payload ≠ [])
    (hbudget : channel.writable = 0) :
    emit kind msgno ansno payload maxFrameSize channel =
      .error (.error .channelStalled) channel := by
  rw [emit, if_neg (not_not_intro hansno), if_neg hpayload]
  refine (Computation.bind_of_ok (get_run channel) _).trans ?_
  rw [if_pos hbudget]
  rfl

theorem emit_empty {channel : Channel} {kind : FrameKind} {msgno : UInt32}
    {ansno : Option UInt32} (maxFrameSize : UInt32)
    (hansno : kind.hasAnsno = ansno.isSome) :
    emit kind msgno ansno [] maxFrameSize channel =
      (do
        let frame ← build kind msgno ansno [] false
        return Emitted.mk [frame] []) channel := by
  rw [emit, if_neg (not_not_intro hansno), if_pos rfl]

theorem budgetOf_pos {channel : Channel} {payload : Octets}
    (hpayload : payload ≠ []) (hbudget : channel.writable ≠ 0) :
    payload.take (channel.budgetOf payload) ≠ [] := by
  have hlen : 0 < payload.length := List.length_pos_iff.mpr hpayload
  have hwritable : 0 < channel.writable.toNat := by
    refine Nat.pos_of_ne_zero fun hzero => hbudget ?_
    exact UInt32.toNat_inj.mp hzero
  intro hnil
  have := congrArg List.length hnil
  rw [List.length_take, budgetOf] at this
  simp only [List.length_nil] at this
  omega

theorem emit_of_frameable {channel : Channel} {front : Queued}
    (maxFrameSize : UInt32) (h : Frameable channel.number front.tag)
    (hroom : front.payload = [] ∨ channel.writable ≠ 0) :
    ∃ emitted sent, emit front.kind front.msgno front.ansno front.payload
        maxFrameSize channel = .ok emitted (channel.advance sent.length) ∧
      Emission channel front emitted.frames sent emitted.remaining := by
  have hansno : front.kind.hasAnsno = front.ansno.isSome := h.1
  by_cases hpayload : front.payload = []
  · obtain ⟨frame, hnew⟩ := exists_newFrame [] h (Nat.zero_le _)
    obtain ⟨hchannel, hseqno, hfragment⟩ := (newFrame_eq_ok hansno).mp hnew
    have hbuild := channel.build_eq front.kind front.msgno front.ansno [] false
      (by decide)
    rw [hnew] at hbuild
    refine ⟨⟨[frame.withMore false], []⟩, [], ?_, ?_⟩
    · rw [hpayload, emit_empty maxFrameSize hansno]
      exact Computation.bind_of_ok hbuild _
    · have hnil : frame.payload = [] := congrArg Fragment.payload hfragment
      have htag : (frame.kind, frame.msgno, frame.ansno) = front.tag :=
        congrArg Fragment.tag hfragment
      have hpart : (frame.withMore false).fragment = ⟨front.tag, false, []⟩ := by
        simp only [DataFrame.fragment, DataFrame.withMore, hnil, htag]
      refine ⟨hpayload, ?_, ?_, ?_, Nat.zero_le _, by simp, h⟩
      · rw [List.map_singleton, hpart]
        exact .last []
      · simpa [DataFrame.withMore] using hchannel
      · intro first hfirst
        exact ⟨hseqno.trans hfirst, by simp [DataFrame.withMore, hnil, Spans]⟩
  · have hbudget := hroom.resolve_left hpayload
    obtain ⟨hpos, hmax⟩ := toNat_clampChunk maxFrameSize
    have hhead := budgetOf_pos hpayload hbudget
    obtain ⟨frames, hloop, hcut, hconfined, hspans⟩ := emitLoop_of_frameable
      hpos hmax hhead (Nat.lt_succ_self _) h
    refine ⟨⟨frames, front.payload.drop (channel.budgetOf front.payload)⟩,
      front.payload.take (channel.budgetOf front.payload), ?_, ?_⟩
    · rw [emit_nonempty maxFrameSize hansno hpayload hbudget]
      exact Computation.bind_of_ok hloop _
    · have hlt := channel.writable.toNat_lt
      refine ⟨(List.take_append_drop ..).symm, hcut, hconfined, hspans, ?_, ?_, h⟩
      · rw [List.length_take, budgetOf]
        omega
      · intro hrest
        have hlen := List.length_pos_iff.mpr hrest
        rw [List.length_drop, budgetOf] at hlen
        rw [List.length_take, budgetOf]
        omega

/-- A message that cannot be framed is refused when the window has room for it. -/
theorem emit_refused {channel : Channel} {front : Queued}
    (maxFrameSize : UInt32) (h : ¬ Frameable channel.number front.tag)
    (hroom : front.payload = [] ∨ channel.writable ≠ 0) :
    emit front.kind front.msgno front.ansno front.payload maxFrameSize channel =
      .error (.error (refusal channel.number front.tag)) channel := by
  by_cases hansno : front.kind.hasAnsno = front.ansno.isSome
  · have hnew : ∀ payload, channel.newFrame front.kind front.msgno front.ansno payload =
        .error (refusal channel.number front.tag) :=
      fun payload => newFrame_of_not_frameable payload hansno h
    by_cases hpayload : front.payload = []
    · have hbuild := channel.build_eq front.kind front.msgno front.ansno [] false
        (by decide)
      rw [hnew] at hbuild
      rw [hpayload, emit_empty maxFrameSize hansno]
      exact Computation.bind_of_error hbuild _
    · have hbudget := hroom.resolve_left hpayload
      rw [emit_nonempty maxFrameSize hansno hpayload hbudget]
      exact Computation.bind_of_error
        (emitLoop_of_error (budgetOf_pos hpayload hbudget) (hnew _)) _
  · have hrefusal : refusal channel.number front.tag = .missingField "ansno" := if_pos hansno
    rw [emit, if_pos hansno, hrefusal]
    rfl

theorem emit_of_not_frameable {channel : Channel} {front : Queued}
    (maxFrameSize : UInt32) (h : ¬ Frameable channel.number front.tag) :
    ∃ error, emit front.kind front.msgno front.ansno front.payload
      maxFrameSize channel = .error (.error error) channel := by
  by_cases hroom : front.payload = [] ∨ channel.writable ≠ 0
  · exact ⟨_, emit_refused maxFrameSize h hroom⟩
  · obtain ⟨hpayload, hbudget⟩ := not_or.mp hroom
    by_cases hansno : front.kind.hasAnsno = front.ansno.isSome
    · exact ⟨_, emit_stalled maxFrameSize hansno hpayload (not_not.mp hbudget)⟩
    · exact ⟨.missingField "ansno", by rw [emit, if_pos hansno]; rfl⟩

end Channel

/-! ## Flushing a queue -/

/-- The emissions of one flush, from a queue and a channel to what they leave. -/
inductive Flushes : List Queued → Channel → List DataFrame →
    List Queued → Channel → Prop where
  | rest (queue : List Queued) (channel : Channel) :
      Flushes queue channel [] queue channel
  | whole {front : Queued} {queue queue' : List Queued} {channel channel' : Channel}
      {frames more : List DataFrame} {sent : Octets} :
      Emission channel front frames sent [] →
      Flushes queue (channel.advance sent.length) more queue' channel' →
      Flushes (front :: queue) channel (frames ++ more) queue' channel'
  | part {front : Queued} {queue : List Queued} {channel : Channel}
      {frames : List DataFrame} {sent remaining : Octets} :
      Emission channel front frames sent remaining → remaining ≠ [] →
      Flushes (front :: queue) channel frames
        ({ front with payload := remaining } :: queue)
        (channel.advance sent.length)

/-- How many octets of payload wait in a queue. -/
def waiting (queue : List Queued) : Nat := (queue.map (·.payload.length)).sum

@[simp] theorem waiting_nil : waiting [] = 0 := rfl

@[simp] theorem waiting_cons (front : Queued) (queue : List Queued) :
    waiting (front :: queue) = front.payload.length + waiting queue := by
  simp [waiting]

namespace Flushes

variable {queue queue' : List Queued} {channel channel' : Channel}
variable {frames : List DataFrame}

theorem exists_count (h : Flushes queue channel frames queue' channel') :
    ∃ count, channel' = channel.advance count ∧
      count ≤ channel.writable.toNat ∧
      waiting queue = count + waiting queue' ∧
      ∀ first, channel.nextSeqno = UInt32.ofNat first →
        Spans first frames (first + count) := by
  induction h with
  | rest queue channel =>
      exact ⟨0, channel.advance_zero.symm, Nat.zero_le _, (Nat.zero_add _).symm,
        fun _ _ => rfl⟩
  | @whole front queue queue' channel channel' frames more sent hemission _ ih =>
      obtain ⟨count, rfl, hle, hwaiting, hspans⟩ := ih
      have hfits := hemission.fits
      have hsplit := hemission.split
      rw [List.append_nil] at hsplit
      rw [Channel.toNat_writable_advance hfits] at hle
      refine ⟨sent.length + count, Channel.advance_advance .., by omega, ?_, ?_⟩
      · rw [waiting_cons, hwaiting, hsplit, Nat.add_assoc]
      intro first hfirst
      have hnext := hspans (first + sent.length) (by
        simp only [Channel.advance, hfirst, UInt32.ofNat_add])
      rw [← Nat.add_assoc]
      exact (hemission.spans first hfirst).append hnext
  | @part front queue channel frames sent remaining hemission _ =>
      refine ⟨sent.length, rfl, hemission.fits, ?_, hemission.spans⟩
      rw [waiting_cons, waiting_cons, hemission.split, List.length_append,
        Nat.add_assoc]

theorem confined (h : Flushes queue channel frames queue' channel') :
    ∀ frame ∈ frames, frame.channel = channel.number := by
  induction h with
  | rest => simp
  | whole hemission _ ih =>
      intro frame hmem
      rcases List.mem_append.mp hmem with hmem | hmem
      · exact hemission.confined frame hmem
      · exact ih frame hmem
  | part hemission _ => exact hemission.confined

theorem tags (h : Flushes queue channel frames queue' channel') :
    ∀ left ∈ queue', ∃ queued ∈ queue, left.tag = queued.tag := by
  induction h with
  | rest => exact fun left hmem => ⟨left, hmem, rfl⟩
  | whole _ _ ih =>
      intro left hmem
      obtain ⟨queued, hqueued, htag⟩ := ih left hmem
      exact ⟨queued, List.mem_cons_of_mem _ hqueued, htag⟩
  | @part front queue _ _ _ _ _ _ =>
      intro left hmem
      rcases List.mem_cons.mp hmem with rfl | hmem
      · exact ⟨front, List.mem_cons_self .., rfl⟩
      · exact ⟨left, List.mem_cons_of_mem _ hmem, rfl⟩

theorem joins (h : Flushes queue channel frames queue' channel')
    {held : Option (Whole Tag UInt8)} {pending : List (Whole Tag UInt8)}
    (hheld : Fragment.Continues held (queue.map Queued.whole) pending) :
    ∃ held' done rest,
      Fragment.assemble held (frames.map DataFrame.fragment) =
        some (held', done) ∧
      Fragment.Continues held' (queue'.map Queued.whole) rest ∧
      pending = done ++ rest := by
  induction h generalizing held pending with
  | rest => exact ⟨held, [], pending, rfl, hheld, rfl⟩
  | @whole front queue queue' channel channel' frames more sent hemission _ ih =>
      have hcut := hemission.cut
      have hsplit := hemission.split
      rw [List.append_nil] at hsplit
      have hfront : front.whole = ⟨front.tag, sent⟩ := by
        rw [Queued.whole, hsplit]
      rw [List.map_cons, hfront] at hheld
      obtain ⟨joined, hassemble, rfl⟩ := hheld.finish (by simpa using hcut)
      obtain ⟨held', done, rest, hmore, hrest, hpending⟩ :=
        ih (.fresh (queue.map Queued.whole))
      refine ⟨held', joined :: done, rest, ?_, hrest, by rw [hpending]; rfl⟩
      rw [List.map_append]
      exact Fragment.assemble_append_some hassemble hmore
  | @part front queue channel frames sent remaining hemission hrest =>
      have hcut := hemission.cut
      have hfront : front.whole = ⟨front.tag, sent ++ remaining⟩ := by
        rw [Queued.whole, hemission.split]
      rw [List.map_cons, hfront] at hheld
      obtain ⟨held', hassemble, hcontinues⟩ :=
        hheld.interrupt (by simpa [hrest] using hcut) hrest
      exact ⟨held', [], pending, hassemble, hcontinues, rfl⟩

/-- The last message is written to its end, or what is left of it stays last. -/
theorem getLast (h : Flushes queue channel frames queue' channel')
    {message : Queued} (hlast : message ∈ queue.getLast?) :
    queue' = [] ∨ ∃ left ∈ queue'.getLast?, left.tag = message.tag ∧
      left.payload <:+ message.payload := by
  induction h with
  | rest => exact .inr ⟨message, hlast, rfl, List.suffix_rfl⟩
  | @whole front queue queue' channel channel' frames more sent _ hmore ih =>
      cases queue with
      | nil =>
          cases hmore
          exact .inl rfl
      | cons next queue => exact ih (by rwa [List.getLast?_cons_cons] at hlast)
  | @part front queue channel frames sent remaining hemission _ =>
      refine .inr ?_
      cases queue with
      | nil =>
          cases hlast
          exact ⟨_, rfl, rfl, sent, hemission.split.symm⟩
      | cons next queue =>
          rw [List.getLast?_cons_cons] at hlast
          exact ⟨message, by rwa [List.getLast?_cons_cons], rfl, List.suffix_rfl⟩

end Flushes

/-- The window has no room for the message. -/
def Channel.Waits (channel : Channel) (front : Queued) : Prop :=
  front.payload ≠ [] ∧ channel.writable = 0

/-- No frame of the channel can carry the message, whatever the window. -/
def Channel.Refuses (channel : Channel) (front : Queued) : Prop :=
  ¬ Frameable channel.number front.tag ∧
    (front.payload = [] ∨ channel.writable ≠ 0)

/-- How the loop of `flush` ends: at a message that waits, or one it refuses. -/
def Stops (queue : List Queued) (channel : Channel) (result : Except Fault Unit) :
    Prop :=
  (result = .ok () ∧ ∀ front ∈ queue.head?, channel.Waits front) ∨
    ∃ front ∈ queue.head?, channel.Refuses front ∧
      result = .error (.error (refusal channel.number front.tag))

theorem flushLoop_flushes (maxFrameSize : UInt32) (queue : List Queued)
    (channel : Channel) :
    ∃ queue' channel' frames result,
      flushLoop maxFrameSize queue channel = (queue', channel', frames, result) ∧
      Flushes queue channel frames queue' channel' ∧
      Stops queue' channel' result := by
  induction queue generalizing channel with
  | nil => exact ⟨[], channel, [], .ok (), rfl, .rest [] channel, .inl ⟨rfl, nofun⟩⟩
  | cons front queue ih =>
      by_cases hstalled : channel.isStalled ∧ front.payload ≠ []
      · refine ⟨front :: queue, channel, [], .ok (), ?_, .rest _ channel,
          .inl ⟨rfl, ?_⟩⟩
        · rw [flushLoop, if_pos hstalled]
        · rintro _ ⟨⟩
          exact ⟨hstalled.2, of_decide_eq_true hstalled.1⟩
      · have hroom : front.payload = [] ∨ channel.writable ≠ 0 := by
          by_cases hpayload : front.payload = []
          · exact .inl hpayload
          · refine .inr fun hzero => hstalled ⟨?_, hpayload⟩
            simpa [Channel.isStalled] using hzero
        by_cases hframeable : Frameable channel.number front.tag
        · obtain ⟨emitted, sent, hemit, hemission⟩ :=
            Channel.emit_of_frameable maxFrameSize hframeable hroom
          by_cases hcomplete : emitted.remaining = []
          · rw [hcomplete] at hemission
            obtain ⟨queue', channel', frames, result, hloop, hflushes, hstops⟩ :=
              ih (channel.advance sent.length)
            refine ⟨queue', channel', emitted.frames ++ frames, result, ?_,
              .whole hemission hflushes, hstops⟩
            rw [flushLoop, if_neg hstalled]
            simp only [hemit, Emitted.isComplete, hcomplete, decide_true,
              if_true, hloop]
          · refine ⟨_, _, emitted.frames, .ok (), ?_, .part hemission hcomplete,
              .inl ⟨rfl, ?_⟩⟩
            · rw [flushLoop, if_neg hstalled]
              simp only [hemit, Emitted.isComplete, hcomplete, decide_false,
                Bool.false_eq_true, if_false]
            · rintro _ ⟨⟩
              refine ⟨hcomplete, UInt32.toNat_inj.mp ?_⟩
              rw [Channel.toNat_writable_advance hemission.fits,
                hemission.exhausts hcomplete]
              exact Nat.sub_self _
        · refine ⟨front :: queue, channel, [], _, ?_, .rest _ channel,
            .inr ⟨front, rfl, ⟨hframeable, hroom⟩, rfl⟩⟩
          rw [flushLoop, if_neg hstalled]
          simp only [Channel.emit_refused maxFrameSize hframeable hroom]

theorem flushLoop_stays (maxFrameSize : UInt32) {queue : List Queued}
    {channel : Channel}
    (h : ∀ front ∈ queue.head?, channel.Waits front ∨ channel.Refuses front) :
    ∃ result, flushLoop maxFrameSize queue channel = (queue, channel, [], result) ∧
      Stops queue channel result := by
  cases queue with
  | nil => exact ⟨.ok (), rfl, .inl ⟨rfl, nofun⟩⟩
  | cons front queue =>
      rw [flushLoop]
      rcases h front rfl with hwaits | hrefuses
      · obtain ⟨hpayload, hzero⟩ := hwaits
        have hstalled : channel.isStalled := by simpa [Channel.isStalled] using hzero
        rw [if_pos ⟨hstalled, hpayload⟩]
        refine ⟨_, rfl, .inl ⟨rfl, ?_⟩⟩
        rintro _ ⟨⟩
        exact ⟨hpayload, hzero⟩
      · obtain ⟨hframeable, hroom⟩ := hrefuses
        have hstalled : ¬ (channel.isStalled ∧ front.payload ≠ []) := by
          rintro ⟨hstalled, hpayload⟩
          exact hroom.elim hpayload fun hne => hne (by
            simpa [Channel.isStalled] using hstalled)
        rw [if_neg hstalled]
        simp only [Channel.emit_refused maxFrameSize hframeable hroom]
        exact ⟨_, rfl, .inr ⟨front, rfl, ⟨hframeable, hroom⟩, rfl⟩⟩

end Vortice.Proto
