import Vortice.Proto.Emit

/-!
# Frames that fit

What a call of `emit` writes is cut exactly out of the payload, fits the frame
size and lies in the window the peer has announced.  A call that fails has
written nothing.
-/

namespace Vortice.Proto

open Vortice.Foundation

/-- Every octet of a frame lies in the window. -/
def Window.Holds (window : Window) (frame : DataFrame) : Prop :=
  ∀ k < frame.payload.length,
    (SeqNo.distanceFrom (frame.seqno + UInt32.ofNat k) window.base).toNat <
      window.size.toNat

theorem Spans.mem {first last : Nat} {frames : List DataFrame}
    (h : Spans first frames last) {frame : DataFrame} (hmem : frame ∈ frames) :
    ∃ start, frame.seqno = UInt32.ofNat start ∧ first ≤ start ∧
      start + frame.payload.length ≤ last := by
  induction frames generalizing first with
  | nil => cases hmem
  | cons head frames ih =>
      obtain ⟨hseqno, hrest⟩ := h
      rcases List.mem_cons.mp hmem with rfl | hmem
      · exact ⟨first, hseqno, le_rfl, hrest.le⟩
      · obtain ⟨start, hstart, hle, hlast⟩ := ih hrest hmem
        exact ⟨start, hstart, by omega, hlast⟩

theorem Window.distance_lt {window : Window} {next : SeqNo} {k : Nat}
    (h : k < (window.remaining next).toNat) :
    (SeqNo.distanceFrom (next + UInt32.ofNat k) window.base).toNat <
      window.size.toNat := by
  by_cases hle : (next - window.base).toNat ≤ window.size.toNat
  · rw [Window.toNat_remaining hle] at h
    have hsize := window.size.toNat_lt
    have hk : (UInt32.ofNat k).toNat = k := by
      rw [UInt32.toNat_ofNat']
      omega
    have hcomm : next + UInt32.ofNat k - window.base =
        next - window.base + UInt32.ofNat k := by
      grind
    rw [SeqNo.distanceFrom, hcomm, UInt32.toNat_add, hk]
    omega
  · rw [Window.remaining_of_lt (Nat.lt_of_not_le hle)] at h
    exact absurd h (Nat.not_lt_zero k)

/-- Frames written one after the other in the room of a window lie in the window. -/
theorem Spans.holds {window : Window} {next : SeqNo} {count : Nat}
    {frames : List DataFrame}
    (h : Spans next.toNat frames (next.toNat + count))
    (hfits : count ≤ (window.remaining next).toNat) :
    ∀ frame ∈ frames, window.Holds frame := by
  intro frame hmem k hk
  obtain ⟨start, hseqno, hle, hlast⟩ := h.mem hmem
  have hstart : frame.seqno + UInt32.ofNat k =
      next + UInt32.ofNat (start - next.toNat + k) := by
    have hsum : start + k = next.toNat + (start - next.toNat + k) := by omega
    rw [hseqno, ← UInt32.ofNat_add, hsum, UInt32.ofNat_add, UInt32.ofNat_toNat]
  rw [hstart]
  exact Window.distance_lt (by omega)

namespace Channel

variable {kind : FrameKind} {msgno : UInt32} {ansno : Option UInt32}
variable {limit maxFrameSize : UInt32} {remaining head payload : Octets} {fuel : Nat}
variable {channel channel' : Channel}

theorem emitLoop_ok {frames : List DataFrame} (hansno : kind.hasAnsno = ansno.isSome)
    (hhead : head ≠ [])
    (h : emitLoop kind msgno ansno limit remaining (fuel + 1) head channel =
      .ok frames channel') :
    ∃ frame rest middle, frames = frame :: rest ∧
      frame.payload = head.take (chunkLen limit head) ∧
      emitLoop kind msgno ansno limit remaining fuel (head.drop (chunkLen limit head))
        middle = .ok rest channel' := by
  rw [emitLoop, if_neg hhead] at h
  obtain ⟨frame, middle, hbuild, h⟩ := Computation.ok_of_bind h
  obtain ⟨rest, last, hrest, h⟩ := Computation.ok_of_bind h
  cases h
  refine ⟨frame, rest, middle, rfl, ?_, hrest⟩
  rw [build_eq _ _ _ _ _ _ (by rw [List.length_take, chunkLen]; omega)] at hbuild
  cases hnew : channel.newFrame kind msgno ansno (head.take (chunkLen limit head)) with
  | error error =>
      rw [hnew] at hbuild
      cases hbuild
  | ok built =>
      rw [hnew] at hbuild
      cases hbuild
      obtain ⟨-, -, hfragment⟩ := (newFrame_eq_ok hansno).mp hnew
      exact congrArg Fragment.payload hfragment

theorem length_emitLoop {frames : List DataFrame}
    (hansno : kind.hasAnsno = ansno.isSome) (hlimit : 0 < limit.toNat)
    (h : emitLoop kind msgno ansno limit remaining fuel head channel =
      .ok frames channel') :
    ∀ frame ∈ frames, frame.payload ≠ [] ∧ frame.payload.length ≤ limit.toNat := by
  induction fuel generalizing head channel frames with
  | zero => cases h
  | succ fuel ih =>
      by_cases hhead : head = []
      · subst hhead
        cases h
        exact nofun
      · obtain ⟨frame, rest, middle, rfl, hpayload, hrest⟩ := emitLoop_ok hansno hhead h
        have hpos : 0 < head.length := List.length_pos_iff.mpr hhead
        have hchunk : frame.payload.length = chunkLen limit head := by
          rw [hpayload, List.length_take, chunkLen]
          omega
        intro found hmem
        rcases List.mem_cons.mp hmem with rfl | hmem
        · rw [← List.length_pos_iff, hchunk, chunkLen]
          omega
        · exact ih hrest found hmem

/-- What is written of a payload, and what is left of it. -/
structure Cuts (channel : Channel) (tag : Tag) (payload : Octets)
    (maxFrameSize : UInt32) (emitted : Emitted) (channel' : Channel) : Prop where
  joined : emitted.frames.flatMap DataFrame.payload ++ emitted.remaining = payload
  labelled : ∀ frame ∈ emitted.frames, frame.channel = channel.number ∧
    (frame.kind, frame.msgno, frame.ansno) = tag
  consecutive : Spans channel.nextSeqno.toNat emitted.frames
    (channel.nextSeqno.toNat + (emitted.frames.flatMap DataFrame.payload).length)
  advanced : channel' =
    channel.advance (emitted.frames.flatMap DataFrame.payload).length
  sized : ∀ frame ∈ emitted.frames,
    frame.payload.length ≤ max 1 (min maxFrameSize.toNat Proto.maxFrameSize.toNat)
  held : ∀ frame ∈ emitted.frames, channel.sendWindow.Holds frame
  filled : ∀ frame ∈ emitted.frames, frame.payload = [] →
    payload = [] ∧ emitted.frames = [frame]
  flagged : ∃ front last, emitted.frames = front ++ [last] ∧
    (∀ frame ∈ front, frame.more) ∧ (last.more ↔ emitted.remaining ≠ [])
  exhausted : emitted.remaining ≠ [] → channel'.writable = 0

theorem emit_sized {emitted : Emitted} (hansno : kind.hasAnsno = ansno.isSome)
    (hpayload : payload ≠ []) (hbudget : channel.writable ≠ 0)
    (h : emit kind msgno ansno payload maxFrameSize channel = .ok emitted channel') :
    ∀ frame ∈ emitted.frames, frame.payload ≠ [] ∧
      frame.payload.length ≤ (clampChunk maxFrameSize).toNat := by
  rw [emit_nonempty maxFrameSize hansno hpayload hbudget] at h
  obtain ⟨frames, middle, hloop, h⟩ := Computation.ok_of_bind h
  cases h
  exact length_emitLoop hansno (toNat_clampChunk maxFrameSize).1 hloop

theorem emit_empty_ok {emitted : Emitted} (hansno : kind.hasAnsno = ansno.isSome)
    (h : emit kind msgno ansno [] maxFrameSize channel = .ok emitted channel') :
    ∃ frame, emitted.frames = [frame] := by
  rw [emit_empty maxFrameSize hansno] at h
  obtain ⟨frame, middle, -, h⟩ := Computation.ok_of_bind h
  cases h
  exact ⟨frame, rfl⟩

theorem cuts_of_emission {front : Queued} {emitted : Emitted} {sent : Octets}
    (h : Emission channel front emitted.frames sent emitted.remaining)
    (hroom : front.payload = [] ∨ channel.writable ≠ 0)
    (hemit : emit front.kind front.msgno front.ansno front.payload maxFrameSize channel =
      .ok emitted (channel.advance sent.length)) :
    channel.Cuts front.tag front.payload maxFrameSize emitted
      (channel.advance sent.length) := by
  have hansno := h.frameable.1
  have hsent : emitted.frames.flatMap DataFrame.payload = sent := by
    rw [← h.cut.flatMap_payload, List.flatMap_map]
    rfl
  have hspans : Spans channel.nextSeqno.toNat emitted.frames
      (channel.nextSeqno.toNat + sent.length) :=
    h.spans _ UInt32.ofNat_toNat.symm
  have hsized : ∀ frame ∈ emitted.frames,
      frame.payload.length ≤ (clampChunk maxFrameSize).toNat ∧
        (frame.payload = [] → front.payload = [] ∧ emitted.frames = [frame]) := by
    intro frame hmem
    by_cases hpayload : front.payload = []
    · rw [hpayload] at hemit
      obtain ⟨only, honly⟩ := emit_empty_ok hansno hemit
      rw [honly, List.mem_singleton] at hmem
      subst hmem
      have hnil : frame.payload = [] := by
        have hsplit := h.split
        rw [hpayload, ← hsent, honly, List.flatMap_singleton] at hsplit
        exact (List.append_eq_nil_iff.mp hsplit.symm).1
      rw [hnil]
      exact ⟨Nat.zero_le _, fun _ => ⟨hpayload, honly⟩⟩
    · obtain ⟨hne, hle⟩ := emit_sized hansno hpayload (hroom.resolve_left hpayload)
        hemit frame hmem
      exact ⟨hle, fun hnil => absurd hnil hne⟩
  obtain ⟨fragments, final, hfragments, hfinal, hmore⟩ := h.cut.more_eq
  obtain ⟨before, lasts, hframes, hbefore, hlasts⟩ := List.map_eq_append_iff.mp hfragments
  obtain ⟨last, rfl, hlast⟩ := List.map_eq_singleton_iff.mp hlasts
  refine ⟨?_, ?_, ?_, ?_, ?_, ?_, ?_, ⟨before, last, hframes, ?_, ?_⟩, ?_⟩
  · rw [hsent]
    exact h.split.symm
  · intro frame hmem
    exact ⟨h.confined frame hmem, h.cut.tag_eq _ (List.mem_map_of_mem hmem)⟩
  · rw [hsent]
    exact hspans
  · rw [hsent]
  · intro frame hmem
    have := (hsized frame hmem).1
    rwa [clampChunk, UInt32.toNat_max, UInt32.toNat_min] at this
  · exact hspans.holds h.fits
  · exact fun frame hmem => (hsized frame hmem).2
  · intro frame hmem
    refine hmore frame.fragment ?_
    rw [← hbefore]
    exact List.mem_map_of_mem hmem
  · have : last.fragment.more = last.more := rfl
    rw [← this, hlast, hfinal, decide_eq_true_iff]
  · intro hrest
    refine UInt32.toNat_inj.mp ?_
    rw [toNat_writable_advance h.fits, h.exhausts hrest]
    exact Nat.sub_self _

/-- A payload is cut exactly, or the channel is left as it was. -/
theorem emit_cuts (channel : Channel) (kind : FrameKind) (msgno : UInt32)
    (ansno : Option UInt32) (payload : Octets) (maxFrameSize : UInt32) :
    match emit kind msgno ansno payload maxFrameSize channel with
    | .ok emitted channel' =>
        channel.Cuts (kind, msgno, ansno) payload maxFrameSize emitted channel'
    | .error fault channel' => channel' = channel ∧ ∃ error, fault = .error error := by
  by_cases hframeable : Frameable channel.number (kind, msgno, ansno)
  · by_cases hroom : payload = [] ∨ channel.writable ≠ 0
    · have hfront : Frameable channel.number (Queued.mk kind msgno ansno payload).tag := hframeable
      obtain ⟨emitted, sent, hemit, hemission⟩ := emit_of_frameable maxFrameSize hfront hroom
      rw [hemit]
      exact cuts_of_emission hemission hroom hemit
    · obtain ⟨hpayload, hbudget⟩ := not_or.mp hroom
      rw [emit_stalled maxFrameSize hframeable.1 hpayload (not_not.mp hbudget)]
      exact ⟨rfl, _, rfl⟩
  · have hfront : ¬ Frameable channel.number (Queued.mk kind msgno ansno payload).tag := hframeable
    obtain ⟨error, hemit⟩ := emit_of_not_frameable maxFrameSize hfront
    rw [hemit]
    exact ⟨rfl, error, rfl⟩

end Channel

end Vortice.Proto
