import Vortice.Proto.Grammar

/-!
# Encoding and decoding are inverse

Every rendered frame is among the octets the grammar accepts, so a decoder
takes exactly that frame off the front of a buffer.  Over a stream this gives
back the list of frames that was written to it.
-/

namespace Vortice.Proto

open Vortice.Foundation

/-- Frames a decoder limited to payloads of `limit` octets may take. -/
def Frame.Fits (limit : UInt32) : Frame → Prop
  | .data frame => frame.size ≤ limit
  | .seq _ => True

theorem Frame.fits_maxFrameSize (frame : Frame) : frame.Fits maxFrameSize := by
  cases frame with
  | data frame =>
      rw [Fits, UInt32.le_iff_toNat_le, frame.toNat_size]
      exact frame.payload_le
  | seq frame => trivial

/-! ## Rendered frames are in the grammar -/

private def SeqFrame.line (frame : SeqFrame) : Octets :=
  octets "SEQ" ++ octets " " ++ putU32 frame.channel ++ octets " " ++
    putU32 frame.ackno ++ octets " " ++ putU32 frame.window

private def DataFrame.tail (frame : DataFrame) : Octets :=
  match frame.ansno with
  | some ansno => octets " " ++ putU32 ansno
  | none => []

private def DataFrame.line (frame : DataFrame) : Octets :=
  octets frame.kind.asStr ++ octets " " ++ putU32 frame.channel ++
    octets " " ++ putU32 frame.msgno ++ octets " " ++
    [continuation frame.more] ++ octets " " ++ putU32 frame.seqno ++
    octets " " ++ putU32 frame.size ++ frame.tail

theorem SeqFrame.headerLine (frame : SeqFrame) (limit : UInt32) :
    HeaderLine limit frame.line (.seq frame) :=
  ⟨_, _, _, rfl, numeral_putU32 frame.channel_le,
    numeral_putU32 (UInt32.le_iff_toNat_le.mpr
      (Nat.le_of_lt_succ frame.ackno.toNat_lt)),
    numeral_putU32 frame.window_le⟩

theorem DataFrame.ansnoField (frame : DataFrame) :
    AnsnoField frame.kind frame.tail frame.ansno := by
  have hkind := frame.hasAnsno_eq
  have hle := frame.ansno_le
  unfold DataFrame.tail
  cases hansno : frame.ansno with
  | none =>
      rw [hansno] at hkind
      refine ⟨?_, rfl⟩
      rintro hans
      rw [hans] at hkind
      cases hkind
  | some ansno =>
      rw [hansno] at hkind hle
      refine ⟨?_, _, rfl, numeral_putU32 (hle ansno rfl)⟩
      revert hkind
      cases frame.kind <;> simp [FrameKind.hasAnsno]

theorem DataFrame.headerLine (frame : DataFrame) {limit : UInt32}
    (h : frame.size ≤ limit) :
    HeaderLine limit frame.line (.data frame.header) := by
  have hsize : frame.size ≤ Proto.maxFrameSize :=
    (Frame.data frame).fits_maxFrameSize
  exact ⟨_, _, _, _, _, rfl, numeral_putU32 frame.channel_le,
    numeral_putU32 frame.msgno_le,
    numeral_putU32 (UInt32.le_iff_toNat_le.mpr
      (Nat.le_of_lt_succ frame.seqno.toNat_lt)),
    numeral_putU32 hsize, h, frame.ansnoField⟩

theorem newline_notMem_putU32 (value : UInt32) : 10 ∉ putU32 value := by
  have hle : value ≤ maxSeqNo :=
    UInt32.le_iff_toNat_le.mpr (Nat.le_of_lt_succ value.toNat_lt)
  exact (numeral_putU32 hle).no_newline

theorem SeqFrame.startsWithLine (frame : SeqFrame) (rest : Octets) :
    StartsWithLine (frame.encode ++ rest) frame.line rest := by
  refine ⟨?_, ?_, ?_⟩
  · have hseq : octets "SEQ " = octets "SEQ" ++ octets " " := rfl
    simp [encode, line, hseq]
  · have hseq : 10 ∉ octets "SEQ" := by decide
    simp [line, hseq, newline_notMem_putU32]
  · have hseq : (octets "SEQ").length = 3 := rfl
    have := length_putU32_le frame.channel
    have := length_putU32_le frame.ackno
    have := length_putU32_le frame.window
    simp only [line, List.length_append, hseq, octets_space,
      List.length_singleton, maxHeaderLen]
    omega

theorem DataFrame.newline_notMem_line (frame : DataFrame) :
    10 ∉ frame.line := by
  have hkind : 10 ∉ octets frame.kind.asStr := by
    cases frame.kind <;> decide
  have hmore : 10 ≠ continuation frame.more := by
    cases frame.more <;> decide
  have htail : 10 ∉ frame.tail := by
    unfold DataFrame.tail
    split
    · simp [newline_notMem_putU32]
    · simp
  simp [line, hkind, hmore, htail, newline_notMem_putU32]

theorem DataFrame.startsWithLine (frame : DataFrame) (rest : Octets) :
    StartsWithLine (frame.encode ++ rest) frame.line
      (frame.payload ++ trailer ++ rest) := by
  refine ⟨?_, frame.newline_notMem_line, ?_⟩
  · cases hansno : frame.ansno <;>
      simp [encode, line, DataFrame.tail, hansno]
  · have htail : frame.tail.length ≤ 11 := by
      unfold DataFrame.tail
      split
      · rename_i ansno _
        have := length_putU32_le ansno
        simp
        omega
      · simp
    have := length_putU32_le frame.channel
    have := length_putU32_le frame.msgno
    have := length_putU32_le frame.seqno
    have := length_putU32_le frame.size
    simp only [line, List.length_append, FrameKind.length_asStr, octets_space,
      List.length_singleton, maxHeaderLen]
    omega

theorem Frame.denotes_encode {frame : Frame} {limit : UInt32}
    (h : frame.Fits limit) (rest : Octets) :
    Denotes limit (frame.encode ++ rest) frame rest := by
  cases frame with
  | seq frame =>
      exact ⟨frame.line, frame.headerLine limit, frame.startsWithLine rest⟩
  | data frame =>
      exact ⟨frame.line, frame.headerLine h, frame.startsWithLine rest⟩

theorem Frame.exists_headerLine (frame : Frame) :
    ∃ line rest, StartsWithLine frame.encode line rest := by
  cases frame with
  | seq frame =>
      have h := frame.startsWithLine []
      rw [List.append_nil] at h
      exact ⟨_, _, h⟩
  | data frame =>
      have h := frame.startsWithLine []
      rw [List.append_nil] at h
      exact ⟨_, _, h⟩

/-! ## Streams of frames -/

namespace Decoder

theorem decode_encode {frame : Frame} {limit : UInt32} (h : frame.Fits limit)
    (rest : Octets) :
    (withMaxFrameSize limit).decode (frame.encode ++ rest) =
      (withMaxFrameSize limit, rest, .ok (some frame)) :=
  decode_of_denotes (Frame.denotes_encode h rest)

/-- One after the other, `decoder` takes `frames` off `src`. -/
inductive Yields : Decoder → Octets → List Frame → Decoder → Octets → Prop where
  | nil (decoder : Decoder) (src : Octets) : Yields decoder src [] decoder src
  | cons {decoder decoder' decoder'' : Decoder} {src src' src'' : Octets}
      {frame : Frame} {frames : List Frame} :
      decoder.decode src = (decoder', src', .ok (some frame)) →
      Yields decoder' src' frames decoder'' src'' →
      Yields decoder src (frame :: frames) decoder'' src''

theorem yields_encodeAll {frames : List Frame} {limit : UInt32}
    (h : ∀ frame ∈ frames, frame.Fits limit) (rest : Octets) :
    Yields (withMaxFrameSize limit) (encodeAll frames ++ rest) frames
      (withMaxFrameSize limit) rest := by
  induction frames with
  | nil => exact .nil _ _
  | cons frame frames ih =>
      rw [encodeAll_cons, List.append_assoc]
      refine .cons (decode_encode (h frame (List.mem_cons_self ..)) _) ?_
      exact ih fun frame hmem => h frame (List.mem_cons_of_mem _ hmem)

/-- Keep the frames a decoder yields, refusing none. -/
def collect (frames : List Frame) (frame : Frame) :
    List Frame × Except Error Unit :=
  (frames ++ [frame], .ok ())

/-- Everything `decode` yields until it needs more input or fails. -/
def drain (decoder : Decoder) (src : Octets) :
    Fed (List Frame) Decoder UInt8 × Except Error Unit :=
  resumable.drain id collect ⟨[], decoder, src⟩

theorem drain_collected (frames : List Frame) (decoder : Decoder)
    (src : Octets) :
    resumable.drain id collect ⟨frames, decoder, src⟩ =
      match decoder.drain src with
      | (fed, result) => ({ fed with state := frames ++ fed.state }, result) := by
  suffices h : ∀ n frames more decoder src, src.length = n →
      resumable.drain id collect ⟨frames ++ more, decoder, src⟩ =
        match resumable.drain id collect ⟨more, decoder, src⟩ with
        | (fed, result) =>
            ({ fed with state := frames ++ fed.state }, result) by
    have := h src.length frames [] decoder src rfl
    rwa [List.append_nil] at this
  intro n
  induction n using Nat.strong_induction_on with
  | _ n ih =>
      intro frames more decoder src hlen
      rcases hdecode : resumable.decode decoder src with
        ⟨decoder', rest, error | _ | frame⟩
      · rw [resumable.drain_of_error id collect hdecode,
          resumable.drain_of_error id collect hdecode]
      · rw [resumable.drain_of_none id collect hdecode,
          resumable.drain_of_none id collect hdecode]
      · have hlt := resumable.item_shortens hdecode
        rw [resumable.drain_of_item id collect hdecode rfl,
          resumable.drain_of_item id collect hdecode rfl, List.append_assoc]
        exact ih rest.length (by omega) frames (more ++ [frame]) decoder' rest rfl

theorem Yields.drain {decoder decoder' : Decoder} {src src' : Octets}
    {frames : List Frame} (h : Yields decoder src frames decoder' src') :
    decoder.drain src =
      match decoder'.drain src' with
      | (fed, result) => ({ fed with state := frames ++ fed.state }, result) := by
  induction h with
  | nil decoder src => rfl
  | @cons decoder decoder' decoder'' src src' src'' frame frames hdecode _ ih =>
      have hitem : resumable.decode decoder src =
          (decoder', src', .ok (some frame)) := hdecode
      rw [Decoder.drain, resumable.drain_of_item id collect hitem rfl,
        drain_collected, ih]
      simp

/--
Frames come back from their encodings: each takes `encoded_len` octets and a
header line of legal length, a fresh decoder that drains their concatenation
takes exactly these frames and goes on with exactly what followed them, and a
frame taken off any buffer by any decoder encodes to octets that decode to it.
-/
theorem encode_decode_round_trip (frames : List Frame) (trailing : Octets) :
    (∀ frame ∈ frames, frame.encode.length = frame.encodedLen ∧
      ∃ line rest, StartsWithLine frame.encode line rest) ∧
    Yields Decoder.new (encodeAll frames ++ trailing) frames Decoder.new
      trailing ∧
    (Decoder.new.drain (encodeAll frames ++ trailing) =
      match Decoder.new.drain trailing with
      | (fed, result) =>
          ({ fed with state := frames ++ fed.state }, result)) ∧
    (∀ (decoder decoder' : Decoder) (buffer rest : Octets) (frame : Frame),
      decoder.decode buffer = (decoder', rest, .ok (some frame)) →
      Decoder.new.decode frame.encode = (Decoder.new, [], .ok (some frame))) := by
  have hyields : Yields Decoder.new (encodeAll frames ++ trailing) frames
      Decoder.new trailing :=
    yields_encodeAll (fun frame _ => frame.fits_maxFrameSize) trailing
  refine ⟨?_, hyields, hyields.drain, ?_⟩
  · intro frame _
    exact ⟨frame.length_encode, frame.exists_headerLine⟩
  · intro _ _ _ _ frame _
    have h := decode_encode frame.fits_maxFrameSize []
    rwa [List.append_nil] at h

end Decoder

end Vortice.Proto
