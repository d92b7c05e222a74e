import Vortice.Foundation.Resumable
import Vortice.Proto.Frame

/-!
# Incremental decoding of frames

The decoder of the source, one definition per function.  A call takes the
decoder and the buffer and returns both as it leaves them, on an error too.
The accumulator of `parse_u32` is a `u64` that stays below 2^36, so it is a
natural number here.
-/

namespace Vortice.Proto

open Vortice.Foundation

/-- A parsed data frame header, still waiting for its payload and trailer. -/
structure DataHeader where
  kind : FrameKind
  channel : UInt32
  msgno : UInt32
  more : Bool
  seqno : UInt32
  size : UInt32
  ansno : Option UInt32
  deriving DecidableEq

/-- The part of a header line that is still to be split at spaces. -/
structure Fields where
  rest : Option Octets

namespace Fields

def new (rest : Octets) : Fields := ⟨some rest⟩

def next (fields : Fields) (field : String) : Except Error (Octets × Fields) :=
  match fields.rest with
  | none => .error (.missingField field)
  | some rest =>
      let (value, remaining) :=
        match find rest 32 with
        | some i => (rest.take i, some (rest.drop (i + 1)))
        | none => (rest, none)
      if value = [] then .error (.missingField field)
      else .ok (value, ⟨remaining⟩)

def finish (fields : Fields) : Except Error Unit :=
  if fields.rest.isSome then
    .error (.malformedHeader "trailing octets after the last header field")
  else .ok ()

end Fields

def parseU32Loop (name : String) (max : UInt32) :
    Octets → Nat → Except Error Nat
  | [], value => .ok value
  | octet :: field, value =>
      if Decimal.isDigit octet then
        let value := value * 10 + (octet.toNat - 48)
        if value > max.toNat then .error (.valueOutOfRange name max)
        else parseU32Loop name max field value
      else .error (.invalidDigit name)

def parseU32 (field : Octets) (name : String) (max : UInt32) :
    Except Error UInt32 :=
  (parseU32Loop name max field 0).map UInt32.ofNat

def parseContinuation (field : Octets) : Except Error Bool :=
  match field with
  | [found] =>
      if found = complete then .ok false
      else if found = intermediate then .ok true
      else .error (.invalidContinuation found)
  | _ => .error (.malformedHeader
      "continuation indicator must be a single character")

/-- The outcome of parsing one header line. -/
inductive Parsed where
  | data (header : DataHeader)
  | seq (frame : SeqFrame)
  deriving DecidableEq

def parseSeq (fields : Fields) : Except Error Parsed := do
  let (channel, fields) ← fields.next "channel"
  let channel ← parseU32 channel "channel" maxChannelNo
  let (ackno, fields) ← fields.next "ackno"
  let ackno ← parseU32 ackno "ackno" maxSeqNo
  let (window, fields) ← fields.next "window"
  let window ← parseU32 window "window" maxFrameSize
  fields.finish
  let frame ← SeqFrame.new channel ackno window
  return .seq frame

def parseAnsno (kind : FrameKind) (fields : Fields) :
    Except Error (Option UInt32 × Fields) :=
  if kind.hasAnsno then do
    let (ansno, fields) ← fields.next "ansno"
    let ansno ← parseU32 ansno "ansno" maxAnsNo
    return (some ansno, fields)
  else .ok (none, fields)

def checkSize (size limit : UInt32) : Except Error Unit :=
  if size > limit then .error (.frameTooLarge size limit) else .ok ()

def parseData (kind : FrameKind) (fields : Fields) (maxSize : UInt32) :
    Except Error Parsed := do
  let (channel, fields) ← fields.next "channel"
  let channel ← parseU32 channel "channel" maxChannelNo
  let (msgno, fields) ← fields.next "msgno"
  let msgno ← parseU32 msgno "msgno" maxMsgNo
  let (more, fields) ← fields.next "more"
  let more ← parseContinuation more
  let (seqno, fields) ← fields.next "seqno"
  let seqno ← parseU32 seqno "seqno" maxSeqNo
  let (size, fields) ← fields.next "size"
  let size ← parseU32 size "size" maxFrameSize
  let (ansno, fields) ← parseAnsno kind fields
  fields.finish
  checkSize size maxSize
  return .data { kind, channel, msgno, more, seqno, size, ansno }

def parseHeader (line : Octets) (maxSize : UInt32) : Except Error Parsed :=
  if line.length < 3 then
    .error (.malformedHeader "frame type token truncated")
  else
    let token := line.take 3
    match line.drop 3 with
    | 32 :: rest =>
        if token = octets "SEQ" then parseSeq (Fields.new rest)
        else
          match FrameKind.fromToken token with
          | none => .error .unknownFrameType
          | some kind => parseData kind (Fields.new rest) maxSize
    | _ => .error (.malformedHeader
        "expected a single space after the frame type")

structure Decoder where
  maxFrameSize : UInt32
  pending : Option DataHeader
  deriving DecidableEq

namespace Decoder

def withMaxFrameSize (max : UInt32) : Decoder := ⟨max, none⟩

def new : Decoder := withMaxFrameSize Proto.maxFrameSize

def hasPartialFrame (decoder : Decoder) : Bool := decoder.pending.isSome

/-- The header line at the front of `src`, if it is complete, and what follows it. -/
def decodeHeader (decoder : Decoder) (src : Octets) :
    Except Error (Option (Parsed × Octets)) :=
  match find (src.take maxHeaderLen) 10 with
  | none =>
      if src.length ≥ maxHeaderLen then .error (.headerTooLong maxHeaderLen)
      else .ok none
  | some lf =>
      if lf = 0 ∨ src[lf - 1]? ≠ some 13 then .error .bareNewlineInHeader
      else
        match parseHeader (src.take (lf - 1)) decoder.maxFrameSize with
        | .error error => .error error
        | .ok parsed => .ok (some (parsed, src.drop (lf + 1)))

def frameOf (header : DataHeader) (payload : Octets) : Except Error DataFrame :=
  match header.ansno with
  | some ansno =>
      DataFrame.newAns header.channel header.msgno header.seqno ansno payload
  | none =>
      DataFrame.new header.kind header.channel header.msgno header.seqno payload

/-- The part of `decode` that runs once the header is known. -/
def decodeBody (decoder : Decoder) (header : DataHeader) (src : Octets) :
    Decoder × Octets × Except Error (Option Frame) :=
  let size := header.size.toNat
  if src.length < size + trailer.length then (decoder, src, .ok none)
  else
    let payload := src.take size
    let src := src.drop size
    if src.take trailer.length ≠ trailer then
      (decoder, src, .error .missingTrailer)
    else
      let src := src.drop trailer.length
      let decoder := { decoder with pending := none }
      match frameOf header payload with
      | .error error => (decoder, src, .error error)
      | .ok frame => (decoder, src, .ok (some (.data (frame.withMore header.more))))

def decode (decoder : Decoder) (src : Octets) :
    Decoder × Octets × Except Error (Option Frame) :=
  match decoder.pending with
  | some header => decoder.decodeBody header src
  | none =>
      match decoder.decodeHeader src with
      | .error error => (decoder, src, .error error)
      | .ok none => (decoder, src, .ok none)
      | .ok (some (.seq frame, rest)) => (decoder, rest, .ok (some (.seq frame)))
      | .ok (some (.data header, rest)) =>
          decodeBody { decoder with pending := some header } header rest

/-! ## Later input does not change a decision -/

/-- A decided header line stays decided, with the appended octets left behind it. -/
theorem decodeHeader_append {decoder : Decoder} {src : Octets}
    {outcome : Except Error (Option (Parsed × Octets))}
    (h : decoder.decodeHeader src = outcome) (hdecided : outcome ≠ .ok none)
    (more : Octets) :
    decoder.decodeHeader (src ++ more) =
      outcome.map (Option.map fun taken => (taken.1, taken.2 ++ more)) := by
  unfold decodeHeader at h ⊢
  cases hfind : find (src.take maxHeaderLen) 10 with
  | none =>
      simp only [hfind] at h
      split at h
      · rename_i hlen
        have htake : (src ++ more).take maxHeaderLen = src.take maxHeaderLen :=
          List.take_append_of_le_length hlen
        have hlen' : (src ++ more).length ≥ maxHeaderLen := by
          rw [List.length_append]
          omega
        subst h
        simp only [htake, hfind, if_pos hlen']
        rfl
      · exact absurd h.symm hdecided
  | some lf =>
      obtain ⟨before, after, hsplit, -, hlf⟩ := find_eq_some.mp hfind
      have hlt : lf < src.length := by
        have := congrArg List.length hsplit
        simp only [List.length_take, List.length_append, List.length_cons] at this
        omega
      have hfind' : find ((src ++ more).take maxHeaderLen) 10 = some lf := by
        rw [List.take_append]
        exact find_append hfind
      have hcr : (src ++ more)[lf - 1]? = src[lf - 1]? :=
        List.getElem?_append_left (by omega)
      have hline : (src ++ more).take (lf - 1) = src.take (lf - 1) :=
        List.take_append_of_le_length (by omega)
      have hrest : (src ++ more).drop (lf + 1) = src.drop (lf + 1) ++ more :=
        List.drop_append_of_le_length (by omega)
      simp only [hfind] at h
      simp only [hfind', hcr, hline, hrest]
      split at h
      · rename_i hbare
        subst h
        rw [if_pos hbare]
        rfl
      · rename_i hbare
        rw [if_neg hbare]
        split at h <;> subst h <;> rfl

/-- A body that has been decided stays decided. -/
theorem decodeBody_append {decoder decoder' : Decoder} {header : DataHeader}
    {src rest : Octets} {result : Except Error (Option Frame)}
    (h : decoder.decodeBody header src = (decoder', rest, result))
    (hdecided : result ≠ .ok none) (more : Octets) :
    decoder.decodeBody header (src ++ more) = (decoder', rest ++ more, result) := by
  unfold decodeBody at h ⊢
  simp only at h ⊢
  split at h
  · cases h
    exact absurd rfl hdecided
  · rename_i hlen
    have hlen' : ¬ (src ++ more).length < header.size.toNat + trailer.length := by
      rw [List.length_append]
      omega
    have htake : (src ++ more).take header.size.toNat = src.take header.size.toNat :=
      List.take_append_of_le_length (by omega)
    have hdrop : (src ++ more).drop header.size.toNat =
        src.drop header.size.toNat ++ more :=
      List.drop_append_of_le_length (by omega)
    have hmark : (src.drop header.size.toNat ++ more).take trailer.length =
        (src.drop header.size.toNat).take trailer.length :=
      List.take_append_of_le_length (by rw [List.length_drop]; omega)
    have hrest : (src.drop header.size.toNat ++ more).drop trailer.length =
        (src.drop header.size.toNat).drop trailer.length ++ more :=
      List.drop_append_of_le_length (by rw [List.length_drop]; omega)
    rw [if_neg hlen']
    simp only [htake, hdrop, hmark, hrest]
    split at h
    · rename_i hmissing
      cases h
      rw [if_pos hmissing]
    · rename_i hmissing
      rw [if_neg hmissing]
      split at h <;> cases h <;> rfl

/-- A body still incomplete leaves the buffer as it is. -/
theorem decodeBody_none {decoder decoder' : Decoder} {header : DataHeader}
    {src rest : Octets}
    (h : decoder.decodeBody header src = (decoder', rest, .ok none)) :
    decoder' = decoder ∧ rest = src := by
  unfold decodeBody at h
  simp only at h
  split at h
  · cases h
    exact ⟨rfl, rfl⟩
  · split at h
    · cases h
    · split at h <;> cases h

theorem decodeBody_shortens {decoder decoder' : Decoder} {header : DataHeader}
    {src rest : Octets} {frame : Frame}
    (h : decoder.decodeBody header src = (decoder', rest, .ok (some frame))) :
    rest.length < src.length := by
  unfold decodeBody at h
  simp only at h
  split at h
  · cases h
  · rename_i hlen
    rw [length_trailer] at hlen
    split at h
    · cases h
    · split at h
      · cases h
      · cases h
        simp only [List.length_drop, length_trailer]
        omega

theorem decodeHeader_shortens {decoder : Decoder} {src rest : Octets}
    {parsed : Parsed} (h : decoder.decodeHeader src = .ok (some (parsed, rest))) :
    rest.length < src.length := by
  unfold decodeHeader at h
  split at h
  · split at h <;> cases h
  · rename_i lf hfind
    obtain ⟨before, after, hsplit, -, hlf⟩ := find_eq_some.mp hfind
    have hlt : lf < src.length := by
      have := congrArg List.length hsplit
      simp only [List.length_take, List.length_append, List.length_cons] at this
      omega
    split at h
    · cases h
    · split at h
      · cases h
      · cases h
        rw [List.length_drop]
        omega

/-- `decode` by cases on what is known of the frame at the front of the buffer. -/
theorem decode_cases (decoder : Decoder) (src : Octets) :
    (∃ header, decoder.pending = some header ∧
      decoder.decode src = decoder.decodeBody header src) ∨
    (decoder.pending = none ∧ ∃ error, decoder.decodeHeader src = .error error ∧
      decoder.decode src = (decoder, src, .error error)) ∨
    (decoder.pending = none ∧ decoder.decodeHeader src = .ok none ∧
      decoder.decode src = (decoder, src, .ok none)) ∨
    (decoder.pending = none ∧ ∃ frame rest,
      decoder.decodeHeader src = .ok (some (.seq frame, rest)) ∧
      decoder.decode src = (decoder, rest, .ok (some (.seq frame)))) ∨
    (decoder.pending = none ∧ ∃ header rest,
      decoder.decodeHeader src = .ok (some (.data header, rest)) ∧
      decoder.decode src =
        decodeBody { decoder with pending := some header } header rest) := by
  unfold decode
  cases hpending : decoder.pending with
  | some header => exact .inl ⟨header, rfl, rfl⟩
  | none =>
      refine .inr ?_
      rcases hheader : decoder.decodeHeader src with error | _ | ⟨header | frame, rest⟩
      · exact .inl ⟨rfl, error, rfl, rfl⟩
      · exact .inr (.inl ⟨rfl, rfl, rfl⟩)
      · exact .inr (.inr (.inr ⟨rfl, header, rest, rfl, rfl⟩))
      · exact .inr (.inr (.inl ⟨rfl, frame, rest, rfl, rfl⟩))

theorem decode_of_pending {decoder : Decoder} {header : DataHeader}
    (h : decoder.pending = some header) (src : Octets) :
    decoder.decode src = decoder.decodeBody header src := by
  simp only [decode, h]

theorem decode_of_seq {decoder : Decoder} {src rest : Octets} {frame : SeqFrame}
    (hpending : decoder.pending = none)
    (h : decoder.decodeHeader src = .ok (some (.seq frame, rest))) :
    decoder.decode src = (decoder, rest, .ok (some (.seq frame))) := by
  simp only [decode, hpending, h]

theorem decode_of_data {decoder : Decoder} {src rest : Octets} {header : DataHeader}
    (hpending : decoder.pending = none)
    (h : decoder.decodeHeader src = .ok (some (.data header, rest))) :
    decoder.decode src =
      decodeBody { decoder with pending := some header } header rest := by
  simp only [decode, hpending, h]

theorem decode_of_error {decoder : Decoder} {src : Octets} {error : Error}
    (hpending : decoder.pending = none)
    (h : decoder.decodeHeader src = .error error) :
    decoder.decode src = (decoder, src, .error error) := by
  simp only [decode, hpending, h]

theorem decode_append {decoder decoder' : Decoder} {src rest : Octets}
    {result : Except Error (Option Frame)}
    (h : decoder.decode src = (decoder', rest, result))
    (hdecided : result ≠ .ok none) (more : Octets) :
    decoder.decode (src ++ more) = (decoder', rest ++ more, result) := by
  rcases decoder.decode_cases src with
    ⟨header, hpending, heq⟩ | ⟨hpending, error, hheader, heq⟩ |
    ⟨hpending, hheader, heq⟩ | ⟨hpending, frame, tail, hheader, heq⟩ |
    ⟨hpending, header, tail, hheader, heq⟩ <;> rw [heq] at h
  · rw [decode_of_pending hpending]
    exact decodeBody_append h hdecided more
  · cases h
    exact decode_of_error hpending
      (decodeHeader_append hheader (by simp) more)
  · cases h
    exact absurd rfl hdecided
  · cases h
    exact decode_of_seq hpending (decodeHeader_append hheader (by simp) more)
  · rw [decode_of_data hpending (decodeHeader_append hheader (by simp) more)]
    exact decodeBody_append h hdecided more

theorem decode_none_append {decoder decoder' : Decoder} {src rest : Octets}
    (h : decoder.decode src = (decoder', rest, .ok none)) (more : Octets) :
    decoder.decode (src ++ more) = decoder'.decode (rest ++ more) := by
  rcases decoder.decode_cases src with
    ⟨header, hpending, heq⟩ | ⟨hpending, error, hheader, heq⟩ |
    ⟨hpending, hheader, heq⟩ | ⟨hpending, frame, tail, hheader, heq⟩ |
    ⟨hpending, header, tail, hheader, heq⟩ <;> rw [heq] at h
  · obtain ⟨rfl, rfl⟩ := decodeBody_none h
    rfl
  · cases h
  · cases h
    rfl
  · cases h
  · obtain ⟨rfl, rfl⟩ := decodeBody_none h
    rw [decode_of_data hpending (decodeHeader_append hheader (by simp) more),
      decode_of_pending rfl]

theorem decode_shortens {decoder decoder' : Decoder} {src rest : Octets}
    {frame : Frame}
    (h : decoder.decode src = (decoder', rest, .ok (some frame))) :
    rest.length < src.length := by
  rcases decoder.decode_cases src with
    ⟨header, hpending, heq⟩ | ⟨hpending, error, hheader, heq⟩ |
    ⟨hpending, hheader, heq⟩ | ⟨hpending, frame, tail, hheader, heq⟩ |
    ⟨hpending, header, tail, hheader, heq⟩ <;> rw [heq] at h
  · exact decodeBody_shortens h
  · cases h
  · cases h
  · cases h
    exact decodeHeader_shortens hheader
  · exact (decodeBody_shortens h).trans (decodeHeader_shortens hheader)

/-- The decoder as an instance of the laws of resumable decoding. -/
def resumable : Resumable Decoder UInt8 Frame Error where
  decode := decode
  item_append h more := decode_append h (by simp) more
  error_append h more := decode_append h (by simp) more
  none_append h more := decode_none_append h more
  item_shortens h := decode_shortens h

end Decoder

end Vortice.Proto
