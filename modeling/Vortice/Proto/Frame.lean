import Vortice.Foundation.Decimal
import Vortice.Proto.Error

/-!
# Frames and the limits on their header fields

A data frame can only be built by `DataFrame.new` and `DataFrame.newAns`, so
the checks of those constructors are fields of the structure: a `DataFrame`
value is one the source can hold.  The same goes for `SeqFrame`.
-/

namespace Vortice.Proto

open Vortice.Foundation

def maxChannelNo : UInt32 := 2147483647
def maxMsgNo : UInt32 := 2147483647
def maxAnsNo : UInt32 := 2147483647
def maxFrameSize : UInt32 := 2147483647
def maxSeqNo : UInt32 := 4294967295

/-- Longest header line, its CRLF included. -/
def maxHeaderLen : Nat := 98

def trailer : Octets := octets "END\r\n"
def complete : UInt8 := 46
def intermediate : UInt8 := 42

@[simp] theorem toNat_maxChannelNo : maxChannelNo.toNat = 2147483647 := rfl
@[simp] theorem toNat_maxMsgNo : maxMsgNo.toNat = 2147483647 := rfl
@[simp] theorem toNat_maxAnsNo : maxAnsNo.toNat = 2147483647 := rfl
@[simp] theorem toNat_maxFrameSize : maxFrameSize.toNat = 2147483647 := rfl
@[simp] theorem toNat_maxSeqNo : maxSeqNo.toNat = 4294967295 := rfl
@[simp] theorem length_trailer : trailer.length = 5 := rfl

inductive FrameKind where
  | msg
  | rpy
  | err
  | ans
  | nul
  deriving DecidableEq, Repr

namespace FrameKind

def asStr : FrameKind → String
  | .msg => "MSG"
  | .rpy => "RPY"
  | .err => "ERR"
  | .ans => "ANS"
  | .nul => "NUL"

def fromToken (token : Octets) : Option FrameKind :=
  if token = octets "MSG" then some .msg
  else if token = octets "RPY" then some .rpy
  else if token = octets "ERR" then some .err
  else if token = octets "ANS" then some .ans
  else if token = octets "NUL" then some .nul
  else none

def hasAnsno : FrameKind → Bool
  | .ans => true
  | _ => false

@[simp] theorem length_asStr (kind : FrameKind) :
    (octets kind.asStr).length = 3 := by
  cases kind <;> rfl

theorem fromToken_eq_some {token : Octets} {kind : FrameKind} :
    fromToken token = some kind ↔ token = octets kind.asStr := by
  constructor
  · intro h
    simp only [fromToken] at h
    split at h
    · cases h; assumption
    split at h
    · cases h; assumption
    split at h
    · cases h; assumption
    split at h
    · cases h; assumption
    split at h
    · cases h; assumption
    · cases h
  · rintro rfl
    cases kind <;> rfl

theorem asStr_ne_seq (kind : FrameKind) : octets kind.asStr ≠ octets "SEQ" := by
  cases kind <;> decide

end FrameKind

/-- A data frame: `MSG`, `RPY`, `ERR`, `ANS` or `NUL`. -/
structure DataFrame where
  kind : FrameKind
  channel : UInt32
  msgno : UInt32
  more : Bool
  seqno : UInt32
  ansno : Option UInt32
  payload : Octets
  channel_le : channel ≤ maxChannelNo
  msgno_le : msgno ≤ maxMsgNo
  ansno_le : ∀ n ∈ ansno, n ≤ maxAnsNo
  hasAnsno_eq : kind.hasAnsno = ansno.isSome
  payload_le : payload.length ≤ maxFrameSize.toNat
  deriving DecidableEq

namespace DataFrame

/-- A check on every number present looks at the one there may be, and does not
search through all words. -/
instance (priority := 1100) decidableForallPresent (p : UInt32 → Prop)
    [DecidablePred p] (present : Option UInt32) : Decidable (∀ n ∈ present, p n) :=
  Option.decidableForallMem present

/-- The checks both constructors share, in the order the source makes them. -/
def build (kind : FrameKind) (channel msgno seqno : UInt32)
    (ansno : Option UInt32) (payload : Octets)
    (hasAnsno_eq : kind.hasAnsno = ansno.isSome) : Except Error DataFrame :=
  if hchannel : channel ≤ maxChannelNo then
    if hmsgno : msgno ≤ maxMsgNo then
      if hansno : ∀ n ∈ ansno, n ≤ maxAnsNo then
        if hpayload : payload.length ≤ maxFrameSize.toNat then
          .ok { kind, channel, msgno, more := false, seqno, ansno, payload,
                channel_le := hchannel, msgno_le := hmsgno,
                ansno_le := hansno, hasAnsno_eq, payload_le := hpayload }
        else if payload.length < 2 ^ 32 then
          .error (.frameTooLarge (UInt32.ofNat payload.length) maxFrameSize)
        else .error (.frameTooLarge maxFrameSize maxFrameSize)
      else .error (.valueOutOfRange "ansno" maxAnsNo)
    else .error (.valueOutOfRange "msgno" maxMsgNo)
  else .error (.valueOutOfRange "channel" maxChannelNo)

/-- A complete frame of a kind that carries no `ansno`. -/
def new (kind : FrameKind) (channel msgno seqno : UInt32) (payload : Octets) :
    Except Error DataFrame :=
  if h : kind.hasAnsno then .error (.missingField "ansno")
  else build kind channel msgno seqno none payload (by simpa using h)

/-- A complete `ANS` frame. -/
def newAns (channel msgno seqno ansno : UInt32) (payload : Octets) :
    Except Error DataFrame :=
  build .ans channel msgno seqno (some ansno) payload rfl

def withMore (frame : DataFrame) (more : Bool) : DataFrame :=
  { frame with more }

/-- The `size` a header announces. -/
def size (frame : DataFrame) : UInt32 := UInt32.ofNat frame.payload.length

theorem toNat_size (frame : DataFrame) :
    frame.size.toNat = frame.payload.length := by
  have := frame.payload_le
  simp only [toNat_maxFrameSize] at this
  rw [size, UInt32.toNat_ofNat']
  omega

theorem build_eq_ok {kind : FrameKind} {channel msgno seqno : UInt32}
    {ansno : Option UInt32} {payload : Octets}
    {h : kind.hasAnsno = ansno.isSome} {frame : DataFrame} :
    build kind channel msgno seqno ansno payload h = .ok frame ↔
      frame.kind = kind ∧ frame.channel = channel ∧ frame.msgno = msgno ∧
        frame.more = false ∧ frame.seqno = seqno ∧ frame.ansno = ansno ∧
        frame.payload = payload := by
  constructor
  · intro hbuild
    unfold build at hbuild
    split at hbuild
    · split at hbuild
      · split at hbuild
        · split at hbuild
          · cases hbuild
            exact ⟨rfl, rfl, rfl, rfl, rfl, rfl, rfl⟩
          · split at hbuild <;> cases hbuild
        · cases hbuild
      · cases hbuild
    · cases hbuild
  · rintro ⟨rfl, rfl, rfl, hmore, rfl, rfl, rfl⟩
    rw [build, dif_pos frame.channel_le, dif_pos frame.msgno_le,
      dif_pos frame.ansno_le, dif_pos frame.payload_le]
    cases frame
    cases hmore
    rfl

end DataFrame

/-- A `SEQ` frame. -/
structure SeqFrame where
  channel : UInt32
  ackno : UInt32
  window : UInt32
  channel_le : channel ≤ maxChannelNo
  window_le : window ≤ maxFrameSize
  deriving DecidableEq

namespace SeqFrame

def new (channel ackno window : UInt32) : Except Error SeqFrame :=
  if hchannel : channel ≤ maxChannelNo then
    if hwindow : window ≤ maxFrameSize then
      .ok { channel, ackno, window, channel_le := hchannel, window_le := hwindow }
    else .error (.valueOutOfRange "window" maxFrameSize)
  else .error (.valueOutOfRange "channel" maxChannelNo)

theorem new_eq_ok {channel ackno window : UInt32} {frame : SeqFrame} :
    new channel ackno window = .ok frame ↔
      frame.channel = channel ∧ frame.ackno = ackno ∧ frame.window = window := by
  constructor
  · intro hnew
    unfold new at hnew
    split at hnew
    · split at hnew
      · cases hnew
        exact ⟨rfl, rfl, rfl⟩
      · cases hnew
    · cases hnew
  · rintro ⟨rfl, rfl, rfl⟩
    rw [new, dif_pos frame.channel_le, dif_pos frame.window_le]

end SeqFrame

inductive Frame where
  | data (frame : DataFrame)
  | seq (frame : SeqFrame)
  deriving DecidableEq

def Frame.channel : Frame → UInt32
  | .data frame => frame.channel
  | .seq frame => frame.channel

def Frame.asData : Frame → Option DataFrame
  | .data frame => some frame
  | .seq _ => none

/-! ## Rendering -/

/-- The loop of `digits`: how often the value can be divided by ten. -/
def digitsLoop : Nat → UInt32 → Nat → Nat
  | 0, _, n => n
  | fuel + 1, v, n => if v ≥ 10 then digitsLoop fuel (v / 10) (n + 1) else n

/-- Decimal digit count, used to size a header without rendering it. -/
def digits (value : UInt32) : Nat := digitsLoop 10 value 1

/-- The loop of `put_u32`, filling its buffer of ten octets from the back. -/
def putU32Loop : Nat → UInt32 → Octets → Octets
  | 0, _, buf => buf
  | i + 1, v, buf =>
      let buf := (48 + (v % 10).toUInt8) :: buf
      let v := v / 10
      if v = 0 then buf else putU32Loop i v buf

def putU32 (value : UInt32) : Octets := putU32Loop 10 value []

def continuation (more : Bool) : UInt8 := if more then intermediate else complete

/-- What `DataFrame::encode` appends to its destination. -/
def DataFrame.encode (frame : DataFrame) : Octets :=
  octets frame.kind.asStr ++ octets " " ++
  putU32 frame.channel ++ octets " " ++
  putU32 frame.msgno ++ octets " " ++
  [continuation frame.more] ++ octets " " ++
  putU32 frame.seqno ++ octets " " ++
  putU32 frame.size ++
  (match frame.ansno with
    | some ansno => octets " " ++ putU32 ansno
    | none => []) ++
  octets "\r\n" ++ frame.payload ++ trailer

def DataFrame.encodedLen (frame : DataFrame) : Nat :=
  3 + 1 + digits frame.channel + 1 + digits frame.msgno + 1 + 1 +
    1 + digits frame.seqno + 1 + digits frame.size +
    (match frame.ansno with
      | some ansno => 1 + digits ansno
      | none => 0) +
    2 + frame.payload.length + trailer.length

def SeqFrame.encode (frame : SeqFrame) : Octets :=
  octets "SEQ " ++ putU32 frame.channel ++ octets " " ++
  putU32 frame.ackno ++ octets " " ++ putU32 frame.window ++ octets "\r\n"

def SeqFrame.encodedLen (frame : SeqFrame) : Nat :=
  3 + 1 + digits frame.channel + 1 + digits frame.ackno +
    1 + digits frame.window + 2

def Frame.encode : Frame → Octets
  | .data frame => frame.encode
  | .seq frame => frame.encode

def Frame.encodedLen : Frame → Nat
  | .data frame => frame.encodedLen
  | .seq frame => frame.encodedLen

/-- The wire image of a sequence of frames. -/
def encodeAll (frames : List Frame) : Octets := frames.flatMap Frame.encode

@[simp] theorem encodeAll_nil : encodeAll [] = [] := rfl

@[simp] theorem encodeAll_cons (frame : Frame) (frames : List Frame) :
    encodeAll (frame :: frames) = frame.encode ++ encodeAll frames := by
  simp [encodeAll]

@[simp] theorem encodeAll_append (first second : List Frame) :
    encodeAll (first ++ second) = encodeAll first ++ encodeAll second := by
  simp [encodeAll]

private theorem digit_octet (v : UInt32) :
    48 + (v % 10).toUInt8 = Decimal.digit (v.toNat % 10) := by
  apply UInt8.toNat_inj.mp
  have hmod : v.toNat % 10 < 10 := Nat.mod_lt _ (by omega)
  rw [Decimal.toNat_digit hmod, UInt8.toNat_add, UInt32.toNat_toUInt8,
    UInt32.toNat_mod]
  have h48 : (48 : UInt8).toNat = 48 := rfl
  have h10 : (10 : UInt32).toNat = 10 := rfl
  rw [h48, h10]
  omega

theorem putU32Loop_eq (i : Nat) (v : UInt32) (buf : Octets)
    (h : v.toNat < 10 ^ (i + 1)) :
    putU32Loop (i + 1) v buf = Decimal.render v.toNat ++ buf := by
  induction i generalizing v buf with
  | zero =>
      have hlt : v.toNat < 10 := by simpa using h
      have hzero : v / 10 = 0 := by
        apply UInt32.toNat_inj.mp
        rw [UInt32.toNat_div]
        change v.toNat / 10 = 0
        omega
      simp [putU32Loop, hzero, Decimal.render_of_lt hlt, digit_octet,
        Nat.mod_eq_of_lt hlt]
  | succ i ih =>
      have hdiv : (v / 10).toNat = v.toNat / 10 := UInt32.toNat_div v 10
      rw [putU32Loop]
      by_cases hlt : v.toNat < 10
      · have hzero : v / 10 = 0 := by
          apply UInt32.toNat_inj.mp
          rw [hdiv]
          change v.toNat / 10 = 0
          omega
        simp [hzero, Decimal.render_of_lt hlt, digit_octet,
          Nat.mod_eq_of_lt hlt]
      · have hne : v / 10 ≠ 0 := by
          intro hzero
          have := congrArg UInt32.toNat hzero
          rw [hdiv] at this
          change v.toNat / 10 = 0 at this
          omega
        have hbound : (v / 10).toNat < 10 ^ (i + 1) := by
          rw [hdiv]
          rw [pow_succ] at h
          omega
        rw [if_neg hne, ih _ _ hbound, hdiv, digit_octet,
          Decimal.render_of_le (Nat.le_of_not_lt hlt)]
        simp

theorem putU32_eq (value : UInt32) : putU32 value = Decimal.render value.toNat := by
  rw [putU32, putU32Loop_eq 9 value [] (by have := value.toNat_lt; omega)]
  simp

theorem digitsLoop_eq (fuel : Nat) (v : UInt32) (n : Nat)
    (h : v.toNat < 10 ^ (fuel + 1)) :
    digitsLoop fuel v (n + 1) = n + (Decimal.render v.toNat).length := by
  induction fuel generalizing v n with
  | zero =>
      have hlt : v.toNat < 10 := by simpa using h
      simp [digitsLoop, Decimal.length_render_of_lt hlt]
  | succ fuel ih =>
      have hdiv : (v / 10).toNat = v.toNat / 10 := UInt32.toNat_div v 10
      have hten : v ≥ 10 ↔ 10 ≤ v.toNat := UInt32.le_iff_toNat_le
      rw [digitsLoop]
      by_cases hle : 10 ≤ v.toNat
      · have hbound : (v / 10).toNat < 10 ^ (fuel + 1) := by
          rw [hdiv]
          rw [pow_succ] at h
          omega
        rw [if_pos (hten.mpr hle), ih _ _ hbound, hdiv,
          Decimal.length_render_of_le hle]
        omega
      · rw [if_neg (fun hge => hle (hten.mp hge)),
          Decimal.length_render_of_lt (by omega)]

theorem digits_eq (value : UInt32) : digits value = (putU32 value).length := by
  rw [digits, digitsLoop_eq 10 value 0 (by have := value.toNat_lt; omega),
    putU32_eq, Nat.zero_add]

theorem length_putU32_le (value : UInt32) : (putU32 value).length ≤ 10 := by
  rw [putU32_eq]
  exact Decimal.length_render_le (by omega)
    (by have := value.toNat_lt; omega)

theorem Frame.length_encode (frame : Frame) :
    frame.encode.length = frame.encodedLen := by
  cases frame with
  | data frame =>
      have hspace : (octets " ").length = 1 := rfl
      have hcrlf : (octets "\r\n").length = 2 := rfl
      cases hansno : frame.ansno <;>
        simp [encode, encodedLen, DataFrame.encode, DataFrame.encodedLen,
          digits_eq, hspace, hcrlf, hansno] <;> omega
  | seq frame =>
      have hseq : (octets "SEQ ").length = 4 := rfl
      have hspace : (octets " ").length = 1 := rfl
      have hcrlf : (octets "\r\n").length = 2 := rfl
      simp [encode, encodedLen, SeqFrame.encode, SeqFrame.encodedLen,
        digits_eq, hseq, hspace, hcrlf]
      omega

end Vortice.Proto
