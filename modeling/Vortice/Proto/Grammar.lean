import Vortice.Proto.Codec

/-!
# The grammar the decoder accepts

`Denotes` says which octets stand for a frame, in the terms of RFC 3080 and
RFC 3081 and without reference to the decoder.  The decoder is shown to accept
exactly these octets, and every rendered frame to be among them.
-/

namespace Vortice.Proto

open Vortice.Foundation

/-- A non-empty string of digits worth `v`, which is within its field's limit. -/
def Numeral (numeral : Octets) (limit v : UInt32) : Prop :=
  numeral ≠ [] ∧ (∀ octet ∈ numeral, Decimal.isDigit octet) ∧
    Decimal.value numeral = v.toNat ∧ v ≤ limit

/-- The answer number of an `ANS` header, and of no other. -/
def AnsnoField (kind : FrameKind) (tail : Octets) : Option UInt32 → Prop
  | some ansno => kind = .ans ∧
      ∃ numeral, tail = octets " " ++ numeral ∧ Numeral numeral maxAnsNo ansno
  | none => kind ≠ .ans ∧ tail = []

/-- A header line without its CRLF, and what it announces. -/
def HeaderLine (limit : UInt32) (line : Octets) : Parsed → Prop
  | .seq frame => ∃ channel ackno window,
      line = octets "SEQ" ++ octets " " ++ channel ++ octets " " ++ ackno ++
        octets " " ++ window ∧
      Numeral channel maxChannelNo frame.channel ∧
      Numeral ackno maxSeqNo frame.ackno ∧
      Numeral window maxFrameSize frame.window
  | .data header => ∃ channel msgno seqno size tail,
      line = octets header.kind.asStr ++ octets " " ++ channel ++ octets " " ++
        msgno ++ octets " " ++ [continuation header.more] ++ octets " " ++
        seqno ++ octets " " ++ size ++ tail ∧
      Numeral channel maxChannelNo header.channel ∧
      Numeral msgno maxMsgNo header.msgno ∧
      Numeral seqno maxSeqNo header.seqno ∧
      Numeral size maxFrameSize header.size ∧
      header.size ≤ limit ∧
      AnsnoField header.kind tail header.ansno

/-- `buffer` starts with a header line of legal length, which `rest` follows. -/
def StartsWithLine (buffer line rest : Octets) : Prop :=
  buffer = line ++ octets "\r\n" ++ rest ∧ 10 ∉ line ∧
    line.length + 2 ≤ maxHeaderLen

def DataFrame.header (frame : DataFrame) : DataHeader :=
  { kind := frame.kind, channel := frame.channel, msgno := frame.msgno,
    more := frame.more, seqno := frame.seqno, size := frame.size,
    ansno := frame.ansno }

/-- `buffer` starts with the octets of `frame`, which `rest` follows. -/
def Denotes (limit : UInt32) (buffer : Octets) : Frame → Octets → Prop
  | .seq frame, rest => ∃ line,
      HeaderLine limit line (.seq frame) ∧ StartsWithLine buffer line rest
  | .data frame, rest => ∃ line,
      HeaderLine limit line (.data frame.header) ∧
      StartsWithLine buffer line (frame.payload ++ trailer ++ rest)

@[simp] theorem octets_space : octets " " = [32] := rfl

theorem octets_crlf : octets "\r\n" = [13, 10] := rfl

/-! ## Numbers -/

theorem parseU32Loop_eq_ok {name : String} {max : UInt32} {field : Octets}
    {total value : Nat} (h : total ≤ max.toNat) :
    parseU32Loop name max field total = .ok value ↔
      (∀ octet ∈ field, Decimal.isDigit octet) ∧
        Decimal.valueFrom total field ≤ max.toNat ∧
        Decimal.valueFrom total field = value := by
  induction field generalizing total with
  | nil =>
      simp only [parseU32Loop, Decimal.valueFrom, List.foldl_nil,
        Except.ok.injEq, List.not_mem_nil, false_implies, implies_true,
        true_and]
      exact ⟨fun heq => ⟨h, heq⟩, fun heq => heq.2⟩
  | cons octet field ih =>
      rw [parseU32Loop]
      by_cases hdigit : Decimal.isDigit octet
      · rw [if_pos hdigit]
        have hvalue : Decimal.valueFrom total (octet :: field) =
            Decimal.valueFrom (total * 10 + (octet.toNat - 48)) field := rfl
        have hle := Decimal.le_valueFrom (total * 10 + (octet.toNat - 48)) field
        by_cases hmax : total * 10 + (octet.toNat - 48) > max.toNat
        · simp only [if_pos hmax, hvalue, reduceCtorEq, false_iff]
          rintro ⟨-, hbound, -⟩
          omega
        · simp only [if_neg hmax, hvalue]
          rw [ih (by omega)]
          simp [hdigit]
      · rw [if_neg hdigit]
        simp only [reduceCtorEq, false_iff]
        rintro ⟨hall, -⟩
        exact hdigit (hall octet (List.mem_cons_self ..))

theorem parseU32_eq_ok {field : Octets} {name : String} {max v : UInt32} :
    parseU32 field name max = .ok v ↔
      (∀ octet ∈ field, Decimal.isDigit octet) ∧
        Decimal.value field = v.toNat ∧ v ≤ max := by
  rw [parseU32, UInt32.le_iff_toNat_le]
  have hloop : ∀ value, parseU32Loop name max field 0 = .ok value ↔
      (∀ octet ∈ field, Decimal.isDigit octet) ∧
        Decimal.valueFrom 0 field ≤ max.toNat ∧
        Decimal.valueFrom 0 field = value :=
    fun _ => parseU32Loop_eq_ok (Nat.zero_le _)
  simp only [Decimal.valueFrom_zero] at hloop
  constructor
  · intro h
    cases hresult : parseU32Loop name max field 0 with
    | error error => rw [hresult] at h; cases h
    | ok value =>
        rw [hresult] at h
        cases h
        obtain ⟨hdigits, hmax, rfl⟩ := (hloop value).mp hresult
        have hlt := max.toNat_lt
        have hnat : (UInt32.ofNat (Decimal.value field)).toNat =
            Decimal.value field := by
          rw [UInt32.toNat_ofNat']
          omega
        rw [hnat]
        exact ⟨hdigits, rfl, hmax⟩
  · rintro ⟨hdigits, hvalue, hmax⟩
    rw [(hloop v.toNat).mpr ⟨hdigits, by omega, hvalue⟩]
    simp [Except.map]

theorem Numeral.parseU32 {numeral : Octets} {limit v : UInt32}
    (h : Numeral numeral limit v) (name : String) :
    parseU32 numeral name limit = .ok v :=
  parseU32_eq_ok.mpr h.2

theorem Numeral.no_space {numeral : Octets} {limit v : UInt32}
    (h : Numeral numeral limit v) : 32 ∉ numeral := by
  intro hmem
  have := h.2.1 32 hmem
  revert this
  decide

theorem Numeral.no_newline {numeral : Octets} {limit v : UInt32}
    (h : Numeral numeral limit v) : 10 ∉ numeral := by
  intro hmem
  have := h.2.1 10 hmem
  revert this
  decide

theorem numeral_putU32 {limit v : UInt32} (h : v ≤ limit) :
    Numeral (putU32 v) limit v := by
  rw [putU32_eq]
  exact ⟨Decimal.render_ne_nil _, fun _ => Decimal.isDigit_of_mem_render,
    Decimal.value_render _, h⟩

/-! ## Fields -/

namespace Fields

/-- The fields that begin with `value` and go on with `fields`. -/
def cons (value : Octets) (fields : Fields) : Fields :=
  match fields.rest with
  | none => ⟨some value⟩
  | some rest => ⟨some (value ++ 32 :: rest)⟩

theorem next_eq_ok {fields fields' : Fields} {field : String} {value : Octets} :
    fields.next field = .ok (value, fields') ↔
      value ≠ [] ∧ 32 ∉ value ∧ fields = fields'.cons value := by
  obtain ⟨rest⟩ := fields
  obtain ⟨rest'⟩ := fields'
  constructor
  · intro h
    cases rest with
    | none => cases h
    | some rest =>
        cases hfind : find rest 32 with
        | none =>
            simp only [next, hfind] at h
            split at h
            · cases h
            · rename_i hne
              cases h
              exact ⟨hne, find_eq_none.mp hfind, rfl⟩
        | some i =>
            obtain ⟨before, after, rfl, hnot, rfl⟩ := find_eq_some.mp hfind
            simp only [next, hfind] at h
            split at h
            · cases h
            · rename_i hne
              cases h
              simp only [List.take_left] at hne
              simp [cons, hne, hnot, List.drop_append]
  · rintro ⟨hne, hnot, heq⟩
    cases rest' with
    | none =>
        cases heq
        simp [next, find_eq_none.mpr hnot, hne]
    | some rest' =>
        cases heq
        simp [next, find_append_cons hnot, hne, List.drop_append]

theorem finish_eq_ok {fields : Fields} :
    fields.finish = .ok () ↔ fields = ⟨none⟩ := by
  obtain ⟨_ | rest⟩ := fields <;> simp [finish]

end Fields

theorem Except.bind_eq_ok {ε α β : Type} {x : Except ε α} {f : α → Except ε β}
    {b : β} : (x >>= f) = .ok b ↔ ∃ a, x = .ok a ∧ f a = .ok b := by
  cases x <;> simp [bind, Except.bind]

theorem parseContinuation_eq_ok {field : Octets} {more : Bool} :
    parseContinuation field = .ok more ↔ field = [continuation more] := by
  constructor
  · intro h
    unfold parseContinuation at h
    split at h
    · rename_i found
      split at h
      · cases h; subst found; rfl
      split at h
      · cases h; subst found; rfl
      · cases h
    · cases h
  · rintro rfl
    cases more <;> rfl

theorem checkSize_eq_ok {size limit : UInt32} :
    checkSize size limit = .ok () ↔ size ≤ limit := by
  unfold checkSize
  split
  · rename_i h
    simp only [reduceCtorEq, false_iff]
    exact UInt32.not_le.mpr h
  · rename_i h
    simp only [true_iff]
    exact UInt32.not_lt.mp h

theorem Numeral.next {numeral : Octets} {max v : UInt32}
    (h : Numeral numeral max v) (fields : Fields) (name : String) :
    (fields.cons numeral).next name = .ok (numeral, fields) :=
  Fields.next_eq_ok.mpr ⟨h.1, h.no_space, rfl⟩

theorem next_parseU32_eq_ok {fields fields' : Fields} {name : String}
    {max v : UInt32} {numeral : Octets} :
    fields.next name = .ok (numeral, fields') ∧
        parseU32 numeral name max = .ok v ↔
      Numeral numeral max v ∧ fields = fields'.cons numeral := by
  rw [Fields.next_eq_ok, parseU32_eq_ok]
  constructor
  · rintro ⟨⟨hne, -, heq⟩, hparse⟩
    exact ⟨⟨hne, hparse⟩, heq⟩
  · rintro ⟨hnumeral, heq⟩
    exact ⟨⟨hnumeral.1, hnumeral.no_space, heq⟩, hnumeral.2⟩

theorem parseSeq_eq_ok {fields : Fields} {parsed : Parsed} :
    parseSeq fields = .ok parsed ↔ ∃ frame channel ackno window,
      parsed = .seq frame ∧
      Numeral channel maxChannelNo frame.channel ∧
      Numeral ackno maxSeqNo frame.ackno ∧
      Numeral window maxFrameSize frame.window ∧
      fields = Fields.cons channel (Fields.cons ackno (Fields.cons window ⟨none⟩)) := by
  constructor
  · intro h
    simp only [parseSeq, Except.bind_eq_ok] at h
    obtain ⟨⟨channel, rest₁⟩, hnext₁, channelNo, hparse₁, ⟨ackno, rest₂⟩, hnext₂,
      acknoNo, hparse₂, ⟨window, rest₃⟩, hnext₃, windowNo, hparse₃, ⟨⟩,
      hfinish, frame, hframe, hparsed⟩ := h
    obtain ⟨hchannel, rfl⟩ := next_parseU32_eq_ok.mp ⟨hnext₁, hparse₁⟩
    obtain ⟨hackno, rfl⟩ := next_parseU32_eq_ok.mp ⟨hnext₂, hparse₂⟩
    obtain ⟨hwindow, rfl⟩ := next_parseU32_eq_ok.mp ⟨hnext₃, hparse₃⟩
    obtain rfl := Fields.finish_eq_ok.mp hfinish
    obtain ⟨rfl, rfl, rfl⟩ := SeqFrame.new_eq_ok.mp hframe
    cases hparsed
    exact ⟨frame, channel, ackno, window, rfl, hchannel, hackno, hwindow, rfl⟩
  · rintro ⟨frame, channel, ackno, window, rfl, hchannel, hackno, hwindow, rfl⟩
    simp only [parseSeq, bind, Except.bind, hchannel.next, hchannel.parseU32,
      hackno.next, hackno.parseU32, hwindow.next, hwindow.parseU32,
      Fields.finish_eq_ok.mpr, SeqFrame.new_eq_ok.mpr ⟨rfl, rfl, rfl⟩]
    rfl

/-- The trailing fields of a data header: an answer number exactly for `ANS`. -/
def Fields.ofAnsno (kind : FrameKind) (ansno : Option UInt32) (fields : Fields) :
    Prop :=
  match ansno with
  | some ansno => kind = .ans ∧
      ∃ numeral, fields = Fields.cons numeral ⟨none⟩ ∧
        Numeral numeral maxAnsNo ansno
  | none => kind ≠ .ans ∧ fields = ⟨none⟩

theorem parseAnsno_eq_ok {kind : FrameKind} {fields : Fields}
    {ansno : Option UInt32} :
    (∃ fields', parseAnsno kind fields = .ok (ansno, fields') ∧
      fields'.finish = .ok ()) ↔ fields.ofAnsno kind ansno := by
  unfold parseAnsno
  by_cases hkind : kind.hasAnsno
  · have hans : kind = .ans := by
      revert hkind
      cases kind <;> simp [FrameKind.hasAnsno]
    simp only [if_pos hkind, Except.bind_eq_ok]
    constructor
    · rintro ⟨fields', ⟨⟨numeral, rest⟩, hnext, v, hparse, hpure⟩, hfinish⟩
      cases hpure
      obtain ⟨hnumeral, rfl⟩ := next_parseU32_eq_ok.mp ⟨hnext, hparse⟩
      obtain rfl := Fields.finish_eq_ok.mp hfinish
      exact ⟨hans, numeral, rfl, hnumeral⟩
    · cases ansno with
      | none => exact fun h => absurd hans h.1
      | some ansno =>
          rintro ⟨-, numeral, rfl, hnumeral⟩
          exact ⟨⟨none⟩, ⟨_, hnumeral.next _ _, _, hnumeral.parseU32 _, rfl⟩,
            Fields.finish_eq_ok.mpr rfl⟩
  · have hans : kind ≠ .ans := by
      rintro rfl
      exact hkind rfl
    simp only [if_neg hkind]
    constructor
    · rintro ⟨fields', hpure, hfinish⟩
      cases hpure
      exact ⟨hans, Fields.finish_eq_ok.mp hfinish⟩
    · cases ansno with
      | none => exact fun h => ⟨fields, rfl, Fields.finish_eq_ok.mpr h.2⟩
      | some ansno => exact fun h => absurd h.1 hans

theorem parseData_eq_ok {kind : FrameKind} {fields : Fields} {limit : UInt32}
    {parsed : Parsed} :
    parseData kind fields limit = .ok parsed ↔
      ∃ header channel msgno seqno size tail,
        parsed = .data header ∧ header.kind = kind ∧
        Numeral channel maxChannelNo header.channel ∧
        Numeral msgno maxMsgNo header.msgno ∧
        Numeral seqno maxSeqNo header.seqno ∧
        Numeral size maxFrameSize header.size ∧
        header.size ≤ limit ∧
        tail.ofAnsno kind header.ansno ∧
        fields = Fields.cons channel (Fields.cons msgno
          (Fields.cons [continuation header.more]
            (Fields.cons seqno (Fields.cons size tail)))) := by
  constructor
  · intro h
    simp only [parseData, Except.bind_eq_ok] at h
    obtain ⟨⟨channel, rest₁⟩, hnext₁, channelNo, hparse₁, ⟨msgno, rest₂⟩, hnext₂,
      msgnoNo, hparse₂, ⟨more, rest₃⟩, hnext₃, moreFlag, hparse₃, ⟨seqno, rest₄⟩,
      hnext₄, seqnoNo, hparse₄, ⟨size, rest₅⟩, hnext₅, sizeNo, hparse₅,
      ⟨ansno, rest₆⟩, hansno, ⟨⟩, hfinish, ⟨⟩, hsize, hparsed⟩ := h
    obtain ⟨hchannel, rfl⟩ := next_parseU32_eq_ok.mp ⟨hnext₁, hparse₁⟩
    obtain ⟨hmsgno, rfl⟩ := next_parseU32_eq_ok.mp ⟨hnext₂, hparse₂⟩
    obtain ⟨-, -, rfl⟩ := Fields.next_eq_ok.mp hnext₃
    obtain rfl := parseContinuation_eq_ok.mp hparse₃
    obtain ⟨hseqno, rfl⟩ := next_parseU32_eq_ok.mp ⟨hnext₄, hparse₄⟩
    obtain ⟨hnumeral, rfl⟩ := next_parseU32_eq_ok.mp ⟨hnext₅, hparse₅⟩
    have htail := parseAnsno_eq_ok.mp ⟨rest₆, hansno, hfinish⟩
    cases hparsed
    exact ⟨_, channel, msgno, seqno, size, rest₅, rfl, rfl, hchannel, hmsgno,
      hseqno, hnumeral, checkSize_eq_ok.mp hsize, htail, rfl⟩
  · rintro ⟨header, channel, msgno, seqno, size, tail, rfl, rfl, hchannel, hmsgno,
      hseqno, hnumeral, hsize, htail, rfl⟩
    have hmore : [continuation header.more] ≠ [] ∧ 32 ∉ [continuation header.more] := by
      cases header.more <;> decide
    obtain ⟨rest, hansno, hfinish⟩ := parseAnsno_eq_ok.mpr htail
    simp only [parseData, Except.bind_eq_ok]
    exact ⟨_, hchannel.next _ _, _, hchannel.parseU32 _, _, hmsgno.next _ _, _,
      hmsgno.parseU32 _, _, Fields.next_eq_ok.mpr ⟨hmore.1, hmore.2, rfl⟩, _,
      parseContinuation_eq_ok.mpr rfl, _, hseqno.next _ _, _, hseqno.parseU32 _, _,
      hnumeral.next _ _, _, hnumeral.parseU32 _, _, hansno, (), hfinish, (),
      checkSize_eq_ok.mpr hsize, rfl⟩

/-! ## Header lines -/

private theorem ofAnsno_iff {kind : FrameKind} {ansno : Option UInt32}
    {line size : Octets} :
    (∃ fields : Fields, fields.ofAnsno kind ansno ∧
      Fields.new line = fields.cons size) ↔
    ∃ tail, AnsnoField kind tail ansno ∧ line = size ++ tail := by
  cases ansno with
  | none =>
      constructor
      · rintro ⟨fields, ⟨hkind, rfl⟩, hline⟩
        cases hline
        exact ⟨[], ⟨hkind, rfl⟩, by simp⟩
      · rintro ⟨tail, ⟨hkind, rfl⟩, rfl⟩
        exact ⟨⟨none⟩, ⟨hkind, rfl⟩, by simp [Fields.new, Fields.cons]⟩
  | some ansno =>
      constructor
      · rintro ⟨fields, ⟨hkind, numeral, rfl, hnumeral⟩, hline⟩
        cases hline
        exact ⟨32 :: numeral, ⟨hkind, numeral, rfl, hnumeral⟩, rfl⟩
      · rintro ⟨tail, ⟨hkind, numeral, rfl, hnumeral⟩, rfl⟩
        exact ⟨_, ⟨hkind, numeral, rfl, hnumeral⟩, rfl⟩

theorem parseHeader_split {line : Octets} {limit : UInt32} {parsed : Parsed} :
    parseHeader line limit = .ok parsed ↔ ∃ token rest,
      line = token ++ 32 :: rest ∧
      ((token = octets "SEQ" ∧ parseSeq (Fields.new rest) = .ok parsed) ∨
        ∃ kind : FrameKind, token = octets kind.asStr ∧
          parseData kind (Fields.new rest) limit = .ok parsed) := by
  constructor
  · intro h
    unfold parseHeader at h
    split at h
    · cases h
    · simp only at h
      split at h
      · rename_i rest hrest
        have hline : line = line.take 3 ++ 32 :: rest := by
          rw [← hrest, List.take_append_drop]
        refine ⟨line.take 3, rest, hline, ?_⟩
        split at h
        · rename_i hseq
          exact .inl ⟨hseq, h⟩
        · split at h
          · cases h
          · rename_i kind hkind
            exact .inr ⟨kind, FrameKind.fromToken_eq_some.mp hkind, h⟩
      · cases h
  · rintro ⟨token, rest, rfl, ⟨rfl, hparse⟩ | ⟨kind, rfl, hparse⟩⟩
    · exact hparse
    · have hlen := kind.length_asStr
      have htake : (octets kind.asStr ++ 32 :: rest).take 3 = octets kind.asStr := by
        rw [← hlen, List.take_left]
      have hdrop : (octets kind.asStr ++ 32 :: rest).drop 3 = 32 :: rest := by
        rw [← hlen, List.drop_left]
      have hshort : ¬ (octets kind.asStr ++ 32 :: rest).length < 3 := by
        rw [List.length_append, hlen]
        omega
      unfold parseHeader
      rw [if_neg hshort]
      simp only [htake, hdrop, if_neg kind.asStr_ne_seq,
        FrameKind.fromToken_eq_some.mpr rfl]
      exact hparse

theorem parseHeader_eq_ok {line : Octets} {limit : UInt32} {parsed : Parsed} :
    parseHeader line limit = .ok parsed ↔ HeaderLine limit line parsed := by
  rw [parseHeader_split]
  constructor
  · rintro ⟨token, rest, rfl, ⟨rfl, hparse⟩ | ⟨kind, rfl, hparse⟩⟩
    · obtain ⟨frame, channel, ackno, window, rfl, hchannel, hackno, hwindow, hrest⟩ :=
        parseSeq_eq_ok.mp hparse
      cases hrest
      exact ⟨channel, ackno, window, by simp, hchannel, hackno, hwindow⟩
    · obtain ⟨header, channel, msgno, seqno, size, fields, rfl, rfl, hchannel, hmsgno,
        hseqno, hnumeral, hsize, hfields, hrest⟩ := parseData_eq_ok.mp hparse
      have hsizeRest : ∃ line, Fields.new line = fields.cons size := by
        obtain ⟨_ | tail⟩ := fields <;> exact ⟨_, rfl⟩
      obtain ⟨line, hline⟩ := hsizeRest
      obtain ⟨tail, htail, rfl⟩ := ofAnsno_iff.mp ⟨fields, hfields, hline⟩
      rw [← hline] at hrest
      cases hrest
      refine ⟨channel, msgno, seqno, size, tail, ?_, hchannel, hmsgno, hseqno,
        hnumeral, hsize, htail⟩
      simp
  · cases parsed with
    | seq frame =>
        rintro ⟨channel, ackno, window, rfl, hchannel, hackno, hwindow⟩
        refine ⟨octets "SEQ", channel ++ 32 :: (ackno ++ 32 :: window),
          by simp, .inl ⟨rfl, ?_⟩⟩
        exact parseSeq_eq_ok.mpr
          ⟨frame, channel, ackno, window, rfl, hchannel, hackno, hwindow, rfl⟩
    | data header =>
        rintro ⟨channel, msgno, seqno, size, tail, rfl, hchannel, hmsgno, hseqno,
          hnumeral, hsize, htail⟩
        obtain ⟨fields, hfields, hline⟩ :=
          ofAnsno_iff.mpr ⟨tail, htail, Eq.refl (size ++ tail)⟩
        refine ⟨octets header.kind.asStr, channel ++ 32 :: (msgno ++ 32 ::
          (continuation header.more :: 32 :: (seqno ++ 32 :: (size ++ tail)))),
          by simp, .inr ⟨header.kind, rfl, ?_⟩⟩
        refine parseData_eq_ok.mpr ⟨header, channel, msgno, seqno, size, fields, rfl,
          rfl, hchannel, hmsgno, hseqno, hnumeral, hsize, hfields, ?_⟩
        rw [← hline]
        rfl

theorem HeaderLine.ans_of_ansno {limit : UInt32} {line : Octets}
    {header : DataHeader} (h : HeaderLine limit line (.data header))
    (hansno : header.ansno.isSome) : header.kind = .ans := by
  obtain ⟨_, _, _, _, _, -, -, -, -, -, -, htail⟩ := h
  cases hvalue : header.ansno with
  | none =>
      rw [hvalue] at hansno
      cases hansno
  | some ansno =>
      rw [hvalue] at htail
      exact htail.1

/-! ## Decoding -/

namespace Decoder

theorem decodeHeader_eq_ok {decoder : Decoder} {src rest : Octets}
    {parsed : Parsed} :
    decoder.decodeHeader src = .ok (some (parsed, rest)) ↔
      ∃ line, HeaderLine decoder.maxFrameSize line parsed ∧
        StartsWithLine src line rest := by
  constructor
  · intro h
    unfold decodeHeader at h
    split at h
    · split at h <;> cases h
    · rename_i lf hfind
      obtain ⟨before, after, hsplit, hnot, hlf⟩ := find_eq_some.mp hfind
      split at h
      · cases h
      · rename_i hbare
        rw [not_or, not_ne_iff] at hbare
        split at h
        · cases h
        · rename_i parsed' hparse
          cases h
          have hsrc : src = before ++ 10 :: (after ++ src.drop maxHeaderLen) := by
            rw [← List.cons_append, ← List.append_assoc, ← hsplit,
              List.take_append_drop]
          have hlen := congrArg List.length hsplit
          simp only [List.length_take, List.length_append, List.length_cons]
            at hlen
          rcases before.eq_nil_or_concat with rfl | ⟨line, last, rfl⟩
          · exact absurd hlf.symm hbare.1
          · rw [List.concat_eq_append] at hsrc hnot hlf hlen
            rw [List.length_append, List.length_singleton] at hlf hlen
            subst hlf
            rw [List.append_assoc] at hsrc
            have hcr := hbare.2
            rw [hsrc, Nat.add_sub_cancel, List.getElem?_append_right (by simp)]
              at hcr
            simp only [Nat.sub_self, List.cons_append, List.getElem?_cons_zero,
              Option.some.injEq] at hcr
            subst hcr
            have hdrop : src.drop (line.length + 1 + 1) =
                after ++ src.drop maxHeaderLen := by
              conv_lhs => rw [hsrc]
              rw [Nat.add_assoc, ← List.drop_drop, List.drop_left]
              rfl
            refine ⟨line, ?_, ?_, ?_, by omega⟩
            · refine parseHeader_eq_ok.mp ?_
              rw [← hparse, hsrc, Nat.add_sub_cancel, List.take_left]
            · rw [hdrop]
              conv_lhs => rw [hsrc]
              simp [octets_crlf]
            · intro hmem
              exact hnot (List.mem_append_left _ hmem)
  · rintro ⟨line, hline, rfl, hnot, hlen⟩
    have hfind : find ((line ++ octets "\r\n" ++ rest).take maxHeaderLen) 10 =
        some (line.length + 1) := by
      have hnot' : 10 ∉ line ++ [13] := by
        simpa using hnot
      have hsplit : (line ++ octets "\r\n" ++ rest).take maxHeaderLen =
          (line ++ [13]) ++ 10 :: rest.take (maxHeaderLen - (line.length + 2)) := by
        rw [List.take_append, List.take_of_length_le (by simpa [octets_crlf] using hlen)]
        simp [octets_crlf]
      rw [hsplit, find_append_cons hnot', List.length_append,
        List.length_singleton]
    have hcr : (line ++ octets "\r\n" ++ rest)[line.length]? = some 13 := by
      simp [octets_crlf]
    have htake : (line ++ octets "\r\n" ++ rest).take line.length = line := by
      rw [List.append_assoc, List.take_left]
    have hdrop : (line ++ octets "\r\n" ++ rest).drop (line.length + 1 + 1) = rest := by
      have hlength : line.length + 1 + 1 = (line ++ octets "\r\n").length := by
        simp [octets_crlf]
      rw [hlength, List.drop_left]
    simp only [decodeHeader, hfind, Nat.add_sub_cancel, hcr, htake, hdrop,
      parseHeader_eq_ok.mpr hline]
    simp

theorem frameOf_eq_ok {header : DataHeader} {payload : Octets}
    {frame : DataFrame} (h : frame.header = header)
    (hpayload : frame.payload = payload) :
    frameOf header payload = .ok (frame.withMore false) := by
  subst h hpayload
  cases hansno : frame.ansno with
  | none =>
      have hkind : ¬ frame.kind.hasAnsno := by
        rw [frame.hasAnsno_eq, hansno]
        simp
      simp only [frameOf, DataFrame.header, hansno, DataFrame.new, dif_neg hkind]
      exact DataFrame.build_eq_ok.mpr ⟨rfl, rfl, rfl, rfl, rfl, hansno, rfl⟩
  | some ansno =>
      have hkind : frame.kind = .ans := by
        have := frame.hasAnsno_eq
        rw [hansno] at this
        revert this
        cases frame.kind <;> simp [FrameKind.hasAnsno]
      simp only [frameOf, DataFrame.header, hansno, DataFrame.newAns]
      exact DataFrame.build_eq_ok.mpr ⟨hkind, rfl, rfl, rfl, rfl, hansno, rfl⟩

theorem frameOf_header {header : DataHeader} {payload : Octets}
    {frame : DataFrame} (h : frameOf header payload = .ok frame)
    (hsize : payload.length = header.size.toNat)
    (hkind : header.ansno.isSome → header.kind = .ans) :
    (frame.withMore header.more).header = header ∧ frame.payload = payload := by
  have hsize' : UInt32.ofNat payload.length = header.size := by
    rw [hsize, UInt32.ofNat_toNat]
  have hfields : frame.kind = header.kind ∧ frame.channel = header.channel ∧
      frame.msgno = header.msgno ∧ frame.seqno = header.seqno ∧
      frame.ansno = header.ansno ∧ frame.payload = payload := by
    cases hansno : header.ansno with
    | none =>
        simp only [frameOf, hansno, DataFrame.new] at h
        split at h
        · cases h
        · obtain ⟨hkind', hchannel, hmsgno, -, hseqno, hans, hpayload⟩ :=
            DataFrame.build_eq_ok.mp h
          exact ⟨hkind', hchannel, hmsgno, hseqno, hans, hpayload⟩
    | some ansno =>
        simp only [frameOf, hansno, DataFrame.newAns] at h
        obtain ⟨hkind', hchannel, hmsgno, -, hseqno, hans, hpayload⟩ :=
          DataFrame.build_eq_ok.mp h
        rw [hansno] at hkind
        exact ⟨hkind'.trans (hkind rfl).symm, hchannel, hmsgno, hseqno, hans,
          hpayload⟩
  obtain ⟨hkind', hchannel, hmsgno, hseqno, hans, hpayload⟩ := hfields
  refine ⟨?_, hpayload⟩
  simp only [DataFrame.header, DataFrame.withMore, DataFrame.size, hkind',
    hchannel, hmsgno, hseqno, hans, hpayload, hsize']

theorem decodeBody_eq_ok {decoder decoder' : Decoder} {header : DataHeader}
    {src rest : Octets} {frame : Frame}
    (hkind : header.ansno.isSome → header.kind = .ans) :
    decoder.decodeBody header src = (decoder', rest, .ok (some frame)) ↔
      decoder' = { decoder with pending := none } ∧
        ∃ data : DataFrame, frame = .data data ∧ data.header = header ∧
          src = data.payload ++ trailer ++ rest := by
  constructor
  · intro h
    unfold decodeBody at h
    simp only at h
    split at h
    · cases h
    · rename_i hlen
      rw [length_trailer] at hlen
      split at h
      · cases h
      · rename_i hmark
        rw [not_ne_iff] at hmark
        split at h
        · cases h
        · rename_i data hframe
          cases h
          obtain ⟨hheader, hpayload⟩ := frameOf_header hframe
            (by rw [List.length_take]; omega) hkind
          refine ⟨rfl, _, rfl, hheader, ?_⟩
          have hwith : (data.withMore header.more).payload = data.payload := rfl
          rw [hwith, hpayload]
          conv_lhs => rw [← List.take_append_drop header.size.toNat src,
            ← List.take_append_drop trailer.length (src.drop header.size.toNat),
            hmark]
          rw [List.append_assoc]
  · rintro ⟨rfl, data, rfl, rfl, rfl⟩
    have hsize : data.header.size.toNat = data.payload.length := data.toNat_size
    have hframe : frameOf data.header data.payload = .ok (data.withMore false) :=
      frameOf_eq_ok rfl rfl
    have htake : (data.payload ++ trailer ++ rest).take data.payload.length =
        data.payload := by
      rw [List.append_assoc, List.take_left]
    have hdrop : (data.payload ++ trailer ++ rest).drop data.payload.length =
        trailer ++ rest := by
      rw [List.append_assoc, List.drop_left]
    have hlen : ¬ (data.payload ++ trailer ++ rest).length <
        data.payload.length + trailer.length := by
      simp
    simp only [decodeBody, hsize, if_neg hlen, htake, hdrop, List.take_left,
      List.drop_left, ne_eq, not_true_eq_false, if_false,
      hframe]
    rfl

theorem denotes_of_decode {limit : UInt32} {buffer rest : Octets}
    {decoder' : Decoder} {frame : Frame}
    (h : (withMaxFrameSize limit).decode buffer =
      (decoder', rest, .ok (some frame))) :
    decoder' = withMaxFrameSize limit ∧ Denotes limit buffer frame rest := by
  rcases (withMaxFrameSize limit).decode_cases buffer with
    ⟨header, hpending, heq⟩ | ⟨-, error, hheader, heq⟩ | ⟨-, hheader, heq⟩ |
    ⟨-, seq, tail, hheader, heq⟩ | ⟨-, header, tail, hheader, heq⟩ <;>
    rw [heq] at h
  · cases hpending
  · cases h
  · cases h
  · cases h
    exact ⟨rfl, decodeHeader_eq_ok.mp hheader⟩
  · obtain ⟨line, hline, hstarts⟩ := decodeHeader_eq_ok.mp hheader
    obtain ⟨rfl, data, rfl, rfl, rfl⟩ :=
      (decodeBody_eq_ok hline.ans_of_ansno).mp h
    exact ⟨rfl, line, hline, hstarts⟩

theorem decode_of_denotes {limit : UInt32} {buffer rest : Octets}
    {frame : Frame} (h : Denotes limit buffer frame rest) :
    (withMaxFrameSize limit).decode buffer =
      (withMaxFrameSize limit, rest, .ok (some frame)) := by
  have hpending : (withMaxFrameSize limit).pending = none := rfl
  cases frame with
  | seq frame => exact decode_of_seq hpending (decodeHeader_eq_ok.mpr h)
  | data frame =>
      obtain ⟨line, hline, hstarts⟩ := h
      rw [decode_of_data hpending
        (decodeHeader_eq_ok.mpr ⟨line, hline, hstarts⟩)]
      exact (decodeBody_eq_ok hline.ans_of_ansno).mpr
        ⟨rfl, frame, rfl, rfl, rfl⟩

/--
A fresh decoder takes a frame off a buffer exactly when the buffer starts with
octets that denote it, and takes no more than these.
-/
theorem accepts_iff_denotes (limit : UInt32) (buffer rest : Octets)
    (decoder' : Decoder) (frame : Frame) :
    (withMaxFrameSize limit).decode buffer =
        (decoder', rest, .ok (some frame)) ↔
      decoder' = withMaxFrameSize limit ∧ Denotes limit buffer frame rest := by
  constructor
  · exact denotes_of_decode
  · rintro ⟨rfl, h⟩
    exact decode_of_denotes h

end Decoder

end Vortice.Proto
