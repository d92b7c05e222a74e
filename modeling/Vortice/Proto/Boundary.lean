import Vortice.Proto.Grammar

/-!
# Measuring a frame without decoding it

`frame_boundary` walks the same header line as the decoder and then trusts the
size it announces.  It is compared with a fresh decoder on every buffer: the
two part exactly where a data frame's payload is not followed by the trailer.
-/

namespace Vortice.Proto

open Vortice.Foundation

/-- The length of the frame at the front of `src`, if there is one. -/
def frameBoundary (src : Octets) : Option Nat :=
  match find (src.take maxHeaderLen) 10 with
  | none => none
  | some lf =>
      if lf = 0 ∨ src[lf - 1]? ≠ some 13 then none
      else
        let headerLen := lf + 1
        match parseHeader (src.take (lf - 1)) maxFrameSize with
        | .error _ => none
        | .ok (.seq _) => some headerLen
        | .ok (.data header) =>
            let total := headerLen + header.size.toNat + trailer.length
            if src.length ≥ total then some total else none

/-- A fresh decoder run on `src` returns a frame, having consumed `n` octets. -/
def Decoder.Consumes (src : Octets) (n : Nat) : Prop :=
  ∃ decoder taken rest frame, src = taken ++ rest ∧ taken.length = n ∧
    Decoder.new.decode src = (decoder, rest, .ok (some frame))

/-- A data header line and its payload, with octets other than the trailer behind. -/
def Mismarked (src : Octets) : Prop :=
  ∃ line header payload mark rest,
    HeaderLine maxFrameSize line (.data header) ∧
    StartsWithLine src line (payload ++ mark ++ rest) ∧
    payload.length = header.size.toNat ∧
    mark.length = trailer.length ∧ mark ≠ trailer

namespace Decoder

theorem frameBoundary_cases (src : Octets) :
    ((∀ taken, new.decodeHeader src ≠ .ok (some taken)) ∧
      frameBoundary src = none) ∨
    (∃ frame taken rest, src = taken ++ rest ∧
      new.decodeHeader src = .ok (some (.seq frame, rest)) ∧
      frameBoundary src = some taken.length) ∨
    (∃ header taken rest, src = taken ++ rest ∧
      new.decodeHeader src = .ok (some (.data header, rest)) ∧
      frameBoundary src =
        if rest.length < header.size.toNat + trailer.length then none
        else some (taken.length + header.size.toNat + trailer.length)) := by
  unfold frameBoundary decodeHeader
  cases hfind : find (src.take maxHeaderLen) 10 with
  | none =>
      refine .inl ⟨?_, rfl⟩
      intro taken
      dsimp only
      split <;> simp
  | some lf =>
      obtain ⟨before, after, hsplit, -, hlf⟩ := find_eq_some.mp hfind
      have hlt : lf + 1 ≤ src.length := by
        have := congrArg List.length hsplit
        simp only [List.length_take, List.length_append, List.length_cons] at this
        omega
      have hlen : (src.take (lf + 1)).length = lf + 1 := by
        rw [List.length_take]
        omega
      have hrest : (src.drop (lf + 1)).length = src.length - (lf + 1) :=
        List.length_drop
      have hsrc : src = src.take (lf + 1) ++ src.drop (lf + 1) :=
        (List.take_append_drop _ _).symm
      have hmax : new.maxFrameSize = Proto.maxFrameSize := rfl
      dsimp only
      by_cases hbare : lf = 0 ∨ src[lf - 1]? ≠ some 13
      · rw [if_pos hbare, if_pos hbare]
        exact .inl ⟨by simp, rfl⟩
      · rw [if_neg hbare, if_neg hbare, hmax]
        rcases parseHeader (src.take (lf - 1)) Proto.maxFrameSize with error | header | frame
        · exact .inl ⟨by simp, rfl⟩
        · refine .inr (.inr ⟨header, _, _, hsrc, rfl, ?_⟩)
          dsimp only
          rw [hlen, hrest]
          split
          · rw [if_neg (by omega)]
          · rw [if_pos (by omega)]
        · exact .inr (.inl ⟨frame, _, _, hsrc, rfl, by rw [hlen]⟩)

theorem build_isOk {kind : FrameKind} {channel msgno : UInt32}
    {ansno : Option UInt32} {payload : Octets} (hkind : kind.hasAnsno = ansno.isSome)
    (hchannel : channel ≤ maxChannelNo) (hmsgno : msgno ≤ maxMsgNo)
    (hansno : ∀ n ∈ ansno, n ≤ maxAnsNo)
    (hpayload : payload.length ≤ Proto.maxFrameSize.toNat) (seqno : UInt32) :
    ∃ frame, DataFrame.build kind channel msgno seqno ansno payload hkind =
      .ok frame := by
  rw [DataFrame.build, dif_pos hchannel, dif_pos hmsgno, dif_pos hansno,
    dif_pos hpayload]
  exact ⟨_, rfl⟩

theorem frameOf_isOk {line payload : Octets} {header : DataHeader}
    (h : HeaderLine Proto.maxFrameSize line (.data header))
    (hpayload : payload.length = header.size.toNat) :
    ∃ frame, frameOf header payload = .ok frame := by
  obtain ⟨_, _, _, _, tail, -, hchannel, hmsgno, -, -, hsize, hansno⟩ := h
  have hlen : payload.length ≤ Proto.maxFrameSize.toNat := by
    rw [hpayload]
    exact UInt32.le_iff_toNat_le.mp hsize
  cases hvalue : header.ansno with
  | none =>
      rw [hvalue] at hansno
      have hkind : ¬ header.kind.hasAnsno := by
        have hne := hansno.1
        revert hne
        cases header.kind <;> simp [FrameKind.hasAnsno]
      simp only [frameOf, hvalue, DataFrame.new, dif_neg hkind]
      exact build_isOk _ hchannel.2.2.2 hmsgno.2.2.2 (by simp) hlen _
  | some ansno =>
      rw [hvalue] at hansno
      obtain ⟨-, numeral, -, hnumeral⟩ := hansno
      have hbound : ∀ n ∈ some ansno, n ≤ maxAnsNo := by
        intro n hn
        cases hn
        exact hnumeral.2.2.2
      simp only [frameOf, hvalue, DataFrame.newAns]
      exact build_isOk _ hchannel.2.2.2 hmsgno.2.2.2 hbound hlen _

theorem body_cut {payload mark : Octets} {size : Nat}
    (hpayload : payload.length = size) (hmark : mark.length = trailer.length)
    (rest : Octets) :
    ¬ (payload ++ mark ++ rest).length < size + trailer.length ∧
      (payload ++ mark ++ rest).take size = payload ∧
      (payload ++ mark ++ rest).drop size = mark ++ rest ∧
      (mark ++ rest).take trailer.length = mark ∧
      (mark ++ rest).drop trailer.length = rest := by
  refine ⟨?_, ?_, ?_, ?_, ?_⟩
  · simp only [List.length_append]
    omega
  · rw [← hpayload, List.append_assoc, List.take_left]
  · rw [← hpayload, List.append_assoc, List.drop_left]
  · rw [← hmark, List.take_left]
  · rw [← hmark, List.drop_left]

theorem decodeBody_marked {decoder : Decoder} {line payload : Octets}
    {header : DataHeader} (h : HeaderLine Proto.maxFrameSize line (.data header))
    (hpayload : payload.length = header.size.toNat) (rest : Octets) :
    ∃ decoder' frame, decoder.decodeBody header (payload ++ trailer ++ rest) =
      (decoder', rest, .ok (some frame)) := by
  obtain ⟨frame, hframe⟩ := frameOf_isOk h hpayload
  obtain ⟨hlen, htake, hdrop, hmark, hrest⟩ :=
    body_cut hpayload (Eq.refl trailer.length) rest
  rw [decodeBody]
  dsimp only
  rw [if_neg hlen, hdrop, htake, hmark, hrest, if_neg (by simp), hframe]
  exact ⟨_, _, rfl⟩

theorem decodeBody_mismarked {decoder : Decoder} {payload mark : Octets}
    {header : DataHeader} (hpayload : payload.length = header.size.toNat)
    (hmark : mark.length = trailer.length) (hne : mark ≠ trailer) (rest : Octets) :
    decoder.decodeBody header (payload ++ mark ++ rest) =
      (decoder, mark ++ rest, .error .missingTrailer) := by
  obtain ⟨hlen, -, hdrop, hmark', -⟩ := body_cut hpayload hmark rest
  rw [decodeBody]
  dsimp only
  rw [if_neg hlen, hdrop, hmark', if_pos hne]

theorem decodeHeader_of_mismarked {src : Octets} (h : Mismarked src) :
    ∃ header payload mark rest,
      new.decodeHeader src =
        .ok (some (.data header, payload ++ mark ++ rest)) ∧
      payload.length = header.size.toNat ∧
      mark.length = trailer.length ∧ mark ≠ trailer := by
  obtain ⟨line, header, payload, mark, rest, hline, hstarts, hpayload, hmark, hne⟩ := h
  exact ⟨header, payload, mark, rest,
    decodeHeader_eq_ok.mpr ⟨line, hline, hstarts⟩, hpayload, hmark, hne⟩

theorem consumes_iff {src taken rest : Octets} {decoder : Decoder} {frame : Frame}
    (hsrc : src = taken ++ rest)
    (h : new.decode src = (decoder, rest, .ok (some frame))) (n : Nat) :
    Consumes src n ↔ taken.length = n := by
  constructor
  · rintro ⟨decoder', taken', rest', frame', hsrc', rfl, h'⟩
    rw [h] at h'
    cases h'
    rw [hsrc] at hsrc'
    rw [List.append_cancel_right hsrc']
  · intro hn
    exact ⟨decoder, taken, rest, frame, hsrc, hn, h⟩

theorem not_consumes {src rest : Octets} {decoder : Decoder}
    {result : Except Error (Option Frame)}
    (h : new.decode src = (decoder, rest, result))
    (hresult : ∀ frame, result ≠ .ok (some frame)) (n : Nat) :
    ¬ Consumes src n := by
  rintro ⟨decoder', taken, rest', frame, -, -, h'⟩
  rw [h] at h'
  cases h'
  exact hresult frame rfl

theorem exists_body {rest : Octets} {size : Nat}
    (h : ¬ rest.length < size + trailer.length) :
    ∃ payload mark more, rest = payload ++ mark ++ more ∧
      payload.length = size ∧ mark.length = trailer.length := by
  refine ⟨rest.take size, (rest.drop size).take trailer.length,
    (rest.drop size).drop trailer.length, ?_, ?_, ?_⟩
  · rw [List.append_assoc, List.take_append_drop, List.take_append_drop]
  · rw [List.length_take]
    omega
  · rw [List.length_take, List.length_drop]
    omega

/-- The measure and the decoder agree on everything but a missing trailer. -/
theorem frameBoundary_consumes_iff (src : Octets) :
    (∀ n, frameBoundary src = some n ↔ Consumes src n) ↔ ¬ Mismarked src := by
  have hpending : new.pending = none := rfl
  rcases frameBoundary_cases src with
    ⟨hnone, hmeasure⟩ | ⟨frame, taken, rest, hsrc, hheader, hmeasure⟩ |
    ⟨header, taken, rest, hsrc, hheader, hmeasure⟩
  · have hmarked : ¬ Mismarked src := by
      intro h
      obtain ⟨_, _, _, _, hheader, -⟩ := decodeHeader_of_mismarked h
      exact hnone _ hheader
    have hconsumes : ∀ n, ¬ Consumes src n := by
      rcases new.decode_cases src with
        ⟨_, hsome, -⟩ | ⟨-, _, -, heq⟩ | ⟨-, -, heq⟩ | ⟨-, _, _, hheader, -⟩ |
        ⟨-, _, _, hheader, -⟩
      · cases hsome
      · exact not_consumes heq (by simp)
      · exact not_consumes heq (by simp)
      · exact absurd hheader (hnone _)
      · exact absurd hheader (hnone _)
    simp [hmeasure, hconsumes, hmarked]
  · have hmarked : ¬ Mismarked src := by
      intro h
      obtain ⟨_, _, _, _, hheader', -⟩ := decodeHeader_of_mismarked h
      rw [hheader] at hheader'
      cases hheader'
    have hdecode := decode_of_seq hpending hheader
    simp only [hmeasure, Option.some.injEq, consumes_iff hsrc hdecode, implies_true,
      hmarked, not_false_eq_true]
  · obtain ⟨line, hline, hstarts⟩ := decodeHeader_eq_ok.mp hheader
    have hdecode := decode_of_data hpending hheader
    by_cases hlen : rest.length < header.size.toNat + trailer.length
    · have hmarked : ¬ Mismarked src := by
        intro h
        obtain ⟨header', payload, mark, more, hheader', hpayload, hmark, -⟩ :=
          decodeHeader_of_mismarked h
        rw [hheader] at hheader'
        cases hheader'
        simp only [List.length_append] at hlen
        omega
      rw [decodeBody, if_pos hlen] at hdecode
      rw [if_pos hlen] at hmeasure
      simp [hmeasure, not_consumes hdecode (by simp), hmarked]
    · obtain ⟨payload, mark, more, rfl, hpayload, hmark⟩ := exists_body hlen
      rw [if_neg hlen] at hmeasure
      by_cases hsame : mark = trailer
      · subst hsame
        obtain ⟨decoder', frame, hframe⟩ := decodeBody_marked hline hpayload more
        rw [hframe] at hdecode
        have hmarked : ¬ Mismarked src := by
          intro h
          obtain ⟨header', payload', mark', more', hheader', hpayload', hmark', hne⟩ :=
            decodeHeader_of_mismarked h
          rw [hheader, Except.ok.injEq, Option.some.injEq, Prod.mk.injEq,
            Parsed.data.injEq] at hheader'
          obtain ⟨rfl, hbody⟩ := hheader'
          obtain ⟨-, -, hdrop, hmark, -⟩ := body_cut hpayload (Eq.refl trailer.length) more
          obtain ⟨-, -, hdrop', hmark', -⟩ := body_cut hpayload' hmark' more'
          rw [← hbody, hdrop] at hdrop'
          rw [← hdrop', hmark] at hmark'
          exact hne hmark'.symm
        have hsplit : src = (taken ++ payload ++ trailer) ++ more := by
          rw [hsrc]
          simp
        have htotal : (taken ++ payload ++ trailer).length =
            taken.length + header.size.toNat + trailer.length := by
          simp only [List.length_append, hpayload]
        simp only [hmeasure, Option.some.injEq, consumes_iff hsplit hdecode, htotal,
          implies_true, hmarked, not_false_eq_true]
      · rw [decodeBody_mismarked hpayload hmark hsame] at hdecode
        have hmarked : Mismarked src :=
          ⟨line, header, payload, mark, more, hline, hstarts, hpayload, hmark, hsame⟩
        simp [hmeasure, not_consumes hdecode (by simp), hmarked]

/-- A measured reply whose trailer is other octets. -/
theorem frameBoundary_mismarked :
    frameBoundary (octets "RPY 0 0 . 0 0\r\nXXXXX") = some 20 ∧
      ¬ Consumes (octets "RPY 0 0 . 0 0\r\nXXXXX") 20 := by
  refine ⟨rfl, ?_⟩
  rintro ⟨decoder, taken, rest, frame, -, -, hdecode⟩
  have hrun : (new.decode (octets "RPY 0 0 . 0 0\r\nXXXXX")).2.2 =
      .error .missingTrailer := rfl
  rw [hdecode] at hrun
  cases hrun

end Decoder

end Vortice.Proto
