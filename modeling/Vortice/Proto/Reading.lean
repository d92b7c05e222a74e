import Vortice.Proto.Documents

/-!
# Reading whatever there is

What each function of the parser does in front of an arbitrary text: it goes past a piece
that the grammar derives, or ends in an error of its own.  So it neither panics nor runs
out of fuel, and every document it accepts is one of the grammar.
-/

namespace Vortice.Proto.Xml

open Vortice.Foundation

/-- In front of `after`, the computation goes past a piece of it, with `Q` of the piece, the
result and the rest, or ends in an error of its own. -/
def Safe {α : Type} (p : ParserM α) (before after : String) (Q : String → α → String → Prop) :
    Prop :=
  (∃ piece a rest, after = piece ++ rest ∧ Q piece a rest ∧
    p (.between before after) = .ok a (.between (before ++ piece) rest)) ∨
  ∃ error parser, p (.between before after) = .error (.error error) parser

section Rules

variable {α β : Type} {p : ParserM α} {f : α → ParserM β} {before after piece rest : String}
  {a : α} {Q : String → α → String → Prop} {R : String → β → String → Prop}

theorem Safe.of_reads (h : Reads p piece a rest) (hq : Q piece a rest) :
    Safe p before (piece ++ rest) Q :=
  .inl ⟨piece, a, rest, rfl, hq, h before⟩

theorem Safe.fail (reason : String) : Safe (fail reason : ParserM α) before after Q :=
  .inr ⟨_, _, rfl⟩

theorem Safe.pure (hq : Q "" a after) : Safe (pure a) before after Q := by
  refine .inl ⟨"", a, after, String.empty_append.symm, hq, ?_⟩
  rw [String.append_empty]
  rfl

theorem Safe.mono {Q' : String → α → String → Prop} (h : Safe p before after Q)
    (hq : ∀ piece a rest, after = piece ++ rest → Q piece a rest → Q' piece a rest) :
    Safe p before after Q' := by
  obtain ⟨piece, a, rest, hafter, hpiece, hread⟩ | herror := h
  · exact .inl ⟨piece, a, rest, hafter, hq piece a rest hafter hpiece, hread⟩
  · exact .inr herror

theorem Safe.bind (h : Safe p before after Q)
    (hf : ∀ piece a rest, after = piece ++ rest → Q piece a rest →
      Safe (f a) (before ++ piece) rest fun more b behind => R (piece ++ more) b behind) :
    Safe (p >>= f) before after R := by
  obtain ⟨piece, a, rest, hafter, hpiece, hread⟩ | ⟨error, parser, herror⟩ := h
  · obtain ⟨more, b, behind, hrest, hmore, hread'⟩ | ⟨error, parser, herror⟩ :=
      hf piece a rest hafter hpiece
    · refine .inl ⟨piece ++ more, b, behind, by rw [hafter, hrest, String.append_assoc], hmore, ?_⟩
      rw [bind_ok hread, hread', String.append_assoc]
    · exact .inr ⟨error, parser, by rw [bind_ok hread, herror]⟩
  · refine .inr ⟨error, parser, ?_⟩
    change EStateM.bind p f _ = _
    rw [EStateM.bind, herror]

theorem Safe.bind_stay (h : p (.between before after) = .ok a (.between before after))
    (hf : Safe (f a) before after R) : Safe (p >>= f) before after R := by
  unfold Safe at hf ⊢
  rw [bind_ok h]
  exact hf

theorem Safe.bind_get {f : Parser → ParserM β}
    (hf : Safe (f (.between before after)) before after R) : Safe (get >>= f) before after R :=
  .bind_stay rfl hf

theorem Safe.bind_reads (h : Reads p piece a rest)
    (hf : Safe (f a) (before ++ piece) rest fun more b behind => R (piece ++ more) b behind) :
    Safe (p >>= f) before (piece ++ rest) R := by
  obtain ⟨more, b, behind, rfl, hmore, hread⟩ | ⟨error, parser, herror⟩ := hf
  · refine .inl ⟨piece ++ more, b, behind, String.append_assoc.symm, hmore, ?_⟩
    rw [bind_ok (h before), hread, String.append_assoc]
  · exact .inr ⟨error, parser, by rw [bind_ok (h before), herror]⟩

theorem Safe.lift {result : Except Fault α}
    (h : (∃ value, result = .ok value ∧ Q "" value after) ∨
      ∃ error, result = .error (.error error)) : Safe (lift result) before after Q := by
  obtain ⟨value, rfl, hq⟩ | ⟨error, rfl⟩ := h
  · exact .pure hq
  · exact .inr ⟨_, _, rfl⟩

end Rules

/-! ## Scanning -/

theorem Safe.advanceWhile {p : UInt8 → Bool}
    (hp : ∀ octet : UInt8, 128 ≤ octet.toNat → p octet = p 128) (before after : String) :
    Safe (advanceWhile p) before after fun piece _ rest =>
      (∀ octet ∈ octets piece, p octet) ∧ ∀ octet ∈ (octets rest).head?, p octet = false := by
  obtain ⟨piece, rest, rfl, hpiece, hrest⟩ := exists_run hp after
  exact .of_reads (reads_advanceWhile piece rest hpiece hrest) ⟨hpiece, hrest⟩

theorem isWs_wide {octet : UInt8} (h : 128 ≤ octet.toNat) : isWs octet = false := by
  have hne {other : UInt8} (hother : other.toNat < 128) : (octet == other) = false := by
    rw [beq_eq_false_iff_ne]
    rintro rfl
    omega
  rw [isWs, hne (by decide), hne (by decide), hne (by decide), hne (by decide)]
  rfl

theorem endsName_wide {octet : UInt8} (h : 128 ≤ octet.toNat) : endsName octet = false := by
  have hne {other : UInt8} (hother : other.toNat < 128) : (octet == other) = false := by
    rw [beq_eq_false_iff_ne]
    rintro rfl
    omega
  rw [endsName, isWs_wide h, hne (by decide), hne (by decide), hne (by decide),
    hne (by decide)]
  rfl

theorem safe_skipWs (before after : String) :
    Safe skipWs before after fun piece _ rest =>
      IsSpace piece ∧ ∀ octet ∈ (octets rest).head?, isWs octet = false :=
  .advanceWhile (fun _ h => isWs_wide h) before after

theorem exists_append_of_head {piece source : String} {octet : UInt8}
    (hpiece : octets piece = [octet]) (hascii : ∀ ch ∈ piece.toList, ch.toNat < 128)
    (h : (octets source).head? = some octet) : ∃ rest, source = piece ++ rest := by
  refine exists_append_of_prefix hascii ?_
  obtain ⟨tail, htail⟩ := List.head?_eq_some_iff.mp h
  rw [hpiece, htail]
  exact List.prefix_append [octet] tail

theorem safe_expect {piece : String} {octet : UInt8} (hpiece : octets piece = [octet])
    (hascii : ∀ ch ∈ piece.toList, ch.toNat < 128) (reason before after : String) :
    Safe (expect octet reason) before after fun found _ _ => found = piece := by
  by_cases hhead : (octets after).head? = some octet
  · obtain ⟨rest, rfl⟩ := exists_append_of_head hpiece hascii hhead
    exact .of_reads (reads_expect piece hpiece reason rest) rfl
  · refine .bind_stay (peek_between before after) ?_
    rw [if_neg hhead]
    exact .fail reason

theorem safe_readName (before after : String) :
    Safe readName before after fun piece name rest =>
      name = piece ∧ IsName piece ∧ ∀ octet ∈ (octets rest).head?, endsName octet := by
  have hwide (octet : UInt8) (h : 128 ≤ octet.toNat) : (!endsName octet) = !endsName 128 := by
    rw [endsName_wide h]
    rfl
  obtain ⟨name, rest, rfl, hname, hrest⟩ := exists_run hwide after
  simp only [Bool.not_eq_true', Bool.not_eq_false'] at hname hrest
  by_cases hempty : name = ""
  · subst hempty
    have hwalk := reads_advanceWhile (p := (!endsName ·)) "" rest nofun
      (fun octet hmem => by rw [hrest octet hmem]; rfl) before
    rw [String.append_empty] at hwalk
    have hfail : readName (.between before ("" ++ rest)) =
        fail "expected an element or attribute name" (.between before rest) := by
      rw [readName, get_bind, bind_ok hwalk, get_bind, String.empty_append, if_pos rfl]
    exact .inr ⟨_, _, hfail⟩
  · exact .of_reads (reads_readName ⟨hempty, hname⟩ rest hrest) ⟨rfl, ⟨hempty, hname⟩, hrest⟩

theorem Closing.ne_empty {closing : String} (h : Closing closing) : closing ≠ "" :=
  fun hempty => h.ne_nil (hempty ▸ rfl)

theorem safe_skipPast {closing : String} (hclosing : Closing closing) (before after : String) :
    Safe (skipPast (octets closing)) before after fun piece _ _ =>
      ∃ body, piece = body ++ closing ∧ ¬ closing.toList <:+: body.toList := by
  cases hfind : (List.range ((octets after).length - ((octets closing).length - 1))).find?
      fun i => (octets closing).isPrefixOf ((octets after).drop i) with
  | none =>
      refine .bind_stay (remaining_between before after) ?_
      rw [hfind]
      exact .fail _
  | some i =>
      obtain ⟨hstarts, -, hfirst⟩ := List.find?_range_eq_some.mp hfind
      rw [List.isPrefixOf_iff_prefix] at hstarts
      obtain ⟨body, rest, rfl, rfl⟩ :=
        exists_append_of_octets hclosing.ne_empty hclosing.ascii hstarts
      have hbody : ¬ closing.toList <:+: body.toList := by
        rintro ⟨front, back, hcontained⟩
        have hoctets : octets body = octets (String.ofList front) ++ (octets closing ++
            octets (String.ofList back)) := by
          rw [← octets_append, ← octets_append]
          refine congrArg octets ?_
          rw [← String.toList_inj, ← hcontained]
          simp
        have hless : (octets (String.ofList front)).length < (octets body).length := by
          have hpos := List.length_pos_of_ne_nil
            fun hnil => hclosing.ne_empty (octets_injective hnil)
          rw [hoctets, List.length_append, List.length_append]
          omega
        have hearlier := hfirst _ hless
        rw [Bool.not_eq_true', ← Bool.not_eq_true, List.isPrefixOf_iff_prefix, octets_append,
          hoctets, List.append_assoc, List.drop_left, List.append_assoc] at hearlier
        exact hearlier (List.prefix_append _ _)
      rw [← String.append_assoc]
      exact .of_reads (reads_skipPast hclosing hbody rest) ⟨body, rfl, hbody⟩

/-! ## Character data -/

theorem charData_plain {characters : List Char} (h : '&' ∉ characters) :
    CharData (String.ofList characters) (String.ofList characters) := by
  induction characters with
  | nil => exact .nil
  | cons ch rest ih =>
      rw [List.mem_cons, not_or] at h
      have hcons : String.ofList (ch :: rest) = ch.toString ++ String.ofList rest := by
        rw [← String.toList_inj]
        simp [Char.toString]
      rw [hcons]
      exact .glyph (.plain (Ne.symm h.1)) (ih h.2)

theorem decodeEntity_safe (name : String) :
    (∃ ch, decodeEntity name = .ok ch) ∨ ∃ error, decodeEntity name = .error (.error error) := by
  unfold decodeEntity
  repeat split <;> try exact .inl ⟨_, rfl⟩
  unfold decodeNumericReference
  dsimp only
  split
  · split
    · exact .inl ⟨_, rfl⟩
    · exact .inr ⟨_, rfl⟩
  · exact .inr ⟨_, rfl⟩

theorem exists_append_of_find {source : String} {ch : Char} (hch : ch.toNat < 128) {i : Nat}
    (h : find (octets source) (UInt8.ofNat ch.toNat) = some i) :
    ∃ before after, source = before ++ (ch.toString ++ after) ∧ ch ∉ before.toList ∧
      (octets before).length = i := by
  obtain ⟨before, after, hsource, hnot, rfl⟩ := find_eq_some.mp h
  have hascii : ∀ sought ∈ ch.toString.toList, sought.toNat < 128 := by
    simpa [Char.toString] using hch
  have hne : ch.toString ≠ "" := by
    intro hempty
    simpa [Char.toString] using congrArg String.toList hempty
  have hstarts : octets ch.toString <+: (octets source).drop before.length := by
    rw [hsource, List.drop_left, octets_toString hch]
    exact List.prefix_append [_] after
  obtain ⟨front, back, rfl, hlength⟩ := exists_append_of_octets hne hascii hstarts
  refine ⟨front, back, rfl, fun hmem => hnot ?_, hlength⟩
  rw [octets_append] at hsource
  rw [← (List.append_inj hsource hlength).1, octets_eq_flatMap, List.mem_flatMap]
  exact ⟨ch, hmem, by rw [utf8EncodeChar_ascii hch]; exact List.mem_singleton.mpr rfl⟩

theorem decodeEntitiesLoop_safe {fuel : Nat} {raw : String}
    (hfuel : (octets raw).length < fuel) (out : String) :
    (∃ value, decodeEntitiesLoop fuel raw out = .ok (out ++ value) ∧ CharData raw value) ∨
      ∃ error, decodeEntitiesLoop fuel raw out = .error (.error error) := by
  induction fuel generalizing raw out with
  | zero => omega
  | succ fuel ih =>
      cases hfind : find (octets raw) 38 with
      | none =>
          have hnot : '&' ∉ raw.toList := fun hmem => find_eq_none.mp hfind (by
            rw [octets_eq_flatMap, List.mem_flatMap]
            exact ⟨'&', hmem, by decide⟩)
          have hdata := charData_plain hnot
          rw [String.ofList_toList] at hdata
          exact .inl ⟨raw, decodeEntitiesLoop_plain hnot fuel out, hdata⟩
      | some i =>
          obtain ⟨plain, tail, rfl, hplain, -⟩ :=
            exists_append_of_find (by decide : ('&').toNat < 128) hfind
          have hampersand : ('&').toString = "&" := by decide
          have hsemicolon : (';').toString = ";" := by decide
          rw [hampersand] at hfuel ⊢
          cases hend : find ((octets tail).take maxEntityLen) 59 with
          | none =>
              right
              rw [decodeEntitiesLoop_ampersand hplain, hend]
              exact ⟨_, rfl⟩
          | some k =>
              have hwhole : find ((octets tail).take maxEntityLen ++
                  (octets tail).drop maxEntityLen) 59 = some k := find_append hend
              rw [List.take_append_drop] at hwhole
              obtain ⟨name, rest, rfl, hname, hlength⟩ :=
                exists_append_of_find (by decide : (';').toNat < 128) hwhole
              have hshort : (octets name).length < maxEntityLen := by
                obtain ⟨front, back, htake, -, hfront⟩ := find_eq_some.mp hend
                have hlen := congrArg List.length htake
                rw [List.length_take, List.length_append, List.length_cons] at hlen
                omega
              have hless : (octets rest).length < fuel := by
                simp only [octets_append, List.length_append,
                  show (octets "&").length = 1 from rfl] at hfuel
                omega
              rw [hsemicolon, decodeEntitiesLoop_named hplain
                (notMem_octets (by decide : (';').toNat < 128) hname) hshort]
              obtain ⟨ch, hch⟩ | ⟨error, herror⟩ := decodeEntity_safe name
              · rw [hch, except_ok_bind]
                obtain ⟨value, hvalue, hdata⟩ | ⟨error, herror⟩ :=
                  ih hless (out ++ plain ++ ch.toString)
                · have hfront := charData_plain hplain
                  rw [String.ofList_toList] at hfront
                  have hentity := CharData.glyph (.reference hname hshort hch) hdata
                  simp only [String.append_assoc] at hentity
                  refine .inl ⟨plain ++ (ch.toString ++ value), ?_, hfront.append hentity⟩
                  rw [hvalue]
                  simp only [String.append_assoc]
                · exact .inr ⟨error, herror⟩
              · rw [herror]
                exact .inr ⟨error, rfl⟩

theorem decodeEntities_safe (raw : String) :
    (∃ value, decodeEntities raw = .ok value ∧ CharData raw value) ∨
      ∃ error, decodeEntities raw = .error (.error error) := by
  have hloop := decodeEntitiesLoop_safe (Nat.lt_succ_self (octets raw).length) ""
  rw [decodeEntities_eq]
  simpa only [String.empty_append] using hloop

/-! ## Tags -/

theorem readAttrValue_open {quote : Char} (hquote : IsQuote quote) {behind : String}
    (hnot : UInt8.ofNat quote.toNat ∉ octets behind) (before : String) :
    readAttrValue (.between before (quote.toString ++ behind)) =
      fail "unterminated attribute value"
        (.between (before ++ quote.toString ++ behind) "") := by
  have hascii : quote.toNat < 128 := by
    obtain rfl | rfl := hquote <;> decide
  have hoctets := octets_toString hascii
  have hoctet : UInt8.ofNat quote.toNat = 34 ∨ UInt8.ofNat quote.toNat = 39 := by
    obtain rfl | rfl := hquote
    · exact .inr rfl
    · exact .inl rfl
  generalize UInt8.ofNat quote.toNat = octet at hoctets hoctet hnot
  have hopen := reads_advance quote.toString (by rw [hoctets]; rfl : _ = 1) behind before
  have hwalk := reads_advanceWhile (p := fun found => decide (found ≠ octet)) behind ""
    (by
      intro found hmem
      refine decide_eq_true ?_
      rintro rfl
      exact hnot hmem) nofun (before ++ quote.toString)
  rw [String.append_empty] at hwalk
  rw [readAttrValue, bind_ok (peek_between _ _), octets_append, hoctets]
  change (if octet = 34 ∨ octet = 39 then _ else _ : ParserM String) _ = _
  rw [if_pos hoctet, bind_ok hopen, get_bind, bind_ok hwalk, bind_ok (peek_between _ _),
    if_neg (by rw [octets_empty]; rintro ⟨⟩)]

theorem safe_readAttrValue (before after : String) :
    Safe readAttrValue before after fun piece value _ =>
      ∃ quote raw, IsQuote quote ∧ quote ∉ raw.toList ∧ CharData raw value ∧
        piece = quote.toString ++ (raw ++ quote.toString) := by
  by_cases hquote : ∃ quote, IsQuote quote ∧
      (octets after).head? = some (UInt8.ofNat quote.toNat)
  · obtain ⟨quote, hquote, hhead⟩ := hquote
    have hascii : quote.toNat < 128 := by
      obtain rfl | rfl := hquote <;> decide
    obtain ⟨behind, rfl⟩ := exists_append_of_head (octets_toString hascii)
      (by simpa [Char.toString] using hascii) hhead
    cases hfind : find (octets behind) (UInt8.ofNat quote.toNat) with
    | none => exact .inr ⟨_, _, readAttrValue_open hquote (find_eq_none.mp hfind) before⟩
    | some i =>
        obtain ⟨raw, rest, rfl, hraw, -⟩ := exists_append_of_find hascii hfind
        obtain ⟨value, hvalue, hdata⟩ | ⟨error, herror⟩ := decodeEntities_safe raw
        · refine .inl ⟨quote.toString ++ (raw ++ quote.toString), value, rest, ?_,
            ⟨quote, raw, hquote, hraw, hdata, rfl⟩, ?_⟩
          · simp only [String.append_assoc]
          · have hread := reads_readAttrValue hquote hraw hvalue rest before
            simpa only [String.append_assoc] using hread
        · have hread := readAttrValue_eq hquote hraw before rest
          rw [herror] at hread
          exact .inr ⟨error, _, hread⟩
  · refine .bind_stay (peek_between before after) ?_
    cases hhead : (octets after).head? with
    | none => exact .fail _
    | some octet =>
        dsimp only
        rw [if_neg]
        · exact .fail _
        · rintro (rfl | rfl)
          · exact hquote ⟨'"', .inr rfl, hhead⟩
          · exact hquote ⟨'\'', .inl rfl, hhead⟩

theorem safe_parseAttrs {fuel : Nat} {after : String} (hfuel : (octets after).length < fuel)
    (found : List (String × String)) (before : String) :
    Safe (parseAttrs fuel found) before after fun tag result _ =>
      ∃ attrs, result.1 = found ++ attrs ∧ TagEnd tag attrs result.2 := by
  induction fuel generalizing found before after with
  | zero => omega
  | succ fuel ih =>
      rw [parseAttrs]
      refine (safe_skipWs before after).bind ?_
      rintro space _ rest hafter ⟨hspace, _⟩
      refine .bind_stay (peek_between _ _) ?_
      split
      · rename_i hhead
        obtain ⟨more, rfl⟩ := exists_append_of_head (by rfl : octets "/" = [47]) (by decide) hhead
        refine .bind_reads (reads_advance "/" rfl more) ?_
        refine (safe_expect (by rfl : octets ">" = [62]) (by decide) _ _ _).bind
          fun greater _ _ _ hgreater => ?_
        subst hgreater
        exact .pure ⟨[], (List.append_nil _).symm, .empty hspace⟩
      · rename_i hhead
        obtain ⟨more, rfl⟩ := exists_append_of_head (by rfl : octets ">" = [62]) (by decide) hhead
        refine .bind_reads (reads_advance ">" rfl more) ?_
        exact .pure ⟨[], (List.append_nil _).symm, .close hspace⟩
      · refine (safe_readName _ _).bind ?_
        rintro name key afterName hname ⟨hsame, hisName, _⟩
        subst hsame
        refine (safe_skipWs _ _).bind ?_
        rintro before' _ afterSpace hbefore ⟨hspace', _⟩
        refine (safe_expect (by rfl : octets "=" = [61]) (by decide) _ _ _).bind
          fun equals _ afterEquals hequals hequal => ?_
        subst hequal
        refine (safe_skipWs _ _).bind ?_
        rintro behind _ afterBehind hbehind ⟨hspace'', _⟩
        refine (safe_readAttrValue _ _).bind ?_
        rintro quoted value afterValue hquoted ⟨quote, raw, hquote, hraw, hdata, heq⟩
        subst heq
        have hless : (octets afterValue).length < fuel := by
          rw [hafter, hname, hbefore, hequals, hbehind, hquoted] at hfuel
          simp only [octets_append, List.length_append, show (octets "=").length = 1 from rfl]
            at hfuel
          omega
        refine (ih hless _ _).mono ?_
        rintro rest result _ _ ⟨attrs, hresult, htag⟩
        refine ⟨(key, value) :: attrs, ?_, ?_⟩
        · rw [hresult, List.append_assoc, List.singleton_append]
        · exact .attr hspace hisName hspace' hspace'' hquote hraw hdata htag
      · exact .fail _

/-! ## Content -/

theorem octets_length_append (first second : String) :
    (octets (first ++ second)).length = (octets first).length + (octets second).length := by
  rw [octets_append, List.length_append]

theorem charData_content {mark : String} {shape : Nat → String → String → Element → Prop}
    {raw value source text : String} {children : List Element} (h : CharData raw value)
    (hless : '<' ∉ raw.toList) (hsource : Content mark shape 0 source source children text) :
    Content mark shape 0 (raw ++ source) (raw ++ source) children (value ++ text) := by
  induction h with
  | nil =>
      rw [String.empty_append, String.empty_append]
      exact hsource
  | glyph hglyph _ ih =>
      simp only [String.toList_append, List.mem_append, not_or] at hless
      rw [String.append_assoc, String.append_assoc]
      exact .glyph hglyph hless.1 (ih hless.2)

theorem isInner_of_plain {name rest after : String}
    (h : Plain ("<" ++ (name ++ rest) ++ after)) : IsInner name := by
  have hinner (pattern : String) (hpattern : pattern.toList <+: name.toList) :
      octets ("<" ++ pattern) <+: octets ("<" ++ (name ++ rest) ++ after) := by
    obtain ⟨tail, htail⟩ := exists_octets_of_prefix hpattern
    simp only [octets_append, htail, List.append_assoc]
    exact ⟨tail ++ (octets rest ++ octets after), by simp only [List.append_assoc]⟩
  obtain ⟨-, hcomment, hcdata⟩ := h
  rw [← Bool.not_eq_true, List.isPrefixOf_iff_prefix] at hcomment hcdata
  refine ⟨fun hstarts => hcomment ?_, fun hstarts => hcdata ?_⟩
  · exact hinner _ hstarts
  · exact hinner _ hstarts

/-- What opens and what closes a piece of markup do not overlap beyond its end. -/
theorem closed_of_prefix {opening closing body rest : String}
    (hopening : octets opening <+: octets (body ++ closing ++ rest))
    (hascii : ∀ ch ∈ opening.toList, ch.toNat < 128)
    (hlast : ∃ ch ∈ closing.toList, ch ∉ opening.toList)
    (hbody : ¬ closing.toList <:+: body.toList) : Closed opening closing (body ++ closing) := by
  refine ⟨?_, body, rfl, hbody⟩
  rw [octets_eq_flatMap, octets_eq_flatMap] at hopening
  have hstarts := prefix_of_octets hascii hopening
  rw [String.toList_append] at hstarts
  obtain hinside | hwithin := List.prefix_or_prefix_of_prefix hstarts
    (List.prefix_append (body ++ closing).toList rest.toList)
  · exact hinside
  · obtain ⟨ch, hmem, hnot⟩ := hlast
    exact absurd (hwithin.subset (by simp [hmem])) hnot

/-- What the loop goes past in an element: the content that is left and the end tag. -/
def Inside (mark : String) (shape : Nat → String → String → Element → Prop)
    (element : Element) (piece : String) (result : Element) : Prop :=
  ∃ source children text space, Content mark shape 0 source source children text ∧
    IsSpace space ∧ result = element.more children text ∧
    piece = source ++ ("</" ++ (element.name ++ (space ++ ">")))

/-- A reader of what is left in front of `rest`, whatever the element has so far. -/
def Finishes (mark : String) (shape : Nat → String → String → Element → Prop)
    (next : Element → ParserM Element) (rest : String) : Prop :=
  ∀ element : Element, IsName element.name → ∀ before,
    Safe (next element) before rest fun piece result _ => Inside mark shape element piece result

section Rounds

variable {mark : String} {shape : Nat → String → String → Element → Prop}
  {next : Element → ParserM Element} {element : Element}

theorem Finishes.round {rest : String} (h : Finishes mark shape next rest) (piece text : String)
    (children : List Element) (hname : IsName element.name)
    (hcons : ∀ {source more : String} {later : List Element},
      Content mark shape 0 source source later more →
        Content mark shape 0 (piece ++ source) (piece ++ source) (children ++ later)
          (text ++ more)) (before : String) :
    Safe (next (element.more children text)) before rest
      fun found result _ => Inside mark shape element (piece ++ found) result := by
  refine (h (element.more children text) hname before).mono ?_
  rintro found result _ - ⟨source, later, more, space, hcontent, hspace, rfl, rfl⟩
  refine ⟨_, _, _, space, hcons hcontent, hspace, Element.more_more _ _ _ _ _, ?_⟩
  rw [String.append_assoc]
  rfl

theorem safe_endTag (before after : String) :
    Safe (do
      let closing ← readName
      skipWs
      expect 62 "expected '>' closing an end tag"
      if closing ≠ element.name then
        fail "end tag does not match its start tag"
      else return element) before after
        fun piece result _ => Inside mark shape element ("</" ++ piece) result := by
  refine (safe_readName _ _).bind ?_
  rintro name _ _ _ ⟨hsame, _, _⟩
  subst hsame
  refine (safe_skipWs _ _).bind ?_
  rintro space _ _ _ ⟨hspace, _⟩
  refine (safe_expect (by rfl : octets ">" = [62]) (by decide) _ _ _).bind
    fun greater _ _ _ hgreater => ?_
  subst hgreater
  split
  · exact .fail _
  · rename_i hclosing
    rw [ne_eq, not_not] at hclosing
    subst hclosing
    refine .pure ⟨"", [], "", space, .nil, hspace, (Element.more_nil _).symm, ?_⟩
    simp

theorem safe_comment {after : String} (hname : IsName element.name)
    (hstarts : octets "<!--" <+: octets after)
    (hnext : ∀ piece rest, after = piece ++ rest → 0 < (octets piece).length →
      Finishes mark shape next rest) (before : String) :
    Safe (do
      skipPast (octets "-->")
      next element) before after
        fun piece result _ => Inside mark shape element piece result := by
  refine (safe_skipPast closing_comment _ _).bind ?_
  rintro piece _ rest hafter ⟨body, hpiece, hbody⟩
  subst hpiece
  rw [hafter] at hstarts
  have hclosed := closed_of_prefix hstarts (by decide) (by decide) hbody
  have hpos := hclosed.length_pos (by decide)
  have hmore := (hnext _ rest hafter hpos).round (body ++ "-->") "" [] hname (fun hcontent => by
    rw [String.empty_append, List.nil_append]
    exact .comment hclosed hcontent) (before ++ (body ++ "-->"))
  rwa [Element.more_nil] at hmore

theorem safe_section {after : String} (hname : IsName element.name)
    (hnext : ∀ piece rest, "<![CDATA[" ++ after = piece ++ rest → 0 < (octets piece).length →
      Finishes mark shape next rest) (before : String) :
    Safe (do
      advance cdataOpen.length
      let start := (← get).i
      skipPast cdataClose
      let parser ← get
      let text ← lift (cut parser.src start (parser.i - cdataClose.length))
      next { element with text := element.text ++ text }) before ("<![CDATA[" ++ after)
        fun piece result _ => Inside mark shape element piece result := by
  refine .bind_reads (reads_advance "<![CDATA[" rfl after) ?_
  refine .bind_get ?_
  have hend : octets sectionEnd = cdataClose := rfl
  refine (hend ▸ safe_skipPast closing_sectionEnd _ _).bind ?_
  rintro piece _ rest hrest ⟨value, hpiece, hvalue⟩
  subst hpiece
  refine .bind_get ?_
  have hcut := cut_section (before ++ "<![CDATA[") value rest
  refine .bind_stay (a := value) ?_ ?_
  · change lift (cut _ (octets (before ++ "<![CDATA[")).length _) _ = _
    rw [hcut]
    rfl
  have hpos : 0 < (octets ("<![CDATA[" ++ (value ++ sectionEnd))).length := by
    rw [octets_length_append]
    exact Nat.add_pos_left (by decide) _
  have hwhole : "<![CDATA[" ++ after = "<![CDATA[" ++ (value ++ sectionEnd) ++ rest := by
    rw [hrest, ← String.append_assoc]
  have hmore := (hnext _ rest hwhole hpos).round ("<![CDATA[" ++ (value ++ sectionEnd)) value []
    hname (fun hcontent => by
      rw [List.nil_append]
      exact .cdata hvalue hcontent) (before ++ "<![CDATA[" ++ (value ++ sectionEnd))
  simpa only [Element.more, List.append_nil, String.append_assoc] using hmore

theorem safe_inner {child : ParserM Element} {before after : String}
    (hname : IsName element.name) (hplain : Plain after)
    (hchild : Safe child before after fun piece found _ => shape 0 piece piece found ∧
      ∃ rest, piece = "<" ++ (found.name ++ rest))
    (hnext : ∀ piece rest, after = piece ++ rest → 0 < (octets piece).length →
      Finishes mark shape next rest) :
    Safe (do
      let found ← child
      next { element with children := element.children ++ [found] }) before after
        fun piece result _ => Inside mark shape element piece result := by
  refine hchild.bind ?_
  rintro piece found rest hafter ⟨hshape, behind, hpiece⟩
  rw [hafter, hpiece] at hplain
  have hpos : 0 < (octets piece).length := by
    rw [hpiece, octets_length_append]
    exact Nat.add_pos_left (by decide) _
  have hmore := (hnext _ rest hafter hpos).round piece "" [found] hname (fun hcontent => by
    rw [String.empty_append]
    have hboth := Content.child hshape (isInner_of_plain hplain) hcontent
    rwa [Nat.zero_add] at hboth) (before ++ piece)
  simpa only [Element.more, String.append_empty] using hmore

theorem safe_text {after : String} {octet : UInt8} (hname : IsName element.name)
    (hhead : (octets after).head? = some octet) (hless : octet ≠ 60)
    (hnext : ∀ piece rest, after = piece ++ rest → 0 < (octets piece).length →
      Finishes mark shape next rest) (before : String) :
    Safe (do
      let start := (← get).i
      advanceWhile (· ≠ 60)
      let raw ← cutFrom start
      let text ← lift (decodeEntities raw)
      next { element with text := element.text ++ text }) before after
        fun piece result _ => Inside mark shape element piece result := by
  have hwide (other : UInt8) (h : 128 ≤ other.toNat) :
      decide (other ≠ 60) = decide ((128 : UInt8) ≠ 60) := by
    have hne : other ≠ 60 := by
      rintro rfl
      exact absurd h (by decide)
    simp [hne]
  obtain ⟨raw, rest, hafter, hraw, hrest⟩ := exists_run hwide after
  have hpos : 0 < (octets raw).length := by
    refine List.length_pos_of_ne_nil fun hnil => ?_
    rw [hafter, octets_append, hnil, List.nil_append] at hhead
    have hmore := hrest octet hhead
    simp [hless] at hmore
  have hnot : '<' ∉ raw.toList := by
    intro hmem
    have hmore := hraw 60 (by
      rw [octets_eq_flatMap, List.mem_flatMap]
      exact ⟨'<', hmem, by decide⟩)
    simp at hmore
  subst hafter
  refine .bind_get (.bind_reads (reads_advanceWhile raw rest hraw hrest)
    (.bind_stay (cutFrom_between before raw rest) ?_))
  refine (Safe.lift (Q := fun piece value _ => piece = "" ∧ CharData raw value) ?_).bind ?_
  · obtain ⟨value, hvalue, hdata⟩ | herror := decodeEntities_safe raw
    · exact .inl ⟨value, hvalue, rfl, hdata⟩
    · exact .inr herror
  rintro piece value _ hsame ⟨hpiece, hdata⟩
  subst hpiece
  rw [String.empty_append] at hsame
  subst hsame
  have hmore := (hnext _ rest rfl hpos).round raw value [] hname (fun hcontent => by
    rw [List.nil_append]
    exact charData_content hdata hnot hcontent) (before ++ raw ++ "")
  simpa only [Element.more, List.append_nil, String.empty_append] using hmore

end Rounds

theorem safe_parseContent (mark : String) {shape : Nat → String → String → Element → Prop}
    {child : ParserM Element} {bound : Nat}
    (hchild : ∀ before after, (octets after).length ≤ bound →
      Safe child before after fun piece found _ => shape 0 piece piece found ∧
        ∃ rest, piece = "<" ++ (found.name ++ rest))
    {fuel : Nat} {after : String} (hfuel : (octets after).length < fuel)
    (hbound : (octets after).length ≤ bound) :
    Finishes mark shape (parseContent child fuel) after := by
  induction fuel generalizing after with
  | zero => omega
  | succ fuel ih =>
      intro element hname before
      -- every round goes past something
      have hnext (piece rest : String) (hafter : after = piece ++ rest)
          (hpiece : 0 < (octets piece).length) :
          Finishes mark shape (parseContent child fuel) rest := by
        rw [hafter, octets_length_append] at hfuel hbound
        exact ih (by omega) (by omega)
      rw [parseContent]
      refine .bind_stay (startsWith_between _ _ _) ?_
      split
      · rename_i hstarts
        rw [List.isPrefixOf_iff_prefix] at hstarts
        obtain ⟨more, rfl⟩ := exists_append_of_prefix (by decide) hstarts
        exact .bind_reads (reads_advance "</" rfl more) (safe_endTag _ _)
      rename_i hend
      refine .bind_stay (startsWith_between _ _ _) ?_
      split
      · rename_i hstarts
        rw [List.isPrefixOf_iff_prefix] at hstarts
        exact safe_comment hname hstarts hnext before
      rename_i hcomment
      refine .bind_stay (startsWith_between _ _ _) ?_
      split
      · rename_i hstarts
        rw [List.isPrefixOf_iff_prefix] at hstarts
        obtain ⟨more, rfl⟩ : ∃ more, after = "<![CDATA[" ++ more :=
          exists_append_of_prefix (by decide) hstarts
        exact safe_section hname hnext before
      rename_i hcdata
      refine .bind_stay (peek_between _ _) ?_
      split
      · have hplain : Plain after := ⟨Bool.not_eq_true _ ▸ hend, Bool.not_eq_true _ ▸ hcomment,
          Bool.not_eq_true _ ▸ hcdata⟩
        exact safe_inner hname hplain (hchild before after hbound) hnext
      · rename_i octet hless hhead
        exact safe_text hname hhead (fun heq => hless (by rw [heq])) hnext before
      · exact .fail _

/-! ## Elements -/

theorem safe_child {mark : String} {fuel levels bound : Nat} (hbound : bound < fuel)
    (h : ∀ {after : String}, (octets after).length < fuel → ∀ before,
      Safe (parseElement fuel levels) before after fun piece found _ =>
        Tagged mark levels 0 piece piece found)
    (before after : String) (hafter : (octets after).length ≤ bound) :
    Safe (parseElement fuel levels) before after fun piece found _ =>
      Tagged mark levels 0 piece piece found ∧ ∃ rest, piece = "<" ++ (found.name ++ rest) := by
  refine (h (Nat.lt_of_le_of_lt hafter hbound) before).mono
    fun piece found _ _ hshape => ⟨hshape, ?_⟩
  obtain ⟨rest, hrest, -⟩ := hshape.exists_tag
  exact ⟨rest, hrest⟩

theorem safe_parseElement (mark : String) {fuel : Nat} (levels : Nat) {after : String}
    (hfuel : (octets after).length < fuel) (before : String) :
    Safe (parseElement fuel levels) before after fun piece found _ =>
      Tagged mark levels 0 piece piece found := by
  induction levels generalizing before after with
  | zero => exact .fail _
  | succ levels ih =>
      rw [parseElement]
      refine (safe_expect (by rfl : octets "<" = [60]) (by decide) _ _ _).bind
        fun less _ afterLess hless hpiece => ?_
      subst hpiece
      refine (safe_readName _ _).bind ?_
      rintro name key afterName hname ⟨hsame, hisName, hends⟩
      subst hsame
      rw [hless, hname, octets_length_append, octets_length_append] at hfuel
      refine (safe_parseAttrs (by omega) [] _).bind ?_
      rintro tag ⟨attrs, empty⟩ afterTag htag ⟨more, hattrs, htagEnd⟩
      rw [List.nil_append] at hattrs
      dsimp only at hattrs htagEnd
      subst hattrs
      have hhead : ∀ octet ∈ (octets tag).head?, endsName octet := by
        rw [htag, octets_append, List.head?_append] at hends
        intro octet hmem
        exact hends octet (by rw [hmem]; rfl)
      rw [htag, octets_length_append] at hfuel
      dsimp only
      split
      · rename_i hempty
        subst hempty
        refine .pure ?_
        rw [String.append_empty]
        exact .empty hisName hhead htagEnd
      · rename_i hempty
        rw [Bool.not_eq_true] at hempty
        subst hempty
        have hless : (octets afterTag).length < fuel := by omega
        refine (safe_parseContent mark (safe_child hless ih) hless (Nat.le_refl _) _ hisName
          _).mono ?_
        rintro piece result _ - ⟨source, children, text, space, hcontent, hspace, rfl, rfl⟩
        have hshape := Shape.content hisName hhead htagEnd hcontent hspace
        change Shape mark (Tagged mark levels) 0 _ _ _
        simpa only [Element.more, List.nil_append, String.empty_append] using hshape

/-! ## Outside the root element -/

theorem isWs_char {ch : Char} (h : ∀ octet ∈ String.utf8EncodeChar ch, isWs octet) :
    ch ∈ [' ', '\t', '\r', '\n'] := by
  obtain ⟨octet, rest, hencode⟩ := List.exists_cons_of_ne_nil
    (String.utf8EncodeChar_ne_nil (c := ch))
  have hws := h octet (hencode ▸ List.mem_cons_self)
  have hmem : octet ∈ String.utf8EncodeChar ch := hencode ▸ List.mem_cons_self
  simp only [isWs, Bool.or_eq_true, beq_iff_eq] at hws
  obtain ((rfl | rfl) | rfl) | rfl := hws
  · have hch := mem_utf8EncodeChar (by decide : (' ').toNat < 128) hmem
    simp [hch]
  · have hch := mem_utf8EncodeChar (by decide : ('\t').toNat < 128) hmem
    simp [hch]
  · have hch := mem_utf8EncodeChar (by decide : ('\r').toNat < 128) hmem
    simp [hch]
  · have hch := mem_utf8EncodeChar (by decide : ('\n').toNat < 128) hmem
    simp [hch]

theorem outside_space {mark piece : String} {characters : List Char}
    (h : ∀ octet ∈ characters.flatMap String.utf8EncodeChar, isWs octet)
    (hpiece : Outside mark 0 piece piece) :
    Outside mark 0 (String.ofList characters ++ piece) (String.ofList characters ++ piece) := by
  induction characters with
  | nil => simpa using hpiece
  | cons ch rest ih =>
      have hcons : String.ofList (ch :: rest) = ch.toString ++ String.ofList rest := by
        rw [← String.toList_inj]
        simp [Char.toString]
      rw [List.flatMap_cons, List.forall_mem_append] at h
      rw [hcons, String.append_assoc]
      exact .aside (.space (isWs_char h.1)) (ih h.2)

theorem safe_skipProlog (mark : String) {fuel : Nat} {after : String}
    (hfuel : (octets after).length < fuel) (before : String) :
    Safe (skipProlog fuel) before after fun piece _ rest =>
      Outside mark 0 piece piece ∧ (octets "<?").isPrefixOf (octets rest) = false ∧
        (octets "<!").isPrefixOf (octets rest) = false := by
  induction fuel generalizing before after with
  | zero => omega
  | succ fuel ih =>
      rw [skipProlog]
      refine (safe_skipWs before after).bind ?_
      rintro space _ rest hafter ⟨hspace, _⟩
      have houtside {piece : String} (hpiece : Outside mark 0 piece piece) :
          Outside mark 0 (space ++ piece) (space ++ piece) := by
        have hspaces : ∀ octet ∈ space.toList.flatMap String.utf8EncodeChar, isWs octet := by
          rw [← octets_eq_flatMap]
          exact hspace
        have hboth := outside_space hspaces hpiece
        rwa [String.ofList_toList] at hboth
      rw [hafter, octets_length_append] at hfuel
      -- what comes after a piece of markup, as the induction gives it
      have hnext {piece behind middle : String} (hrest : rest = piece ++ behind)
          (haside : Aside piece) (hpiece : 0 < (octets piece).length) :
          Safe (skipProlog fuel) middle behind fun more _ behind =>
            Outside mark 0 (space ++ (piece ++ more)) (space ++ (piece ++ more)) ∧
              (octets "<?").isPrefixOf (octets behind) = false ∧
              (octets "<!").isPrefixOf (octets behind) = false := by
        rw [hrest, octets_length_append] at hfuel
        refine (ih (by omega) middle).mono ?_
        rintro more _ behind - ⟨hmore, hstops⟩
        exact ⟨houtside (.aside haside hmore), hstops⟩
      refine .bind_stay (startsWith_between _ _ _) ?_
      split
      · rename_i hstarts
        rw [List.isPrefixOf_iff_prefix] at hstarts
        refine (safe_skipPast closing_instruction _ _).bind ?_
        rintro piece _ behind hrest ⟨body, hpiece, hbody⟩
        subst hpiece
        rw [hrest] at hstarts
        have hclosed := closed_of_prefix hstarts (by decide) (by decide) hbody
        exact hnext hrest (.instruction hclosed) (hclosed.length_pos (by decide))
      rename_i hinstruction
      refine .bind_stay (startsWith_between _ _ _) ?_
      split
      · rename_i hstarts
        rw [List.isPrefixOf_iff_prefix] at hstarts
        refine (safe_skipPast closing_comment _ _).bind ?_
        rintro piece _ behind hrest ⟨body, hpiece, hbody⟩
        subst hpiece
        rw [hrest] at hstarts
        have hclosed := closed_of_prefix hstarts (by decide) (by decide) hbody
        exact hnext hrest (.comment hclosed) (hclosed.length_pos (by decide))
      rename_i hcomment
      refine .bind_stay (startsWith_between _ _ _) ?_
      split
      · rename_i hstarts
        rw [List.isPrefixOf_iff_prefix] at hstarts
        refine (safe_skipPast closing_declaration _ _).bind ?_
        rintro piece _ behind hrest ⟨body, hpiece, hbody⟩
        subst hpiece
        rw [hrest] at hstarts hcomment
        have hclosed := closed_of_prefix hstarts (by decide) (by decide) hbody
        refine hnext hrest (.declaration hclosed fun hstarts => hcomment ?_)
          (hclosed.length_pos (by decide))
        obtain ⟨tail, htail⟩ := exists_octets_of_prefix hstarts
        rw [List.isPrefixOf_iff_prefix, octets_append, htail, List.append_assoc]
        exact List.prefix_append _ _
      · rename_i hdeclaration
        have hnone := houtside (.nil : Outside mark 0 "" "")
        exact .pure ⟨hnone, Bool.not_eq_true _ ▸ hinstruction, Bool.not_eq_true _ ▸ hdeclaration⟩

/-! ## Documents -/

theorem isTag_of_stops {name rest after : String} (hname : IsName name)
    (hinstruction : (octets "<?").isPrefixOf (octets ("<" ++ (name ++ rest) ++ after)) = false)
    (hdeclaration : (octets "<!").isPrefixOf (octets ("<" ++ (name ++ rest) ++ after)) = false) :
    IsTag name := by
  refine ⟨hname, fun octet hmem => ?_⟩
  obtain ⟨tail, htail⟩ := List.head?_eq_some_iff.mp hmem
  have hsource : octets ("<" ++ (name ++ rest) ++ after) =
      60 :: octet :: (tail ++ (octets rest ++ octets after)) := by
    simp only [octets_append, htail, List.append_assoc]
    rfl
  have hpatterns : octets "<?" = [60, 63] ∧ octets "<!" = [60, 33] := ⟨rfl, rfl⟩
  rw [hsource, hpatterns.1] at hinstruction
  rw [hsource, hpatterns.2] at hdeclaration
  refine ⟨?_, ?_⟩
  · rintro rfl
    simp [List.isPrefixOf] at hdeclaration
  · rintro rfl
    simp [List.isPrefixOf] at hinstruction

/-- What is accepted is a document of the grammar, and what is not ends in an error. -/
theorem parse_safe (mark source : String) :
    (∃ root, parse (octets source) = .ok root ∧ Document mark 0 source source root) ∨
      ∃ error, parse (octets source) = .error (.error error) := by
  generalize hfuel : (octets source).length + 1 = fuel
  have hsafe : Safe (parseDocument fuel) "" source fun piece root _ =>
      piece = source ∧ Document mark 0 source source root := by
    rw [parseDocument]
    refine (safe_skipProlog mark (by omega) "").bind ?_
    rintro front _ afterFront hfront ⟨hprolog, hstops⟩
    rw [hfront, octets_length_append] at hfuel
    refine (safe_parseElement mark (maxDepth + 1) (by omega) _).bind
      fun piece root afterRoot hroot htagged => ?_
    rw [hroot, octets_length_append] at hfuel
    refine (safe_skipProlog mark (by omega) _).bind ?_
    rintro back _ rest hback ⟨hepilog, _⟩
    refine .bind_get ?_
    split
    · exact .fail _
    · rename_i hend
      have hrest : rest = "" := by
        simp only [Parser.between, List.length_append] at hend
        exact octets_injective (List.length_eq_zero_iff.mp (by omega))
      obtain ⟨tag, hpiece, hname, -⟩ := htagged.exists_tag
      rw [hroot, hpiece] at hstops
      have hdocument := Document.mk hprolog htagged
        (isTag_of_stops hname hstops.1 hstops.2) hepilog
      refine .pure ⟨?_, ?_⟩
      · rw [hfront, hroot, hback, hrest]
      · rw [hfront, hroot, hback, hrest, String.append_empty]
        exact hdocument
  rw [parse_octets, hfuel]
  obtain ⟨piece, root, rest, -, ⟨-, hdocument⟩, hread⟩ | ⟨error, parser, herror⟩ := hsafe
  · rw [hread]
    exact .inl ⟨root, rfl, hdocument⟩
  · rw [herror]
    exact .inr ⟨error, rfl⟩

theorem parse_iff (mark source : String) (root : Element) :
    parse (octets source) = .ok root ↔ Document mark 0 source source root := by
  constructor
  · intro hparse
    obtain ⟨found, hfound, hdocument⟩ | ⟨error, herror⟩ := parse_safe mark source
    · rw [hparse] at hfound
      cases hfound
      exact hdocument
    · rw [hparse] at herror
      cases herror
  · exact fun hdocument => hdocument.parses_source

/-! ## Levels -/

/-- Elements nested in at most so many levels. -/
def Element.Within : Nat → Element → Prop
  | 0, _ => False
  | levels + 1, element => ∀ child ∈ element.children, child.Within levels

theorem Content.forall_children {mark : String}
    {shape : Nat → String → String → Element → Prop} {p : Element → Prop}
    (hshape : ∀ {count : Nat} {source marked : String} {found : Element},
      shape count source marked found → p found)
    {count : Nat} {source marked text : String} {children : List Element}
    (h : Content mark shape count source marked children text) : ∀ child ∈ children, p child := by
  induction h with
  | nil => exact nofun
  | insert _ ih => exact ih
  | glyph _ _ _ ih => exact ih
  | comment _ _ ih => exact ih
  | cdata _ _ ih => exact ih
  | child hchild _ _ ih => exact List.forall_mem_cons.mpr ⟨hshape hchild, ih⟩

theorem Tagged.within {mark : String} {levels count : Nat} {source marked : String}
    {found : Element} (h : Tagged mark levels count source marked found) :
    found.Within levels := by
  induction levels generalizing count source marked found with
  | zero => exact h.elim
  | succ levels ih =>
      cases h with
      | empty => exact nofun
      | content _ _ _ hcontent _ => exact hcontent.forall_children fun hshape => ih hshape

theorem Document.within {mark : String} {count : Nat} {source marked : String} {root : Element}
    (h : Document mark count source marked root) : root.Within (maxDepth + 1) := by
  obtain ⟨-, htagged, -, -⟩ := h
  exact htagged.within

/-- Whatever the input is, it is parsed to an element of at most `maxDepth + 1` levels or to
an error: no index and no slice is a panic, and no loop is cut short. -/
theorem parse_total (input : Octets) :
    (∃ root, parse input = .ok root ∧ root.Within (maxDepth + 1)) ∨
      ∃ error, parse input = .error (.error error) := by
  cases htext : text input with
  | none =>
      right
      rw [parse, htext]
      exact ⟨_, rfl⟩
  | some source =>
      rw [← octets_of_text htext]
      obtain ⟨root, hroot, hdocument⟩ | herror := parse_safe "" source
      · exact .inl ⟨root, hroot, hdocument.within⟩
      · exact .inr herror

end Vortice.Proto.Xml
